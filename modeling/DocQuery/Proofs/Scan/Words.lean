import DocQuery.Proofs.Text.Blanks
import DocQuery.Scan.Parser

/-!
# Words and keywords

A keyword is matched letter by letter, with no look at where words begin and end; only
what follows it is restricted.  So whether a keyword matches depends on the run of name
characters at the front of the text, the *leading word*.

* `isNameChar_of_isBlank`, `isNameChar_toUpper` — characters of names are not blank, in
  any case
* `takeWhile_append_of_front`, `dropWhile_append_of_front` — where a run of characters ends
* `leadingWord` — the run of name characters at the front
* `Keyword.head` — the first word of a keyword
* `filter_matchChars_eq_none`, `keyword_match?_eq_none` — words that do not begin with the
  leading word do not match
* `keyword_match?_text`, `leadingWord_keyword` — a keyword matches its own text
-/

namespace DocQuery.Scan

open Text

/-! ### Characters of names -/

/-- The code points of blanks. -/
def blankCodes : List Nat :=
  [9, 10, 11, 12, 13, 32, 0x85, 0xA0, 0x1680, 0x2000, 0x2001, 0x2002, 0x2003, 0x2004,
    0x2005, 0x2006, 0x2007, 0x2008, 0x2009, 0x200A, 0x2028, 0x2029, 0x202F, 0x205F, 0x3000]

theorem toNat_mem_blankCodes {c : Char} (h : isBlank c = true) : c.toNat ∈ blankCodes := by
  simp only [isBlank] at h
  split at h
  · simp only [Bool.or_eq_true, beq_iff_eq, Bool.and_eq_true, decide_eq_true_eq] at h
    rcases h with rfl | ⟨hlow, hhigh⟩
    · decide
    · simp only [blankCodes, List.mem_cons]
      omega
  · simp only [wideBlankRanges, inRanges_cons, inRanges_nil, Bool.or_eq_true,
      Bool.and_eq_true, decide_eq_true_eq, Bool.or_false] at h
    simp only [blankCodes, List.mem_cons]
    omega

/-- No character of a name is blank. -/
theorem isNameChar_of_isBlank {c : Char} (h : isBlank c = true) : isNameChar c = false := by
  have hcodes : ∀ n ∈ blankCodes, isNameChar (Char.ofNat n) = false := by decide +kernel
  rw [← Char.ofNat_toNat c]
  exact hcodes _ (toNat_mem_blankCodes h)

theorem isBlank_of_isNameChar {c : Char} (h : isNameChar c = true) : isBlank c = false := by
  cases hblank : isBlank c with
  | false => rfl
  | true =>
    rw [isNameChar_of_isBlank hblank] at h
    cases h

theorem isNameChar_of_isDigit {c : Char} (h : c.isDigit = true) : isNameChar c = true := by
  have hdigit := h
  simp only [Char.isDigit, Bool.and_eq_true, decide_eq_true_eq] at hdigit
  have hascii : c.toNat < 0x80 := Nat.lt_of_le_of_lt hdigit.2 (by decide)
  simp [isNameChar, isAlphanumeric, Char.isAlphanum, hascii, h]

/-- A character of a name is none of some marks. -/
theorem notMem_of_isNameChar {c : Char} {marks : List Char} (h : isNameChar c = true)
    (hmarks : marks.any isNameChar = false) : c ∉ marks :=
  fun hmem => List.any_eq_false.mp hmarks c hmem h

/-- Upper case neither makes nor takes away characters of names. -/
theorem isNameChar_toUpper (c : Char) : isNameChar c.toUpper = isNameChar c :=
  toUpper_cases (P := fun c upper => isNameChar upper =
    isNameChar c) (fun _ => rfl) (by decide) c

/-! ### Leading words -/

/-- The run of name characters at the front of a text. -/
def leadingWord (cs : List Char) : List Char :=
  cs.takeWhile isNameChar

theorem isNameChar_of_mem_leadingWord {c : Char} {cs : List Char} (h : c ∈ leadingWord cs) :
    isNameChar c = true :=
  List.all_eq_true.mp List.all_takeWhile c h

section Append

variable {test : Char → Bool} {w rest : List Char}

/-- A run of characters ends where a character fails the test. -/
theorem takeWhile_append_of_front (hw : ∀ c ∈ w, test c = true)
    (hrest : test (front rest) = false) : (w ++ rest).takeWhile test = w := by
  rw [List.takeWhile_append_of_pos hw]
  cases rest with
  | nil => simp
  | cons c rest => simp [show test c = false from hrest]

theorem dropWhile_append_of_front (hw : ∀ c ∈ w, test c = true)
    (hrest : test (front rest) = false) : (w ++ rest).dropWhile test = rest := by
  rw [List.dropWhile_append_of_pos hw]
  cases rest with
  | nil => rfl
  | cons c rest => simp [show test c = false from hrest]

theorem leadingWord_append (hw : ∀ c ∈ w, isNameChar c = true)
    (hrest : isNameChar (front rest) = false) : leadingWord (w ++ rest) = w :=
  takeWhile_append_of_front hw hrest

end Append

theorem isNameChar_front_dropWhile (cs : List Char) :
    isNameChar (front (cs.dropWhile isNameChar)) = false := by
  induction cs with
  | nil => decide
  | cons c rest ih =>
    rw [List.dropWhile_cons]
    split
    · exact ih
    · rename_i hc
      simpa using hc

/-! ### Keywords -/

/-- The first word of a keyword. -/
def Keyword.head (k : Keyword) : List Char :=
  k.text.toList.takeWhile (· != ' ')

theorem keyword_chars (k : Keyword) : k.word.chars = k.text.toList := by
  cases k <;> rfl

theorem isNameChar_of_mem_head {k : Keyword} {c : Char} (h : c ∈ k.head) :
    isNameChar c = true := by
  have hall : k.head.all isNameChar = true := by cases k <;> decide
  exact List.all_eq_true.mp hall c h

theorem exists_keyword_text (k : Keyword) :
    ∃ c more, k.text.toList = c :: more ∧ isNameChar c = true := by
  cases k <;> exact ⟨_, _, rfl, by decide⟩

theorem dropBlanks_keyword (k : Keyword) (after : List Char) :
    dropBlanks (k.text.toList ++ after) = k.text.toList ++ after := by
  obtain ⟨c, more, hcons, hc⟩ := exists_keyword_text k
  rw [hcons]
  exact dropBlanks_cons (isBlank_of_isNameChar hc) _

theorem keyword_head_ne_nil (k : Keyword) : k.head ≠ [] := by
  obtain ⟨c, more, hcons, hc⟩ := exists_keyword_text k
  have hspace : c ≠ ' ' := by
    rintro rfl
    exact absurd hc (by decide)
  simp [Keyword.head, hcons, hspace]

theorem dropWhile_space_cases (w : List Char) :
    w.dropWhile (· != ' ') = [] ∨ ∃ more, w.dropWhile (· != ' ') = ' ' :: more := by
  induction w with
  | nil => exact .inl rfl
  | cons c more ih =>
    by_cases hc : c = ' '
    · subst hc
      exact .inr ⟨more, rfl⟩
    · rwa [List.dropWhile_cons_of_pos (by simpa using hc)]

/-- A text that begins with a keyword begins with its first word. -/
theorem leadingWord_keyword (k : Keyword) {after : List Char}
    (hafter : isNameChar (front after) = false) :
    (leadingWord (k.text.toList ++ after)).map Char.toUpper = k.head := by
  have htext : k.text.toList ++ after =
      k.head ++ (k.text.toList.dropWhile (· != ' ') ++ after) := by
    rw [← List.append_assoc, Keyword.head, List.takeWhile_append_dropWhile]
  have hword : leadingWord (k.head ++ (k.text.toList.dropWhile (· != ' ') ++ after)) =
      k.head := by
    refine leadingWord_append (fun _ => isNameChar_of_mem_head) ?_
    rcases dropWhile_space_cases k.text.toList with htail | ⟨others, htail⟩ <;> rw [htail]
    · exact hafter
    · exact (by decide : isNameChar ' ' = false)
  rw [htext, hword]
  cases k <;> decide

@[simp] theorem keyword_allows_nil (k : Keyword) : k.word.allows [] = true := rfl

@[simp] theorem keyword_allows_cons (k : Keyword) (c : Char) (cs : List Char) :
    k.word.allows (c :: cs) = isDelimiter c := by
  simp [Word.allows, Keyword.word, Word.keyword, Word.ofString, Word.hasRule]

theorem keyword_allows_space (k : Keyword) (cs : List Char) :
    k.word.allows (' ' :: cs) = true := by
  rw [keyword_allows_cons]
  decide

/-- A letter is matched by the same letter in either case. -/
theorem matchChars_letter {expected c : Char} {word cs found : List Char}
    (hexpected : isNameChar expected = true)
    (h : matchChars (expected :: word) (c :: cs) = some found) :
    expected = c.toUpper ∧ matchChars word cs = some found := by
  have hspace : (expected == ' ') = false := by
    rw [beq_eq_false_iff_ne]
    rintro rfl
    exact absurd hexpected (by decide)
  rw [matchChars, hspace, if_neg Bool.false_ne_true] at h
  split at h
  · rename_i hmatch
    simp only [Bool.and_eq_true, beq_iff_eq] at hmatch
    exact ⟨hmatch.2, h⟩
  · cases h

/-- **A match uses up the leading word**, or it stops inside it. -/
theorem matchChars_word {first more w after found : List Char}
    (hfirst : ∀ c ∈ first, isNameChar c = true)
    (hmore : more = [] ∨ ∃ others, more = ' ' :: others) (hw : ∀ c ∈ w, isNameChar c = true)
    (hafter : isNameChar (front after) = false)
    (h : matchChars (first ++ more) (w ++ after) = some found) :
    w.map Char.toUpper = first ∨ more = [] ∧ isNameChar (front found) = true := by
  induction first generalizing w with
  | nil =>
    cases w with
    | nil => exact .inl rfl
    | cons c w =>
      rcases hmore with rfl | ⟨others, rfl⟩
      · rw [List.nil_append, matchChars_nil, Option.some.injEq] at h
        exact .inr ⟨rfl, by rw [← h]; exact hw c List.mem_cons_self⟩
      · -- a space of the keyword does not stand for a character of a name
        rw [List.nil_append, List.cons_append, matchChars,
          isBlank_of_isNameChar (hw c List.mem_cons_self)] at h
        cases h
  | cons expected first ih =>
    have hexpected : isNameChar expected = true := hfirst expected List.mem_cons_self
    cases w with
    | nil =>
      -- what follows the word is no letter, in upper case or not
      cases after with
      | nil => cases h
      | cons c after =>
        obtain ⟨rfl, -⟩ := matchChars_letter hexpected h
        rw [isNameChar_toUpper] at hexpected
        rw [front_cons, hexpected] at hafter
        cases hafter
    | cons c w =>
      obtain ⟨rfl, hothers⟩ := matchChars_letter hexpected h
      refine (ih (fun d hd => hfirst d (List.mem_cons_of_mem _ hd))
        (fun d hd => hw d (List.mem_cons_of_mem c hd)) hothers).imp_left fun hsame => ?_
      rw [List.map_cons, hsame]

/-- **Words that do not begin with the leading word do not match.** -/
theorem filter_matchChars_eq_none (k : Keyword) {w cs : List Char}
    (hw : ∀ c ∈ w.takeWhile (· != ' '), isNameChar c = true)
    (h : (leadingWord cs).map Char.toUpper ≠ w.takeWhile (· != ' ')) :
    (matchChars w cs).filter k.word.allows = none := by
  rw [Option.filter_eq_none_iff]
  intro found hfound
  rw [← List.takeWhile_append_dropWhile (p := isNameChar) (l := cs),
    ← List.takeWhile_append_dropWhile (p := (· != ' ')) (l := w)] at hfound
  rcases matchChars_word hw (dropWhile_space_cases w) (fun _ => isNameChar_of_mem_leadingWord)
    (isNameChar_front_dropWhile cs) hfound with hsame | hend
  · exact absurd hsame h
  · cases found with
    | nil => exact absurd hend.2 (by decide)
    | cons c found => simp [isDelimiter, show isNameChar c = true from hend.2]

/-- A keyword that does not begin with the leading word does not match. -/
theorem keyword_match?_eq_none {k : Keyword} {cs : List Char}
    (h : (leadingWord cs).map Char.toUpper ≠ k.head) : k.word.match? cs = none := by
  rw [Word.match?, keyword_chars]
  exact filter_matchChars_eq_none k (fun _ => isNameChar_of_mem_head) h

theorem keyword_match?_nil (k : Keyword) : k.word.match? [] = none :=
  keyword_match?_eq_none (Ne.symm (keyword_head_ne_nil k))

/-- A keyword matches its own text. -/
theorem keyword_match?_text (k : Keyword) {after : List Char}
    (h : k.word.allows after = true) :
    k.word.match? (k.text.toList ++ after) = some after := by
  have hmatch : matchChars k.word.chars (k.text.toList ++ after) = some after := by
    cases k <;> rfl
  rw [Word.match?, hmatch, Option.filter_some, if_pos h]

end DocQuery.Scan
