import DocQuery.Proofs.Scan.Respacing
import Mathlib.Data.List.Basic

/-!
# What a keyword matches

A keyword is matched by one pass over its characters and the characters of the text.  What
it matches can be said without the pass: its words in any case, blanks between them, and
an end of a name behind them.

* `IsPlainWord` — the words that keywords are made of
* `matchChars_word_iff`, `matchChars_space_iff` — what one word and one space stand for
* `Spells` — words written one after the other
* `matchChars_words_iff` — what the words of a keyword stand for
* `SpelledAt`, `keywords_span_their_spelling` — the characters that a keyword spans

### What is load-bearing

A space of a keyword takes all blanks that it can get, so a word that began with a blank
would not be found behind it.  Words have no blanks, and what a space takes is thereby the
only choice (`Spells.dropBlanks_append`).
-/

namespace DocQuery.Scan

open Text

/-! ### Characters of words -/

/-- A character that words can be made of: neither blank nor null, which stands for the
end of a text. -/
structure IsSolid (c : Char) : Prop where
  notBlank : isBlank c = false
  notNull : c ≠ '\x00'

theorem IsSolid.of_toLower_eq {c d : Char} (h : IsSolid c) (heq : d.toLower = c.toLower) :
    IsSolid d where
  notBlank := by rw [← isBlank_toLower, heq, isBlank_toLower, h.notBlank]
  notNull := by
    rintro rfl
    have hnull : ∀ c : Char, c.toLower = '\x00' → c = '\x00' :=
      toLower_cases (P := fun c lower => lower = '\x00' →
        c = '\x00') (fun _ h => h) (by decide)
    exact h.notNull (hnull c heq.symm)

/-- A text of ASCII characters is put into upper case character by character. -/
theorem toList_upper {s : String} (h : ∀ c ∈ s.toList, c.toNat < 0x80) :
    (upper s).toList = s.toList.map Char.toUpper := by
  rw [upper, String.toList_ofList, List.map_eq_flatMap]
  exact List.flatMap_congr fun c hc => if_pos (h c hc)

/-! ### Words and spaces -/

/-- **A word of a keyword**: ASCII characters, none of them blank or null. -/
structure IsPlainWord (w : String) : Prop where
  nonempty : w.toList ≠ []
  ascii : ∀ c ∈ w.toList, c.toNat < 0x80
  solid : ∀ c ∈ w.toList, IsSolid c

theorem isPlainWord_of_all {w : String} (hne : w.toList ≠ [])
    (h : (w.toList.all fun c => c.toNat < 0x80 && !isBlank c && c != '\x00') = true) :
    IsPlainWord w := by
  simp only [List.all_eq_true, Bool.and_eq_true, decide_eq_true_eq, Bool.not_eq_true',
    bne_iff_ne] at h
  exact ⟨hne, fun c hc => (h c hc).1.1, fun c hc => ⟨(h c hc).1.2, (h c hc).2⟩⟩

section Matching

variable {word more text rest : List Char}

/-- A letter stands for itself in either case. -/
theorem matchChars_letter_iff {w c : Char} (hw : IsSolid w) :
    matchChars (w.toUpper :: more) (c :: text) = some rest ↔
      c.toLower = w.toLower ∧ matchChars more text = some rest := by
  have hspace : (w.toUpper == ' ') = false := by
    rw [beq_eq_false_iff_ne]
    intro heq
    have hlower : w.toLower = ' '.toLower := (toUpper_eq_iff w ' ').mp heq
    exact absurd (hw.of_toLower_eq hlower.symm).notBlank (by decide)
  have hmatch : (c != '\x00' && w.toUpper == c.toUpper) = true ↔ c.toLower = w.toLower := by
    rw [Bool.and_eq_true, bne_iff_ne, beq_iff_eq, toUpper_eq_iff]
    exact ⟨fun h => h.2.symm, fun h => ⟨(hw.of_toLower_eq h).notNull, h.symm⟩⟩
  rw [matchChars, hspace, if_neg Bool.false_ne_true]
  split
  · rename_i h
    simp [hmatch.mp h]
  · rename_i h
    simp [mt hmatch.mpr h]

/-- **A word stands for itself in any case.** -/
theorem matchChars_word_iff (hword : ∀ c ∈ word, IsSolid c) :
    matchChars (word.map Char.toUpper ++ more) text = some rest ↔
      ∃ written after, text = written ++ after ∧
        word.map Char.toLower = written.map Char.toLower ∧
        matchChars more after = some rest := by
  induction word generalizing text with
  | nil =>
    constructor
    · exact fun h => ⟨[], text, rfl, rfl, h⟩
    · rintro ⟨written, after, rfl, hsame, h⟩
      obtain rfl : written = [] := List.map_eq_nil_iff.mp hsame.symm
      exact h
  | cons w word ih =>
    have hrest := fun text => @ih text fun c hc => hword c (List.mem_cons_of_mem w hc)
    cases text with
    | nil =>
      constructor
      · exact nofun
      · rintro ⟨written, after, htext, hsame, -⟩
        rw [(List.append_eq_nil_iff.mp htext.symm).1] at hsame
        cases hsame
    | cons c text =>
      rw [List.map_cons, List.cons_append,
        matchChars_letter_iff (hword w List.mem_cons_self), hrest]
      constructor
      · rintro ⟨hletter, written, after, rfl, hsame, h⟩
        exact ⟨c :: written, after, rfl,
          by rw [List.map_cons, List.map_cons, hletter, hsame], h⟩
      · rintro ⟨written, after, htext, hsame, h⟩
        cases written with
        | nil => cases hsame
        | cons d written =>
          rw [List.cons_append, List.cons.injEq] at htext
          rw [List.map_cons, List.map_cons, List.cons.injEq] at hsame
          obtain ⟨rfl, rfl⟩ := htext
          exact ⟨hsame.1.symm, written, after, rfl, hsame.2, h⟩

/-- **A space stands for all blanks up to the next character.** -/
theorem matchChars_space_iff :
    matchChars (' ' :: more) text = some rest ↔
      ∃ gap after, text = gap ++ after ∧ IsBlankRun gap ∧ dropBlanks after = after ∧
        matchChars more after = some rest := by
  constructor
  · intro h
    cases text with
    | nil => cases h
    | cons c text =>
      rw [matchChars, if_pos (beq_self_eq_true ' ')] at h
      split at h
      · rename_i hc
        refine ⟨c :: text.takeWhile isBlank, dropBlanks text, ?_, ⟨by simp, ?_⟩,
          dropBlanks_dropBlanks text, h⟩
        · rw [List.cons_append, dropBlanks, List.takeWhile_append_dropWhile]
        · rw [List.forall_mem_cons]
          exact ⟨hc, List.all_eq_true.mp List.all_takeWhile⟩
      · cases h
  · rintro ⟨gap, after, rfl, hgap, hafter, h⟩
    obtain ⟨c, gap, rfl⟩ := List.exists_cons_of_ne_nil hgap.nonempty
    obtain ⟨hc, hblank⟩ := List.forall_mem_cons.mp hgap.blank
    rw [List.cons_append, matchChars, if_pos (beq_self_eq_true ' '), if_pos hc,
      dropBlanks_append_of_all hblank, hafter]
    exact h

end Matching

/-! ### Keywords of several words -/

/-- **Words written one after the other**, each in any ASCII case, with blanks between
them. -/
inductive Spells : List String → List Char → Prop
  | nil : Spells [] []
  | last {w : String} {written : List Char} (h : sameWord w (String.ofList written) = true) :
      Spells [w] written
  | next {w after : String} {words : List String} {written gap rest : List Char}
      (h : sameWord w (String.ofList written) = true) (hgap : IsBlankRun gap)
      (hrest : Spells (after :: words) rest) : Spells (w :: after :: words) (written ++
        (gap ++ rest))

theorem sameWord_ofList_iff {w : String} {written : List Char} :
    sameWord w (String.ofList written) = true ↔
      w.toList.map Char.toLower = written.map Char.toLower := by
  rw [sameWord, beq_iff_eq, String.toList_ofList]

section Keywords

variable {words : List String}

/-- What spells words begins with the first character of a word, which is not blank. -/
theorem Spells.dropBlanks_append {w : String} {written : List Char}
    (h : Spells (w :: words) written) (hw : IsPlainWord w) (rest : List Char) :
    dropBlanks (written ++ rest) = written ++ rest := by
  have hfirst : ∀ t : List Char, sameWord w (String.ofList t) = true → ∀ rest,
      dropBlanks (t ++ rest) = t ++ rest := by
    intro t ht rest
    rw [sameWord_ofList_iff] at ht
    obtain ⟨c, letters, hletters⟩ := List.exists_cons_of_ne_nil hw.nonempty
    rw [hletters] at ht
    cases t with
    | nil => cases ht
    | cons d t =>
      rw [List.map_cons, List.map_cons, List.cons.injEq] at ht
      have hc : IsSolid c := hw.solid c (hletters ▸ List.mem_cons_self)
      exact dropBlanks_cons (hc.of_toLower_eq ht.1.symm).notBlank _
  cases h with
  | last hsame => exact hfirst _ hsame rest
  | next hsame _ _ =>
    rw [List.append_assoc]
    exact hfirst _ hsame _

/-- **What the words of a keyword stand for.** -/
theorem matchChars_words_iff (hwords : ∀ w ∈ words, IsPlainWord w) {text rest : List Char} :
    matchChars ((String.intercalate " " words).toList.map Char.toUpper) text = some rest ↔
      ∃ written, text = written ++ rest ∧ Spells words written := by
  induction words generalizing text with
  | nil =>
    constructor
    · intro h
      exact ⟨[], Option.some.inj h, .nil⟩
    · rintro ⟨written, rfl, h⟩
      cases h
      rfl
  | cons w words ih =>
    have hw := hwords w List.mem_cons_self
    cases words with
    | nil =>
      have hword := @matchChars_word_iff _ [] text rest hw.solid
      rw [List.append_nil] at hword
      rw [String.intercalate_singleton, hword]
      constructor
      · rintro ⟨written, after, rfl, hsame, h⟩
        obtain rfl : after = rest := Option.some.inj h
        exact ⟨written, rfl, .last (sameWord_ofList_iff.mpr hsame)⟩
      · rintro ⟨written, rfl, h⟩
        cases h with
        | last hsame => exact ⟨written, rest, rfl, sameWord_ofList_iff.mp hsame, rfl⟩
    | cons after words =>
      have hafter := hwords after (by simp)
      have hrest := fun text => @ih (fun w hw => hwords w (List.mem_cons_of_mem _ hw)) text
      have hsplit : (String.intercalate " " (w :: after :: words)).toList.map Char.toUpper =
          w.toList.map Char.toUpper ++
            ' ' :: (String.intercalate " " (after :: words)).toList.map Char.toUpper := by
        rw [String.intercalate_cons_cons]
        simp
      rw [hsplit, matchChars_word_iff hw.solid]
      constructor
      · rintro ⟨written, behind, rfl, hsame, h⟩
        obtain ⟨gap, behind, rfl, hgap, -, h⟩ := matchChars_space_iff.mp h
        obtain ⟨others, rfl, hothers⟩ := (hrest _).mp h
        exact ⟨written ++ (gap ++ others), by simp,
          .next (sameWord_ofList_iff.mpr hsame) hgap hothers⟩
      · rintro ⟨all, rfl, h⟩
        cases h with
        | @next _ _ _ written gap others hsame hgap hothers =>
          refine ⟨written, gap ++ (others ++ rest), by simp, sameWord_ofList_iff.mp hsame, ?_⟩
          refine matchChars_space_iff.mpr ⟨gap, others ++ rest, rfl, hgap, ?_, ?_⟩
          · exact hothers.dropBlanks_append hafter rest
          · exact (hrest _).mpr ⟨others, rfl, hothers⟩

theorem toNat_lt_of_mem_intercalate (hwords : ∀ w ∈ words, IsPlainWord w) {c : Char}
    (h : c ∈ (String.intercalate " " words).toList) : c.toNat < 0x80 := by
  induction words with
  | nil => cases h
  | cons w words ih =>
    have hw := hwords w List.mem_cons_self
    cases words with
    | nil => exact hw.ascii c (by simpa using h)
    | cons after words =>
      rw [String.intercalate_cons_cons, String.toList_append, String.toList_append,
        List.mem_append, List.mem_append] at h
      rcases h with (h | h) | h
      · exact hw.ascii c h
      · obtain rfl : c = ' ' := by simpa using h
        decide
      · exact ih (fun w hw => hwords w (List.mem_cons_of_mem _ hw)) h

/-! ### What a keyword spans -/

/-- **The first `n` characters of a text spell words**, and behind them no name goes on:
there is the end of the text, or a character that is neither a character of a name nor
null. -/
structure SpelledAt (words : List String) (text : List Char) (n : Nat) : Prop where
  within : n ≤ text.length
  spelled : Spells words (text.take n)
  ended : ∀ c ∈ (text.drop n).head?, isNameChar c = false ∧ c ≠ '\x00'

theorem Word.chars_keyword (s : String) : (Word.keyword s).chars = (upper s).toList := by
  rw [Word.keyword, Word.ofString]

theorem Word.keyword_allows_iff (s : String) (rest : List Char) :
    (Word.keyword s).allows rest = true ↔
      ∀ c ∈ rest.head?, isNameChar c = false ∧ c ≠ '\x00' := by
  cases rest with
  | nil => simp [Word.allows, Word.keyword]
  | cons c rest =>
    simp [Word.allows, Word.keyword, Word.ofString, Word.hasRule, isDelimiter, and_comm]

/-- A keyword spans as much as its characters use up. -/
theorem Word.span?_eq_some_iff (w : Word) (text : List Char) (n : Nat) :
    w.span? text = some n ↔
      ∃ rest, matchChars w.chars text = some rest ∧ w.allows rest = true ∧
        text.length - rest.length = n := by
  simp only [Word.span?, Word.match?, Option.map_eq_some_iff, Option.filter_eq_some_iff,
    and_assoc]

theorem keyword_span?_eq_some_iff (hwords : ∀ w ∈ words, IsPlainWord w) (text : List Char)
    (n : Nat) :
    (Word.keyword (String.intercalate " " words)).span? text = some n ↔
      SpelledAt words text n := by
  have hchars : (Word.keyword (String.intercalate " " words)).chars =
      (String.intercalate " " words).toList.map Char.toUpper := by
    rw [Word.chars_keyword, toList_upper fun _ => toNat_lt_of_mem_intercalate hwords]
  rw [Word.span?_eq_some_iff, hchars]
  constructor
  · rintro ⟨rest, hmatch, hallows, rfl⟩
    obtain ⟨written, rfl, hspells⟩ := (matchChars_words_iff hwords).mp hmatch
    have hlength : (written ++ rest).length - rest.length = written.length := by simp
    rw [Word.keyword_allows_iff] at hallows
    rw [hlength]
    exact ⟨by simp, by rwa [List.take_left], by rwa [List.drop_left]⟩
  · intro h
    have hmatch := (matchChars_words_iff hwords).mpr
      ⟨text.take n, (List.take_append_drop n text).symm, h.spelled⟩
    have hallows :=
      (Word.keyword_allows_iff (String.intercalate " " words) (text.drop n)).mpr h.ended
    have hlength : text.length - (text.drop n).length = n := by
      have hwithin := h.within
      rw [List.length_drop]
      omega
    exact ⟨text.drop n, hmatch, hallows, hlength⟩

end Keywords

/-- **Keywords span their spelling.**  From every position of every text, a keyword of
ASCII words spans `n` characters exactly if these are its words in any case, with blanks
between them, and no name goes on behind them.  There is at most one such `n`, and it does
not reach beyond the end of the text. -/
theorem keywords_span_their_spelling {words : List String}
    (hwords : ∀ w ∈ words, IsPlainWord w) (text : List Char) (position : Nat) :
    (∀ n, (Word.keyword (String.intercalate " " words)).span? (text.drop position) = some n ↔
      SpelledAt words (text.drop position) n) ∧
      (∀ m n, SpelledAt words (text.drop position) m →
        SpelledAt words (text.drop position) n → m = n) ∧
      ∀ n, (Word.keyword (String.intercalate " " words)).span? (text.drop position) = some n →
        n ≤ text.length - position := by
  have hspan := keyword_span?_eq_some_iff hwords (text.drop position)
  refine ⟨hspan, fun m n hm hn => ?_, fun n h => ?_⟩
  · exact Option.some.inj (((hspan m).mpr hm).symm.trans ((hspan n).mpr hn))
  · have hwithin := ((hspan n).mp h).within
    rwa [List.length_drop] at hwithin

/-- A keyword of two words, with a line break between them, behind the first two
characters of a text. -/
theorem keywords_span_their_spelling_groupBy :
    (∀ w ∈ ["GROUP", "BY"], IsPlainWord w) ∧
      SpelledAt ["GROUP", "BY"] ("t group \n  By(x".toList.drop 2) 11 ∧
      (Word.keyword (String.intercalate " " ["GROUP", "BY"])).span?
        ("t group \n  By(x".toList.drop 2) =
        some 11 ∧
      11 ≤ "t group \n  By(x".toList.length - 2 := by
  have hgroup : IsPlainWord "GROUP" := isPlainWord_of_all (by decide) (by decide)
  have hby : IsPlainWord "BY" := isPlainWord_of_all (by decide) (by decide)
  have hwords : ∀ w ∈ ["GROUP", "BY"], IsPlainWord w :=
    List.forall_mem_cons.mpr ⟨hgroup, List.forall_mem_singleton.mpr hby⟩
  have hgap : IsBlankRun " \n  ".toList := ⟨by decide, List.all_eq_true.mp (by decide)⟩
  have hended : ∀ c ∈ "(x".toList.head?, isNameChar c = false ∧ c ≠ '\x00' := by
    rintro c ⟨⟩
    decide
  have hspells : Spells ["GROUP", "BY"] ("group".toList ++ (" \n  ".toList ++ "By".toList)) :=
    .next (by decide) hgap (.last (by decide))
  have hspelled : SpelledAt ["GROUP", "BY"] ("t group \n  By(x".toList.drop 2) 11 :=
    ⟨by decide, hspells, hended⟩
  obtain ⟨hspan, -, hwithin⟩ :=
    keywords_span_their_spelling hwords "t group \n  By(x".toList 2
  exact ⟨hwords, hspelled, (hspan 11).mpr hspelled, hwithin 11 ((hspan 11).mpr hspelled)⟩

end DocQuery.Scan
