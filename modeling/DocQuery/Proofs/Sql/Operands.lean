import DocQuery.Proofs.Scan.Tokens
import DocQuery.Sql.Grammar.Expr

/-!
# Reading operands back

An operand is written without parentheses of its own: a column, a constant, a call or a
sign before an operand.  Its text is read back as the operand, as long as what follows can
neither prolong its last word nor be taken for a part of it.

* `Expr.IsOperand` — the operands
* `OperandEnd` — what may follow an operand
* `Starts` — how a text begins: not with a blank, and not with one of some keywords
* `numeral` — the constant that digits stand for
* `reads_primary_bare`, `reads_primary_call`, … — one lemma for each kind of operand
* `reads_sum`, `reads_sum_parenthesis` — operands and expressions in parentheses are read
  as sums

### What is load-bearing

**Words.**  A leading word that is reserved would be read as a keyword, and the words for
constants would be read as constants.  Parts of a path behind a dot may be any names.

**Arguments.**  Arguments are read by the parsers for what stands inside parentheses.  All
that is needed of these is that they read the operands that are shorter than the call.
-/

namespace DocQuery.Sql

open Scan Text

/-- The written form of an expression as a list of characters. -/
def Expr.text (e : Expr) : List Char :=
  e.display.toList

/-! ### Operands -/

/-- A name that is not taken for anything else at the front of an expression. -/
structure IsLeadingWord (word : String) : Prop extends IsIdentifier word where
  unreserved : isReserved word = false
  noConstant : ∀ known ∈ ["TRUE", "FALSE", "NULL", "DISTINCT"], sameWord word known = false

instance (word : String) : Decidable (IsLeadingWord word) :=
  decidable_of_iff (IsIdentifier word ∧ isReserved word = false ∧
      ∀ known ∈ ["TRUE", "FALSE", "NULL", "DISTINCT"], sameWord word known = false)
    ⟨fun ⟨hname, hreserved, hconstant⟩ => ⟨hname, hreserved, hconstant⟩,
      fun h => ⟨h.toIsIdentifier, h.unreserved, h.noConstant⟩⟩

/-- The operands of conditions: columns, constants, signs and calls. -/
inductive Expr.IsOperand : Expr → Prop where
  | bare {word : String} (hword : IsLeadingWord word) : IsOperand (.column (.bare word))
  | qualified {table : String} {parts : List String} (htable : IsLeadingWord table)
      (hparts : parts ≠ []) (hpart : ∀ part ∈ parts, IsIdentifier part) :
      IsOperand (.column (.qualified table (String.intercalate "." parts)))
  | string {raw : String}
    (hraw : EvenRuns '\'' raw.toList) : IsOperand (.literal (.string raw))
  | int {n : Int} (hsign : 0 ≤ n) (hfits : Decimal.fitsInt64 n = true) :
      IsOperand (.literal (.int n))
  | bool (b : Bool) : IsOperand (.literal (.bool b))
  | null : IsOperand (.literal .null)
  | star : IsOperand .wildcard
  | signed (negative : Bool) {e : Expr} (he : IsOperand e) : IsOperand (.signed negative e)
  | call {name : String} {distinct : Bool} {args : List Expr} (hname : IsLeadingWord name)
      (hargs : ∀ a ∈ args, IsOperand a) (hdistinct : distinct = true → args ≠ []) :
      IsOperand (.call name distinct args)

/-! ### How texts begin -/

/-- How a text begins: with a character that is neither blank nor a closing parenthesis,
and with none of the keywords `avoid`. -/
structure Starts (avoid : List Keyword) (text : List Char) : Prop where
  opens : ∃ c more, text = c :: more ∧ isBlank c = false ∧ c ≠ ')'
  words : ∀ rest, isNameChar (front rest) = false →
    ∀ k ∈ avoid, (leadingWord (text ++ rest)).map Char.toUpper ≠ k.head

namespace Starts

variable {avoid : List Keyword} {text rest : List Char}

theorem dropBlanks_append (h : Starts avoid text) (rest : List Char) :
    dropBlanks (text ++ rest) = text ++ rest := by
  obtain ⟨c, more, rfl, hc, -⟩ := h.opens
  exact dropBlanks_cons hc (more ++ rest)

theorem dropBlanks_space_append (h : Starts avoid text) (rest : List Char) :
    dropBlanks (' ' :: (text ++ rest)) = text ++ rest := by
  rw [dropBlanks_space, h.dropBlanks_append]

theorem front_ne (h : Starts avoid text) (rest : List Char) : front (text ++ rest) ≠ ')' := by
  obtain ⟨c, more, rfl, -, hc⟩ := h.opens
  exact hc

theorem match?_eq_none (h : Starts avoid text) (rest : List Char)
    (hrest : isNameChar (front rest) = false) {k : Keyword} (hk : k ∈ avoid) :
    k.word.match? (text ++ rest) = none :=
  keyword_match?_eq_none (h.words rest hrest k hk)

/-- A longer text begins in the same way, if its first word is not prolonged. -/
theorem append (h : Starts avoid text) {c : Char} (hc : isNameChar c = false)
    (more : List Char) : Starts avoid (text ++ c :: more) := by
  refine ⟨?_, fun rest _ k hk => ?_⟩
  · obtain ⟨first, others, rfl, hfirst⟩ := h.opens
    exact ⟨first, others ++ c :: more, rfl, hfirst⟩
  · rw [List.append_assoc]
    exact h.words (c :: more ++ rest) hc k hk

theorem mono (h : Starts avoid text) {others : List Keyword} (hsub : others ⊆ avoid) :
    Starts others text :=
  ⟨h.opens, fun rest hrest k hk => h.words rest hrest k (hsub hk)⟩

end Starts

/-- A text that begins with a mark begins with no keyword. -/
theorem starts_mark (avoid : List Keyword) {c : Char} (hname : isNameChar c = false)
    (hblank : isBlank c = false) (hclose : c ≠ ')') (more : List Char) :
    Starts avoid (c :: more) := by
  refine ⟨⟨c, more, rfl, hblank, hclose⟩, fun rest _ k _ => ?_⟩
  have hempty : leadingWord (c :: more ++ rest) = [] := by simp [leadingWord, hname]
  rw [hempty]
  exact (keyword_head_ne_nil k).symm

/-- A word begins with no other keyword. -/
theorem starts_word {avoid : List Keyword} {w : List Char} (hw : w ≠ [])
    (hchars : ∀ c ∈ w, isNameChar c = true) (hne : ∀ k ∈ avoid, w.map Char.toUpper ≠ k.head) :
    Starts avoid w := by
  obtain ⟨c, more, rfl⟩ := List.exists_cons_of_ne_nil hw
  have hc : isNameChar c = true := hchars c List.mem_cons_self
  refine ⟨⟨c, more, rfl, isBlank_of_isNameChar hc, ?_⟩, fun rest hrest k hk => ?_⟩
  · rintro rfl
    exact absurd hc (by decide)
  · rw [leadingWord_append hchars hrest]
    exact hne k hk

/-- Texts between commas begin as the first of them does. -/
theorem starts_commaText {avoid : List Keyword} {texts : List (List Char)} (hne : texts ≠ [])
    (h : ∀ text ∈ texts, Starts avoid text) : Starts avoid (commaText texts) := by
  obtain ⟨first, others, rfl⟩ := List.exists_cons_of_ne_nil hne
  have hfirst := h first List.mem_cons_self
  cases others with
  | nil => rwa [commaText_singleton]
  | cons next others =>
    rw [commaText_cons_cons]
    exact hfirst.append (by decide) _

/-- The keywords that would change how an operand is read. -/
def openingKeywords : List Keyword := [.not, .select, .distinct]

theorem IsLeadingWord.starts {word : String} (h : IsLeadingWord word) :
    Starts openingKeywords word.toList := by
  refine starts_word h.nonempty h.chars fun k hk hsame => ?_
  have hword : ∀ known : String, known.toList.map Char.toUpper = k.head →
      sameWord known word = true :=
    fun known hknown => sameWord_of_toUpper (hknown.trans hsame.symm)
  have hreserved : ∀ known ∈ reservedWords, known.toList.map Char.toUpper ≠ k.head := by
    intro known hmem hknown
    have hany : isReserved word = true :=
      List.any_eq_true.mpr ⟨known, hmem, hword known hknown⟩
    rw [h.unreserved] at hany
    cases hany
  have hconstant := h.noConstant "DISTINCT" (by decide)
  simp only [openingKeywords, List.mem_cons, List.not_mem_nil, or_false] at hk
  rcases hk with rfl | rfl | rfl
  · exact hreserved "NOT" (by decide) (by decide)
  · exact hreserved "SELECT" (by decide) (by decide)
  · have hsameWord := hword "DISTINCT" (by decide)
    rw [sameWord, Bool.beq_comm, ← sameWord, hconstant] at hsameWord
    cases hsameWord

/-! ### Texts of operands -/

/-- The word before the arguments of a call on distinct values. -/
def distinctText (distinct : Bool) : List Char :=
  if distinct then Keyword.distinct.text.toList ++ [' '] else []

theorem text_bare (word : String) : (Expr.column (.bare word)).text = word.toList := by
  simp [Expr.text, Expr.display, Column.display, Column.bare, Column.fullName]

theorem text_qualified (table : String) {parts : List String} (h : parts ≠ []) :
    (Expr.column (.qualified table (String.intercalate "." parts))).text =
      table.toList ++ parts.flatMap fun part => '.' :: part.toList := by
  have hparts : '.' :: (String.intercalate "." parts).toList =
      parts.flatMap fun part => '.' :: part.toList := by
    induction parts with
    | nil => exact absurd rfl h
    | cons part others ih =>
      cases others with
      | nil => simp
      | cons next others =>
        rw [String.intercalate_cons_cons, List.flatMap_cons, ← ih (by simp)]
        simp
  rw [← hparts]
  simp [Expr.text, Expr.display, Column.display, Column.qualified, Column.fullName]

theorem text_string (raw : String) :
    (Expr.literal (.string raw)).text = '\'' :: (raw.toList ++ ['\'']) := by
  simp [Expr.text, Expr.display, Literal.display]

theorem text_int {n : Int} (h : 0 ≤ n) :
    (Expr.literal (.int n)).text = Nat.toDigits 10 n.toNat := by
  obtain ⟨m, rfl⟩ := Int.eq_ofNat_of_zero_le h
  rw [Expr.text, Expr.display, Literal.display, Int.toNat_natCast]
  exact Nat.toList_repr

theorem text_signed (negative : Bool) (e : Expr) :
    (Expr.signed negative e).text = (if negative then '-' else '+') :: e.text := by
  cases negative <;> simp [Expr.text, Expr.display]

theorem toList_intercalate_display (items : List Expr) :
    (String.intercalate ", " (items.map Expr.display)).toList =
      commaText (items.map Expr.text) := by
  rw [String.toList_intercalate, List.map_map]
  rfl

theorem text_call (name : String) (distinct : Bool) (args : List Expr) :
    (Expr.call name distinct args).text =
      name.toList ++ '(' :: (distinctText distinct ++ commaText (args.map Expr.text) ++
        [')']) := by
  rw [Expr.text, Expr.display, displayAll_eq_map, callText]
  simp only [String.toList_append, toList_intercalate_display]
  cases distinct <;> simp [distinctText, Keyword.text]

/-! ### Digits -/

theorem isDigit_of_mem_toDigits {n : Nat} : ∀ c ∈ Nat.toDigits 10 n, c.isDigit = true :=
  fun _ hc => Nat.isDigit_of_mem_toDigits (by decide) (by decide) hc

theorem isDigit_front_toDigits_append (n : Nat) (rest : List Char) :
    (front (Nat.toDigits 10 n ++ rest)).isDigit = true := by
  obtain ⟨c, more, hmore⟩ := List.exists_cons_of_ne_nil (@Nat.toDigits_ne_nil n 10)
  rw [hmore, List.cons_append, front_cons]
  exact isDigit_of_mem_toDigits c (hmore ▸ List.mem_cons_self)

section Numerals

variable {ds : List Char}

/-- Digits have no sign in front. -/
theorem splitSign_digits (hdigits : ∀ c ∈ ds, c.isDigit = true) :
    Decimal.splitSign ds = (false, ds) := by
  unfold Decimal.splitSign
  split
  · exact absurd (hdigits '-' List.mem_cons_self) (by decide)
  · exact absurd (hdigits '+' List.mem_cons_self) (by decide)
  · rfl

/-- Digits are read as a whole number, if it fits. -/
theorem readInt?_digits (hne : ds ≠ []) (hdigits : ∀ c ∈ ds, c.isDigit = true) :
    Decimal.readInt? ds =
      if Decimal.fitsInt64 (Decimal.natOfDigits ds) then some (Decimal.natOfDigits ds : Int)
      else none := by
  have hnat : Decimal.readNat? ds = some (Decimal.natOfDigits ds) := by
    rw [Decimal.readNat?, List.isEmpty_eq_false_iff.mpr hne, List.all_eq_true.mpr hdigits]
    rfl
  rw [Decimal.readInt?, splitSign_digits hdigits]
  dsimp only
  rw [hnat, Option.bind_eq_bind, Option.bind_some]
  rfl

theorem isDigit_toLower (c : Char) : c.toLower.isDigit = c.isDigit :=
  toLower_cases (P := fun c lower => lower.isDigit = c.isDigit) (fun _ => rfl) (by decide) c

/-- Digits are no word. -/
theorem sameWord_digits (hne : ds ≠ []) (hdigits : ∀ c ∈ ds, c.isDigit = true) {word : String}
    (hword : (front (word.toList.map Char.toLower)).isDigit = false) :
    sameWord (String.ofList ds) word = false := by
  obtain ⟨d, others, rfl⟩ := List.exists_cons_of_ne_nil hne
  refine beq_eq_false_iff_ne.mpr fun hsame => ?_
  rw [← hsame, String.toList_ofList, List.map_cons, front_cons, isDigit_toLower,
    hdigits d List.mem_cons_self] at hword
  cases hword

/-- Digits are read as the double nearest to their number. -/
theorem readFloat?_digits (hne : ds ≠ []) (hdigits : ∀ c ∈ ds, c.isDigit = true) :
    Decimal.readFloat? ds = some (Decimal.floatOf (Decimal.natOfDigits ds) 0) := by
  have hnothing : (front []).isDigit = false := by decide
  have htake : ds.takeWhile Char.isDigit = ds := by
    simpa using takeWhile_append_of_front hdigits hnothing
  have hdrop : ds.dropWhile Char.isDigit = [] := by
    simpa using dropWhile_append_of_front hdigits hnothing
  have hdecimal : Decimal.readDecimal? ds =
      some (Decimal.floatOf (Decimal.natOfDigits ds) 0) := by
    rw [Decimal.readDecimal?, htake, hdrop]
    simp [List.isEmpty_eq_false_iff.mpr hne, Decimal.readExponent?]
  rw [Decimal.readFloat?, splitSign_digits hdigits]
  dsimp only
  rw [Decimal.readMagnitude?, sameWord_digits hne hdigits (by decide),
    sameWord_digits hne hdigits (by decide), sameWord_digits hne hdigits (by decide)]
  simp [hdecimal]

/-- **The constant that digits stand for**: a whole number if it fits, and else the
nearest double. -/
def numeral (ds : List Char) : Literal :=
  if Decimal.fitsInt64 (Decimal.natOfDigits ds) then .int (Decimal.natOfDigits ds)
  else .float (Decimal.floatOf (Decimal.natOfDigits ds) 0)

theorem natOfDigits_toDigits (n : Nat) : Decimal.natOfDigits (Nat.toDigits 10 n) = n := by
  rw [Decimal.natOfDigits, Nat.ofDigitChars_ten_toDigits]

theorem numeral_toDigits {n : Int} (hsign : 0 ≤ n) (hfits : Decimal.fitsInt64 n = true) :
    numeral (Nat.toDigits 10 n.toNat) = .int n := by
  rw [numeral, natOfDigits_toDigits, Int.toNat_of_nonneg hsign, if_pos hfits]

end Numerals

/-- The digits of a number are read as the number, if it fits. -/
theorem readInt?_toDigits_eq {n : Int} (hsign : 0 ≤ n) :
    Decimal.readInt? (Nat.toDigits 10 n.toNat) =
      if Decimal.fitsInt64 n then some n else none := by
  rw [readInt?_digits Nat.toDigits_ne_nil isDigit_of_mem_toDigits, natOfDigits_toDigits,
    Int.toNat_of_nonneg hsign]

theorem readInt?_toDigits {n : Int} (hsign : 0 ≤ n) (hfits : Decimal.fitsInt64 n = true) :
    Decimal.readInt? (Nat.toDigits 10 n.toNat) = some n := by
  rw [readInt?_toDigits_eq hsign, if_pos hfits]

/-! ### How operands begin -/

theorem isDigit_toUpper (c : Char) : c.toUpper.isDigit = c.isDigit :=
  toUpper_cases (P := fun c upper => upper.isDigit = c.isDigit) (fun _ => rfl) (by decide) c

theorem starts_digits {ds : List Char} (hds : ds ≠ []) (h : ∀ c ∈ ds, c.isDigit = true) :
    Starts openingKeywords ds := by
  refine starts_word hds (fun c hc => isNameChar_of_isDigit (h c hc)) fun k hk hsame => ?_
  obtain ⟨d, others, rfl⟩ := List.exists_cons_of_ne_nil hds
  have hd : (front k.head).isDigit = true := by
    rw [← hsame, List.map_cons, front_cons, isDigit_toUpper, h d List.mem_cons_self]
  have hletters : ∀ k ∈ openingKeywords, (front k.head).isDigit = false := by decide
  rw [hletters k hk] at hd
  cases hd

/-- **An operand begins with no keyword.** -/
theorem Expr.IsOperand.starts {e : Expr} (h : e.IsOperand) :
    Starts openingKeywords e.text := by
  cases h with
  | bare hword =>
    rw [text_bare]
    exact hword.starts
  | qualified htable hparts =>
    obtain ⟨part, others, rfl⟩ := List.exists_cons_of_ne_nil hparts
    rw [text_qualified _ hparts, List.flatMap_cons]
    exact htable.starts.append (by decide) _
  | string =>
    rw [text_string]
    exact starts_mark _ (by decide) (by decide) (by decide) _
  | int hsign =>
    rw [text_int hsign]
    exact starts_digits Nat.toDigits_ne_nil isDigit_of_mem_toDigits
  | bool b =>
    cases b <;> exact starts_word (by decide) (List.all_eq_true.mp (by decide)) (by decide)
  | null => exact starts_word (by decide) (List.all_eq_true.mp (by decide)) (by decide)
  | star => exact starts_mark _ (by decide) (by decide) (by decide) _
  | signed negative =>
    rw [text_signed]
    cases negative <;> exact starts_mark _ (by decide) (by decide) (by decide) _
  | call hname =>
    rw [text_call]
    exact hname.starts.append (by decide) _

/-! ### Reading a primary -/

/-- What may follow an operand: nothing that prolongs its last word, belongs to it or asks
for a further operand. -/
structure OperandEnd (rest : List Char) : Prop where
  name : isNameChar (front rest) = false
  mark : front (dropBlanks rest) ∉ ['\'', '(', '.', '+', '-', '*', '/', '%']

theorem OperandEnd.front_ne {rest : List Char} (h : OperandEnd rest) {c : Char}
    (hc : c ∈ ['\'', '(', '.', '+', '-', '*', '/', '%']) : front rest ≠ c := by
  rintro rfl
  cases rest with
  | nil => exact absurd hc (by decide)
  | cons c rest =>
    have hblank : isBlank c = false :=
      eq_false_of_ne_true (List.any_eq_false.mp (by decide) c hc)
    exact h.mark (by rwa [dropBlanks_cons hblank])

theorem operandEnd_space {c : Char} (hblank : isBlank c = false)
    (hc : c ∉ ['\'', '(', '.', '+', '-', '*', '/', '%']) (more : List Char) :
    OperandEnd (' ' :: c :: more) :=
  ⟨(by decide : isNameChar ' ' = false), by rwa [dropBlanks_space, dropBlanks_cons hblank]⟩

namespace Grammar

variable {nested : Nested} {cs rest : List Char}

/-- A primary that begins with a name is what the name stands for. -/
theorem run_primary_word {word : String} (h : IsIdentifier word)
    (hrest : isNameChar (front rest) = false) (hcs : dropBlanks cs = word.toList ++ rest) :
    (primary nested).run cs = (wordExpr nested (word.toList ++ rest) word).run rest := by
  obtain ⟨hname, hdigit⟩ := h.front_append rest
  have hmark : ∀ c, isNameChar c = false → front (word.toList ++ rest) ≠ c := by
    rintro c hc rfl
    rw [hname] at hc
    cases hc
  rw [primary, run_bind_ok run_skipBlanks, run_bind_ok run_get, hcs]
  split
  case h_7 =>
    have hdot := beq_eq_false_iff_ne.mpr (hmark '.' (by decide))
    rw [hdigit, hdot]
    simp only [Bool.false_and, Bool.or_self, Bool.false_eq_true, if_false]
    rw [run_bind_ok (run_identifier h hrest (h.dropBlanks_append rest))]
  all_goals exact absurd ‹_› (hmark _ (by decide))

section WordExpr

variable {mark : List Char} {word : String}

/-- How a leading word goes on, by the character behind it. -/
def afterWord (nested : Nested) (mark : List Char) (word : String) : Char → Parser Expr
  | '\'' => do
    if sameWord word "DATE" then return .literal (← datedLiteral false)
    if sameWord word "TIMESTAMP" then return .literal (← datedLiteral true)
    return .column (.bare word)
  | '(' => do return (← callArgs nested word).toExpr
  | '.' => do columnPath mark word (← get).length []
  | _ => return .column (.bare word)

/-- A leading word is no constant and no keyword. -/
theorem run_wordExpr (h : IsLeadingWord word) : (wordExpr nested mark word).run cs =
    (afterWord nested mark word (front (dropBlanks cs))).run (dropBlanks cs) := by
  rw [wordExpr, h.noConstant "TRUE" (by decide), h.noConstant "FALSE" (by decide),
    h.noConstant "NULL" (by decide), h.unreserved]
  rfl

/-- A leading word that nothing belongs to is a column. -/
theorem run_afterWord_bare (hmark : front cs ∉ ['\'', '(', '.']) :
    (afterWord nested mark word (front cs)).run cs = .ok (.column (.bare word), cs) := by
  unfold afterWord
  split
  case h_4 => rfl
  all_goals
    rename_i hfront
    rw [hfront] at hmark
    exact absurd hmark (by decide)

/-- The parts of a path are read one by one.  The budget is enough as every part takes up
at least its dot. -/
theorem run_columnPath (table : String) {parts : List String}
    (hname : isNameChar (front rest) = false) (hdot : front rest ≠ '.')
    (hparts : ∀ part ∈ parts, IsIdentifier part) (done : List String)
    {budget : Nat}
    (hbudget : (parts.flatMap fun part => '.' :: part.toList).length ≤ budget) :
    (columnPath mark table budget done).run
        ((parts.flatMap fun part => '.' :: part.toList) ++ rest) =
      .ok (.column (.qualified table (String.intercalate "." (done ++ parts))), rest) := by
  induction parts generalizing done budget with
  | nil =>
    rw [List.flatMap_nil, List.nil_append, List.append_nil]
    cases budget with
    | zero => rfl
    | succ budget =>
      rw [columnPath, run_bind_ok run_current, if_pos (by simpa using hdot)]
      rfl
  | cons part others ih =>
    have hpart := hparts part List.mem_cons_self
    rw [List.flatMap_cons, List.cons_append, List.length_cons, List.length_append] at hbudget
    obtain ⟨budget, rfl⟩ : ∃ n, budget = n + 1 := ⟨budget - 1, by omega⟩
    have hbehind : isNameChar (front
        ((others.flatMap fun part => '.' :: part.toList) ++ rest)) = false := by
      cases others with
      | nil => exact hname
      | cons next others => exact (by decide : isNameChar '.' = false)
    have hstar : front (part.toList ++
        ((others.flatMap fun part => '.' :: part.toList) ++ rest)) ≠ '*' := by
      intro hstar
      have hfront := (hpart.front_append
        ((others.flatMap fun part => '.' :: part.toList) ++ rest)).1
      rw [hstar] at hfront
      exact absurd hfront (by decide)
    rw [List.flatMap_cons, List.cons_append, List.cons_append, List.append_assoc, columnPath,
      run_bind_ok run_current, front_cons, if_neg (by decide), run_bind_ok (run_advance 1),
      List.drop_succ_cons, List.drop_zero, run_bind_ok run_current,
      if_neg (by simpa using hstar),
      run_bind_ok (run_name hpart hbehind (hpart.dropBlanks_append _)),
      ih (fun part hpart => hparts part (List.mem_cons_of_mem _ hpart)) (done ++
        [part]) (by omega),
      List.append_assoc]
    rfl

end WordExpr

/-! ### Columns, constants and calls -/

theorem reads_primary_bare {word : String} (h : IsLeadingWord word)
    (hrest : OperandEnd rest) :
    Reads (primary nested) word.toList (.column (.bare word)) rest := by
  intro cs hcs
  refine ⟨dropBlanks rest, ?_, .inr rfl⟩
  rw [run_primary_word h.toIsIdentifier hrest.name hcs, run_wordExpr h]
  exact run_afterWord_bare fun hmem =>
    hrest.mark (List.mem_append_left ['+', '-', '*', '/', '%'] hmem)

theorem reads_primary_path {table : String} {parts : List String}
    (htable : IsLeadingWord table) (hparts : parts ≠ [])
    (hpart : ∀ part ∈ parts, IsIdentifier part) (hrest : OperandEnd rest) :
    Reads (primary nested) (table.toList ++ parts.flatMap fun part => '.' :: part.toList)
      (.column (.qualified table (String.intercalate "." parts))) rest := by
  intro cs hcs
  refine ⟨rest, ?_, .inl rfl⟩
  obtain ⟨part, others, rfl⟩ := List.exists_cons_of_ne_nil hparts
  have hcons : ((part :: others).flatMap fun part => '.' :: part.toList) ++ rest =
      '.' :: (part.toList ++ ((others.flatMap fun part => '.' :: part.toList) ++ rest)) := by
        simp
  have hbudget : ((part :: others).flatMap fun part => '.' :: part.toList).length ≤
      (((part :: others).flatMap fun part => '.' :: part.toList) ++ rest).length := by simp
  have hpath (mark : List Char) := @run_columnPath rest mark table _ hrest.name
    (hrest.front_ne (c := '.') (by decide)) hpart [] _ hbudget
  rw [List.append_assoc, hcons] at hcs
  rw [hcons] at hpath
  have hdot : isNameChar (front ('.' :: (part.toList ++
      ((others.flatMap fun part => '.' :: part.toList) ++ rest)))) = false :=
    (by decide : isNameChar '.' = false)
  rw [run_primary_word htable.toIsIdentifier hdot hcs, run_wordExpr htable,
    dropBlanks_cons (by decide)]
  exact hpath _

theorem reads_primary_string {raw : String} (h : EvenRuns '\'' raw.toList)
    (hrest : OperandEnd rest) :
    Reads (primary nested) ('\'' ::
      (raw.toList ++ ['\''])) (.literal (.string raw)) rest := by
  intro cs hcs
  refine ⟨rest, ?_, .inl rfl⟩
  rw [List.cons_append, List.append_assoc, List.singleton_append] at hcs
  have hread := run_quoted (q := '\'') (by decide) (hrest.front_ne (by decide)) h
  rw [String.ofList_toList] at hread
  rw [primary, run_bind_ok run_skipBlanks, run_bind_ok run_get, hcs]
  have hliteral : stringLiteral.run ('\'' :: (raw.toList ++ '\'' :: rest)) =
      .ok (.string raw, rest) := by
    rw [stringLiteral, run_bind_ok run_skipBlanks, dropBlanks_cons (by decide),
      run_bind_ok hread]
    rfl
  exact run_bind_ok hliteral

section Numerals

variable {ds : List Char}

/-- A number is read up to where its digits end. -/
theorem run_numberLiteral (hne : ds ≠ []) (hdigits : ∀ c ∈ ds, c.isDigit = true)
    (hrest : OperandEnd rest) (hcs : dropBlanks cs = ds ++ rest) :
    numberLiteral.run cs = .ok (numeral ds, rest) := by
  have hmark : ∀ c, isNameChar c = true → front rest ≠ c := by
    rintro c hc rfl
    rw [hrest.name] at hc
    cases hc
  have hfront : (front rest).isDigit = false := by
    cases hdigit : (front rest).isDigit with
    | false => rfl
    | true => exact absurd rfl (hmark _ (isNameChar_of_isDigit hdigit))
  have hfraction : fractionPart.run rest = .ok ([], rest) := by
    rw [fractionPart, run_bind_ok run_current, run_bind_ok (run_peek 1),
      beq_eq_false_iff_ne.mpr (hrest.front_ne (by decide))]
    rfl
  have hexponent : exponentPart.run rest = .ok ([], rest) := by
    rw [exponentPart, run_bind_ok run_current, run_bind_ok (run_peek 1),
      run_bind_ok (run_peek 2), beq_eq_false_iff_ne.mpr (hmark 'e' (by decide)),
      beq_eq_false_iff_ne.mpr (hmark 'E' (by decide))]
    rfl
  rw [numberLiteral, run_bind_ok run_skipBlanks, run_bind_ok run_get,
    run_bind_ok (run_takeChars _), hcs, takeWhile_append_of_front hdigits hfront,
    dropWhile_append_of_front hdigits hfront, run_bind_ok hfraction, run_bind_ok hexponent,
    numeral]
  simp only [List.append_nil, List.isEmpty_nil, Bool.and_self, if_true,
    readInt?_digits hne hdigits]
  cases Decimal.fitsInt64 (Decimal.natOfDigits ds) with
  | true => rfl
  | false =>
    simp only [Bool.false_eq_true, if_false, readFloat?_digits hne hdigits]
    rfl

theorem reads_primary_digits (hne : ds ≠ []) (hdigits : ∀ c ∈ ds, c.isDigit = true)
    (hrest : OperandEnd rest) : Reads (primary nested) ds (.literal (numeral ds)) rest := by
  intro cs hcs
  refine ⟨rest, ?_, .inl rfl⟩
  have hagain : dropBlanks (dropBlanks cs) = ds ++ rest := by simpa using hcs
  have hread := run_numberLiteral hne hdigits hrest hagain
  have hdigit : (front (dropBlanks cs)).isDigit = true := by
    obtain ⟨d, others, rfl⟩ := List.exists_cons_of_ne_nil hne
    rw [hcs]
    exact hdigits d List.mem_cons_self
  rw [primary, run_bind_ok run_skipBlanks, run_bind_ok run_get]
  split
  case h_7 =>
    rw [hdigit, Bool.true_or, if_pos rfl, run_bind_ok hread]
    rfl
  all_goals
    rename_i hfront
    rw [hfront] at hdigit
    exact absurd hdigit (by decide)

end Numerals

theorem reads_primary_int {n : Int} (hsign : 0 ≤ n) (hfits : Decimal.fitsInt64 n = true)
    (hrest : OperandEnd rest) :
    Reads (primary nested) (Nat.toDigits 10 n.toNat) (.literal (.int n)) rest := by
  rw [← numeral_toDigits hsign hfits]
  exact reads_primary_digits Nat.toDigits_ne_nil isDigit_of_mem_toDigits hrest

/-- The words of constants. -/
theorem reads_primary_constant {word : String} {value : Literal} (h : IsIdentifier word)
    (hvalue : ∀ mark cs, (wordExpr nested mark word).run cs = .ok (.literal value, cs))
    (hrest : OperandEnd rest) : Reads (primary nested) word.toList (.literal value) rest := by
  intro cs hcs
  refine ⟨rest, ?_, .inl rfl⟩
  rw [run_primary_word h hrest.name hcs, hvalue]

theorem reads_primary_star : Reads (primary nested) ['*'] .wildcard rest := by
  intro cs hcs
  refine ⟨rest, ?_, .inl rfl⟩
  rw [primary, run_bind_ok run_skipBlanks, run_bind_ok run_get, hcs]
  rfl

/-! ### Calls -/

/-- What follows an expression between commas and parentheses. -/
def ItemEnd (rest : List Char) : Prop :=
  ∃ c more, rest = c :: more ∧ (c = ',' ∨ c = ')')

theorem ItemEnd.operandEnd (h : ItemEnd rest) : OperandEnd rest := by
  obtain ⟨c, more, rfl, rfl | rfl⟩ := h
  · exact ⟨(by decide : isNameChar ',' = false), by rw [dropBlanks_cons (by decide)]; simp⟩
  · exact ⟨(by decide : isNameChar ')' = false), by rw [dropBlanks_cons (by decide)]; simp⟩

/-- The parsers for what stands inside parentheses read the operands with less than `n`
characters. -/
def ReadsOperands (nested : Nested) (n : Nat) : Prop :=
  ∀ e : Expr, e.IsOperand → e.text.length < n → ∀ rest, ItemEnd rest →
    Reads nested.expr e.text e rest

variable {n : Nat} {items : List Expr}

theorem reads_operands (hnested : ReadsOperands nested n) (hne : items ≠ [])
    (hitems : ∀ e ∈ items, e.IsOperand)
    (hlength : (commaText (items.map Expr.text)).length < n) (rest : List Char) :
    Reads (commaList nested.expr) (commaText (items.map Expr.text)) items (')' :: rest) := by
  have hitem : ∀ e ∈ items, ∀ rest, ItemEnd rest → Reads nested.expr e.text e rest := by
    intro e he
    exact hnested e (hitems e he)
      (Nat.lt_of_le_of_lt (length_le_commaText (List.mem_map_of_mem he)) hlength)
  exact reads_commaList hne hitem
    (fun e he rest => (hitems e he).starts.dropBlanks_space_append rest)
    (fun rest => ⟨',', rest, rfl, .inl rfl⟩) ⟨')', rest, rfl, .inr rfl⟩
    (by rw [dropBlanks_cons (by decide)]; exact (by decide : ')' ≠ ','))

/-- Whether a call is on distinct values is read before its arguments. -/
theorem run_distinctText {text : List Char} (htext : Starts openingKeywords text)
    (distinct : Bool) (hrest : isNameChar (front rest) = false) :
    ∃ after, (consume .distinct).run (dropBlanks (distinctText distinct ++ text ++ rest)) =
        .ok (distinct, after) ∧ dropBlanks after = text ++ rest ∧
      front (dropBlanks (distinctText distinct ++ text ++ rest)) ≠ ')' := by
  cases distinct with
  | false =>
    have hopen : dropBlanks (distinctText false ++ text ++ rest) = text ++ rest :=
      htext.dropBlanks_append rest
    rw [hopen]
    refine ⟨_, run_consume_of_none ?_, ?_, htext.front_ne rest⟩
    · rw [htext.dropBlanks_append]
      exact htext.match?_eq_none rest hrest (by decide)
    · rw [htext.dropBlanks_append, htext.dropBlanks_append]
  | true =>
    have hopen : dropBlanks (distinctText true ++ text ++ rest) =
        Keyword.distinct.text.toList ++ ' ' :: (text ++ rest) := dropBlanks_cons (by decide) _
    rw [hopen]
    exact ⟨_, run_consume_of_match (keyword_match?_text .distinct (keyword_allows_space _ _)),
      htext.dropBlanks_space_append rest, (by decide : 'D' ≠ ')')⟩

/-- The arguments of a call are read from the opening to the closing parenthesis. -/
theorem run_callArgs (hnested : ReadsOperands nested n) (name : String) {distinct : Bool}
    (hitems : ∀ e ∈ items, e.IsOperand) (hdistinct : distinct = true → items ≠ [])
    (hlength : (commaText (items.map Expr.text)).length < n) :
    (callArgs nested name).run
        ('(' :: (distinctText distinct ++ commaText (items.map Expr.text) ++ ')' :: rest)) =
      .ok (⟨name, distinct, items⟩, rest) := by
  rw [callArgs, run_bind_ok (run_expectChar (dropBlanks_cons (by decide) _))]
  by_cases hne : items = []
  · subst hne
    cases distinct with
    | false =>
      exact run_bind_ok (run_consumeChar_of_front (c := ')')
        (dropBlanks_cons (by decide) rest))
    | true => exact absurd rfl (hdistinct rfl)
  · have hstarts : Starts openingKeywords (commaText (items.map Expr.text)) :=
      starts_commaText (by simpa using hne) (by simpa using fun e he => (hitems e he).starts)
    obtain ⟨after, hword, hafter, hclose⟩ := run_distinctText hstarts distinct
      (show isNameChar (front (')' :: rest)) =
        false from (by decide : isNameChar ')' = false))
    obtain ⟨left, hread, hleft⟩ := reads_operands hnested hne hitems hlength rest after hafter
    have hend : dropBlanks left = ')' :: rest := by
      rw [hleft.dropBlanks_eq, dropBlanks_cons (by decide)]
    rw [run_bind_ok (run_consumeChar_of_ne hclose), if_neg Bool.false_ne_true,
      run_bind_ok hword, run_bind_ok hread, run_bind_ok (run_expectChar hend)]
    rfl

theorem reads_primary_call (hnested : ReadsOperands nested n) {name : String}
    {distinct : Bool} (hname : IsLeadingWord name) (hitems : ∀ e ∈ items, e.IsOperand)
    (hdistinct : distinct = true → items ≠ [])
    (hlength : (commaText (items.map Expr.text)).length < n) :
    Reads (primary nested)
      (name.toList ++ '(' :: (distinctText distinct ++
        commaText (items.map Expr.text) ++ [')']))
      (.call name distinct items) rest := by
  intro cs hcs
  refine ⟨rest, ?_, .inl rfl⟩
  rw [List.append_assoc, List.cons_append, List.append_assoc _ [')'],
    List.singleton_append] at hcs
  have hopen : isNameChar (front ('(' ::
    (distinctText distinct ++ commaText (items.map Expr.text) ++
      ')' :: rest))) = false := (by decide : isNameChar '(' = false)
  rw [run_primary_word hname.toIsIdentifier hopen hcs, run_wordExpr hname,
    dropBlanks_cons (by decide)]
  exact run_bind_ok (run_callArgs hnested name hitems hdistinct hlength)

/-! ### Signs, products and sums -/

/-- A primary is read as one without signs. -/
theorem reads_signedPrimary_of_primary {text : List Char} {e : Expr}
    (h : Reads (primary nested) text e rest) (hfront : front (text ++ rest) ∉ ['-', '+'])
    (budget : Nat) : Reads (signedPrimary nested budget) text e rest := by
  cases budget with
  | zero => exact h
  | succ budget =>
    intro cs hcs
    obtain ⟨left, hrun, hleft⟩ := h (dropBlanks cs) (by simpa using hcs)
    refine ⟨left, ?_, hleft⟩
    rw [signedPrimary, run_bind_ok run_skipBlanks, run_bind_ok run_current]
    split
    case h_3 => exact hrun
    all_goals
      rename_i hsign
      rw [← hcs, hsign] at hfront
      exact absurd hfront (by decide)

/-- **An operand is read with its signs.**  The induction is on the operand; a sign is the
only operand that has another one directly behind it. -/
theorem reads_signedPrimary (hnested : ReadsOperands nested n) {e : Expr} (he : e.IsOperand)
    (hlength : e.text.length ≤ n) (hrest : OperandEnd rest) {budget : Nat}
    (hbudget : e.text.length ≤ budget) :
    Reads (signedPrimary nested budget) e.text e rest := by
  have hconstant {word : String} {value : Literal} (hword : IsIdentifier word)
      (hvalue : ∀ mark cs, (wordExpr nested mark word).run cs = .ok (.literal value, cs))
      (budget : Nat) : Reads (signedPrimary nested budget) word.toList
        (.literal value) rest :=
    reads_signedPrimary_of_primary (reads_primary_constant hword hvalue hrest)
      (notMem_of_isNameChar (hword.front_append rest).1 (by decide)) budget
  induction he generalizing budget with
  | bare hword =>
    rw [text_bare]
    exact reads_signedPrimary_of_primary (reads_primary_bare hword hrest)
      (notMem_of_isNameChar (hword.front_append rest).1 (by decide)) budget
  | qualified htable hparts hpart =>
    rw [text_qualified _ hparts]
    refine reads_signedPrimary_of_primary (reads_primary_path htable hparts hpart hrest)
      ?_ budget
    rw [List.append_assoc]
    exact notMem_of_isNameChar (htable.front_append _).1 (by decide)
  | string hraw =>
    rw [text_string]
    exact reads_signedPrimary_of_primary (reads_primary_string hraw hrest)
      (by decide : '\'' ∉ ['-', '+']) budget
  | int hsign hfits =>
    rw [text_int hsign]
    refine reads_signedPrimary_of_primary (reads_primary_int hsign hfits hrest) ?_ budget
    exact notMem_of_isNameChar (isNameChar_of_isDigit (isDigit_front_toDigits_append _ rest))
      (by decide)
  | bool b =>
    cases b <;> exact hconstant (by decide : IsIdentifier _) (fun _ _ => rfl) budget
  | null => exact hconstant (by decide : IsIdentifier "NULL") (fun _ _ => rfl) budget
  | star =>
    exact reads_signedPrimary_of_primary reads_primary_star
      (by decide : '*' ∉ ['-', '+']) budget
  | @signed negative e he ih =>
    rw [text_signed] at hlength hbudget ⊢
    rw [List.length_cons] at hlength hbudget
    obtain ⟨budget, rfl⟩ : ∃ m, budget = m + 1 := ⟨budget - 1, by omega⟩
    intro cs hcs
    have hshorter : e.text.length ≤ budget := by omega
    obtain ⟨left, hrun, hleft⟩ := ih (by omega) hshorter _
      (he.starts.dropBlanks_append rest)
    refine ⟨left, ?_, hleft⟩
    rw [signedPrimary, run_bind_ok run_skipBlanks, run_bind_ok run_current, hcs]
    cases negative <;> exact (run_bind_ok (run_advance 1)).trans (run_bind_ok hrun)
  | call hname hargs hdistinct =>
    rw [text_call] at hlength ⊢
    refine reads_signedPrimary_of_primary
      (reads_primary_call hnested hname hargs hdistinct ?_) ?_ budget
    · simp only [List.length_append, List.length_cons] at hlength
      omega
    · rw [List.append_assoc]
      exact notMem_of_isNameChar (hname.front_append _).1 (by decide)

theorem run_arithmeticStep_of_none {accepts : Arithmetic → Bool} {operand : Parser Expr}
    {e : Expr} (h : front (dropBlanks cs) ∉ ['+', '-', '*', '/', '%']) :
    (arithmeticStep accepts operand e).run cs = .ok (none, dropBlanks cs) := by
  have hnone : Arithmetic.ofChar? (front (dropBlanks cs)) = none := by
    unfold Arithmetic.ofChar?
    split
    case h_6 => rfl
    all_goals
      rename_i hfront
      rw [hfront] at h
      exact absurd h (by decide)
  rw [arithmeticStep, run_bind_ok run_skipBlanks, run_bind_ok run_current, hnone]
  rfl

/-- What is read with its signs is read as a sum, with no operator behind it. -/
theorem reads_sum_of_signedPrimary {text : List Char} {e : Expr}
    (h : ∀ budget, text.length ≤ budget → Reads (signedPrimary nested budget) text e rest)
    (hrest : OperandEnd rest) : Reads (sum nested) text e rest := by
  have hunary : Reads (unary nested) text e rest := by
    intro cs hcs
    have hbudget : text.length ≤ cs.length := by
      have := length_dropBlanks_le cs
      rw [hcs, List.length_append] at this
      omega
    rw [unary, run_bind_ok run_get]
    exact h cs.length hbudget cs hcs
  have hstep : ∀ left, Leaves rest left →
      front (dropBlanks left) ∉ ['+', '-', '*', '/', '%'] := by
    intro left hleft hmem
    rw [hleft.dropBlanks_eq] at hmem
    exact hrest.mark (List.mem_append_right ['\'', '(', '.'] hmem)
  have hproduct : Reads (product nested) text e rest :=
    hunary.extendWhile fun left hleft => run_arithmeticStep_of_none (hstep left hleft)
  exact hproduct.extendWhile fun left hleft => run_arithmeticStep_of_none (hstep left hleft)

/-- **An operand is read as a sum.** -/
theorem reads_sum (hnested : ReadsOperands nested n) {e : Expr} (he : e.IsOperand)
    (hlength : e.text.length ≤ n) (hrest : OperandEnd rest) :
    Reads (sum nested) e.text e rest :=
  reads_sum_of_signedPrimary
    (fun _ hbudget => reads_signedPrimary hnested he hlength hrest hbudget) hrest

/-- An expression in parentheses is read as the expression. -/
theorem reads_sum_parenthesis {text : List Char} {e : Expr} (htext : Starts [.select] text)
    (h : ∀ rest, ItemEnd rest → Reads nested.expr text e rest) (hrest : OperandEnd rest) :
    Reads (sum nested) ('(' :: (text ++ [')'])) e rest := by
  have hopen : front ('(' :: (text ++ [')']) ++ rest) ∉ ['-', '+'] :=
    (by decide : '(' ∉ ['-', '+'])
  refine reads_sum_of_signedPrimary (fun budget _ => ?_) hrest
  refine reads_signedPrimary_of_primary (fun cs hcs => ?_) hopen budget
  refine ⟨rest, ?_, .inl rfl⟩
  rw [List.cons_append, List.append_assoc, List.singleton_append] at hcs
  have hselect : Keyword.select.word.match? (dropBlanks (text ++ ')' :: rest)) = none := by
    rw [htext.dropBlanks_append]
    exact htext.match?_eq_none (')' :: rest)
      (by decide : isNameChar ')' = false) List.mem_cons_self
  obtain ⟨left, hrun, hleft⟩ := h (')' :: rest) ⟨')', rest, rfl, .inr rfl⟩
    (dropBlanks (text ++ ')' :: rest))
      (by rw [dropBlanks_dropBlanks, htext.dropBlanks_append])
  have hend : dropBlanks left = ')' :: rest := by
    rw [hleft.dropBlanks_eq, dropBlanks_cons (by decide)]
  have hparenthesis : (parenthesis nested).run (text ++ ')' :: rest) = .ok (e, rest) := by
    rw [parenthesis, run_bind_ok run_check, hselect, Option.isSome_none,
      if_neg Bool.false_ne_true, run_bind_ok hrun, run_bind_ok (run_expectChar hend)]
    rfl
  rw [primary, run_bind_ok run_skipBlanks, run_bind_ok run_get, hcs]
  exact (run_bind_ok (run_advance 1)).trans hparenthesis

end Grammar

end DocQuery.Sql
