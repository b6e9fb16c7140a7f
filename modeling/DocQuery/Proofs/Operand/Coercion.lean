import DocQuery.Proofs.Operand.Numerals
import DocQuery.Proofs.Operand.Quoted

/-!
# Numbers and their texts beside a field

A whole number and the string constant that holds its decimal text have the same value
beside a field of strings, numbers or truth values.  The number goes from a value to a
text and the string from a text to a value, so this is where writing and reading a number
meet.

* `Sql.Expr.IsWhole` — an expression that stands for a whole number
* `Decimal.readInt?_toString` — a number is read back from its decimal text
* `Operand.value_of_isWhole`, `Operand.readNumber_padded` — the two ways to a value
* `numbers_coerced_like_their_texts` — both come to the same

### What is load-bearing

Blanks around the text matter to a field of strings alone.  A number is read, and a truth
value is looked for, without them.
-/

namespace DocQuery

open Scan Text

/-! ### The decimal text of a number -/

namespace Sql

/-- The characters of a decimal text are digits, behind a minus if there is one. -/
theorem mem_toString_int {v : Int} {c : Char} (h : c ∈ (toString v).toList) :
    c.isDigit = true ∨ c = '-' := by
  rw [toList_toString_int, signedText, List.mem_append] at h
  rcases h with hsign | hdigit
  · by_cases hneg : v < 0
    · rw [if_pos hneg] at hsign
      exact .inr (by simpa [Sign.text] using hsign)
    · rw [if_neg hneg] at hsign
      cases hsign
  · exact .inl ((Digits.ofNat v.natAbs).isDigit_of_mem c hdigit)

theorem toString_int_ne_nil (v : Int) : (toString v).toList ≠ [] := by
  rw [toList_toString_int]
  exact fun hempty => (Digits.ofNat v.natAbs).ne_nil (List.append_eq_nil_iff.mp hempty).2

theorem isBlank_of_mem_toString {v : Int} {c : Char} (h : c ∈ (toString v).toList) :
    isBlank c = false := by
  rcases mem_toString_int h with hdigit | rfl
  · exact isBlank_of_isNameChar (isNameChar_of_isDigit hdigit)
  · decide

/-- A number is no word. -/
theorem sameWord_toString_int (v : Int) : sameWord (toString v) "true" = false := by
  refine beq_eq_false_iff_ne.mpr fun hsame => ?_
  obtain ⟨c, more, hchars⟩ := List.exists_cons_of_ne_nil (toString_int_ne_nil v)
  rw [hchars] at hsame
  have hfirst : c.toLower = 't' := (List.cons.inj hsame).1
  rcases mem_toString_int (hchars ▸ List.mem_cons_self : c ∈
    (toString v).toList) with hdigit | rfl
  · rw [← isDigit_toLower, hfirst] at hdigit
    exact absurd hdigit (by decide)
  · exact absurd hfirst (by decide)

end Sql

open Sql

/-- **A number is read back from its decimal text.** -/
theorem Decimal.readInt?_toString {v : Int} (hv : fitsInt64 v = true) :
    readInt? (toString v).toList = some v := by
  rw [toList_toString_int]
  by_cases hneg : v < 0
  · have hnat : readNat? (Nat.toDigits 10 v.natAbs) = some v.natAbs := by
      rw [readNat?, List.isEmpty_eq_false_iff.mpr Nat.toDigits_ne_nil,
        List.all_eq_true.mpr isDigit_of_mem_toDigits, natOfDigits_toDigits]
      rfl
    have hvalue : applySign true v.natAbs = v := by
      rw [applySign, if_pos rfl]
      omega
    rw [if_pos hneg]
    change (do
      let n ← readNat? (Nat.toDigits 10 v.natAbs)
      if fitsInt64 (applySign true n) then some (applySign true n) else none) = some v
    rw [hnat, Option.bind_eq_bind, Option.bind_some, hvalue, if_pos hv]
  · rw [if_neg hneg]
    change readInt? (Nat.toDigits 10 v.natAbs) = some v
    have hnonneg : v.natAbs = v.toNat := by omega
    rw [hnonneg]
    exact readInt?_toDigits (Int.not_lt.mp hneg) hv

/-! ### Expressions that stand for a whole number -/

/-- **An expression that stands for a whole number**: a number, with any signs in front. -/
def Sql.Expr.IsWhole (v : Int) (e : Expr) : Prop :=
  ∃ n, e.unsigned = .literal (.int n) ∧ v = if e.minusSigns % 2 = 1 then -n else n

/-- The decimal text of a number is read as an expression that stands for it. -/
theorem Sql.exists_isWhole_of_text {v : Int} (hv : v.natAbs ≤ 9223372036854775807) :
    ∃ e, parseExpr.run (toString v).toList = .ok (e, []) ∧ e.IsWhole v := by
  have hfits : Decimal.fitsInt64 (v.natAbs : Int) = true := by
    simp only [Decimal.fitsInt64, Bool.and_eq_true, decide_eq_true_eq]
    omega
  have hnumeral : numeral (Digits.ofNat v.natAbs).chars = .int v.natAbs := by
    have hdigits := numeral_toDigits (Int.natCast_nonneg v.natAbs) hfits
    rwa [Int.toNat_natCast] at hdigits
  have hread :=
    run_parseExpr_signed (if v < 0 then [⟨true, [], by simp⟩] else []) (.ofNat v.natAbs)
  rw [← toList_toString_int, hnumeral] at hread
  refine ⟨_, hread, v.natAbs, Expr.unsigned_underSigns _ _, ?_⟩
  rw [Expr.minusSigns_underSigns]
  by_cases hneg : v < 0
  · rw [if_pos hneg]
    change v = -(v.natAbs : Int)
    omega
  · rw [if_neg hneg]
    change v = (v.natAbs : Int)
    omega

namespace Operand

variable {types : FieldTypes} {aliases : Option Aliases} {counterpart : Option Expr} {v : Int}

/-- The value of a whole number comes from the number and its decimal text. -/
theorem value_of_isWhole {e : Expr} (he : e.IsWhole v) (hv : Decimal.fitsInt64 v = true) :
    value types aliases counterpart e =
      ofNumber (types.ofCounterpart counterpart) (.int v) (toString v) := by
  obtain ⟨n, hn, hsign⟩ := he
  by_cases hodd : e.minusSigns % 2 = 1
  · rw [if_pos hodd] at hsign
    rw [value_negated_int hodd hn, ← hsign, if_pos hv]
    rfl
  · rw [if_neg hodd] at hsign
    rw [value_signed, beq_eq_false_iff_ne.mpr hodd, hn, ← hsign]
    rfl

/-! ### Texts that hold a number -/

section Padded

variable {before after : String}

/-- Neither a number nor a blank is a quote. -/
theorem quote_notMem_padded (hbefore : ∀ c ∈ before.toList, isBlank c = true)
    (hafter : ∀ c ∈ after.toList, isBlank c = true) (v : Int) :
    '\'' ∉ (before ++ toString v ++ after).toList := by
  have hblank : isBlank '\'' = false := by decide
  intro hquote
  rw [String.toList_append, String.toList_append, List.mem_append, List.mem_append] at hquote
  rcases hquote with (hquote | hquote) | hquote
  · rw [hbefore _ hquote] at hblank
    cases hblank
  · rcases mem_toString_int hquote with hdigit | hminus
    · exact absurd hdigit (by decide)
    · exact absurd hminus (by decide)
  · rw [hafter _ hquote] at hblank
    cases hblank

theorem unquote_padded (hbefore : ∀ c ∈ before.toList, isBlank c = true)
    (hafter : ∀ c ∈ after.toList, isBlank c = true) (v : Int) :
    unquote (before ++ toString v ++ after) = before ++ toString v ++ after :=
  (undouble_eq_self_iff _ _).mpr fun hpair =>
    quote_notMem_padded hbefore hafter v (hpair.subset List.mem_cons_self)

theorem trim_padded (hbefore : ∀ c ∈ before.toList, isBlank c = true)
    (hafter : ∀ c ∈ after.toList, isBlank c = true) (v : Int) :
    trim (before ++ toString v ++ after) = toString v := by
  rw [trim, String.toList_append, String.toList_append, List.append_assoc,
    trimChars_padded hbefore hafter (toString_int_ne_nil v) fun c hc =>
      isBlank_of_mem_toString hc,
    String.ofList_toList]

/-- **A number is read from its text between blanks.** -/
theorem readNumber_padded (hbefore : ∀ c ∈ before.toList, isBlank c = true)
    (hafter : ∀ c ∈ after.toList, isBlank c = true) (hv : Decimal.fitsInt64 v = true) :
    readNumber (before ++ toString v ++ after) = .ok (.int v) := by
  rw [readNumber, trim_padded hbefore hafter, Decimal.readInt?_toString hv]

end Padded

end Operand

/-- **Numbers are coerced like their texts.**  A whole number of 64 bits, but for the
least one, is read from its decimal text as an expression that stands for it, and from
quotes around that text as a string constant.  Beside a field of strings both have the
text as their value, beside a field of numbers the number and beside a field of truth
values false, for numbers and truth values with any blanks around the text. -/
theorem numbers_coerced_like_their_texts {v : Int} (hv : v.natAbs ≤ 9223372036854775807)
    {before after : String} (hbefore : ∀ c ∈ before.toList, isBlank c = true)
    (hafter : ∀ c ∈ after.toList, isBlank c = true) :
    (∃ e, parseExpr.run (toString v).toList = .ok (e, []) ∧ e.IsWhole v) ∧
    parseExpr.run (inQuotes '\'' (before ++ toString v ++ after)).toList =
      .ok (.literal (.string (before ++ toString v ++ after)), []) ∧
    ∀ e, e.IsWhole v → ∀ types aliases counterpart,
      (types.ofCounterpart counterpart = .string →
        Operand.value types aliases counterpart e = .ok (.string (toString v)) ∧
        Operand.value types aliases counterpart (.literal (.string (toString v))) =
          .ok (.string (toString v))) ∧
      (types.ofCounterpart counterpart = .number →
        Operand.value types aliases counterpart e = .ok (.int v) ∧
        Operand.value types aliases counterpart
          (.literal (.string (before ++ toString v ++ after))) =
          .ok (.int v)) ∧
      (types.ofCounterpart counterpart = .boolean →
        Operand.value types aliases counterpart e = .ok (.bool false) ∧
        Operand.value types aliases counterpart
          (.literal (.string (before ++ toString v ++ after))) =
          .ok (.bool false)) := by
  have hfits : Decimal.fitsInt64 v = true := by
    simp only [Decimal.fitsInt64, Bool.and_eq_true, decide_eq_true_eq]
    omega
  have hbare : Operand.unquote (toString v) = toString v := by
    simpa using @Operand.unquote_padded "" "" (by simp) (by simp) v
  refine ⟨exists_isWhole_of_text hv, ?_, fun e he types aliases counterpart =>
    ⟨fun htype => ?_, fun htype => ?_, fun htype => ?_⟩⟩
  · rw [run_parseExpr_literal, double_eq_self (Operand.quote_notMem_padded hbefore hafter v)]
  · rw [Operand.value_of_isWhole he hfits, Operand.value_string, htype, Operand.ofText, hbare]
    exact ⟨rfl, rfl⟩
  · rw [Operand.value_of_isWhole he hfits, Operand.value_string, htype, Operand.ofText,
      Operand.unquote_padded hbefore hafter]
    exact ⟨rfl, Operand.readNumber_padded hbefore hafter hfits⟩
  · rw [Operand.value_of_isWhole he hfits, Operand.value_string, htype, Operand.ofText,
      Operand.unquote_padded hbefore hafter, Operand.trim_padded hbefore hafter,
      Operand.ofNumber, sameWord_toString_int]
    exact ⟨rfl, rfl⟩

/-- `-42` and `' -42 '` are the same beside a field of numbers, and beside one of truth
values. -/
theorem numbers_coerced_like_their_texts_negative :
    (-42 : Int).natAbs ≤ 9223372036854775807 ∧ (∀ c ∈ " ".toList, isBlank c = true) ∧
    (Expr.signed true (.literal (.int 42))).IsWhole (-42) ∧
    (FieldTypes.ofCounterpart ⟨.number, []⟩ (some (.column (.bare "age"))) = .number ∧
      Operand.value ⟨.number, []⟩ none (some (.column (.bare "age")))
        (.signed true (.literal (.int 42))) =
        .ok (.int (-42)) ∧
      Operand.value ⟨.number, []⟩ none (some (.column (.bare "age")))
        (.literal (.string " -42 ")) =
        .ok (.int (-42))) ∧
    (FieldTypes.ofCounterpart ⟨.boolean, []⟩ (some (.column (.bare "age"))) = .boolean ∧
      Operand.value ⟨.boolean, []⟩ none (some (.column (.bare "age")))
        (.literal (.string " -42 ")) =
        .ok (.bool false)) ∧
    (FieldTypes.ofCounterpart ⟨.string, []⟩ (some (.column (.bare "age"))) = .string ∧
      Operand.value ⟨.string, []⟩ none (some (.column (.bare "age")))
        (.signed true (.literal (.int 42))) =
        .ok (.string "-42")) := by
  have hblank : ∀ c ∈ " ".toList, isBlank c = true := List.all_eq_true.mp (by decide)
  have hwhole : (Expr.signed true (.literal (.int 42))).IsWhole (-42) := ⟨42, rfl, rfl⟩
  have hvalue :=
    (@numbers_coerced_like_their_texts (-42) (by decide) " " " " hblank hblank).2.2 _ hwhole
  exact ⟨by decide, hblank, hwhole, ⟨rfl, (hvalue _ _ _).2.1 rfl⟩,
    ⟨rfl, ((hvalue _ _ _).2.2 rfl).2⟩, rfl, ((hvalue _ _ _).1 rfl).1⟩

end DocQuery
