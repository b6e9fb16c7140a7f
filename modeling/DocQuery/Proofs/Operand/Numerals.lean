import DocQuery.Proofs.Operand.Signs
import DocQuery.Proofs.Sql.RoundTrip

/-!
# Whole numbers under signs

Digits are read without their signs, and the signs are counted when the value is asked
for.  So a whole number survives exactly if its digits alone fit into 64 bits, and the
least number of 64 bits does not.

* `Sql.Sign`, `Sql.Digits` — the parts that a number is written with
* `Sql.Expr.underSigns` — an expression with signs in front
* `Sql.run_parseExpr_signed` — signs and digits are read as the signed constant
* `Operand.signedNumeral`, `Operand.value_underSigns_numeral` — the value of a number
  under signs
* `whole_numbers_survive_but_least` — from the text of a number to its value

### What is load-bearing

The digits of the least number stand for a number that is one too large.  They are read as
a double, and the sign that would bring the number back into the range is only applied to
that double.
-/

namespace DocQuery

namespace Sql

open Scan Text

/-! ### The text of a number -/

/-- A sign, with the blanks that are written behind it. -/
structure Sign where
  minus : Bool
  blanks : List Char := []
  isBlank_of_mem : ∀ c ∈ blanks, isBlank c = true := by simp

/-- Decimal digits, at least one. -/
structure Digits where
  chars : List Char
  ne_nil : chars ≠ []
  isDigit_of_mem : ∀ c ∈ chars, c.isDigit = true

namespace Digits

/-- The number that digits stand for. -/
def number (ds : Digits) : Nat :=
  Decimal.natOfDigits ds.chars

/-- The digits of a number. -/
def ofNat (n : Nat) : Digits :=
  ⟨Nat.toDigits 10 n, Nat.toDigits_ne_nil, isDigit_of_mem_toDigits⟩

@[simp] theorem number_ofNat (n : Nat) : (ofNat n).number = n :=
  natOfDigits_toDigits n

theorem starts (ds : Digits) : Starts openingKeywords ds.chars :=
  starts_digits ds.ne_nil ds.isDigit_of_mem

end Digits

/-- The text of a sign. -/
def Sign.text (s : Sign) : List Char :=
  (if s.minus then '-' else '+') :: s.blanks

/-- Digits with signs in front. -/
def signedText (signs : List Sign) (ds : Digits) : List Char :=
  signs.flatMap Sign.text ++ ds.chars

/-- An expression with signs in front. -/
def Expr.underSigns (signs : List Sign) (e : Expr) : Expr :=
  signs.foldr (fun s e => .signed s.minus e) e

theorem signedText_cons (s : Sign) (signs : List Sign) (ds : Digits) :
    signedText (s :: signs) ds = (if s.minus then '-' else '+') ::
    (s.blanks ++ signedText signs ds) := by
  simp [signedText, Sign.text]

/-- A signed number begins with no keyword. -/
theorem starts_signedText (signs : List Sign) (ds : Digits) :
    Starts openingKeywords (signedText signs ds) := by
  cases signs with
  | nil => exact ds.starts
  | cons s signs =>
    rw [signedText_cons]
    cases s.minus <;> exact starts_mark _ (by decide) (by decide) (by decide) _

/-- The decimal text of a whole number: its digits, behind a minus if it is negative. -/
theorem toList_toString_int (v : Int) :
    (toString v).toList =
      signedText (if v < 0 then [⟨true, [], by simp⟩] else []) (.ofNat v.natAbs) := by
  cases v with
  | ofNat n =>
    have hsign : ¬ Int.ofNat n < 0 := Int.not_lt.mpr (Int.natCast_nonneg n)
    rw [if_neg hsign]
    exact Nat.toList_repr
  | negSucc n =>
    rw [if_pos (Int.negSucc_lt_zero n)]
    have htext : (toString (Int.negSucc n)).toList = '-' :: (Nat.repr (n + 1)).toList := by
      change ("-" ++ Nat.repr (n + 1)).toList = _
      rw [String.toList_append]
      rfl
    rw [htext, Nat.toList_repr]
    rfl

/-! ### Reading -/

namespace Grammar

variable {nested : Nested} {rest : List Char}

/-- **Signs are read one by one.**  The induction is on the signs, and every sign takes up
one of the budget. -/
theorem reads_signedPrimary_signs (signs : List Sign) (ds : Digits) (hrest : OperandEnd rest)
    {budget : Nat} (hbudget : signs.length ≤ budget) :
    Reads (signedPrimary nested budget) (signedText signs ds)
      ((Expr.literal (numeral ds.chars)).underSigns signs) rest := by
  induction signs generalizing budget with
  | nil =>
    have hdigit : isNameChar (front (ds.chars ++ rest)) = true := by
      obtain ⟨c, more, hchars⟩ := List.exists_cons_of_ne_nil ds.ne_nil
      rw [hchars]
      exact isNameChar_of_isDigit (ds.isDigit_of_mem c (hchars ▸ List.mem_cons_self))
    exact reads_signedPrimary_of_primary
      (reads_primary_digits ds.ne_nil ds.isDigit_of_mem hrest)
      (notMem_of_isNameChar hdigit (by decide)) budget
  | cons s signs ih =>
    rw [List.length_cons] at hbudget
    obtain ⟨budget, rfl⟩ : ∃ m, budget = m + 1 := ⟨budget - 1, by omega⟩
    intro cs hcs
    rw [signedText_cons, List.cons_append, List.append_assoc] at hcs
    have hbehind : dropBlanks (s.blanks ++ (signedText signs ds ++ rest)) =
        signedText signs ds ++ rest := by
      rw [dropBlanks_append_of_all s.isBlank_of_mem,
        (starts_signedText signs ds).dropBlanks_append]
    obtain ⟨left, hrun, hleft⟩ := ih (Nat.le_of_succ_le_succ hbudget) _ hbehind
    refine ⟨left, ?_, hleft⟩
    rw [signedPrimary, run_bind_ok run_skipBlanks, run_bind_ok run_current, hcs,
      Expr.underSigns, List.foldr_cons]
    cases s.minus <;> exact (run_bind_ok (run_advance 1)).trans (run_bind_ok hrun)

end Grammar

theorem length_le_signedText (signs : List Sign) (ds : Digits) :
    signs.length ≤ (signedText signs ds).length := by
  induction signs with
  | nil => exact Nat.zero_le _
  | cons s signs ih =>
    rw [signedText_cons, List.length_cons, List.length_cons, List.length_append]
    omega

/-- **Signs and digits are read as the signed constant**, up to the end of the text. -/
theorem run_parseExpr_signed (signs : List Sign) (ds : Digits) :
    parseExpr.run (signedText signs ds) =
      .ok ((Expr.literal (numeral ds.chars)).underSigns signs, []) := by
  have hsum (nested : Grammar.Nested) : Reads (Grammar.sum nested) (signedText signs ds)
      ((Expr.literal (numeral ds.chars)).underSigns signs) [] :=
    Grammar.reads_sum_of_signedPrimary
      (fun budget hbudget => Grammar.reads_signedPrimary_signs signs ds ⟨by decide, by decide⟩
        (Nat.le_trans (length_le_signedText signs ds) hbudget)) ⟨by decide, by decide⟩
  exact run_parseExpr_of_sum ((starts_signedText signs ds).mono (by decide)) hsum

/-! ### Signs of an expression -/

theorem Expr.minusSigns_underSigns (signs : List Sign) (e : Expr) :
    (e.underSigns signs).minusSigns = signs.countP Sign.minus + e.minusSigns := by
  induction signs with
  | nil => simp [underSigns]
  | cons s signs ih =>
    rw [underSigns] at ih
    rw [underSigns, List.foldr_cons]
    cases hminus : s.minus with
    | true =>
      rw [minusSigns, ih, List.countP_cons_of_pos (p := Sign.minus) hminus]
      omega
    | false =>
      rw [minusSigns, ih, List.countP_cons_of_neg (p := Sign.minus) (by simp [hminus])]

theorem Expr.unsigned_underSigns (signs : List Sign) (e : Expr) :
    (e.underSigns signs).unsigned = e.unsigned := by
  induction signs with
  | nil => rfl
  | cons s signs ih => exact ih

end Sql

open Sql

namespace Operand

/-! ### Values -/

/-- **The value of a number under signs**: whole if its digits alone fit, and else a
double. -/
def signedNumeral (minus : Bool) (n : Nat) : Value :=
  if Decimal.fitsInt64 n then .int (Decimal.applySign minus n)
  else .double (if minus then -Decimal.floatOf n 0 else Decimal.floatOf n 0)

/-- The negation of a number that fits without sign fits, too. -/
theorem fitsInt64_applySign {n : Nat} (h : Decimal.fitsInt64 n = true) (minus : Bool) :
    Decimal.fitsInt64 (Decimal.applySign minus n) = true := by
  cases minus with
  | false => exact h
  | true =>
    simp only [Decimal.applySign, if_true, Decimal.fitsInt64, Bool.and_eq_true,
      decide_eq_true_eq] at h ⊢
    omega

variable {types : FieldTypes} {aliases : Option Aliases} {counterpart : Option Expr}

/-- The types under which a number stands for itself. -/
def keepsNumbers (type : FieldType) : Bool :=
  type == .number || type == .unknown

theorem ofNumber_of_keepsNumbers {type : FieldType} (h : keepsNumbers type = true)
    (number : Value) (text : String) : ofNumber type number text = .ok number := by
  cases type with
  | number => rfl
  | unknown => rfl
  | _ => cases h

/-- **A number under signs has the value of its digits, negated for an odd number of minus
signs.** -/
theorem value_underSigns_numeral
    (htype : keepsNumbers (types.ofCounterpart counterpart) = true) (signs : List Sign)
    (ds : Digits) :
    value types aliases counterpart ((Expr.literal (numeral ds.chars)).underSigns signs) =
      .ok (signedNumeral (signs.countP Sign.minus % 2 == 1) ds.number) := by
  rw [value_signed, Expr.minusSigns_underSigns, Expr.unsigned_underSigns]
  change ofLiteral _ (signs.countP Sign.minus % 2 == 1) (numeral ds.chars) = _
  generalize (signs.countP Sign.minus % 2 == 1) = minus
  rw [numeral, signedNumeral, Digits.number]
  cases hfits : Decimal.fitsInt64 (Decimal.natOfDigits ds.chars) with
  | true =>
    have hsigned : (minus &&
      !Decimal.fitsInt64 (Decimal.applySign minus (Decimal.natOfDigits ds.chars))) =
        false := by
      rw [fitsInt64_applySign hfits, Bool.not_true, Bool.and_false]
    rw [if_pos rfl, if_pos rfl, ofLiteral]
    exact (if_neg (by rw [Bool.not_eq_true]; exact hsigned)).trans
      (ofNumber_of_keepsNumbers htype _ _)
  | false =>
    rw [if_neg Bool.false_ne_true, if_neg Bool.false_ne_true, ofLiteral]
    exact ofNumber_of_keepsNumbers htype _ _

/-- A whole number under signs never wraps around: it is negated, or else refused. -/
theorem eq_of_value_int (htype : keepsNumbers (types.ofCounterpart counterpart) = true)
    {e : Expr} {n m : Int} (hn : e.unsigned = .literal (.int n))
    (hfits : Decimal.fitsInt64 n = true)
    (h : value types aliases counterpart e = .ok (.int m)) :
    m = (if e.minusSigns % 2 = 1 then -n else n) ∧ Decimal.fitsInt64 m = true := by
  rw [value_signed, hn, signedValue, ofLiteral, ofNumber_of_keepsNumbers htype] at h
  by_cases hodd : e.minusSigns % 2 = 1
  · rw [if_pos hodd]
    rw [hodd, beq_self_eq_true, if_pos rfl, Bool.true_and] at h
    cases hneg : Decimal.fitsInt64 (-n) with
    | true =>
      rw [hneg] at h
      cases h
      exact ⟨rfl, hneg⟩
    | false =>
      rw [hneg] at h
      cases h
  · rw [if_neg hodd]
    rw [beq_eq_false_iff_ne.mpr hodd] at h
    cases h
    exact ⟨rfl, hfits⟩

/-- A number of 64 bits is the value of its digits under its sign, but for the least one. -/
theorem signedNumeral_natAbs {v : Int} (hv : Decimal.fitsInt64 v = true) :
    signedNumeral (decide (v < 0)) v.natAbs =
      if v = -9223372036854775808 then
        .double (-Decimal.floatOf 9223372036854775808 0) else .int v := by
  by_cases hleast : v = -9223372036854775808
  · subst hleast
    rfl
  · have hfits : Decimal.fitsInt64 v.natAbs = true := by
      simp only [Decimal.fitsInt64, Bool.and_eq_true, decide_eq_true_eq] at hv ⊢
      omega
    have hsigned : Decimal.applySign (decide (v < 0)) v.natAbs = v := by
      by_cases hneg : v < 0
      · rw [decide_eq_true hneg, Decimal.applySign, if_pos rfl]
        omega
      · rw [decide_eq_false hneg, Decimal.applySign, if_neg Bool.false_ne_true]
        omega
    rw [signedNumeral, if_pos hfits, hsigned, if_neg hleast]

end Operand

/-- **Whole numbers survive, but for the least one.**  The text of a number of 64 bits is
read and has the number as its value, beside a field of numbers or of no declared type;
the least number has a double instead.  Digits under any signs have the number that they
stand for as their value, negated for an odd number of minus signs, exactly if the digits
alone fit.  No number ever wraps around. -/
theorem whole_numbers_survive_but_least {types : FieldTypes} {counterpart : Option Expr}
    (htype : Operand.keepsNumbers (types.ofCounterpart counterpart) = true)
    (aliases : Option Aliases) :
    (∀ v : Int, Decimal.fitsInt64 v = true →
      ∃ e, parseExpr.run (toString v).toList = .ok (e, []) ∧
      Operand.value types aliases counterpart e =
        .ok (if v = -9223372036854775808 then
          .double (-Decimal.floatOf 9223372036854775808 0) else .int v)) ∧
    (∀ (signs : List Sign) (ds : Digits), ∃ e,
      parseExpr.run (signedText signs ds) = .ok (e, []) ∧
      Operand.value types aliases counterpart e =
        .ok (Operand.signedNumeral (signs.countP Sign.minus % 2 == 1) ds.number)) ∧
    ∀ (e : Expr) (n m : Int), e.unsigned = .literal (.int n) → Decimal.fitsInt64 n = true →
      Operand.value types aliases counterpart e = .ok (.int m) →
        m = (if e.minusSigns % 2 = 1 then -n else n) ∧ Decimal.fitsInt64 m = true := by
  have hread (signs : List Sign)
    (ds : Digits) : ∃ e, parseExpr.run (signedText signs ds) = .ok (e, []) ∧
      Operand.value types aliases counterpart e =
        .ok (Operand.signedNumeral (signs.countP Sign.minus % 2 == 1) ds.number) :=
    ⟨_, run_parseExpr_signed signs ds, Operand.value_underSigns_numeral htype signs ds⟩
  refine ⟨fun v hv => ?_, hread, fun e n m => Operand.eq_of_value_int htype⟩
  obtain ⟨e, hrun, hvalue⟩ :=
    hread (if v < 0 then [⟨true, [], by simp⟩] else []) (.ofNat v.natAbs)
  rw [← toList_toString_int] at hrun
  refine ⟨e, hrun, ?_⟩
  have hminus : (List.countP Sign.minus (if v < 0 then [⟨true, [], by simp⟩] else []) %
    2 == 1) =
      decide (v < 0) := by
    by_cases hneg : v < 0
    · simp [hneg]
    · simp [hneg]
  rw [hvalue, hminus, Digits.number_ofNat, Operand.signedNumeral_natAbs hv]

/-- The least number becomes a double, the next one stays whole, three signs before `007`
give `-7`, and `- + 5` is `-5`. -/
theorem whole_numbers_survive_but_least_undeclared :
    Operand.keepsNumbers (FieldTypes.ofCounterpart {} none) = true ∧
    (Decimal.fitsInt64 (-9223372036854775808) = true ∧
      ∃ e, parseExpr.run (toString (-9223372036854775808 : Int)).toList = .ok (e, []) ∧
        Operand.value {} none none e =
          .ok (.double (-Decimal.floatOf 9223372036854775808 0))) ∧
    (Decimal.fitsInt64 (-9223372036854775807) = true ∧
      ∃ e, parseExpr.run (toString (-9223372036854775807 : Int)).toList = .ok (e, []) ∧
        Operand.value {} none none e = .ok (.int (-9223372036854775807))) ∧
    (∃ e, parseExpr.run "-- -007".toList = .ok (e, []) ∧
      Operand.value {} none none e = .ok (.int (-7))) ∧
    (Operand.value {} none none (.signed true (.signed false (.literal (.int 5)))) =
      .ok (.int (-5)) ∧
      (-5 : Int) = (if 1 % 2 = 1 then -5 else 5) ∧ Decimal.fitsInt64 (-5) = true) := by
  have h := @whole_numbers_survive_but_least {} none rfl none
  refine ⟨rfl, ⟨by decide, ?_⟩, ⟨by decide, ?_⟩, ?_, rfl, ?_⟩
  · have hleast := h.1 (-9223372036854775808) (by decide)
    rw [if_pos rfl] at hleast
    exact hleast
  · have hnext := h.1 (-9223372036854775807) (by decide)
    rw [if_neg (by decide)] at hnext
    exact hnext
  · have hsigns := h.2.1
      [⟨true, [], by simp⟩, ⟨true, [' '], List.all_eq_true.mp (by decide)⟩,
        ⟨true, [], by simp⟩]
      ⟨"007".toList, by decide, List.all_eq_true.mp (by decide)⟩
    rw [Operand.signedNumeral, if_pos (by decide)] at hsigns
    exact hsigns
  · exact h.2.2 (.signed true (.signed false (.literal (.int 5)))) 5 _ rfl (by decide) rfl

end DocQuery
