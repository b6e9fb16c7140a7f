import DocQuery.Proofs.Predicate.Comparison
import DocQuery.Proofs.Predicate.Joined

/-!
# Ranges and negated ranges

A range joins two comparisons, one with each bound.  A negated range negates each of the
two and joins the negations by AND again, so it accepts what lies below the lower bound
and above the upper one.

* `Filter.Context.onRows` — the contexts of filters on rows, flat and between stages
* `Filter.accepts_negated_fieldTest` — a negated comparison accepts the other documents
* `Filter.compile_ranges` — the two filters of a range, and those of its comparisons
* `Operand.exists_value_number` — a whole number beside a field that keeps numbers
* `Filter.not_between_accepts_neither` — what the two filters accept

### What is load-bearing

Both negations are exact, whatever the field holds: `$not` is the complement of the tests
behind it.  So nothing is lost in the legs, and all that keeps the two filters from being
complements is that the negated legs are joined like the legs themselves.
-/

namespace DocQuery

open Sql

namespace Filter

/-- The context of a filter on rows, flat or between stages. -/
def Context.onRows (types : FieldTypes) (staged : Bool) : Context :=
  ⟨types, staged, none⟩

variable {types : FieldTypes} {staged : Bool} {c : Column} {low high : Expr} {d : Document}

/-! ### Negated comparisons -/

/-- **A negated comparison accepts the documents that the comparison rejects.**  A flat
equality has no operator to negate. -/
theorem accepts_negated_fieldTest {op : Comparison} (hop : op ≠ .eq) (v : Value)
    (d : Document) :
    accepts d (negated (fieldTest (.onRows types staged) c op v)) =
      !accepts d (fieldTest (.onRows types staged) c op v) := by
  cases staged with
  | true => exact accepts_negated_fieldTest_between op
  | false =>
    have hkeyed : fieldTest (.onRows types false) c op v =
        .single c.fullName (.document (.single (operator op) v)) := by
      cases op with
      | eq => exact absurd rfl hop
      | _ => rfl
    have hnegated : negated (.single c.fullName (.document (.single (operator op) v))) =
        .single c.fullName
          (.document (.single "$not" (.document (.single (operator op) v)))) := rfl
    rw [hkeyed, hnegated, accepts_single, accepts_single]
    -- a column may be called like the key of expressions, which are negated in the same
    -- way
    by_cases hname : c.fullName = "$expr"
    · rw [hname, acceptsEntry_expr, acceptsEntry_expr]
      simp [Document.single, expressionHolds]
    · rw [acceptsEntry_tests d _ hname, acceptsEntry_tests d _ hname]
      simp [Document.single, passesAll, passes]

/-- **The two filters of a range.**  They are there exactly if those of the comparisons
with the bounds are; the range accepts what both comparisons accept, and the negated range
what neither accepts. -/
theorem compile_ranges (types : FieldTypes) (staged : Bool) (hc : c.quoted = false)
    (hlow : isConstant low = true) (hhigh : isConstant high = true) :
    (∃ fault, ∀ negated,
      compile (.onRows types staged) (.between negated (.column c) low high) = .error fault) ∨
    ∃ f g least most,
      compile (.onRows types staged) (.between false (.column c) low high) = .ok f ∧
      compile (.onRows types staged) (.between true (.column c) low high) = .ok g ∧
      compile (.onRows types staged) (.compare .ge (.column c) low) = .ok least ∧
      compile (.onRows types staged) (.compare .le (.column c) high) = .ok most ∧
      ∀ d, accepts d f = (accepts d least && accepts d most) ∧
        accepts d g = (!accepts d least && !accepts d most) := by
  simp only [compile_between _ hc hlow hhigh, compile_compare _ hc hlow,
    compile_compare _ hc hhigh]
  cases (Context.onRows types staged).value (some (.column c)) low with
  | error fault => exact .inl ⟨fault, fun _ => rfl⟩
  | ok l =>
    cases (Context.onRows types staged).value (some (.column c)) high with
    | error fault => exact .inl ⟨fault, fun _ => rfl⟩
    | ok h =>
      refine .inr ⟨_, _, _, _, rfl, rfl, rfl, rfl, fun d => ⟨accepts_conjoin_legs d _ _, ?_⟩⟩
      refine (accepts_conjoin_legs d _ _).trans ?_
      exact congr (congrArg and (accepts_negated_fieldTest (by decide) l d))
        (accepts_negated_fieldTest (by decide) h d)

end Filter

/-! ### Whole numbers -/

/-- Whether numbers beside a field of a type stay as they are written. -/
def FieldType.keepsNumbers : FieldType → Bool
  | .number | .unknown => true
  | _ => false

/-- A whole number of 64 bits, under any number of signs. -/
abbrev Sql.Expr.IsBound : Expr → Prop :=
  Expr.IsNumber fun n => 0 ≤ n ∧ Decimal.fitsInt64 n = true

/-- A number is read alike whether the field is declared to hold numbers or not declared
at all. -/
theorem Operand.signedValue_of_keepsNumbers {type : FieldType}
    (htype : type.keepsNumbers = true) {range : Int → Prop} {e : Expr} (he : e.IsNumber range)
    (aliases : Option Aliases) (negative : Bool) :
    signedValue type aliases negative e = signedValue .unknown aliases negative e := by
  induction he generalizing negative with
  | digits hn =>
    cases type with
    | number => rfl
    | unknown => rfl
    | _ => cases htype
  | signed minus he ih =>
    rw [signedValue, signedValue]
    exact ih (negative != minus)

/-- **A whole number beside a field that keeps numbers** has the value that it is written
as. -/
theorem Operand.exists_value_number {types : FieldTypes} {c : Column} (hc : c.quoted = false)
    (htype : (types.typeOf c.fullName).keepsNumbers = true) {e : Expr} (he : e.IsBound) :
    ∃ n, value types none (some (.column c)) e = .ok (.int n) ∧
      e.constant? = some (.int n) := by
  have htypeOf : types.ofCounterpart (some (.column c)) = types.typeOf c.fullName := by
    simp [FieldTypes.ofCounterpart, Expr.stringValue, hc]
  obtain ⟨v, hv⟩ := @exists_signedValue none e he false
  obtain ⟨n, hn, rfl⟩ := constant?_of_signedValue he hv
  refine ⟨n, ?_, hn⟩
  rw [value, htypeOf, signedValue_of_keepsNumbers htype he]
  exact hv

namespace Filter

/-- A comparison of whole numbers accepts the documents whose number is in the order asked
for. -/
theorem accepts_fieldTest_int {types : FieldTypes} {staged : Bool} {c : Column}
    (hc : c.IsField) {d : Document} {n : Int} (hn : d.at? c.fullName = some (.int n))
    (op : Comparison) (m : Int) :
    accepts d (fieldTest (.onRows types staged) c op (.int m)) = op.fits (compare n m) := by
  cases staged with
  | true => exact accepts_fieldTest_between_of_order? hc rfl hn rfl op
  | false => exact accepts_fieldTest_flat hc rfl hn op

/-- **What a range and a negated range accept.**  The range accepts a document if both of
its comparisons do, and the negated range if neither does.  So of whole numbers in a field
the negated range accepts those that are below the lower bound and above the upper one,
and the two filters are complements on a document exactly if its number passes both
comparisons or none. -/
theorem not_between_accepts_neither (types : FieldTypes) (staged : Bool) {c : Column}
    (hc : c.quoted = false) {low high : Expr} (hlow : low.IsBound) (hhigh : high.IsBound) :
    ((∃ fault, ∀ negated,
        compile (.onRows types staged) (.between negated (.column c) low high) =
          .error fault) ∨
      ∃ f g least most,
        compile (.onRows types staged) (.between false (.column c) low high) = .ok f ∧
        compile (.onRows types staged) (.between true (.column c) low high) = .ok g ∧
        compile (.onRows types staged) (.compare .ge (.column c) low) = .ok least ∧
        compile (.onRows types staged) (.compare .le (.column c) high) = .ok most ∧
        ∀ d, accepts d f = (accepts d least && accepts d most) ∧
          accepts d g = (!accepts d least && !accepts d most)) ∧
    (c.IsField → (types.typeOf c.fullName).keepsNumbers = true → ∃ l h f g,
      low.constant? = some (.int l) ∧ high.constant? = some (.int h) ∧
      compile (.onRows types staged) (.between false (.column c) low high) = .ok f ∧
      compile (.onRows types staged) (.between true (.column c) low high) = .ok g ∧
      ∀ d n, d.at? c.fullName = some (.int n) →
        (accepts d f = true ↔ l ≤ n ∧ n ≤ h) ∧
        (accepts d g = true ↔ n < l ∧ h < n) ∧
        ((accepts d g = true ↔ accepts d f = false) ↔ (l ≤ n ↔ n ≤ h))) := by
  have hlowConstant : isConstant low = true := Expr.IsLiteral.isConstant (.number hlow)
  have hhighConstant : isConstant high = true := Expr.IsLiteral.isConstant (.number hhigh)
  have hranges := compile_ranges types staged hc hlowConstant hhighConstant
  refine ⟨hranges, fun hfield htype => ?_⟩
  obtain ⟨l, hl, hlconstant⟩ := Operand.exists_value_number hc htype hlow
  obtain ⟨h, hh, hhconstant⟩ := Operand.exists_value_number hc htype hhigh
  have hleast : compile (.onRows types staged) (.compare .ge (.column c) low) =
      .ok (fieldTest (.onRows types staged) c .ge (.int l)) := by
    rw [compile_compare _ hc hlowConstant]
    exact Outcome.bind_eq_ok.mpr ⟨_, hl, rfl⟩
  have hmost : compile (.onRows types staged) (.compare .le (.column c) high) =
      .ok (fieldTest (.onRows types staged) c .le (.int h)) := by
    rw [compile_compare _ hc hhighConstant]
    exact Outcome.bind_eq_ok.mpr ⟨_, hh, rfl⟩
  rcases hranges with ⟨fault, hfault⟩ | ⟨f, g, least, most, hf, hg, hleast', hmost', haccepts⟩
  · -- both bounds have a value, so there is no fault
    have hok := hfault false
    rw [compile_between _ hc hlowConstant hhighConstant] at hok
    rw [show (Context.onRows types staged).value (some (.column c)) low =
      .ok (.int l) from hl, show (Context.onRows types staged).value (some (.column c)) high =
        .ok (.int h) from hh] at hok
    cases hok
  · cases hleast.symm.trans hleast'
    cases hmost.symm.trans hmost'
    refine ⟨l, h, f, g, hlconstant, hhconstant, hf, hg, fun d n hn => ?_⟩
    have hge : accepts d (fieldTest (.onRows types staged) c .ge (.int l)) = true ↔
        l ≤ n := by
      rw [accepts_fieldTest_int hfield hn]
      exact Std.isGE_compare
    have hle : accepts d (fieldTest (.onRows types staged) c .le (.int h)) = true ↔
        n ≤ h := by
      rw [accepts_fieldTest_int hfield hn]
      exact Std.isLE_compare
    obtain ⟨hrange, hnegated⟩ := haccepts d
    have hgaccepts : accepts d g = true ↔ n < l ∧ h < n := by
      rw [hnegated, Bool.and_eq_true, Bool.not_eq_true', Bool.not_eq_true',
        ← Bool.not_eq_true, ← Bool.not_eq_true, hge, hle, Int.not_le, Int.not_le]
    have hfaccepts : accepts d f = true ↔ l ≤ n ∧ n ≤ h := by
      rw [hrange, Bool.and_eq_true, hge, hle]
    refine ⟨hfaccepts, hgaccepts, ?_⟩
    rw [← Bool.not_eq_true, hgaccepts, hfaccepts]
    omega

/-! ### A range of whole numbers -/

/-- `x BETWEEN 1 AND 10`, or its negation. -/
def oneToTen (negated : Bool) : Expr :=
  .between negated (.column (.bare "x")) (.literal (.int 1)) (.literal (.int 10))

/-- The range accepts 5, and the negated range rejects it. -/
theorem not_between_accepts_neither_five :
    (Column.bare "x").IsField ∧ (Expr.literal (.int 1)).IsBound ∧
    (Expr.literal (.int 10)).IsBound ∧
    ∃ f g, compile (.between {}) (oneToTen false) = .ok f ∧
      compile (.between {}) (oneToTen true) = .ok g ∧
      accepts (.single "x" (.int 5)) f = true ∧
      ¬ accepts (.single "x" (.int 5)) g = true := by
  have hc : (Column.bare "x").IsField := ⟨rfl, by decide⟩
  have hone : (Expr.literal (.int 1)).IsBound := .digits (by decide)
  have hten : (Expr.literal (.int 10)).IsBound := .digits (by decide)
  obtain ⟨-, hnumbers⟩ := not_between_accepts_neither {} true hc.unquoted hone hten
  obtain ⟨l, h, f, g, hl, hh, hf, hg, haccepts⟩ := hnumbers hc rfl
  cases hl
  cases hh
  obtain ⟨hrange, hnegated, -⟩ := haccepts (.single "x" (.int 5)) 5 rfl
  refine ⟨hc, hone, hten, f, g, hf, hg, hrange.mpr (by decide), fun hno => ?_⟩
  exact absurd (hnegated.mp hno) (by decide)

/-- **A number above the range is rejected by the range and by its negation**, flat and
between stages. -/
theorem not_between_rejects_above :
    (∃ f g, compile (.flat {}) (oneToTen false) = .ok f ∧
      compile (.flat {}) (oneToTen true) = .ok g ∧
      ¬ (accepts (.single "x" (.int 20)) g = true ↔
        accepts (.single "x" (.int 20)) f = false)) ∧
    ∃ f g, compile (.between {}) (oneToTen false) = .ok f ∧
      compile (.between {}) (oneToTen true) = .ok g ∧
      ¬ (accepts (.single "x" (.int 20)) g = true ↔
        accepts (.single "x" (.int 20)) f = false) :=
  ⟨⟨_, _, rfl, rfl, by decide⟩, _, _, rfl, rfl, by decide⟩

end Filter

end DocQuery
