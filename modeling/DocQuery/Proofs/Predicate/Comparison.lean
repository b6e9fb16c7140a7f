import DocQuery.Predicate.Filter
import DocQuery.Proofs.Outcome
import DocQuery.Proofs.Predicate.Meaning

/-!
# Comparisons of fields with literals

The filter of `field op literal`, in both forms that it has, and the documents that it
accepts.

* `Sql.Column.IsField`, `Sql.Expr.IsNumber`, `Sql.Expr.IsLiteral` — the two sides
* `Operand.constant?_of_value` — the value of a literal is the one that it is written as
* `Filter.fieldTest`, `Filter.comparison_field` — the filter of a comparison
* `Filter.accepts_fieldTest_flat`, `Filter.accepts_fieldTest_between` — what it accepts

### What is load-bearing

A field whose name begins with a dollar sign would be read as an operator in a flat
filter, and is a variable in an expression.  A string that begins with one is the path of
a field in an expression and nothing else than a string in a flat filter; the lemmas on
expressions exclude it.
-/

namespace DocQuery

open Sql

/-! ### Fields and literals -/

/-- A text that begins with a dollar sign. -/
def Text.isDollar (text : String) : Bool :=
  text.toList.head? == some '$'

namespace Sql

/-- A column that names a field: it is not quoted, and its path does not begin with a
dollar sign. -/
structure Column.IsField (c : Column) : Prop where
  unquoted : c.quoted = false
  plain : Text.isDollar c.fullName = false

namespace Expr

/-- A whole number in a range, under any number of signs. -/
inductive IsNumber (range : Int → Prop) : Expr → Prop
  | digits {n : Int} (hn : range n) : IsNumber range (.literal (.int n))
  | signed (negative : Bool) {e : Expr}
    (he : IsNumber range e) : IsNumber range (.signed negative e)

/-- A literal: a whole number, or a string that does not name a truth value. -/
inductive IsLiteral (range : Int → Prop) : Expr → Prop
  | number {e : Expr} (he : IsNumber range e) : IsLiteral range e
  | text {raw : String} (hraw : Operand.readBool? (Operand.unquote raw) = none) :
    IsLiteral range (.literal (.string raw))

variable {range : Int → Prop} {e : Expr}

theorem IsLiteral.isConstant (h : IsLiteral range e) : Filter.isConstant e = true := by
  cases h with
  | number he => cases he <;> rfl
  | text hraw => rfl

/-- A literal has its value in every document. -/
theorem IsLiteral.valueIn_eq (h : IsLiteral range e) (d : Document) :
    e.valueIn d = e.constant? := by
  cases h with
  | number he => cases he <;> rfl
  | text hraw => rfl

end Expr

end Sql

/-- A whole number or a string. -/
def Value.isBasic : Value → Bool
  | .int _ | .string _ => true
  | _ => false

/-- A string that an expression reads as the path of a field. -/
def Value.isReference : Value → Bool
  | .string s => Text.isDollar s
  | _ => false

/-! ### Values of literals -/

namespace Operand

variable {range : Int → Prop} {aliases : Option Aliases} {counterpart : Option Expr}
  {e : Expr}

/-- A number has the value that its signs give it, if it has one.  Signs are counted on
the way in and applied on the way out, so the count in front of the number is part of the
statement. -/
theorem constant?_of_signedValue (he : e.IsNumber range) {negative : Bool} {v : Value}
    (h : signedValue .unknown aliases negative e = .ok v) :
    ∃ n, e.constant? = some (.int n) ∧ v = .int (if negative then -n else n) := by
  induction he generalizing negative with
  | @digits n hn =>
    refine ⟨n, rfl, ?_⟩
    simp only [signedValue, ofLiteral] at h
    generalize (if negative = true then -n else n) = signed at h ⊢
    split at h
    · cases h
    · exact (Except.ok.inj h).symm
  | signed minus he ih =>
    rw [signedValue] at h
    obtain ⟨n, hn, hv⟩ := ih h
    refine ⟨if minus then -n else n, by rw [Expr.constant?, hn], ?_⟩
    rw [hv]
    -- two signs of one kind cancel out
    cases negative <;> cases minus <;> simp

/-- A number that fits without its signs has a value. -/
theorem exists_signedValue (he : e.IsNumber fun n => 0 ≤ n ∧ Decimal.fitsInt64 n = true)
    (negative : Bool) :
    ∃ v, signedValue .unknown aliases negative e = .ok v := by
  induction he generalizing negative with
  | @digits n hn =>
    obtain ⟨hleast, hmost⟩ := hn
    have hfits : Decimal.fitsInt64 (-n) = true := by
      simp only [Decimal.fitsInt64, Bool.and_eq_true, decide_eq_true_eq] at hmost ⊢
      omega
    refine ⟨.int (if negative then -n else n), ?_⟩
    cases negative with
    | false => rfl
    | true => simp [signedValue, ofLiteral, ofNumber, hfits]
  | signed minus he ih =>
    rw [signedValue]
    exact ih (negative != minus)

theorem ofCounterpart_empty (counterpart : Option Expr) :
    FieldTypes.ofCounterpart {} counterpart = .unknown := by
  cases counterpart <;> rfl

theorem value_text {raw : String} (hraw : readBool? (unquote raw) = none) :
    value {} aliases counterpart (.literal (.string raw)) = .ok (.string (unquote raw)) := by
  simp [value, ofCounterpart_empty, signedValue, ofLiteral, ofText, hraw]

/-- **Without declared types a literal has the value that it is written as.** -/
theorem constant?_of_value (he : e.IsLiteral range) {v : Value}
    (h : value {} aliases counterpart e = .ok v) :
    e.constant? = some v ∧ v.isBasic = true := by
  cases he with
  | number he =>
    rw [value, ofCounterpart_empty] at h
    obtain ⟨n, hn, rfl⟩ := constant?_of_signedValue he h
    exact ⟨hn, rfl⟩
  | text hraw =>
    rw [value_text hraw] at h
    cases h
    exact ⟨rfl, rfl⟩

/-- A literal whose digits fit has the value that it is written as. -/
theorem exists_value (aliases : Option Aliases) (counterpart : Option Expr)
    (he : e.IsLiteral fun n => 0 ≤ n ∧ Decimal.fitsInt64 n = true) :
    ∃ v, value {} aliases counterpart e = .ok v ∧ e.constant? = some v ∧
      v.isBasic = true := by
  have hvalue : ∃ v, value {} aliases counterpart e = .ok v := by
    cases he with
    | number he =>
      rw [value, ofCounterpart_empty]
      exact exists_signedValue he false
    | text hraw => exact ⟨_, value_text hraw⟩
  obtain ⟨v, hv⟩ := hvalue
  exact ⟨v, hv, constant?_of_value he hv⟩

end Operand

namespace Filter

/-! ### The filter of a comparison -/

/-- The filter that compares a field with a value. -/
def fieldTest (ctx : Context) (c : Column) (op : Comparison) (v : Value) : Document :=
  if ctx.staged then applied ctx (operator op) (columnReference ctx c) v
  else keyed (ctx.fieldName c) op v

theorem isCall_eq_false {e : Expr} (h : isConstant e = true) : isCall e = false := by
  cases e with
  | call name distinct args => cases h
  | _ => rfl

theorem field?_eq_none {e : Expr} (h : isConstant e = true) : field? e = none := by
  cases e with
  | column c => exact if_pos h
  | _ => rfl

/-- **A comparison of a field with a constant is none of the special ones.** -/
theorem comparison_field (ctx : Context) (op : Comparison) {c : Column}
    (hc : c.quoted = false) {e : Expr} (he : isConstant e = true)
    (leftNode rightNode : Except Fault Value) :
    comparison ctx op (.column c) e leftNode rightNode = (do
      let v ← ctx.value (some (.column c)) e
      return fieldTest ctx c op v) := by
  -- the special comparisons all need a call on one of the sides
  have hmatch : Match.ofComparison? op (.column c) e = .ok none := by cases op <;> rfl
  have hmoment : Moment.ofComparison? op (.column c) e = .ok none := rfl
  have hidentity : Identity.ofComparison? op (.column c) e = none := by
    cases e with
    | call name distinct args => cases he
    | _ => rfl
  have hplain : plainComparison ctx op (.column c) e leftNode rightNode = (do
      let v ← ctx.value (some (.column c)) e
      return fieldTest ctx c op v) := by
    unfold plainComparison fieldTest
    rw [isCall_eq_false he, field?_eq_none he]
    simp only [isCall, field?, hc, he, Bool.or_self, Bool.false_eq_true, if_false, if_true]
    cases ctx.staged <;> rfl
  unfold comparison
  rw [hmatch, hmoment, hidentity]
  exact hplain

variable {ctx : Context} {c : Column} {e low high : Expr}

theorem compile_compare (op : Comparison) (hc : c.quoted = false) (he : isConstant e = true) :
    compile ctx (.compare op (.column c) e) = (do
      let v ← ctx.value (some (.column c)) e
      return fieldTest ctx c op v) := by
  rw [compile, node, comparison_field ctx op hc he]
  cases ctx.value (some (.column c)) e <;> rfl

theorem compile_not_compare (op : Comparison) (hc : c.quoted = false)
    (he : isConstant e = true) :
    compile ctx (.not (.compare op (.column c) e)) = (do
      let v ← ctx.value (some (.column c)) e
      return negated (fieldTest ctx c op v)) := by
  rw [compile, node, negation, node, comparison_field ctx op hc he]
  cases ctx.value (some (.column c)) e <;> rfl

theorem compile_between (complement : Bool) (hc : c.quoted = false)
    (hlow : isConstant low = true) (hhigh : isConstant high = true) :
    compile ctx (.between complement (.column c) low high) = (do
      let least ← ctx.value (some (.column c)) low
      let greatest ← ctx.value (some (.column c)) high
      let leg (d : Document) : Document := if complement then negated d else d
      return conjoin "$and" false (leg (fieldTest ctx c .ge least))
        (leg (fieldTest ctx c .le greatest))) := by
  rw [compile, node, comparison_field ctx .ge hc hlow, comparison_field ctx .le hc hhigh]
  cases ctx.value (some (.column c)) low with
  | error fault => rfl
  | ok least => cases ctx.value (some (.column c)) high <;> rfl

/-! ### What flat comparisons accept -/

theorem same_eq_isTrueOf (a v : Value) :
    same (some a) v = Comparison.eq.isTrueOf (some a) (some v) := by
  simp only [same, Comparison.isTrueOf, Option.bind_some]
  cases a.order? v <;> rfl

/-- An operator of the database tests what the comparison of that name says. -/
theorem satisfies_operator (op : Comparison) (a v : Value) :
    satisfies (some a) (operator op) v = op.isTrueOf (some a) (some v) := by
  cases op with
  | eq => exact same_eq_isTrueOf a v
  | ne =>
    have hne : satisfies (some a) (operator .ne) v = !same (some a) v := rfl
    rw [hne]
    simp only [same, Comparison.isTrueOf, Option.bind_some]
    -- values without an order are different
    cases a.order? v with
    | none => rfl
    | some o => cases o <;> rfl
  | _ =>
    simp only [Comparison.isTrueOf]
    cases h : a.order? v <;> simp [satisfies, operator, Comparison.operatorName, h,
      Comparison.fits]

/-- A value passes a test with a whole number or a string if it satisfies the operator. -/
theorem passes_of_isBasic (v : Option Value) (operator : String) {w : Value}
    (hw : w.isBasic = true) : passes v operator w = satisfies v operator w := by
  cases w with
  | int n => rw [passes]; simp
  | string s => rw [passes]; simp
  | _ => cases hw

variable {types : FieldTypes} {d : Document} {a v : Value}

/-- A name that does not begin with a dollar sign is not that of an expression. -/
theorem ne_expr_of_isDollar {name : String} (h : Text.isDollar name = false) :
    name ≠ "$expr" := by
  rintro rfl
  cases h

/-- **A flat comparison accepts the documents of which it is true.** -/
theorem accepts_fieldTest_flat (hc : c.IsField) (hv : v.isBasic = true)
    (ha : d.at? c.fullName = some a) (op : Comparison) :
    accepts d (fieldTest (.flat types) c op v) = op.isTrueOf (some a) (some v) := by
  have hentry : acceptsEntry d c.fullName v = same (some a) v := by
    cases v with
    | int n => rw [acceptsEntry, ha] <;> simp
    | string s => rw [acceptsEntry, ha] <;> simp
    | _ => cases hv
  have hoperator : acceptsEntry d c.fullName (.document (.single (operator op) v)) =
      op.isTrueOf (some a) (some v) := by
    rw [acceptsEntry_tests d _ (ne_expr_of_isDollar hc.plain), ha, Document.single, passesAll,
      passesAll, passes_of_isBasic _ _ hv, satisfies_operator, Bool.and_true]
  cases op with
  | eq => exact (accepts_single d c.fullName v).trans (hentry.trans (same_eq_isTrueOf a v))
  | _ => exact (accepts_single d c.fullName _).trans hoperator

/-- A flat comparison with a missing field is true for inequality only. -/
theorem accepts_fieldTest_flat_missing (hc : c.IsField) (hv : v.isBasic = true)
    (hmissing : d.at? c.fullName = none) (op : Comparison) :
    accepts d (fieldTest (.flat types) c op v) = (op == .ne) := by
  have hentry : acceptsEntry d c.fullName v = false := by
    cases v with
    | int n => rw [acceptsEntry, hmissing] <;> simp [same]
    | string s => rw [acceptsEntry, hmissing] <;> simp [same]
    | _ => cases hv
  have hoperator : acceptsEntry d c.fullName (.document (.single (operator op) v)) =
      satisfies none (operator op) v := by
    rw [acceptsEntry_tests d _ (ne_expr_of_isDollar hc.plain), hmissing, Document.single,
      passesAll, passesAll, passes_of_isBasic _ _ hv, Bool.and_true]
  cases op with
  | eq => exact (accepts_single d c.fullName v).trans hentry
  | ne => exact (accepts_single d c.fullName _).trans hoperator
  | _ => exact ((accepts_single d c.fullName _).trans hoperator).trans rfl

/-- A negated flat comparison accepts the other documents.  Equality has no operator to
negate. -/
theorem accepts_negated_fieldTest_flat (hc : c.IsField) (hv : v.isBasic = true)
    (ha : d.at? c.fullName = some a) {op : Comparison} (hop : op ≠ .eq) :
    accepts d (negated (fieldTest (.flat types) c op v)) =
      !op.isTrueOf (some a) (some v) := by
  have hkeyed : fieldTest (.flat types) c op v =
      .single c.fullName (.document (.single (operator op) v)) := by
    cases op with
    | eq => exact absurd rfl hop
    | _ => rfl
  have hnegated : negated (.single c.fullName (.document (.single (operator op) v))) =
      .single c.fullName (.document (.single "$not" (.document (.single (operator op) v)))) :=
    rfl
  rw [hkeyed, hnegated, accepts_single,
    acceptsEntry_tests d _ (ne_expr_of_isDollar hc.plain), ha]
  simp [Document.single, passesAll, passes, passes_of_isBasic _ _ hv, satisfies_operator]

/-! ### What comparisons between stages accept -/

/-- What is no reference stands for itself. -/
theorem operandIn_of_isReference (d : Document) (h : v.isReference = false) :
    operandIn d v = some v := by
  cases v with
  | string s =>
    rw [operandIn]
    split
    · rename_i path hpath
      simp [Value.isReference, Text.isDollar, hpath] at h
    · rfl
  | _ => rfl

/-- A reference stands for the field behind its dollar sign. -/
theorem operandIn_reference (d : Document) (path : String) :
    operandIn d (.string ("$" ++ path)) = d.at? path := by
  simp [operandIn]

theorem columnReference_between (hc : c.IsField) :
    columnReference (.between types) c = .string ("$" ++ c.fullName) := by
  have hplain : (c.fullName.toList.head? == some '$') = false := hc.plain
  have hname : (Context.between types).fieldName c = c.fullName := rfl
  simp only [columnReference, fieldReference, hname, hplain, Bool.false_eq_true, if_false]

theorem orderFits_operator (op : Comparison) : orderFits (operator op) = op.fits := by
  cases op <;> rfl

theorem fieldTest_between (types : FieldTypes) (c : Column) (op : Comparison) (v : Value) :
    fieldTest (.between types) c op v = .single "$expr" (.document
      (.single (operator op) (.array [columnReference (.between types) c, v]))) := rfl

/-- The expression of a comparison compares its two operands. -/
theorem accepts_fieldTest_between (hc : c.IsField) (op : Comparison) :
    accepts d (fieldTest (.between types) c op v) =
      (expressionOrder? (d.at? c.fullName) (operandIn d v)).any op.fits := by
  rw [fieldTest_between, accepts_single, acceptsEntry_expr, Document.single, expressionHolds,
    columnReference_between hc, operandIn_reference, orderFits_operator]

/-- The negated expression of a comparison accepts the other documents. -/
theorem accepts_negated_fieldTest_between (op : Comparison) :
    accepts d (negated (fieldTest (.between types) c op v)) =
      !accepts d (fieldTest (.between types) c op v) := by
  have hnegated (inner : Document) : negated (.single "$expr" (.document inner)) =
      .single "$expr" (.document (.single "$not" (.document inner))) := rfl
  rw [fieldTest_between, hnegated]
  simp [Document.single, accepts, acceptsEntries, acceptsEntry, expressionHolds]

/-- Values of one kind are compared in an expression as they are elsewhere. -/
theorem expressionOrder?_of_order? {a v : Value} (h : (a.order? v).isSome = true) :
    expressionOrder? (some a) (some v) = a.order? v := by
  cases a with
  | int m =>
    cases v with
    | int n => rfl
    | _ => cases h
  | string s =>
    cases v with
    | string t => rfl
    | _ => cases h
  | _ => cases h

/-- **Between stages a comparison of values of one kind accepts the documents of which it
is true**, unless the literal is a reference. -/
theorem accepts_fieldTest_between_of_order? (hc : c.IsField) (hv : v.isReference = false)
    (ha : d.at? c.fullName = some a) (hkind : (a.order? v).isSome = true) (op : Comparison) :
    accepts d (fieldTest (.between types) c op v) = op.isTrueOf (some a) (some v) := by
  rw [accepts_fieldTest_between hc, ha, operandIn_of_isReference d hv,
    expressionOrder?_of_order? hkind]
  obtain ⟨o, ho⟩ := Option.isSome_iff_exists.mp hkind
  simp only [Comparison.isTrueOf, ho, Option.any_some]

end Filter

end DocQuery
