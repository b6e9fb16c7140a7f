import DocQuery.Proofs.Predicate.Modes
import DocQuery.Proofs.Predicate.Ranges

/-!
# Comparisons with the literal in front

`literal op field` asks the same as `field op' literal`, where `op'` looks from the other
side.  Between stages the two have filters that accept the same documents; flat filters
never do.

* `Sql.Comparison.swap` — an operator seen from the other side
* `Filter.expressionOrder?_swap` — the order of two operands, seen from the other side
* `Filter.reversedTest`, `Filter.compile_reversed` — the filter of a comparison with the
  literal in front
* `Filter.accepts_reversedTest_between` — between stages it is that of the swapped comparison
* `Filter.accepts_reversedTest_flat`, `Filter.exists_accepts_ne` — what it is in a flat filter
* `Filter.literal_first_agrees_staged` — the four filters together

### What is load-bearing

An expression takes its operands in either order.  A flat filter has a place for a field
and a place for a value, and a comparison fills them by position: a string in front is
taken for the field, and the text of the field's path for the value.  Anything else in
front leaves no field at all, and what is then written is no test of the database.
-/

namespace DocQuery

open Sql

/-! ### The other side -/

/-- An operator seen from the other side. -/
def Sql.Comparison.swap : Comparison → Comparison
  | .eq => .eq
  | .ne => .ne
  | .lt => .gt
  | .le => .ge
  | .gt => .lt
  | .ge => .le

theorem Sql.Comparison.fits_swap (op : Comparison) (o : Ordering) :
    op.swap.fits o.swap = op.fits o := by
  cases op <;> cases o <;> rfl

theorem Value.order?_swap (a b : Value) : b.order? a = (a.order? b).map Ordering.swap := by
  cases a with
  | int m =>
    cases b with
    | int n => exact congrArg some Std.OrientedCmp.eq_swap
    | _ => rfl
  | string s =>
    cases b with
    | string t => exact congrArg some Std.OrientedCmp.eq_swap
    | _ => rfl
  | _ => cases b <;> rfl

namespace Filter

variable {types : FieldTypes} {c : Column} {e : Expr} {d : Document}

/-- **Operands of an expression are in the opposite order seen from the other side.** -/
theorem expressionOrder?_swap (l r : Option Value) :
    expressionOrder? r l = (expressionOrder? l r).map Ordering.swap := by
  unfold expressionOrder?
  by_cases hkind : kindRank l = kindRank r
  · rw [if_pos hkind, if_pos hkind.symm]
    cases l with
    | none => cases r <;> rfl
    | some a =>
      cases r with
      | none => rfl
      | some b => exact Value.order?_swap a b
  · rw [if_neg hkind, if_neg (Ne.symm hkind)]
    exact congrArg some Std.OrientedCmp.eq_swap

/-! ### The filter of a reversed comparison -/

/-- The filter that compares a value with a field.  A flat filter takes a string for the
name of a field. -/
def reversedTest (ctx : Context) (c : Column) (op : Comparison) (v : Value) : Document :=
  match ctx.staged, v with
  | false, .string name => keyed name op (columnReference ctx c)
  | _, _ => applied ctx (operator op) v (columnReference ctx c)

/-- A constant beside a field is read like the other side of a comparison. -/
theorem node_constant (ctx : Context) (c : Column) (he : isConstant e = true) :
    node ctx (some (.column c)) e = ctx.value (some (.column c)) e := by
  cases e with
  | literal l => rfl
  | signed negative e => rfl
  | column q => exact if_neg (by simp [show q.quoted = true from he])
  | _ => cases he

/-- **A comparison of a constant with a field is none of the special ones.** -/
theorem compile_reversed (ctx : Context) (op : Comparison) (hc : c.quoted = false)
    (he : isConstant e = true) :
    compile ctx (.compare op e (.column c)) = (do
      let v ← ctx.value (some (.column c)) e
      return reversedTest ctx c op v) := by
  -- the special comparisons all need a call on one of the sides
  have hcall : ∀ name distinct args, e ≠ .call name distinct args := by
    rintro name distinct args rfl
    cases he
  have hmatch : Match.ofComparison? op e (.column c) = .ok none := by
    cases e with
    | call name distinct args => exact absurd rfl (hcall name distinct args)
    | _ => cases op <;> rfl
  have hmoment : Moment.ofComparison? op e (.column c) = .ok none := by
    cases e with
    | call name distinct args => exact absurd rfl (hcall name distinct args)
    | _ => rfl
  have hidentity : Identity.ofComparison? op e (.column c) = none := by
    cases e with
    | call name distinct args => exact absurd rfl (hcall name distinct args)
    | _ => rfl
  have hoperand (inner : Except Fault Value) :
      operand ctx (.column c) inner = .ok (columnReference ctx c) :=
    if_neg (by simp [hc])
  have hplain (rightNode : Except Fault Value) :
      plainComparison ctx op e (.column c) (ctx.value (some (.column c)) e) rightNode = (do
        let v ← ctx.value (some (.column c)) e
        return reversedTest ctx c op v) := by
    unfold plainComparison
    rw [isCall_eq_false he, field?_eq_none he, hoperand]
    cases ctx.value (some (.column c)) e with
    | error fault => rfl
    | ok v => cases hstaged : ctx.staged <;> cases v <;>
      simp [reversedTest, hstaged, isCall] <;> rfl
  rw [compile, node, comparison, hmatch, hmoment, hidentity, node_constant ctx c he]
  simp only [hplain]
  cases ctx.value (some (.column c)) e <;> rfl

/-! ### Between stages -/

/-- **Between stages a reversed comparison accepts what the swapped one accepts.** -/
theorem accepts_reversedTest_between (hc : c.IsField) (op : Comparison) (v : Value)
    (d : Document) :
    accepts d (reversedTest (.between types) c op v) =
      accepts d (fieldTest (.between types) c op.swap v) := by
  have hreversed : reversedTest (.between types) c op v = .single "$expr" (.document
      (.single (operator op) (.array [v, columnReference (.between types) c]))) := rfl
  rw [accepts_fieldTest_between hc, expressionOrder?_swap (operandIn d v), hreversed,
    accepts_single, acceptsEntry_expr, Document.single, expressionHolds,
    columnReference_between hc,
    operandIn_reference, orderFits_operator]
  cases expressionOrder? (operandIn d v) (d.at? c.fullName) with
  | none => rfl
  | some o => exact (op.fits_swap o).symm

/-! ### Flat filters -/

/-- A flat filter of a value in front of a field is that of a field called like the value. -/
theorem reversedTest_flat (hc : c.IsField) (op : Comparison) (s : String) :
    reversedTest (.flat types) c op (.string s) =
      fieldTest (.flat types) (.bare s) op (.string ("$" ++ c.fullName)) := by
  have hreference : columnReference (.flat types) c =
      columnReference (.between types) c := rfl
  rw [← @columnReference_between c types hc, ← hreference]
  rfl

/-- **A flat filter with anything but a string in front accepts nothing.** -/
theorem accepts_reversedTest_flat (op : Comparison) {v : Value} (hv : ∀ s, v ≠ .string s)
    (d : Document) : accepts d (reversedTest (.flat types) c op v) = false := by
  have happlied : reversedTest (.flat types) c op v =
      .single (operator op) (.array [v, columnReference (.flat types) c]) := by
    cases v with
    | string s => exact absurd rfl (hv s)
    | _ => rfl
  rw [happlied, accepts_single]
  cases op <;> rfl

/-- An operator fits the order of some whole number and a given one. -/
theorem exists_fits_int (op : Comparison) (n : Int) : ∃ k :
    Int, op.fits (compare k n) = true := by
  have hbelow : compare (n - 1) n = .lt := Std.compare_eq_lt.mpr (by omega)
  have hself : compare n n = .eq := Std.ReflCmp.compare_self
  have habove : compare (n + 1) n = .gt := Std.compare_eq_gt.mpr (by omega)
  cases op with
  | lt => exact ⟨n - 1, by rw [hbelow]; rfl⟩
  | ne | gt => exact ⟨n + 1, by rw [habove]; rfl⟩
  | eq | le | ge => exact ⟨n, by rw [hself]; rfl⟩

end Filter

/-! ### Texts above others -/

namespace Text

theorem compare_eq_gt {a b : String} (h : b < a) : compare a b = .gt := by
  have hne : a ≠ b := by
    rintro rfl
    exact String.lt_irrefl a h
  exact (if_neg (String.lt_asymm h)).trans (if_neg hne)

theorem lt_append (a : String) : a < a ++ "a" := by
  rw [String.lt_iff, String.toList_append]
  induction a.toList with
  | nil => decide
  | cons x xs ih => exact List.cons_lt_cons_iff.mpr (.inr ⟨rfl, ih⟩)

/-- Above any two texts there is a third. -/
theorem exists_above (a b : String) : ∃ x, compare x a = .gt ∧ compare x b = .gt := by
  rcases String.le_total a b with hle | hle
  · exact ⟨b ++ "a", compare_eq_gt (Std.lt_of_le_of_lt hle (lt_append b)),
      compare_eq_gt (lt_append b)⟩
  · exact ⟨a ++ "a", compare_eq_gt (lt_append a),
      compare_eq_gt (Std.lt_of_le_of_lt hle (lt_append a))⟩

end Text

namespace Filter

/-- Some text is in another relation to a text than values of different kinds are.  Below
the empty text there is none. -/
theorem exists_fits_ne_text (op : Comparison) {s : String} (hs : op = .gt → s ≠ "") :
    ∃ x : String, op.swap.fits (compare x s) ≠ (op == .ne) := by
  have hself : compare s s = .eq := Std.ReflCmp.compare_self
  cases op with
  | lt =>
    refine ⟨s ++ "a", ?_⟩
    rw [Text.compare_eq_gt (Text.lt_append s)]
    decide
  | gt =>
    refine ⟨"", ?_⟩
    have hlt : "" < s := by
      rw [String.lt_iff]
      cases hchars : s.toList with
      | nil => exact absurd (String.toList_inj.mp hchars) (hs rfl)
      | cons x xs => exact List.nil_lt_cons x xs
    have hcompare : compare "" s = .lt := if_pos hlt
    rw [hcompare]
    decide
  | _ => exact ⟨s, by rw [hself]; decide⟩

/-- **A flat filter with a string in front differs from the swapped one.**  On documents
that hold the field alone it tests a field that is not there, or is a document; if the
string is the name of the field itself, the field is compared with its own path. -/
theorem exists_accepts_ne (types : FieldTypes) {c : Column} (hc : c.IsField) (op : Comparison)
    {s : String} (hplain : Text.isDollar s = false) (hs : op = .gt → s ≠ "") :
    ∃ x, accepts (.holding c.fullName x) (reversedTest (.flat types) c op (.string s)) ≠
      accepts (.holding c.fullName x) (fieldTest (.flat types) c op.swap (.string s)) := by
  have hfield : (Column.bare s).IsField := ⟨rfl, hplain⟩
  have hswapped (x : String) :
      accepts (.holding c.fullName x) (fieldTest (.flat types) c op.swap (.string s)) =
        op.swap.fits (compare x s) :=
    accepts_fieldTest_flat hc rfl (Document.at?_holding c.fullName x) op.swap
  simp only [hswapped, reversedTest_flat hc]
  by_cases hname : s = c.fullName
  · -- the field is compared with its path and with its name, so a text above both is wanted
    have hself (x : String) : accepts (.holding c.fullName x)
        (fieldTest (.flat types) (.bare s) op (.string ("$" ++ c.fullName))) =
          op.fits (compare x ("$" ++ c.fullName)) := by
      have hat : (Document.holding c.fullName x).at? (Column.bare s).fullName =
          some (.string x) := by
        rw [show (Column.bare s).fullName = c.fullName from hname]
        exact Document.at?_holding c.fullName x
      exact accepts_fieldTest_flat (v := .string ("$" ++ c.fullName)) hfield rfl hat op
    simp only [hself]
    obtain ⟨x, hpath, hvalue⟩ := Text.exists_above ("$" ++ c.fullName) s
    have hrefl : compare s s = .eq := Std.ReflCmp.compare_self
    have hne : compare s ("$" ++ c.fullName) ≠ .eq := by
      intro heq
      have hdollar : Text.isDollar s = true := by
        rw [Std.LawfulEqCmp.eq_of_compare heq]
        simp [Text.isDollar]
      rw [hplain] at hdollar
      cases hdollar
    cases op with
    | eq => exact ⟨s, by rw [hrefl]; simpa [Comparison.fits, Comparison.swap] using hne⟩
    | ne => exact ⟨s, by rw [hrefl]; simpa [Comparison.fits, Comparison.swap] using hne⟩
    | _ => exact ⟨x, by rw [hpath, hvalue]; decide⟩
  · -- no document that holds the field alone has another text
    have hother (x : String) : accepts (.holding c.fullName x)
        (fieldTest (.flat types) (.bare s) op (.string ("$" ++ c.fullName))) =
          (op == .ne) := by
      rcases Document.at?_holding_of_ne hname with hnone | hsome
      · exact accepts_fieldTest_flat_missing hfield rfl (hnone x) op
      · obtain ⟨inner, hinner⟩ := hsome x
        exact accepts_fieldTest_flat (v := .string ("$" ++ c.fullName)) hfield rfl hinner op
    simp only [hother]
    obtain ⟨x, hx⟩ := exists_fits_ne_text op hs
    exact ⟨x, Ne.symm hx⟩

/-! ### The four filters -/

/-- **A comparison with the literal in front agrees with the swapped one between stages
only.**  If the literal has no value, all four filters fail with its fault.  Between
stages both spellings accept the same documents.  Flat, a literal other than a string
accepts nothing, and a string tests a field of its own name; for whole numbers and strings
there are documents with a value of that kind in the field on which the two spellings
differ, but for `'' > field`. -/
theorem literal_first_agrees_staged (types : FieldTypes) {c : Column} (hc : c.IsField)
    (op : Comparison) {e : Expr} (he : isConstant e = true) :
    (∃ fault, Operand.value types none (some (.column c)) e = .error fault ∧ ∀ staged,
      compile (.onRows types staged) (.compare op e (.column c)) = .error fault ∧
      compile (.onRows types staged) (.compare op.swap (.column c) e) = .error fault) ∨
    ∃ v, Operand.value types none (some (.column c)) e = .ok v ∧
      (∃ f g, compile (.onRows types true) (.compare op e (.column c)) = .ok f ∧
        compile (.onRows types true) (.compare op.swap (.column c) e) = .ok g ∧
        ∀ d, accepts d f = accepts d g) ∧
      ∃ f g, compile (.onRows types false) (.compare op e (.column c)) = .ok f ∧
        compile (.onRows types false) (.compare op.swap (.column c) e) = .ok g ∧
        ((∀ s, v ≠ .string s) → ∀ d, accepts d f = false) ∧
        (∀ n, v = .int n → ∃ d k, d.at? c.fullName = some (.int k) ∧ accepts d g = true) ∧
        ∀ s, v = .string s → f = keyed s op (.string ("$" ++ c.fullName)) ∧
          (Text.isDollar s = false → (op = .gt → s ≠ "") →
            ∃ d x, d.at? c.fullName = some (.string x) ∧ accepts d f ≠ accepts d g) := by
  simp only [compile_reversed _ op hc.unquoted he, compile_compare op.swap hc.unquoted he]
  have hvalue (staged : Bool) : (Context.onRows types staged).value (some (.column c)) e =
      Operand.value types none (some (.column c)) e := rfl
  simp only [hvalue]
  cases Operand.value types none (some (.column c)) e with
  | error fault => exact .inl ⟨fault, rfl, fun _ => ⟨rfl, rfl⟩⟩
  | ok v =>
    refine .inr ⟨v, rfl, ⟨_, _, rfl, rfl, fun d => accepts_reversedTest_between hc op v d⟩,
      _, _, rfl, rfl, fun hv d => accepts_reversedTest_flat op hv d, ?_, ?_⟩
    · rintro n rfl
      obtain ⟨k, hk⟩ := exists_fits_int op.swap n
      have hat : (Document.nest (.int k) (c.fullName.toList.splitOn '.')).at? c.fullName =
          some (.int k) := Document.follow_nest _ (List.splitOn_ne_nil _ _)
      exact ⟨_, k, hat, (accepts_fieldTest_flat hc rfl hat op.swap).trans hk⟩
    · rintro s rfl
      refine ⟨reversedTest_flat hc op s, fun hplain hs => ?_⟩
      obtain ⟨x, hx⟩ := exists_accepts_ne types hc op hplain hs
      exact ⟨_, x, Document.at?_holding c.fullName x, hx⟩

/-- `5 < age` accepts nothing flat, though `age > 5` accepts some age; between stages the
two agree. -/
theorem literal_first_agrees_staged_age :
    (Column.bare "age").IsField ∧ isConstant (.literal (.int 5)) = true ∧
    (∃ f g,
      compile (.onRows {} true) (.compare .lt (.literal (.int 5)) (.column (.bare "age"))) =
        .ok f ∧
      compile (.onRows {} true) (.compare .gt (.column (.bare "age")) (.literal (.int 5))) =
        .ok g ∧
      ∀ d, accepts d f = accepts d g) ∧
    ∃ f g d,
      compile (.flat {}) (.compare .lt (.literal (.int 5)) (.column (.bare "age"))) = .ok f ∧
      compile (.flat {}) (.compare .gt (.column (.bare "age")) (.literal (.int 5))) = .ok g ∧
      accepts d f = false ∧ accepts d g = true := by
  have hc : (Column.bare "age").IsField := ⟨rfl, by decide⟩
  have hconstant : isConstant (.literal (.int 5)) = true := rfl
  refine ⟨hc, hconstant, ?_⟩
  rcases literal_first_agrees_staged {} hc .lt hconstant with
    ⟨fault, hvalue, -⟩ | ⟨v, hvalue, hstaged, f, g, hf, hg, hreversed, hnumber, -⟩
  · cases hvalue
  · cases hvalue
    obtain ⟨d, k, -, haccepts⟩ := hnumber 5 rfl
    exact ⟨hstaged, f, g, d, hf, hg, hreversed (by simp) d, haccepts⟩

example :
    selects (.flat {}) (.single "name" (.string "bob"))
        (.compare .eq (.literal (.string "bob")) (.column (.bare "name"))) = false ∧
      selects (.flat {}) (.single "bob" (.string "$name"))
        (.compare .eq (.literal (.string "bob")) (.column (.bare "name"))) = true := by
  decide

end Filter

end DocQuery
