import DocQuery.Proofs.Predicate.Comparison
import DocQuery.Proofs.Predicate.Joined

/-!
# Flat filters mean what the condition says

`Filter.accepts_compile_flat_iff`: a condition over tests of fields against literals has a
flat filter, and the filter accepts the documents of which the condition is true.

* `Filter.FlatTest` — the tests
* `Document.HoldsColumns` — the documents on which the two readings are compared
* `Filter.nodes_literals` — the values of listed literals
* `Filter.compile_flatTest` — one test, one case for each form

### What is load-bearing

A negated test is complemented field by field, and a missing field passes both `$ne` and
the complement of an order; so a document has to give each column a value.  A negated
equality is no test here as it has no negated form, and a negated BETWEEN is none as each
of its legs is complemented on its own.
-/

namespace DocQuery

open Sql

/-- A document that gives every column of a condition a whole number or a string. -/
def Document.HoldsColumns (d : Document) (e : Expr) : Prop :=
  ∀ c ∈ e.columns, ∃ a, d.at? c.fullName = some a ∧ a.isBasic = true

namespace Filter

/-- A literal whose digits are a signed 64-bit number. -/
abbrev IsWord : Expr → Prop :=
  Expr.IsLiteral fun n => 0 ≤ n ∧ Decimal.fitsInt64 n = true

/-- **The tests of a field against literals.** -/
inductive FlatTest : Expr → Prop
  | compare (op : Comparison) {c : Column} {e : Expr} (hc : c.IsField) (he : IsWord e) :
    FlatTest (.compare op (.column c) e)
  | notCompare {op : Comparison} (hop : op ≠ .eq) {c : Column} {e : Expr} (hc : c.IsField)
    (he : IsWord e) : FlatTest (.not (.compare op (.column c) e))
  | inList (negated : Bool) {c : Column} {items : List Expr} (hc : c.IsField)
    (hitems : ∀ e ∈ items, IsWord e) : FlatTest (.inList negated (.column c) items)
  | between {c : Column} {low high : Expr} (hc : c.IsField) (hlow : IsWord low)
    (hhigh : IsWord high) : FlatTest (.between false (.column c) low high)

/-! ### Listed literals -/

/-- Inside a filter a literal is its value. -/
theorem node_literal (ctx : Context) (counterpart : Option Expr) {range : Int → Prop}
    {e : Expr} (he : e.IsLiteral range) :
    node ctx counterpart e = ctx.value counterpart e := by
  cases he with
  | number he =>
    cases he with
    | digits hn => rw [node] <;> simp
    | signed negative he => rw [node] <;> simp
  | text hraw => rw [node] <;> simp

theorem listedItem_literal {range : Int → Prop} {e : Expr} (he : e.IsLiteral range)
    (value : Except Fault Value) : listedItem e value = value := by
  cases he with
  | number he => cases he <;> rfl
  | text hraw => rfl

/-- **Listed literals have the values that they are written as.** -/
theorem nodes_literals (target : Expr) {items : List Expr} (hitems : ∀ e ∈ items, IsWord e) :
    ∃ values, nodes (.flat {}) target items = .ok values ∧
      values.map some = items.map Expr.constant? := by
  induction items with
  | nil => exact ⟨[], by rw [nodes], rfl⟩
  | cons e rest ih =>
    have he : IsWord e := hitems e List.mem_cons_self
    obtain ⟨v, hv, hconstant, -⟩ := Operand.exists_value none (some target) he
    obtain ⟨values, hvalues, hmap⟩ := ih fun e' he' => hitems e' (List.mem_cons_of_mem e he')
    refine ⟨v :: values, ?_, ?_⟩
    · rw [nodes, listedItem_literal he, node_literal _ _ he]
      exact Outcome.bind_eq_ok.mpr ⟨v, hv, by rw [hvalues]; rfl⟩
    · rw [List.map_cons, List.map_cons, hmap, hconstant]

/-- The filter of a membership test lists the values. -/
theorem compile_inList (negated : Bool) {c : Column} (hc : c.quoted = false)
    {items : List Expr} {values : List Value}
    (hvalues : nodes (.flat {}) (.column c) items = .ok values) :
    compile (.flat {}) (.inList negated (.column c) items) = .ok (.single c.fullName
      (.document (.single (if negated then "$nin" else "$in") (.array values)))) := by
  have hfield : field? (.column c) = some c := by simp [field?, hc]
  have hidentity : Identity.ofList? negated (.column c) items = .ok none := rfl
  rw [compile, node, membership, hidentity, hvalues]
  simp only [hfield]
  rfl

/-- A field is in a list if it is equal to one of its values. -/
theorem accepts_listed (d : Document) (negated : Bool) {name : String}
    (hname : Text.isDollar name = false) (values : List Value) :
    accepts d (.single name (.document
        (.single (if negated then "$nin" else "$in") (.array values)))) =
      (negated != values.any (same (d.at? name))) := by
  rw [accepts_single, acceptsEntry_tests d _ (ne_expr_of_isDollar hname)]
  cases negated <;> simp [Document.single, passesAll, passes, satisfies]

/-- A value is equal to one of the listed literals if it is the same as one of their
values. -/
theorem any_listed {d : Document} {a : Value} {items : List Expr} {values : List Value}
    (hitems : ∀ e ∈ items, IsWord e) (hmap : values.map some = items.map Expr.constant?) :
    (items.any fun item => Comparison.eq.isTrueOf (some a) (item.valueIn d)) =
      values.any (same (some a)) := by
  calc (items.any fun item => Comparison.eq.isTrueOf (some a) (item.valueIn d))
      = items.any fun item => Comparison.eq.isTrueOf (some a) item.constant? := by
        rw [Bool.eq_iff_iff, List.any_eq_true, List.any_eq_true]
        refine exists_congr fun item => and_congr_right fun hitem => ?_
        rw [(hitems item hitem).valueIn_eq]
    _ = (items.map Expr.constant?).any (Comparison.eq.isTrueOf (some a)) := by
        rw [List.any_map]
        rfl
    _ = values.any (same (some a)) := by
        rw [← hmap, List.any_map]
        congr 1
        funext v
        exact (same_eq_isTrueOf a v).symm

/-! ### Tests and conditions -/

/-- A test has a filter, and the filter accepts the documents of which the test is true. -/
theorem compile_flatTest {e : Expr} (h : FlatTest e) :
    ∃ f, compile (.flat {}) e = .ok f ∧
      ∀ d : Document, d.HoldsColumns e → accepts d f = e.isTrueOf d := by
  cases h with
  | @compare op c e hc he =>
    obtain ⟨v, hv, hconstant, hbasic⟩ := Operand.exists_value none (some (.column c)) he
    refine ⟨fieldTest (.flat {}) c op v, ?_, ?_⟩
    · rw [compile_compare op hc.unquoted he.isConstant]
      exact Outcome.bind_eq_ok.mpr ⟨v, hv, rfl⟩
    · intro d hd
      obtain ⟨a, ha, -⟩ := hd c (by simp [Expr.columns])
      rw [accepts_fieldTest_flat hc hbasic ha, Expr.isTrueOf, Expr.valueIn, ha, he.valueIn_eq,
        hconstant]
  | @notCompare op hop c e hc he =>
    obtain ⟨v, hv, hconstant, hbasic⟩ := Operand.exists_value none (some (.column c)) he
    refine ⟨negated (fieldTest (.flat {}) c op v), ?_, ?_⟩
    · rw [compile_not_compare op hc.unquoted he.isConstant]
      exact Outcome.bind_eq_ok.mpr ⟨v, hv, rfl⟩
    · intro d hd
      obtain ⟨a, ha, -⟩ := hd c (by simp [Expr.columns])
      rw [accepts_negated_fieldTest_flat hc hbasic ha hop, Expr.isTrueOf, Expr.isTrueOf,
        Expr.valueIn, ha, he.valueIn_eq, hconstant]
  | @inList negated c items hc hitems =>
    obtain ⟨values, hvalues, hmap⟩ := nodes_literals (.column c) hitems
    refine ⟨_, compile_inList negated hc.unquoted hvalues, ?_⟩
    intro d hd
    obtain ⟨a, ha, -⟩ := hd c (by simp [Expr.columns])
    rw [accepts_listed d negated hc.plain, Expr.isTrueOf, Expr.valueIn, ha,
      any_listed hitems hmap]
  | @between c low high hc hlow hhigh =>
    obtain ⟨least, hleast, hlowConstant, hlowBasic⟩ :=
      Operand.exists_value none (some (.column c)) hlow
    obtain ⟨greatest, hgreatest, hhighConstant, hhighBasic⟩ :=
      Operand.exists_value none (some (.column c)) hhigh
    refine ⟨conjoin "$and" false (fieldTest (.flat {}) c .ge least)
      (fieldTest (.flat {}) c .le greatest), ?_, ?_⟩
    · rw [compile_between false hc.unquoted hlow.isConstant hhigh.isConstant]
      exact Outcome.bind_eq_ok.mpr
        ⟨least, hleast, Outcome.bind_eq_ok.mpr ⟨greatest, hgreatest, rfl⟩⟩
    · intro d hd
      obtain ⟨a, ha, -⟩ := hd c (by simp [Expr.columns])
      rw [accepts_conjoin_legs, accepts_fieldTest_flat hc hlowBasic ha,
        accepts_fieldTest_flat hc hhighBasic ha, Expr.isTrueOf, Expr.valueIn, ha,
        hlow.valueIn_eq, hhigh.valueIn_eq, hlowConstant, hhighConstant, Bool.false_bne]

/-- **A flat filter accepts the documents of which the condition is true.**  The condition
joins tests of fields against literals with AND and OR in any way; its compilation
succeeds. -/
theorem accepts_compile_flat_iff {e : Expr} (he : ∀ x ∈ e.tests, FlatTest x) :
    ∃ f, compile (.flat {}) e = .ok f ∧
      ∀ d : Document, d.HoldsColumns e → (accepts d f = true ↔ e.isTrueOf d = true) := by
  have hfault : Outcome.fault? (compile (.flat {}) e) = none := by
    rw [fault?_compile, List.findSome?_eq_none_iff]
    intro x hx
    obtain ⟨f, hf, -⟩ := compile_flatTest (he x hx)
    rw [hf, Outcome.fault?_ok]
  obtain ⟨f, hf⟩ := Outcome.exists_ok_of_fault?_eq_none hfault
  refine ⟨f, hf, fun d hd => ?_⟩
  have htests : ∀ x ∈ e.tests, selects (.flat {}) d x = x.isTrueOf d := by
    intro x hx
    obtain ⟨g, hg, haccepts⟩ := compile_flatTest (he x hx)
    rw [selects_of_compile hg]
    exact haccepts d fun c hc => hd c (Expr.mem_columns_of_mem_tests hx hc)
  rw [accepts_compile hf, Expr.joined_congr htests, ← Expr.isTrueOf_eq_joined]

/-! ### A condition with every form of test -/

/-- Of age or at home in one city, on a level of some range, and without a tag of some
list. -/
def memberCondition : Expr :=
  .and
    (.and
      (.or (.compare .ge (.column (.bare "age")) (.literal (.int 18)))
        (.not (.compare .ne (.column (.qualified "home" "city"))
          (.literal (.string "O''Hara")))))
      (.between false (.column (.bare "level")) (.signed true (.literal (.int 1)))
        (.literal (.int 9))))
    (.inList true (.column (.bare "tag")) [.literal (.string "a"), .literal (.int 3)])

/-- A member with a tag. -/
def member (tag : String) : Document :=
  ⟨[("age", .int 12), ("home", .document (.single "city" (.string "O'Hara"))),
    ("level", .int 0), ("tag", .string tag)]⟩

theorem flatTest_of_mem_memberCondition : ∀ x ∈ memberCondition.tests, FlatTest x := by
  intro x hx
  simp only [memberCondition, Expr.tests, List.cons_append, List.nil_append, List.mem_cons,
    List.not_mem_nil, or_false] at hx
  rcases hx with rfl | rfl | rfl | rfl
  · exact .compare .ge ⟨rfl, rfl⟩ (.number (.digits (by decide)))
  · exact .notCompare (by decide) ⟨rfl, rfl⟩ (.text (by decide))
  · exact .between ⟨rfl, rfl⟩ (.number (.signed true (.digits (by decide))))
      (.number (.digits (by decide)))
  · refine .inList true ⟨rfl, rfl⟩ ?_
    intro e he
    simp only [List.mem_cons, List.not_mem_nil, or_false] at he
    rcases he with rfl | rfl
    · exact .text (by decide)
    · exact .number (.digits (by decide))

theorem holdsColumns_member (tag : String) : (member tag).HoldsColumns memberCondition := by
  intro c hc
  have hcolumns : memberCondition.columns =
      [.bare "age", .qualified "home" "city", .bare "level", .bare "tag"] := rfl
  rw [hcolumns] at hc
  simp only [List.mem_cons, List.not_mem_nil, or_false] at hc
  rcases hc with rfl | rfl | rfl | rfl
  · exact ⟨_, rfl, rfl⟩
  · exact ⟨_, rfl, rfl⟩
  · exact ⟨_, rfl, rfl⟩
  · exact ⟨_, rfl, rfl⟩

/-- The filter tells two members apart by their tags. -/
theorem accepts_compile_flat_iff_member :
    (∀ x ∈ memberCondition.tests, FlatTest x) ∧
      (member "b").HoldsColumns memberCondition ∧ (member "a").HoldsColumns memberCondition ∧
      ∃ f, compile (.flat {}) memberCondition = .ok f ∧
        accepts (member "b") f = true ∧ accepts (member "a") f = false := by
  refine ⟨flatTest_of_mem_memberCondition, holdsColumns_member "b",
    holdsColumns_member "a", ?_⟩
  obtain ⟨f, hf, haccepts⟩ := accepts_compile_flat_iff flatTest_of_mem_memberCondition
  have hfalse : memberCondition.isTrueOf (member "a") = false := by decide
  refine ⟨f, hf, (haccepts _ (holdsColumns_member "b")).mpr (by decide), ?_⟩
  rw [Bool.eq_false_iff]
  intro htrue
  exact absurd ((haccepts _ (holdsColumns_member "a")).mp htrue) (by simp [hfalse])

end Filter

end DocQuery
