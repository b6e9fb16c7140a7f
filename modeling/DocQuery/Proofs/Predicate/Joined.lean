import DocQuery.Predicate.Filter
import DocQuery.Proofs.Outcome
import DocQuery.Proofs.Predicate.Meaning
import DocQuery.Sql.Columns

/-!
# Conditions joined by AND and OR

A condition is a tree of tests that are joined by AND and OR.  Whatever the tests are and
whichever context the condition is compiled in, its filter accepts the documents that the
tree asks for, and its compilation fails with the first fault of a test.

* `Sql.Expr.tests`, `Sql.Expr.joined` — the tests of a condition and the truth of the tree
  over them
* `Filter.accepts_conjoin_and`, `Filter.accepts_conjoin_or` — the step: two filters
* `Filter.accepts_compile` — the run: the filter of a whole condition
* `Filter.fault?_compile` — its fault

### What is load-bearing

Runs of one operator are flattened, and `Filter.conjoin` takes the operands of the filter
on its left over without looking at where that filter came from.  This is sound as the
filter of a run holds nothing else than its operands (`Filter.compile_of_isAndRun`,
`Filter.compile_of_isOrRun`).
-/

namespace DocQuery

open Sql

/-! ### Trees of tests -/

namespace Sql.Expr

/-- The tests of a condition, from left to right. -/
def tests : Expr → List Expr
  | .and l r => l.tests ++ r.tests
  | .or l r => l.tests ++ r.tests
  | e => [e]

/-- The truth of a condition, given that of its tests. -/
def joined (truth : Expr → Bool) : Expr → Bool
  | .and l r => l.joined truth && r.joined truth
  | .or l r => l.joined truth || r.joined truth
  | e => truth e

/-- Only the tests count. -/
theorem joined_congr {truth truth' : Expr → Bool} {e : Expr}
    (h : ∀ x ∈ e.tests, truth x = truth' x) : e.joined truth = e.joined truth' := by
  fun_induction joined truth e with
  | case1 l r ihl ihr =>
    simp only [tests, List.mem_append] at h
    rw [joined, ihl fun x hx => h x (.inl hx), ihr fun x hx => h x (.inr hx)]
  | case2 l r ihl ihr =>
    simp only [tests, List.mem_append] at h
    rw [joined, ihl fun x hx => h x (.inl hx), ihr fun x hx => h x (.inr hx)]
  | case3 e hand hor =>
    rw [tests] at h
    · rw [joined]
      · exact h e List.mem_cons_self
      all_goals assumption
    all_goals assumption

/-- The truth of a condition is the truth of its tests, joined. -/
theorem isTrueOf_eq_joined (d : Document) (e : Expr) :
    e.isTrueOf d = e.joined (isTrueOf d) := by
  fun_induction joined (isTrueOf d) e with
  | case1 l r ihl ihr => rw [isTrueOf, ihl, ihr]
  | case2 l r ihl ihr => rw [isTrueOf, ihl, ihr]
  | case3 e hand hor => rfl

/-- A test reads columns of the condition. -/
theorem mem_columns_of_mem_tests {e x : Expr} (hx : x ∈ e.tests) {c : Column}
    (hc : c ∈ x.columns) : c ∈ e.columns := by
  fun_induction tests e with
  | case1 l r ihl ihr =>
    rw [columns, List.mem_append]
    exact (List.mem_append.mp hx).imp ihl ihr
  | case2 l r ihl ihr =>
    rw [columns, List.mem_append]
    exact (List.mem_append.mp hx).imp ihl ihr
  | case3 e hand hor => exact List.mem_singleton.mp hx ▸ hc

end Sql.Expr

namespace Filter

/-! ### Two filters -/

@[simp] theorem operands_single (operator : String) (items : List Value) :
    operands operator (.single operator (.array items)) = items := by
  simp [operands, Document.single, Document.get?, Entries.get?]

/-- **Step.**  Two filters joined by AND accept what both accept. -/
theorem accepts_conjoin_and (d : Document) {continues : Bool} {left : Document}
    (right : Document)
    (hleft : continues = true → ∃ items, left = .single "$and" (.array items)) :
    accepts d (conjoin "$and" continues left right) =
      (accepts d left && accepts d right) := by
  cases continues with
  | false => simp [conjoin, acceptsAll]
  | true =>
    obtain ⟨items, rfl⟩ := hleft rfl
    simp [conjoin, acceptsAll]

/-- Two legs, whatever they are. -/
theorem accepts_conjoin_legs (d left right : Document) :
    accepts d (conjoin "$and" false left right) = (accepts d left && accepts d right) :=
  accepts_conjoin_and d right (by simp)

/-- **Step.**  Two filters joined by OR accept what one of them accepts. -/
theorem accepts_conjoin_or (d : Document) {continues : Bool} {left : Document}
    (right : Document)
    (hleft : continues = true → ∃ items, left = .single "$or" (.array items)) :
    accepts d (conjoin "$or" continues left right) = (accepts d left || accepts d right) := by
  cases continues with
  | false => simp [conjoin, acceptsAny]
  | true =>
    obtain ⟨items, rfl⟩ := hleft rfl
    simp [conjoin, acceptsAny]

/-! ### Whole conditions -/

/-- An expression whose value is a filter compiles to that filter. -/
theorem compile_of_node {ctx : Context} {e : Expr} {x : Except Fault Document}
    (h : node ctx none e = (do return .document (← x))) : compile ctx e = x := by
  rw [compile, h]
  cases x <;> rfl

/-- The filter of a conjunction is made of the filters of its sides. -/
theorem compile_and (ctx : Context) (l r : Expr) :
    compile ctx (.and l r) = (do
      let left ← compile ctx l
      let right ← compile ctx r
      return conjoin "$and" (isAndRun l && !r.isLogical) left right) := by
  unfold compile
  rw [node]
  cases node ctx none l with
  | error fault => rfl
  | ok left =>
    cases node ctx none r with
    | error fault => rfl
    | ok right => rfl

/-- The filter of a disjunction is made of the filters of its sides. -/
theorem compile_or (ctx : Context) (l r : Expr) :
    compile ctx (.or l r) = (do
      let left ← compile ctx l
      let right ← compile ctx r
      return conjoin "$or" (isOrRun l && !r.isLogical) left right) := by
  unfold compile
  rw [node]
  cases node ctx none l with
  | error fault => rfl
  | ok left =>
    cases node ctx none r with
    | error fault => rfl
    | ok right => rfl

/-- The filter of a run of conjunctions holds nothing but operands. -/
theorem compile_of_isAndRun {ctx : Context} {e : Expr} {f : Document}
    (hrun : isAndRun e = true) (h : compile ctx e = .ok f) :
    ∃ items, f = .single "$and" (.array items) := by
  cases e with
  | and l r =>
    rw [compile_and] at h
    obtain ⟨left, -, h⟩ := Outcome.bind_eq_ok.mp h
    obtain ⟨right, -, h⟩ := Outcome.bind_eq_ok.mp h
    exact ⟨_, (Outcome.pure_eq_ok.mp h).symm⟩
  | _ => cases hrun

/-- The filter of a run of disjunctions holds nothing but operands. -/
theorem compile_of_isOrRun {ctx : Context} {e : Expr} {f : Document} (hrun : isOrRun e = true)
    (h : compile ctx e = .ok f) : ∃ items, f = .single "$or" (.array items) := by
  cases e with
  | or l r =>
    rw [compile_or] at h
    obtain ⟨left, -, h⟩ := Outcome.bind_eq_ok.mp h
    obtain ⟨right, -, h⟩ := Outcome.bind_eq_ok.mp h
    exact ⟨_, (Outcome.pure_eq_ok.mp h).symm⟩
  | _ => cases hrun

/-- Whether the filter of an expression accepts a document; without a filter nothing is
accepted. -/
def selects (ctx : Context) (d : Document) (e : Expr) : Bool :=
  match compile ctx e with
  | .ok f => accepts d f
  | .error _ => false

theorem selects_of_compile {ctx : Context} {e : Expr} {f : Document}
    (h : compile ctx e = .ok f) (d : Document) : selects ctx d e = accepts d f := by
  rw [selects, h]

/-- **Run.**  The filter of a condition accepts the documents that its tests, joined,
accept. -/
theorem accepts_compile {ctx : Context} {e : Expr} {f : Document} (h : compile ctx e = .ok f)
    (d : Document) : accepts d f = e.joined (selects ctx d) := by
  fun_induction Expr.joined (selects ctx d) e generalizing f with
  | case1 l r ihl ihr =>
    rw [compile_and] at h
    obtain ⟨left, hleft, h⟩ := Outcome.bind_eq_ok.mp h
    obtain ⟨right, hright, h⟩ := Outcome.bind_eq_ok.mp h
    rw [← Outcome.pure_eq_ok.mp h, accepts_conjoin_and d right, ihl hleft, ihr hright]
    -- operands are only taken over from a run, whose filter holds nothing else
    intro hcontinues
    exact compile_of_isAndRun (Bool.and_eq_true_iff.mp hcontinues).1 hleft
  | case2 l r ihl ihr =>
    rw [compile_or] at h
    obtain ⟨left, hleft, h⟩ := Outcome.bind_eq_ok.mp h
    obtain ⟨right, hright, h⟩ := Outcome.bind_eq_ok.mp h
    rw [← Outcome.pure_eq_ok.mp h, accepts_conjoin_or d right, ihl hleft, ihr hright]
    intro hcontinues
    exact compile_of_isOrRun (Bool.and_eq_true_iff.mp hcontinues).1 hleft
  | case3 e hand hor => exact (selects_of_compile h d).symm

/-- **The first fault of a test is the fault of the condition.** -/
theorem fault?_compile (ctx : Context) (e : Expr) :
    Outcome.fault? (compile ctx e) =
      e.tests.findSome? fun x => Outcome.fault? (compile ctx x) := by
  have hjoin : ∀ (l r : Expr) (join : Document → Document → Document),
      Outcome.fault? (do
        let left ← compile ctx l
        let right ← compile ctx r
        return join left right) =
      (Outcome.fault? (compile ctx l)).or (Outcome.fault? (compile ctx r)) := by
    intro l r join
    cases compile ctx l with
    | error fault => rfl
    | ok left => exact Outcome.fault?_bind_of_ok _ fun right =>
      Outcome.fault?_pure (join left right)
  fun_induction Expr.tests e with
  | case1 l r ihl ihr => rw [compile_and, hjoin, ihl, ihr, List.findSome?_append]
  | case2 l r ihl ihr => rw [compile_or, hjoin, ihl, ihr, List.findSome?_append]
  | case3 e hand hor => simp

/-- Only the faults of the tests count. -/
theorem fault?_compile_congr {ctx ctx' : Context} {e : Expr}
    (h : ∀ x ∈ e.tests, Outcome.fault? (compile ctx x) = Outcome.fault? (compile ctx' x)) :
    Outcome.fault? (compile ctx e) = Outcome.fault? (compile ctx' e) := by
  rw [fault?_compile, fault?_compile]
  generalize e.tests = tests at h ⊢
  induction tests with
  | nil => rfl
  | cons x rest ih =>
    rw [List.findSome?_cons, List.findSome?_cons, h x List.mem_cons_self,
      ih fun y hy => h y (List.mem_cons_of_mem x hy)]

end Filter

end DocQuery
