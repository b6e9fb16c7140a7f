import DocQuery.Proofs.Join.Partition
import DocQuery.Proofs.Pipeline.Drafts
import DocQuery.Proofs.Predicate.Comparison
import DocQuery.Proofs.Predicate.Joined

/-!
# Comparisons of columns that wait until the joins have run

A comparison of columns from two sources can only run once the sources are joined.  The
filter behind the joins is a flat one, and a flat filter compares a field with a value:
the name of the column on the right.

* `Plan.exists_stages_of_draft` — the stages of the joins, and the stage of what waits
* `Filter.compile_columns` — the flat filter of a comparison of two columns
* `FilterSplit.mem_tests_after` — comparisons across sources wait
* `waiting_comparison_reads_name` — what the stage behind the joins accepts

### What is load-bearing

Inside a join and before the first join, filters are compiled between stages and state
comparisons as expressions, where a column on either side is a field.  The part that waits
is compiled flat.
-/

namespace DocQuery

open Sql

/-! ### The stage behind the joins -/

/-- **The stages of the joins of a plan**: those of the lookups, and the stage of what
waits. -/
theorem Plan.exists_stages_of_draft {p : Plan} {d : Draft} (h : p.draft = .ok d)
    (hjoined : p.scope.joined ≠ []) :
    ∃ lookups waiting,
      (p.scope.joined.mapM fun j => j.stages p.types p.scope.base.label
        ((FilterSplit.of p.scope p.filter).insideOf j.source.label)) = .ok lookups ∧
      (FilterSplit.of p.scope p.filter).waitingStages p.types = .ok waiting ∧
      d.joins = lookups.flatten ++ waiting := by
  have hstages := Plan.joins_of_draft h hjoined
  rw [Plan.joinStages] at hstages
  obtain ⟨lookups, hlookups, hstages⟩ := Outcome.bind_eq_ok.mp hstages
  rw [FilterSplit.waitingStages]
  cases hwaits : conjunction? (FilterSplit.of p.scope p.filter).after with
  | none =>
    rw [hwaits] at hstages
    exact ⟨lookups, [], hlookups, rfl, by simpa using (Outcome.pure_eq_ok.mp hstages).symm⟩
  | some e =>
    rw [hwaits] at hstages
    obtain ⟨filter, hfilter, hstages⟩ := Outcome.bind_eq_ok.mp hstages
    refine ⟨lookups, [stage "$match" filter], hlookups, ?_,
      (Outcome.pure_eq_ok.mp hstages).symm⟩
    exact Outcome.bind_eq_ok.mpr ⟨filter, hfilter, rfl⟩

/-! ### Comparisons of two columns -/

namespace Filter

variable {types : FieldTypes} {l r : Column}

/-- **A flat comparison of two columns compares the field of one with the name of the
other.** -/
theorem compile_columns (types : FieldTypes) (op : Comparison) (hl : l.quoted = false)
    (hr : r.quoted = false) :
    compile (.flat types) (.compare op (.column l) (.column r)) =
      .ok (fieldTest (.flat types) l op (.string r.fullName)) := by
  -- the special comparisons all need a call on one of the sides
  have hmatch : Match.ofComparison? op (.column l) (.column r) = .ok none := by
    cases op <;> rfl
  have hmoment : Moment.ofComparison? op (.column l) (.column r) = .ok none := rfl
  have hidentity : Identity.ofComparison? op (.column l) (.column r) = none := rfl
  have hplain : ∀ leftNode rightNode,
    plainComparison (.flat types) op (.column l) (.column r) leftNode
      rightNode = .ok (fieldTest (.flat types) l op (.string r.fullName)) := by
    intro leftNode rightNode
    simp only [plainComparison, isCall, field?, hl, hr, Bool.or_self, Bool.false_eq_true,
      if_false]
    rfl
  rw [compile, node, comparison, hmatch, hmoment, hidentity]
  simp only [hplain]
  rfl

end Filter

/-! ### What waits -/

namespace Sql.Expr

theorem tests_foldl_and (es : List Expr) (e : Expr) :
    (es.foldl .and e).tests = e.tests ++ es.flatMap tests := by
  induction es generalizing e with
  | nil => simp
  | cons x rest ih => rw [List.foldl_cons, ih, tests, List.flatMap_cons, List.append_assoc]

/-- The tests of a conjunction are those of its parts. -/
theorem tests_conjunction? {es : List Expr} {e : Expr} (h : conjunction? es = some e) :
    e.tests = es.flatMap tests := by
  cases es with
  | nil => cases h
  | cons first rest =>
    cases h
    exact tests_foldl_and rest first

/-- Without a visible disjunction, the tests of a condition are its conjuncts. -/
theorem tests_eq_conjuncts {e : Expr} (hor : e.containsOr = false) :
    e.tests = e.conjuncts := by
  induction e using conjuncts.induct with
  | case1 l r ihl ihr =>
    rw [containsOr, Bool.or_eq_false_iff] at hor
    rw [tests, conjuncts, ihl hor.1, ihr hor.2]
  | case2 e hand =>
    cases e with
    | and l r => exact absurd rfl (hand l r)
    | or l r => cases hor
    | _ => rfl

end Sql.Expr

/-- **Comparisons across sources wait**, wherever they stand in the filter. -/
theorem FilterSplit.mem_tests_after {scope : Scope} {w e : Expr} {op : Comparison}
    {l r : Column} (he : conjunction? (of scope (some w)).after = some e)
    (htest : .compare op (.column l) (.column r) ∈ w.tests)
    (hmixed : scope.joinedAlias? l ≠ scope.joinedAlias? r) :
    .compare op (.column l) (.column r) ∈ e.tests := by
  rw [Expr.tests_conjunction? he]
  refine List.mem_flatMap.mpr ?_
  cases hor : w.containsOr with
  | true =>
    rw [of_of_containsOr scope hor]
    exact ⟨w, List.mem_cons_self, htest⟩
  | false =>
    rw [Expr.tests_eq_conjuncts hor] at htest
    have hseveral : scope.owner (.compare op (.column l) (.column r)) = .several := by
      by_contra hone
      exact hmixed (Scope.joinedAlias?_eq_of_within hone .refl (by simp [Expr.columns])
        (by simp [Expr.columns]))
    refine ⟨.compare op (.column l) (.column r), ?_, List.mem_cons_self⟩
    rw [after_of scope hor]
    exact List.mem_filter.mpr ⟨htest, by simp [Scope.runsAfter, hseveral]⟩

/-! ### What the stage behind the joins accepts -/

/-- **A comparison of columns that waits compares a field with a name.**  The stage behind
the joins accepts a document exactly if its tests, joined, do.  A comparison of two
columns is a test of the left field against the text of the right path: the right field is
not read.  So a field that holds a number differs from every column, is equal to none, and
is neither below nor above.  Comparisons across sources always are among the tests. -/
theorem waiting_comparison_reads_name {p : Plan} {d : Draft} (hd : p.draft = .ok d)
    (hjoined : p.scope.joined ≠ []) {w : Expr} (hw : p.filter = some w) {e : Expr}
    (he : conjunction? (FilterSplit.of p.scope p.filter).after = some e) :
    (∃ lookups filter, d.joins = lookups ++ [stage "$match" filter] ∧
      Filter.compile (.flat p.types) e = .ok filter ∧
      ∀ doc, Filter.accepts doc filter = e.joined (Filter.selects (.flat p.types) doc)) ∧
    (∀ op l r, .compare op (.column l) (.column r) ∈ w.tests →
      p.scope.joinedAlias? l ≠ p.scope.joinedAlias? r →
      .compare op (.column l) (.column r) ∈ e.tests) ∧
    ∀ (op : Comparison) (l r : Column), l.IsField → r.quoted = false →
      Filter.compile (.flat p.types) (.compare op (.column l) (.column r)) =
        .ok (Filter.keyed l.fullName op (.string r.fullName)) ∧
      (∀ doc a, doc.at? l.fullName = some a →
        Filter.selects (.flat p.types) doc (.compare op (.column l) (.column r)) =
          op.isTrueOf (some a) (some (.string r.fullName))) ∧
      (∀ doc n, doc.at? l.fullName = some (.int n) →
        Filter.selects (.flat p.types) doc (.compare op (.column l) (.column r)) =
          (op == .ne)) ∧
      ∀ doc, doc.at? l.fullName = none →
        Filter.selects (.flat p.types) doc (.compare op (.column l) (.column r)) =
          (op == .ne) := by
  refine ⟨?_, fun op l r htest hmixed => ?_, fun op l r hl hr => ?_⟩
  · obtain ⟨lookups, waiting, -, hwaiting, hjoins⟩ := Plan.exists_stages_of_draft hd hjoined
    rw [FilterSplit.waitingStages, he] at hwaiting
    obtain ⟨filter, hfilter, hwaiting⟩ := Outcome.bind_eq_ok.mp hwaiting
    rw [← Outcome.pure_eq_ok.mp hwaiting] at hjoins
    exact ⟨lookups.flatten, filter, hjoins, hfilter, Filter.accepts_compile hfilter⟩
  · rw [hw] at he
    exact FilterSplit.mem_tests_after he htest hmixed
  · have hcompile := Filter.compile_columns p.types op hl.unquoted hr
    have hvalue : ∀ doc a, doc.at? l.fullName = some a →
        Filter.selects (.flat p.types) doc (.compare op (.column l) (.column r)) =
          op.isTrueOf (some a) (some (.string r.fullName)) := by
      intro doc a ha
      rw [Filter.selects_of_compile hcompile, Filter.accepts_fieldTest_flat hl rfl ha]
    refine ⟨hcompile, hvalue, fun doc n hn => hvalue doc _ hn, fun doc hmissing => ?_⟩
    rw [Filter.selects_of_compile hcompile,
      Filter.accepts_fieldTest_flat_missing hl rfl hmissing]

/-! ### Orders above a budget -/

/-- `o.total > budget`. -/
def budgetFilter : Expr :=
  .compare .gt (.column (.qualified "o" "total")) (.column (.bare "budget"))

/-- The names of users with an order above their budget. -/
def budgetPlan : Plan where
  scope := ⟨.of (some "u") (.collection "users"),
    [⟨.inner, .of (some "o") (.collection "orders"), none⟩]⟩
  types := {}
  filter := some budgetFilter
  limit := -1
  action := .select { Selection.none with items := [⟨.column (.bare "name"), none⟩] }

/-- A user with a budget of 10 and an order of 20. -/
def budgetRow : Document :=
  ⟨[("budget", .int 10), ("o", .document ⟨[("total", .int 20)]⟩)]⟩

/-- The order is above the budget, and the stage behind the joins rejects it. -/
theorem waiting_comparison_reads_name_budget :
    ∃ d lookups filter, budgetPlan.draft = .ok d ∧
      d.joins = lookups ++ [stage "$match" filter] ∧
      budgetRow.at? "o.total" = some (.int 20) ∧ budgetRow.at? "budget" = some (.int 10) ∧
      Comparison.gt.isTrueOf (some (.int 20)) (some (.int 10)) = true ∧
      Filter.accepts budgetRow filter = false := by
  obtain ⟨d, hd⟩ : ∃ d, budgetPlan.draft = .ok d := ⟨_, rfl⟩
  have htotal : budgetRow.at? "o.total" = some (.int 20) := rfl
  have hl : (Column.qualified "o" "total").IsField := ⟨rfl, by decide⟩
  obtain ⟨⟨lookups, filter, hjoins, -, haccepts⟩, -, hcompare⟩ :=
    waiting_comparison_reads_name hd (List.cons_ne_nil _ _) (w := budgetFilter) rfl
      (e := budgetFilter)
      rfl
  have hselects := (hcompare .gt _ (.bare "budget") hl rfl).2.2.1 budgetRow 20 htotal
  exact ⟨d, lookups, filter, hd, hjoins, htotal, rfl, rfl,
    (haccepts budgetRow).trans hselects⟩

end DocQuery
