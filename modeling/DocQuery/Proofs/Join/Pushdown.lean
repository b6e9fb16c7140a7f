import DocQuery.Pipeline.Step
import DocQuery.Proofs.Join.Rows

/-!
# Moving the filter of a joined statement

A statement with joins means: join everything, then filter.  What runs is different: a
part of the filter runs before the first join, a part inside the inner joins and a part
after the last join.  `filter_joinRows_eq_split` says that the rows, and their order, are
the same.

* `Scope.accepts_split` — a filter is true of a row if its three parts are
* `Scope.joinRow_filter` — a join followed by its own part of the filter is the join with
  that part inside
* `Scope.filter_joinRows_inside` — the same for all joins
* `Plan.RunsSplit` — the steps of a plan compile the three parts of a split and nothing else

### What is load-bearing

A conjunct inside a join is owned by an *inner* join.  Under a left join it would turn
rows that it rejects into rows without a partner.  That the aliases of the joins are
distinct is used twice: the part inside a join then is about the partner of that join
only, and its alias is not also that of a left join.
-/

namespace DocQuery

open Sql

namespace Scope

variable {R V : Type} (scope : Scope) (logic : RowLogic R V) (inputs : JoinInputs R)

/-- **A filter is true of a row if its three parts are.** -/
theorem accepts_split (w : Expr) (row : JoinedRow R) :
    scope.accepts logic row w =
      (scope.acceptsAll logic (FilterSplit.of scope (some w)).base row &&
        scope.joined.all (fun j => scope.acceptsAll logic
          ((FilterSplit.of scope (some w)).insideOf j.source.label) row) &&
        scope.acceptsAll logic (FilterSplit.of scope (some w)).after row) := by
  cases hor : w.containsOr with
  | true =>
    rw [FilterSplit.of_of_containsOr scope hor]
    simp [acceptsAll, FilterSplit.insideOf]
  | false =>
    simp only [FilterSplit.base_of scope hor, FilterSplit.insideOf_of scope hor,
      FilterSplit.after_of scope hor, accepts_eq_all_conjuncts scope logic row w]
    rw [Bool.eq_iff_iff]
    simp only [acceptsAll, List.all_filter, Bool.and_eq_true, List.all_eq_true,
      Bool.or_eq_true, Bool.not_eq_true']
    constructor
    · intro hall
      exact ⟨⟨fun e he => .inr (hall e he), fun _ _ e he => .inr (hall e he)⟩,
        fun e he => .inr (hall e he)⟩
    · rintro ⟨⟨hbase, hinside⟩, hafter⟩ e he
      rcases scope.runs_somewhere e with hruns | ⟨j, hj, hruns⟩ | hruns
      · exact (hbase e he).resolve_left (by simp [hruns])
      · exact (hinside j hj e he).resolve_left (by simp [hruns])
      · exact (hafter e he).resolve_left (by simp [hruns])

/-- **A join followed by its own part of the filter is the join with that part inside.**
An inner join drops a row either way.  A left join has no part of the filter. -/
theorem joinRow_filter (hdistinct : (scope.joined.map (·.source.label)).Nodup) (w : Expr)
    {j : JoinedSource} (hj : j ∈ scope.joined) (row : JoinedRow R) :
    (scope.joinRow logic inputs (fun _ => []) row j).filter (scope.acceptsAll logic
        ((FilterSplit.of scope (some w)).insideOf j.source.label)) =
      scope.joinRow logic inputs (FilterSplit.of scope (some w)).insideOf row j := by
  have hmatched : ∀ inside : List Expr,
      scope.matched logic inputs inside row j.source.label =
        (scope.matched logic inputs [] row j.source.label).filter
          (scope.acceptsAll logic inside) := by
    intro inside
    simp only [matched, acceptsAll_nil, List.filter_true]
  cases hinside : (FilterSplit.of scope (some w)).insideOf j.source.label with
  | nil =>
    rw [acceptsAll_nil, List.filter_true, joinRow, joinRow, hinside]
  | cons e rest =>
    have hmem : e ∈ (FilterSplit.of scope (some w)).insideOf j.source.label :=
      hinside ▸ List.mem_cons_self
    have hkind : j.kind = .inner :=
      kind_of_isInner hdistinct hj (FilterSplit.owner_of_mem_insideOf hmem).2
    have hleft : j.kind ≠ .left := by rw [hkind]; decide
    simp only [joinRow, hleft, false_and, if_false, hinside]
    exact (hmatched _).symm

/-- **The joins followed by the inner parts of the filter are the joins with those parts
inside.**  The induction runs over the joins still to come: the part of the first join is
decided once that join has supplied its partner, so it can be made before the others. -/
theorem filter_joinRows_inside (hdistinct : (scope.joined.map (·.source.label)).Nodup)
    (w : Expr) (joins : List JoinedSource) (hsub : ∀ j ∈ joins, j ∈ scope.joined)
    (hjoins : (joins.map (·.source.label)).Nodup) (rows : List (JoinedRow R)) :
    (scope.joinRows logic inputs (fun _ => []) joins rows).filter (fun row =>
        joins.all fun j => scope.acceptsAll logic
          ((FilterSplit.of scope (some w)).insideOf j.source.label) row) =
      scope.joinRows logic inputs (FilterSplit.of scope (some w)).insideOf joins rows := by
  induction joins generalizing rows with
  | nil => simp
  | cons j rest ih =>
    obtain ⟨hnew, hrest⟩ := List.nodup_cons.mp hjoins
    have hstable : ∀ i ∈ rest, ∀ (row : JoinedRow R) (partner : Option R),
        scope.acceptsAll logic ((FilterSplit.of scope (some w)).insideOf j.source.label)
            (row.extend i.source.label partner) =
          scope.acceptsAll logic ((FilterSplit.of scope (some w)).insideOf j.source.label)
            row := by
      intro i hi row partner
      refine scope.acceptsAll_extend logic (o := .joined j.source.label)
        (fun e he => (FilterSplit.owner_of_mem_insideOf he).1) (by simp) (fun heq => ?_)
          row partner
      refine hnew (List.mem_map.mpr ⟨i, hi, ?_⟩)
      exact (Owner.joined.inj heq).symm
    have hstep := ih (fun i hi => hsub i (List.mem_cons_of_mem j hi)) hrest
      (rows.flatMap fun row => scope.joinRow logic inputs (fun _ => []) row j)
    simp only [List.all_cons, joinRows_cons]
    rw [← List.filter_filter, hstep, scope.filter_joinRows logic inputs hstable,
      List.filter_flatMap]
    congr 2
    funext row
    exact scope.joinRow_filter logic inputs hdistinct w (hsub j List.mem_cons_self) row

end Scope

/-! ### The steps of a plan -/

/-- The stage of the part of a filter that waits, if there is such a part. -/
def FilterSplit.waitingStages (types : FieldTypes) (split : FilterSplit) :
    Except Fault (List Document) :=
  match conjunction? split.after with
  | some e => do return [stage "$match" (← Filter.compile (.flat types) e)]
  | none => .ok []

/-- **The steps of a plan run a split.**  The filter before the joins is compiled from the
early part.  Each join is compiled with the part inside it, and the filter after the joins
from the part that waits. -/
structure Plan.RunsSplit (p : Plan) (split : FilterSplit) : Prop where
  early : ∀ previous d, Step.filter.run p previous d =
    match conjunction? split.base with
    | some e => do return { d with filter := ← Filter.compile (.between p.types) e }
    | none => .ok d
  joins : ∀ previous d, Step.joins.run p previous d = do
    let lookups ← p.scope.joined.mapM fun j =>
      j.stages p.types p.scope.base.label (split.insideOf j.source.label)
    let waiting ← split.waitingStages p.types
    return { d with joins := lookups.flatten ++ waiting, multistage := true }

/-- A plan with joins runs the split of its filter. -/
theorem Plan.runsSplit (p : Plan) (hjoined : p.scope.joined ≠ []) :
    p.RunsSplit (.of p.scope p.filter) := by
  have hempty : p.scope.joined.isEmpty = false := by simpa using hjoined
  have hcontext : p.filterContext = .between p.types := by
    simp [Plan.filterContext, Plan.isAggregate, hempty]
  have hearly : p.earlyFilter = conjunction? (FilterSplit.of p.scope p.filter).base := by
    simp [Plan.earlyFilter, hempty]
  constructor
  · intro previous d
    have hrun : ∀ early ctx, p.earlyFilter = early → p.filterContext = ctx →
        Step.filter.run p previous d =
          match early with
          | some e => do return { d with filter := ← Filter.compile ctx e }
          | none => .ok d := by
      rintro _ _ rfl rfl
      rfl
    exact hrun _ _ hearly hcontext
  · intro previous d
    simp only [Step.run, hempty, Bool.false_eq_true, if_false, Plan.joinStages,
      FilterSplit.waitingStages, bind_assoc]
    congr 1
    funext lookups
    cases conjunction? (FilterSplit.of p.scope p.filter).after with
    | none => simp; rfl
    | some e => simp

/-! ### The filter of a statement with joins -/

/-- Users with their orders, and with payments where there are any. -/
def shopScope : Scope where
  base := .of (some "u") (.collection "users")
  joined := [⟨.inner, .of (some "o") (.collection "orders"), none⟩,
    ⟨.left, .of (some "p") (.collection "payments"), none⟩]

/-- Rows of numbers.  A comparison with a number is not true of a missing value. -/
def shopLogic : RowLogic (Entries Int) (Option Int) :=
  .ofConjuncts (fun row c => row.bind (·.get? c.name)) fun e values =>
    match e, values with
    | .compare .gt _ (.literal (.int n)), [some v] => n < v
    | _, _ => false

/-- Orders and payments belong to users. -/
def shopInputs : JoinInputs (Entries Int) where
  rows label :=
    if label == "o" then
      [[("user", 1), ("total", 20)], [("user", 1), ("total", 5)],
        [("user", 2), ("total", 30)]]
    else [[("user", 1), ("paid", 1)]]
  condition _ row candidate := row.base.get? "id" == candidate.get? "user"

/-- One conjunct for each of the three places: `age > 3`, `o.total > 10`, `p.paid > 0`. -/
def shopFilter : Expr :=
  .and (.and (.compare .gt (.column (.bare "age")) (.literal (.int 3)))
    (.compare .gt (.column (.qualified "o" "total")) (.literal (.int 10))))
    (.compare .gt (.column (.qualified "p" "paid")) (.literal (.int 0)))

def shopUsers : List (Entries Int) :=
  [[("id", 1), ("age", 30)], [("id", 2), ("age", 40)], [("id", 3), ("age", 2)]]

end DocQuery
