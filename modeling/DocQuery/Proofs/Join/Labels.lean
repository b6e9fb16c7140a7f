import DocQuery.Proofs.Entries
import DocQuery.Proofs.Join.Waiting
import DocQuery.Proofs.Plan.Qualifier

/-!
# Sources that share an alias

A scope knows its sources by their place and by their alias.  Each source that is added is
entered under its alias, and whatever was entered there before is lost.  Nothing keeps two
sources of a statement from having one alias, so an alias leads to the last source that
has it.

* `Scope.labels`, `Scope.places` — the aliases of the sources, and where they lead
* `Scope.byAlias?_eq` — a source is found by the place that its alias leads to
* `Scope.get?_places_eq_some_iff`, `Scope.places_lead_back_iff` — which place that is
* `Plan.labels_of_ofSelect` — the aliases that a selection is written with
* `Plan.fault?_ofSelect_unlabelled` — planning does not look at aliases
* `Plan.lookupNames_of_draft` — the names that joined documents are stored under
* `aliases_lead_to_last_source` — what the aliases of a planned selection refer to

### What is load-bearing

The table of aliases is filled in the order of the sources, so it remembers what was
entered last under each of them.  A filter that runs inside a join is found by the alias
too, but here all joins with the alias find it.
-/

namespace DocQuery

open Sql Entries

/-! ### Places -/

/-- A list of names is entered with the places of the names, one after the other. -/
theorem isLast_zipIdx {names : List String} {name : String} {i : Nat} :
    IsLast names.zipIdx name i ↔ names[i]? = some name ∧ name ∉ names.drop (i + 1) := by
  induction names using List.reverseRecOn with
  | nil => simp [not_isLast_nil]
  | append_singleton names last ih =>
    rw [List.zipIdx_append, List.zipIdx_singleton, isLast_append_singleton, ih, Nat.zero_add]
    rcases Nat.lt_trichotomy i names.length with hlt | rfl | hgt
    · rw [List.getElem?_append_left hlt, List.drop_append_of_le_length hlt]
      by_cases h : name = last
      · simp [h, Nat.ne_of_lt hlt]
      · simp [h]
    · by_cases h : name = last
      · simp [h]
      · simp [h, Ne.symm h]
    · have hnone : (names ++ [last])[i]? = none := by simp; omega
      rw [hnone, List.getElem?_eq_none (Nat.le_of_lt hgt)]
      by_cases h : name = last
      · simp [h, Nat.ne_of_gt hgt]
      · simp [h]

namespace Scope

variable {s : Scope}

/-- The aliases of the sources, the base first. -/
def labels (s : Scope) : List String :=
  s.sources.map (·.1.label)

/-- **Where aliases lead**: each source is entered under its alias with its place. -/
def places (s : Scope) : Entries Nat :=
  s.labels.zipIdx.foldl (fun table entry => put entry.1 entry.2 table) []

/-- An alias leads to the last source that has it. -/
theorem get?_places_eq_some_iff {label : String} {i : Nat} :
    s.places.get? label = some i ↔
      s.labels[i]? = some label ∧ label ∉ s.labels.drop (i + 1) := by
  rw [places, get?_foldl_put_eq_some_iff, isLast_zipIdx]

/-- A source is found at the place that its alias leads to. -/
theorem byAlias?_eq (s : Scope) (label : String) :
    s.byAlias? label = (s.places.get? label).bind fun i => s.sources[i]? := by
  cases hplace : s.places.get? label with
  | none =>
    have hmissing : label ∉ s.labels := by
      intro hmem
      have hmem : label ∈ s.labels.zipIdx.map Prod.fst := by simpa using hmem
      obtain ⟨i, hi⟩ := exists_isLast_iff.mpr hmem
      rw [← get?_foldl_put_eq_some_iff, ← places, hplace] at hi
      cases hi
    rw [Option.bind_none, byAlias?, List.find?_eq_none]
    intro source hsource hlabel
    rw [List.mem_reverse] at hsource
    exact hmissing (List.mem_map.mpr ⟨source, hsource, beq_iff_eq.mp hlabel⟩)
  | some i =>
    obtain ⟨hi, hlast⟩ := get?_places_eq_some_iff.mp hplace
    rw [labels, List.getElem?_map, Option.map_eq_some_iff] at hi
    obtain ⟨source, hsource, hlabel⟩ := hi
    obtain ⟨hlength, hentry⟩ := List.getElem?_eq_some_iff.mp hsource
    -- no source behind this one has the alias
    have hafter : (s.sources.drop (i + 1)).reverse.find? (·.1.label == label) = none := by
      rw [List.find?_eq_none]
      intro other hother hsame
      rw [labels, ← List.map_drop] at hlast
      exact hlast (List.mem_map.mpr ⟨other, List.mem_reverse.mp hother, beq_iff_eq.mp hsame⟩)
    have hsplit : s.sources = s.sources.take i ++ source :: s.sources.drop (i + 1) := by
      rw [← hentry, ← List.drop_eq_getElem_cons hlength, List.take_append_drop]
    rw [Option.bind_some, hsource, byAlias?, hsplit, List.reverse_append, List.reverse_cons,
      List.append_assoc, List.find?_append, hafter]
    simp [hlabel]

/-- The aliases of all sources lead back to them exactly if no two sources share one. -/
theorem places_lead_back_iff :
    (∀ i label, s.labels[i]? = some label → s.places.get? label = some i) ↔
      s.labels.Nodup := by
  simp only [get?_places_eq_some_iff]
  generalize s.labels = names
  induction names with
  | nil => simp
  | cons name rest ih =>
    rw [List.nodup_cons, ← ih]
    constructor
    · intro h
      refine ⟨(h 0 name rfl).2, fun i label hi => ?_⟩
      exact h (i + 1) label hi
    · rintro ⟨hfirst, hrest⟩ i label hi
      cases i with
      | zero =>
        cases hi
        exact ⟨rfl, hfirst⟩
      | succ i => exact hrest i label hi

end Scope

/-! ### Aliases of a selection -/

namespace Sql

/-- The aliases of the sources of a selection: the written ones, else the names of tables. -/
def Select.sourceLabels (s : Select) : List String :=
  s.source.baseAlias :: s.joins.map (·.right.baseAlias)

/-- A source without its alias. -/
def Source.unlabelled : Source → Source
  | .table name _ => .table name none
  | .subquery q _ => .subquery q none

/-- A join whose source has no alias. -/
def Join.unlabelled (j : Join) : Join :=
  { j with right := j.right.unlabelled }

/-- A selection whose sources have no aliases. -/
def Select.unlabelled (s : Select) : Select :=
  { s with source := s.source.unlabelled, joins := s.joins.map Join.unlabelled }

end Sql

namespace Plan

variable {types : FieldTypes} {depth : Nat} {p : Plan}

/-- **Step to run.**  Each join adds the alias of its source. -/
theorem labels_of_resolveJoins {joins : List Join} {scope scope' : Scope}
    (h : resolveJoins types depth scope joins = .ok scope') :
    scope'.labels = scope.labels ++ joins.map (·.right.baseAlias) := by
  induction joins generalizing scope with
  | nil =>
    rw [resolveJoins] at h
    cases h
    simp
  | cons join rest ih =>
    obtain ⟨kind, right, condition⟩ := join
    rw [resolveJoins, Outcome.bind_eq_ok] at h
    obtain ⟨-, -, h⟩ := h
    obtain ⟨source, hsource, h⟩ := Outcome.bind_eq_ok.mp h
    obtain ⟨next, hnext, h⟩ := Outcome.bind_eq_ok.mp h
    obtain ⟨-, -, hnext⟩ := Outcome.bind_eq_ok.mp hnext
    cases Outcome.pure_eq_ok.mp hnext
    rw [ih h]
    simp [Scope.labels, Scope.sources, label_of_resolve hsource]

/-- **The sources of a plan go by the aliases that are written.** -/
theorem labels_of_ofSelect {s : Select} (h : ofSelect types depth s = .ok p) :
    p.scope.labels = s.sourceLabels := by
  obtain ⟨base, scope, hbase, hscope, h⟩ := exists_scope_of_ofSelect h
  obtain ⟨limit, -, h⟩ := Outcome.bind_eq_ok.mp h
  obtain ⟨offset, -, h⟩ := Outcome.bind_eq_ok.mp h
  have hlabels := labels_of_resolveJoins hscope
  have hsame : p.scope.labels = scope.labels := by
    rw [← Outcome.pure_eq_ok.mp h]
    simp [Scope.labels, Scope.sources]
  rw [hsame, hlabels, Select.sourceLabels, ← label_of_resolve hbase]
  rfl

/-! ### Planning does not look at aliases -/

theorem fault?_resolve_unlabelled (source : Source) :
    Outcome.fault? (resolve types depth source.unlabelled) =
      Outcome.fault? (resolve types depth source) := by
  cases source with
  | table name label =>
    rw [Source.unlabelled, resolve, resolve]
    rfl
  | subquery q label =>
    rw [Source.unlabelled, resolve, resolve]
    split
    · rfl
    · exact Outcome.fault?_bind_congr rfl fun _ _ => rfl

theorem fault?_resolveJoins_unlabelled (joins : List Join) (scope scope' : Scope) :
    Outcome.fault? (resolveJoins types depth scope (joins.map Join.unlabelled)) =
      Outcome.fault? (resolveJoins types depth scope' joins) := by
  induction joins generalizing scope scope' with
  | nil =>
    rw [List.map_nil, resolveJoins, resolveJoins]
    rfl
  | cons join rest ih =>
    obtain ⟨kind, right, condition⟩ := join
    rw [List.map_cons, Join.unlabelled, resolveJoins, resolveJoins]
    refine Outcome.fault?_bind_congr rfl fun _ _ => ?_
    refine Outcome.fault?_bind_congr (fault?_resolve_unlabelled right) fun _ _ => ?_
    exact Outcome.fault?_bind_congr (Outcome.fault?_bind_congr rfl fun _ _ => rfl) fun _ _ =>
      ih ..

/-- **A selection is planned, or fails, whatever its aliases are.** -/
theorem fault?_ofSelect_unlabelled (s : Select) :
    Outcome.fault? (ofSelect types depth s.unlabelled) =
      Outcome.fault? (ofSelect types depth s) := by
  obtain ⟨distinct, items, source, joins, filter, groupBy, having, orderBy, limit,
      offset⟩ := s
  rw [Select.unlabelled, ofSelect, ofSelect]
  refine Outcome.fault?_bind_congr (fault?_resolve_unlabelled source) fun _ _ => ?_
  refine Outcome.fault?_bind_congr (fault?_resolveJoins_unlabelled joins _ _) fun _ _ => ?_
  exact Outcome.fault?_bind_congr rfl fun _ _ => Outcome.fault?_bind_congr rfl fun _ _ => rfl

end Plan

/-! ### Lookups and filters -/

/-- The name that a lookup stores the joined documents under. -/
def lookupName? (d : Document) : Option String := do
  let body ← (← d.get? "$lookup").asDocument?
  (← body.get? "as").asString?

/-- The lookup of a join stores documents under the alias of its source. -/
theorem JoinedSource.lookupNames_of_stages {types : FieldTypes} {base : String}
    {inside : List Expr} {j : JoinedSource} {stages : List Document}
    (h : j.stages types base inside = .ok stages) :
    stages.filterMap lookupName? = [j.source.label] := by
  unfold JoinedSource.stages at h
  split at h
  · cases h
  · obtain ⟨⟨bound, pipeline⟩, -, h⟩ := Outcome.bind_eq_ok.mp h
    cases Outcome.pure_eq_ok.mp h
    rfl

/-- **The lookups of a plan store documents under the aliases of the joined sources.** -/
theorem Plan.lookupNames_of_draft {p : Plan} {d : Draft} (hd : p.draft = .ok d)
    (hjoined : p.scope.joined ≠ []) :
    d.joins.filterMap lookupName? = p.scope.joined.map (·.source.label) := by
  obtain ⟨lookups, waiting, hlookups, hwaiting, hjoins⟩ :=
    Plan.exists_stages_of_draft hd hjoined
  -- what waits is no lookup
  have hwaits : waiting.filterMap lookupName? = [] := by
    rw [FilterSplit.waitingStages] at hwaiting
    split at hwaiting
    · obtain ⟨filter, -, hwaiting⟩ := Outcome.bind_eq_ok.mp hwaiting
      cases Outcome.pure_eq_ok.mp hwaiting
      rfl
    · cases hwaiting
      rfl
  have hnames : lookups.map (·.filterMap lookupName?) =
      p.scope.joined.map fun j => [j.source.label] :=
    Outcome.map_results_of_mapM (fun _ _ hstages => JoinedSource.lookupNames_of_stages
      hstages) hlookups
  rw [hjoins, List.filterMap_append, hwaits, List.append_nil, List.filterMap_flatten, hnames,
    ← List.flatMap_def, ← List.map_eq_flatMap]

/-- A conjunct that runs inside a join runs inside all joins with that alias, and no
others. -/
theorem FilterSplit.mem_insideOf_iff {scope : Scope} {filter : Option Expr} {e : Expr}
    {label other : String} (h : e ∈ (FilterSplit.of scope filter).insideOf label) :
    e ∈ (FilterSplit.of scope filter).insideOf other ↔ other = label := by
  cases filter with
  | none => exact absurd h List.not_mem_nil
  | some w =>
    constructor
    · intro hother
      have howner := (FilterSplit.owner_of_mem_insideOf h).1
      rw [(FilterSplit.owner_of_mem_insideOf hother).1] at howner
      cases howner
      rfl
    · rintro rfl
      exact h

/-! ### The aliases of a planned selection -/

/-- **Aliases lead to the last source that has them.**  A query is planned as a selection,
and the sources of the plan go by the aliases that the selection is written with; whether
it is planned at all does not depend on these.  A source is found by the place that its
alias leads to, which is that of the last source with the alias.  So the aliases lead back
to their own sources exactly if they are pairwise distinct.  Lookups store documents under
the aliases of the joined sources, and a conjunct that runs inside a join runs inside each
join that has the alias. -/
theorem aliases_lead_to_last_source {types : FieldTypes} {depth : Nat} {q : Query} {p : Plan}
    (hp : Plan.ofQuery types depth q = .ok p) :
    ∃ s, q.leading? = some s ∧ p.scope.labels = s.sourceLabels ∧
      (∀ label,
        p.scope.byAlias? label =
          (p.scope.places.get? label).bind fun i => p.scope.sources[i]?) ∧
      (∀ label i, p.scope.places.get? label = some i ↔
        s.sourceLabels[i]? = some label ∧ label ∉ s.sourceLabels.drop (i + 1)) ∧
      ((∀ i label, s.sourceLabels[i]? = some label → p.scope.places.get? label = some i) ↔
        s.sourceLabels.Nodup) ∧
      (∀ s' : Select, s'.unlabelled = s.unlabelled →
        ∃ p', Plan.ofSelect types depth s' = .ok p') ∧
      (∀ d, p.draft = .ok d → p.scope.joined ≠ [] →
        d.joins.filterMap lookupName? = s.sourceLabels.tail) ∧
      ∀ e label, e ∈ (FilterSplit.of p.scope p.filter).insideOf label → ∀ j ∈ p.scope.joined,
        (e ∈ (FilterSplit.of p.scope p.filter).insideOf j.source.label ↔
          j.source.label = label) := by
  obtain ⟨s, hs, hselect⟩ := Plan.exists_leading_of_ofQuery hp
  have hlabels := Plan.labels_of_ofSelect hselect
  refine ⟨s, hs, hlabels, p.scope.byAlias?_eq, ?_, ?_, ?_, ?_, ?_⟩
  · intro label i
    rw [← hlabels]
    exact Scope.get?_places_eq_some_iff
  · rw [← hlabels]
    exact Scope.places_lead_back_iff
  · intro s' hsame
    rw [← Outcome.fault?_eq_none_iff, ← Plan.fault?_ofSelect_unlabelled, hsame,
      Plan.fault?_ofSelect_unlabelled, hselect]
    rfl
  · intro d hd hjoined
    rw [Plan.lookupNames_of_draft hd hjoined, ← hlabels]
    simp [Scope.labels, Scope.sources]
  · exact fun e label he j _ => FilterSplit.mem_insideOf_iff he

/-- The condition `o.total > 5`. -/
def totalCondition : Expr :=
  .compare .gt (.column (.qualified "o" "total")) (.literal (.int 5))

/-- The selection `SELECT name FROM users u JOIN orders o JOIN items o WHERE o.total > 5`. -/
def sharedAlias : Select :=
  ⟨false, [⟨.column (.bare "name"), none⟩], .table "users" (some "u"),
    [⟨.inner, .table "orders" (some "o"), none⟩, ⟨.inner, .table "items" (some "o"), none⟩],
    some totalCondition, [], none, [], none, none⟩

/-- Two joined sources share an alias: it leads to the second of them, both lookups store
documents under it, and the condition on it runs inside both joins. -/
theorem aliases_lead_to_last_source_shared :
    ∃ p d, Plan.ofQuery {} 0 (.plain sharedAlias) = .ok p ∧ p.draft = .ok d ∧
      p.scope.places.get? "o" = some 2 ∧
      (¬ ∀ i label, sharedAlias.sourceLabels[i]? = some label →
        p.scope.places.get? label = some i) ∧
      d.joins.filterMap lookupName? = ["o", "o"] ∧
      ∀ j ∈ p.scope.joined,
        totalCondition ∈ (FilterSplit.of p.scope p.filter).insideOf j.source.label := by
  obtain ⟨p, d, hp, hd, hjoined, hinside, hlabels⟩ : ∃ p d,
      Plan.ofQuery {} 0 (.plain sharedAlias) = .ok p ∧ p.draft = .ok d ∧ p.scope.joined ≠ [] ∧
      totalCondition ∈ (FilterSplit.of p.scope p.filter).insideOf "o" ∧
      ∀ j ∈ p.scope.joined, j.source.label = "o" := by
    refine ⟨_, _, rfl, rfl, by simp, List.mem_cons_self, ?_⟩
    intro j hj
    rcases List.mem_pair.mp hj with rfl | rfl <;> rfl
  obtain ⟨s, hs, -, -, hplaces, hback, -, hnames, hruns⟩ := aliases_lead_to_last_source hp
  cases hs
  refine ⟨p, d, hp, hd, (hplaces "o" 2).mpr (by decide), mt hback.mp (by decide),
    hnames d hd hjoined, ?_⟩
  intro j hj
  exact (hruns totalCondition "o" hinside j hj).mpr (hlabels j hj)

end DocQuery
