import DocQuery.Join.Split
import Mathlib.Data.List.Nodup

/-!
# Where the conjuncts of a filter run

`FilterSplit.of` walks over the conjuncts of a filter and adds each of them to one of
three places.  This file says what the walk leaves in each place, without the walk.

* `Scope.runsEarly`, `Scope.runsInside`, `Scope.runsAfter` — the three places as tests on
  a single conjunct
* `FilterSplit.base_of`, `FilterSplit.insideOf_of`, `FilterSplit.after_of` — the parts of
  a split are the conjuncts that pass the test, in the order in which they are written
* `Scope.runs_somewhere` — every conjunct passes one of the three tests

### What is load-bearing

`Scope.owner` looks at the columns of an expression only, so an expression that is owned
by one source has no column of any other (`Scope.columnOwner_of_owner`).  Nothing else
about ownership is used later on.
-/

namespace DocQuery

open Sql

namespace Scope

/-- Whether a conjunct runs before the first join. -/
def runsEarly (scope : Scope) (e : Expr) : Bool :=
  scope.owner e == .base

/-- Whether a conjunct runs inside the join with this alias. -/
def runsInside (scope : Scope) (label : String) (e : Expr) : Bool :=
  scope.owner e == .joined label && scope.isInner label

/-- Whether a conjunct waits until the last join has run. -/
def runsAfter (scope : Scope) (e : Expr) : Bool :=
  match scope.owner e with
  | .base => false
  | .joined label => !scope.isInner label
  | .several => true

/-- **All columns of an expression that is owned by one source belong to that source.** -/
theorem columnOwner_of_owner {scope : Scope} {e : Expr} {o : Owner}
    (howner : scope.owner e = o) (hone : o ≠ .several) :
    ∀ c ∈ e.columns, scope.columnOwner c = o := by
  intro c hc
  have hmem : scope.columnOwner c ∈ e.columns.map scope.columnOwner := List.mem_map_of_mem hc
  unfold owner at howner
  cases hcols : e.columns.map scope.columnOwner with
  | nil =>
    rw [hcols] at hmem
    exact absurd hmem List.not_mem_nil
  | cons first rest =>
    rw [hcols] at howner hmem
    by_cases hall : rest.all (· == first) = true
    · simp only [hall, if_true] at howner
      subst howner
      rcases List.mem_cons.mp hmem with heq | hrest
      · exact heq
      · exact by simpa using List.all_eq_true.mp hall _ hrest
    · simp only [hall] at howner
      exact absurd howner.symm hone

/-- The alias of an inner join is the alias of a joined source of that kind. -/
theorem exists_joined_of_isInner {scope : Scope} {label : String}
    (hinner : scope.isInner label) :
    ∃ j ∈ scope.joined, j.source.label = label ∧ j.kind = .inner := by
  unfold isInner at hinner
  cases hfind : scope.byAlias? label with
  | none => simp [hfind] at hinner
  | some found =>
    obtain ⟨source, kind⟩ := found
    have hlabel : source.label = label := by simpa using List.find?_some hfind
    have hsource : (source, kind) ∈ scope.sources :=
      List.mem_reverse.mp (List.mem_of_find?_eq_some hfind)
    rcases List.mem_cons.mp hsource with hbase | hjoined
    · -- the base source comes without a kind
      cases hbase
      simp [hfind] at hinner
    · obtain ⟨j, hj, heq⟩ := List.mem_map.mp hjoined
      cases heq
      refine ⟨j, hj, hlabel, ?_⟩
      cases hkind : j.kind <;> simp_all

/-- If no two joined sources share an alias, an inner alias is only that of inner joins. -/
theorem kind_of_isInner {scope : Scope}
    (hdistinct : (scope.joined.map (·.source.label)).Nodup) {j : JoinedSource}
    (hj : j ∈ scope.joined) (hinner : scope.isInner j.source.label) : j.kind = .inner := by
  obtain ⟨i, hi, hlabel, hkind⟩ := exists_joined_of_isInner hinner
  rw [List.inj_on_of_nodup_map hdistinct hj hi hlabel.symm]
  exact hkind

/-- Every conjunct runs early, inside a join of the scope, or after the joins. -/
theorem runs_somewhere (scope : Scope) (e : Expr) :
    scope.runsEarly e ∨ (∃ j ∈ scope.joined, scope.runsInside j.source.label e) ∨
      scope.runsAfter e := by
  cases howner : scope.owner e with
  | base => exact .inl (by simp [runsEarly, howner])
  | several => exact .inr (.inr (by simp [runsAfter, howner]))
  | joined label =>
    by_cases hinner : scope.isInner label = true
    · obtain ⟨j, hj, hlabel, -⟩ := exists_joined_of_isInner hinner
      refine .inr (.inl ⟨j, hj, ?_⟩)
      simp [runsInside, howner, hlabel, hinner]
    · exact .inr (.inr (by simp [runsAfter, howner, hinner]))

end Scope

namespace FilterSplit

/-! ### One conjunct -/

theorem base_place (scope : Scope) (split : FilterSplit) (e : Expr) :
    (place scope split e).base = split.base ++ [e].filter scope.runsEarly := by
  unfold place
  cases howner : scope.owner e with
  | base => simp [Scope.runsEarly, howner]
  | several => simp [Scope.runsEarly, howner]
  | joined label =>
    by_cases hinner : scope.isInner label = true <;> simp [Scope.runsEarly, howner, hinner]

theorem after_place (scope : Scope) (split : FilterSplit) (e : Expr) :
    (place scope split e).after = split.after ++ [e].filter scope.runsAfter := by
  unfold place
  cases howner : scope.owner e with
  | base => simp [Scope.runsAfter, howner]
  | several => simp [Scope.runsAfter, howner]
  | joined label =>
    by_cases hinner : scope.isInner label = true <;> simp [Scope.runsAfter, howner, hinner]

theorem insideOf_place (scope : Scope) (split : FilterSplit) (e : Expr) (label : String) :
    (place scope split e).insideOf label =
      split.insideOf label ++ [e].filter (scope.runsInside label) := by
  unfold place
  cases howner : scope.owner e with
  | base => simp [insideOf, Scope.runsInside, howner]
  | several => simp [insideOf, Scope.runsInside, howner]
  | joined other =>
    by_cases hinner : scope.isInner other = true
    · by_cases hlabel : label = other
      · subst hlabel
        simp [insideOf, Entries.get?_put, Scope.runsInside, howner, hinner]
      · simp [insideOf, Entries.get?_put, Scope.runsInside, howner, hinner, hlabel,
          Ne.symm hlabel]
    · have hnot : scope.runsInside label e = false := by
        by_cases hlabel : other = label
        · subst hlabel
          simp [Scope.runsInside, hinner]
        · simp [Scope.runsInside, howner, hlabel]
      simp [insideOf, hinner, hnot]

/-! ### All conjuncts -/

/-- A part of the split that one conjunct extends by passing a test holds, after the walk,
the conjuncts that pass it. -/
theorem part_foldl_place (scope : Scope) (part : FilterSplit → List Expr) (test : Expr → Bool)
    (hplace : ∀ split e, part (place scope split e) = part split ++ [e].filter test)
    (es : List Expr) (split : FilterSplit) :
    part (es.foldl (place scope) split) = part split ++ es.filter test := by
  induction es generalizing split with
  | nil => simp
  | cons e rest ih =>
    rw [List.foldl_cons, ih, hplace, List.append_assoc, ← List.filter_append]
    rfl

/-! ### The split of a filter -/

/-- A filter with a visible disjunction waits as a whole. -/
theorem of_of_containsOr (scope : Scope) {w : Expr} (hor : w.containsOr = true) :
    of scope (some w) = { after := [w], disjunction := true } := by
  simp [of, hor]

/-- The conjuncts that run early are those of the base source. -/
theorem base_of (scope : Scope) {w : Expr} (hor : w.containsOr = false) :
    (of scope (some w)).base = w.conjuncts.filter scope.runsEarly := by
  have hfold := part_foldl_place scope base _ (base_place scope) w.conjuncts {}
  simpa [of, hor] using hfold

/-- The conjuncts that run inside a join are those of an inner join with its alias. -/
theorem insideOf_of (scope : Scope) {w : Expr} (hor : w.containsOr = false) (label : String) :
    (of scope (some w)).insideOf label = w.conjuncts.filter (scope.runsInside label) := by
  have hfold := part_foldl_place scope (insideOf · label) _
    (fun split e => insideOf_place scope split e label) w.conjuncts {}
  simpa [of, hor, show insideOf {} label = [] from rfl] using hfold

/-- The conjuncts that wait are those of left joins and of several sources. -/
theorem after_of (scope : Scope) {w : Expr} (hor : w.containsOr = false) :
    (of scope (some w)).after = w.conjuncts.filter scope.runsAfter := by
  have hfold := part_foldl_place scope after _ (after_place scope) w.conjuncts {}
  simpa [of, hor] using hfold

/-- What runs early is owned by the base source. -/
theorem owner_of_mem_base {scope : Scope} {w e : Expr} (hmem : e ∈ (of scope (some w)).base) :
    scope.owner e = .base := by
  cases hor : w.containsOr with
  | true =>
    rw [of_of_containsOr scope hor] at hmem
    exact absurd hmem List.not_mem_nil
  | false =>
    rw [base_of scope hor] at hmem
    simpa [Scope.runsEarly] using (List.mem_filter.mp hmem).2

/-- What runs inside a join is owned by that join, and the alias is that of an inner join. -/
theorem owner_of_mem_insideOf {scope : Scope} {w e : Expr} {label : String}
    (hmem : e ∈ (of scope (some w)).insideOf label) :
    scope.owner e = .joined label ∧ scope.isInner label := by
  cases hor : w.containsOr with
  | true =>
    rw [of_of_containsOr scope hor] at hmem
    exact absurd hmem List.not_mem_nil
  | false =>
    rw [insideOf_of scope hor] at hmem
    simpa [Scope.runsInside] using (List.mem_filter.mp hmem).2

end FilterSplit

end DocQuery
