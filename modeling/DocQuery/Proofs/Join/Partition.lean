import DocQuery.Proofs.Entries
import DocQuery.Proofs.Join.Pushdown
import DocQuery.Proofs.Sql.Parts

/-!
# Every conjunct of a filter runs once, where its columns are at hand

`FilterSplit.of` deals the conjuncts of a filter out to the base source, to the inner
joins and to the time after the joins.  `FilterSplit.conjuncts_dealt_out_once` says that
nothing is lost, run twice or run where a column is missing.

* `Expr.ShowsOr` — a disjunction that can be seen through conjunctions and negations
* `Scope.joinedAlias?` — the joined source that a column names
* `FilterSplit.DealsOut` — a split deals out the conjuncts of a filter
* `FilterSplit.perm_all_foldl_place` — the walk over the conjuncts keeps them all

### What is load-bearing

A disjunction that cannot be seen stands inside a conjunct, and the conjunct reads all
columns of the disjunction.  The columns of a conjunct that does not wait belong to one
source, so the columns of the disjunction do.
-/

namespace DocQuery

open Sql

/-- A disjunction can be seen through conjunctions and negations. -/
inductive Sql.Expr.ShowsOr : Expr → Prop
  | or (l r : Expr) : ShowsOr (.or l r)
  | left {l : Expr} (r : Expr) : ShowsOr l → ShowsOr (.and l r)
  | right (l : Expr) {r : Expr} : ShowsOr r → ShowsOr (.and l r)
  | not {e : Expr} : ShowsOr e → ShowsOr (.not e)

theorem Sql.Expr.showsOr_iff_containsOr (e : Expr) : e.ShowsOr ↔ e.containsOr = true := by
  constructor
  · intro h
    induction h with
    | or l r => rfl
    | left r _ ih => rw [containsOr, ih, Bool.true_or]
    | right l _ ih => rw [containsOr, ih, Bool.or_true]
    | not _ ih => rw [containsOr, ih]
  · intro h
    induction e using containsOr.induct with
    | case1 l r => exact .or l r
    | case2 l r ihl ihr =>
      rw [containsOr, Bool.or_eq_true] at h
      exact h.elim (fun h => .left r (ihl h)) fun h => .right l (ihr h)
    | case3 e ih => exact .not (ih h)
    | case4 e _ _ _ => cases e <;> simp_all [containsOr]

/-! ### Columns and their sources -/

namespace Scope

/-- The alias of the joined source that a column names; none for the columns of the base
source. -/
def joinedAlias? (scope : Scope) (c : Column) : Option String :=
  c.table.filter scope.isJoined

theorem columnOwner_eq_elim (scope : Scope) (c : Column) :
    scope.columnOwner c = (scope.joinedAlias? c).elim .base .joined := by
  rw [columnOwner, joinedAlias?]
  cases c.table with
  | none => rfl
  | some label => by_cases h : scope.isJoined label = true <;> simp [Option.filter, h]

theorem columnOwner_eq_base_iff {scope : Scope} {c : Column} :
    scope.columnOwner c = .base ↔ scope.joinedAlias? c = none := by
  rw [columnOwner_eq_elim]
  cases scope.joinedAlias? c <;> simp

theorem columnOwner_eq_joined_iff {scope : Scope} {c : Column} {label : String} :
    scope.columnOwner c = .joined label ↔ scope.joinedAlias? c = some label := by
  rw [columnOwner_eq_elim]
  cases scope.joinedAlias? c <;> simp

/-- Columns have the same owner exactly if they name the same joined source, or both none. -/
theorem columnOwner_eq_iff {scope : Scope} {c c' : Column} :
    scope.columnOwner c = scope.columnOwner c' ↔
      scope.joinedAlias? c = scope.joinedAlias? c' := by
  cases h : scope.joinedAlias? c' with
  | none => rw [columnOwner_eq_base_iff.mpr h, columnOwner_eq_base_iff]
  | some label => rw [columnOwner_eq_joined_iff.mpr h, columnOwner_eq_joined_iff]

theorem isInner_iff {scope : Scope} {label : String} :
    scope.isInner label = true ↔ ∃ source,
      scope.byAlias? label = some (source, some .inner) := by
  unfold isInner
  split
  · rename_i source h
    exact ⟨fun _ => ⟨source, h⟩, fun _ => rfl⟩
  · rename_i h
    refine ⟨fun hfalse => absurd hfalse Bool.false_ne_true, fun ⟨source, hsource⟩ => ?_⟩
    exact absurd hsource (h source)

/-- An expression that a join owns reads a column. -/
theorem columns_ne_nil_of_owner_joined {scope : Scope} {e : Expr} {label : String}
    (h : scope.owner e = .joined label) : e.columns ≠ [] := by
  intro hnil
  rw [owner, hnil] at h
  cases h

/-- An expression of several sources reads columns of two. -/
theorem exists_ne_of_owner_several {scope : Scope} {e : Expr} (h : scope.owner e = .several) :
    ∃ c ∈ e.columns, ∃ c' ∈ e.columns, scope.joinedAlias? c ≠ scope.joinedAlias? c' := by
  cases hcolumns : e.columns with
  | nil => rw [owner, hcolumns] at h; cases h
  | cons first rest =>
    have hsome : ¬ (rest.map scope.columnOwner).all (· == scope.columnOwner first) =
        true := by
      intro hall
      rw [owner, hcolumns, List.map_cons] at h
      simp only [hall, if_true] at h
      rw [columnOwner_eq_elim] at h
      cases halias : scope.joinedAlias? first <;> rw [halias] at h <;> cases h
    obtain ⟨c, hc, hne⟩ : ∃ c ∈ rest, scope.columnOwner c ≠ scope.columnOwner first := by
      simpa using hsome
    exact ⟨c, List.mem_cons_of_mem first hc, first, List.mem_cons_self,
      fun heq => hne (columnOwner_eq_iff.mpr heq)⟩

/-- **What waits has to wait**: it reads two sources, or a joined source that is no inner
join. -/
theorem reason_of_runsAfter {scope : Scope} {e : Expr} (h : scope.runsAfter e = true) :
    (∃ c ∈ e.columns, ∃ c' ∈ e.columns, scope.joinedAlias? c ≠ scope.joinedAlias? c') ∨
      ∃ c ∈ e.columns, ∃ label, scope.joinedAlias? c = some label ∧
        ¬ ∃ source, scope.byAlias? label = some (source, some .inner) := by
  cases howner : scope.owner e with
  | base => simp [runsAfter, howner] at h
  | several => exact .inl (exists_ne_of_owner_several howner)
  | joined label =>
    have hinner : ¬ scope.isInner label = true := by simpa [runsAfter, howner] using h
    obtain ⟨c, hc⟩ := List.exists_mem_of_ne_nil _ (columns_ne_nil_of_owner_joined howner)
    have hc_owner := columnOwner_of_owner howner (by simp) c hc
    exact .inr ⟨c, hc, label, columnOwner_eq_joined_iff.mp hc_owner, fun h =>
      hinner (isInner_iff.mpr h)⟩

/-- What one source owns reads columns of that source only, at any depth. -/
theorem joinedAlias?_eq_of_within {scope : Scope} {e x : Expr}
    (hone : scope.owner e ≠ .several) (hx : x.Within e) {c c' : Column} (hc : c ∈ x.columns)
    (hc' : c' ∈ x.columns) : scope.joinedAlias? c = scope.joinedAlias? c' := by
  have howner := columnOwner_of_owner (rfl : scope.owner e = _) hone
  have hsub := Expr.columns_subset_of_within hx
  exact columnOwner_eq_iff.mp ((howner c (hsub hc)).trans (howner c' (hsub hc')).symm)

end Scope

namespace FilterSplit

/-! ### Keeping the conjuncts -/

/-- All conjuncts of a split: those of the base source, those inside the joins and those
that wait. -/
def all (split : FilterSplit) : List Expr :=
  split.base ++ (split.inside.map Prod.snd).flatten ++ split.after

/-- **Step.**  Placing a conjunct adds it once. -/
theorem perm_all_place (scope : Scope) (split : FilterSplit) (e : Expr) :
    (place scope split e).all.Perm (split.all ++ [e]) := by
  unfold place
  cases scope.owner e with
  | base =>
    have hlast : ([e] ++ ((split.inside.map Prod.snd).flatten ++ split.after)).Perm
        (((split.inside.map Prod.snd).flatten ++ split.after) ++ [e]) := List.perm_append_comm
    simp only [all, List.append_assoc] at hlast ⊢
    exact List.Perm.append_left _ hlast
  | several =>
    simp only [all, List.append_assoc]
    exact List.Perm.refl _
  | joined label =>
    by_cases hinner : scope.isInner label = true
    · simp only [hinner, if_true, all, insideOf, List.append_assoc]
      have hput := Entries.flatten_put_append split.inside label [e]
      have hlast : ([e] ++ split.after).Perm (split.after ++ [e]) := List.perm_append_comm
      refine List.Perm.append_left _ ((hput.append_right _).trans ?_)
      rw [List.append_assoc]
      exact List.Perm.append_left _ hlast
    · simp only [hinner, all, List.append_assoc]
      exact List.Perm.refl _

/-- **Run.**  The walk keeps what the split holds and adds every conjunct once. -/
theorem perm_all_foldl_place (scope : Scope) (es : List Expr) (split : FilterSplit) :
    (es.foldl (place scope) split).all.Perm (split.all ++ es) := by
  induction es generalizing split with
  | nil => simp
  | cons e rest ih =>
    have hstep := (perm_all_place scope split e).append_right rest
    rw [List.append_assoc] at hstep
    exact (ih _).trans hstep

/-- **Run.**  The walk makes one list for each join. -/
theorem nodup_inside_foldl_place (scope : Scope) (es : List Expr) (split : FilterSplit)
    (hsplit : (split.inside.map Prod.fst).Nodup) :
    ((es.foldl (place scope) split).inside.map Prod.fst).Nodup := by
  induction es generalizing split with
  | nil => exact hsplit
  | cons e rest ih =>
    refine ih _ ?_
    unfold place
    split
    · exact hsplit
    · split
      · exact Entries.nodup_put hsplit
      · exact hsplit
    · exact hsplit

/-! ### The split of a filter -/

/-- **A split deals out the conjuncts of a filter.** -/
structure DealsOut (scope : Scope) (w : Expr) (split : FilterSplit) : Prop where
  /-- Every occurrence of a conjunct is in one of the lists, once. -/
  once : split.all.Perm w.conjuncts
  /-- Every join has one list. -/
  one_list : (split.inside.map Prod.fst).Nodup
  /-- The lists follow the order of the filter. -/
  in_order : split.base.Sublist w.conjuncts ∧ split.after.Sublist w.conjuncts ∧
    ∀ entry ∈ split.inside, entry.2.Sublist w.conjuncts
  /-- What runs before the joins does not read a joined source. -/
  base_reads : ∀ e ∈ split.base, ∀ c ∈ e.columns, scope.joinedAlias? c = none
  /-- What runs inside a join reads that join and nothing else, and the join is an inner
  one. -/
  inside_reads : ∀ entry ∈ split.inside, ∀ e ∈ entry.2, e.columns ≠ [] ∧
    (∀ c ∈ e.columns, c.table = some entry.1) ∧
    ∃ source, scope.byAlias? entry.1 = some (source, some .inner)
  /-- What runs after the joins reads two sources, or a joined source that is no inner
  join. -/
  after_reads : ∀ e ∈ split.after,
    (∃ c ∈ e.columns, ∃ c' ∈ e.columns, scope.joinedAlias? c ≠ scope.joinedAlias? c') ∨
      ∃ c ∈ e.columns, ∃ label, scope.joinedAlias? c = some label ∧
        ¬ ∃ source, scope.byAlias? label = some (source, some .inner)

/-- The lists of the joins have distinct aliases, so each is the list that is looked up. -/
theorem insideOf_of_mem_inside {split : FilterSplit}
    (hnodup : (split.inside.map Prod.fst).Nodup) {entry : String × List Expr}
    (h : entry ∈ split.inside) : split.insideOf entry.1 = entry.2 := by
  rw [insideOf, (Entries.get?_eq_some_iff hnodup).mpr h, Option.getD_some]

theorem nodup_inside_of (scope : Scope) (w : Expr) :
    ((of scope (some w)).inside.map Prod.fst).Nodup := by
  rw [of]
  split
  · exact List.nodup_nil
  · exact nodup_inside_foldl_place scope w.conjuncts {} List.nodup_nil

theorem dealsOut_of {scope : Scope} {w : Expr} (hor : w.containsOr = false) :
    DealsOut scope w (of scope (some w)) where
  once := by
    have hrun := perm_all_foldl_place scope w.conjuncts {}
    simpa [of, hor, all] using hrun
  one_list := nodup_inside_of scope w
  in_order := by
    refine ⟨?_, ?_, fun entry hentry => ?_⟩
    · rw [base_of scope hor]; exact List.filter_sublist
    · rw [after_of scope hor]; exact List.filter_sublist
    · rw [← insideOf_of_mem_inside (nodup_inside_of scope w) hentry, insideOf_of scope hor]
      exact List.filter_sublist
  base_reads := fun e he c hc =>
    Scope.columnOwner_eq_base_iff.mp
      (Scope.columnOwner_of_owner (owner_of_mem_base he) (by simp) c hc)
  inside_reads := by
    intro entry hentry e he
    rw [← insideOf_of_mem_inside (nodup_inside_of scope w) hentry] at he
    obtain ⟨howner, hinner⟩ := owner_of_mem_insideOf he
    refine ⟨Scope.columns_ne_nil_of_owner_joined howner, fun c hc =>
      ?_, Scope.isInner_iff.mp hinner⟩
    have hc_owner := Scope.columnOwner_of_owner howner (by simp) c hc
    exact Option.eq_some_of_filter_eq_some (Scope.columnOwner_eq_joined_iff.mp hc_owner)
  after_reads := by
    intro e he
    rw [after_of scope hor] at he
    exact Scope.reason_of_runsAfter (List.mem_filter.mp he).2

/-- What does not wait is owned by one source. -/
theorem owner_ne_several_of_early {scope : Scope} {w e : Expr}
    (he : e ∈ (of scope (some w)).base ∨ ∃ entry ∈ (of scope (some w)).inside, e ∈ entry.2) :
    scope.owner e ≠ .several := by
  rcases he with he | ⟨entry, hentry, he⟩
  · rw [owner_of_mem_base he]
    simp
  · rw [← insideOf_of_mem_inside (nodup_inside_of scope w) hentry] at he
    rw [(owner_of_mem_insideOf he).1]
    simp

/-- **Every conjunct runs once, where its columns are at hand.**  A filter that shows a
disjunction waits as a whole.  Any other filter is dealt out.  However deep a disjunction
stands in a conjunct that does not wait, it reads columns of one source. -/
theorem conjuncts_dealt_out_once (scope : Scope) (w : Expr) :
    (w.ShowsOr → (of scope (some w)).base = [] ∧ (of scope (some w)).inside = [] ∧
      (of scope (some w)).after = [w]) ∧
    (¬ w.ShowsOr → DealsOut scope w (of scope (some w))) ∧
    ∀ e, (e ∈ (of scope (some w)).base ∨ ∃ entry ∈ (of scope (some w)).inside, e ∈ entry.2) →
      ∀ l r : Expr, (Expr.or l r).Within e → ∀ c ∈ (Expr.or l r).columns,
        ∀ c' ∈ (Expr.or l r).columns, scope.joinedAlias? c = scope.joinedAlias? c' := by
  refine ⟨fun hor => ?_, fun hor => ?_, fun e he l r hwithin c hc c' hc' => ?_⟩
  · rw [of_of_containsOr scope (w.showsOr_iff_containsOr.mp hor)]
    exact ⟨rfl, rfl, rfl⟩
  · rw [w.showsOr_iff_containsOr, Bool.not_eq_true] at hor
    exact dealsOut_of hor
  · exact Scope.joinedAlias?_eq_of_within (owner_ne_several_of_early he) hwithin hc hc'

/-- `o.state in (o.paid or o.sent)`: a disjunction that cannot be seen, of one source. -/
def stateTest : Expr :=
  .inList false (.column (.qualified "o" "state"))
    [.or (.column (.qualified "o" "paid")) (.column (.qualified "o" "sent"))]

/-- `f(o.paid or age) = 1`: a disjunction that cannot be seen, of two sources. -/
def mixedTest : Expr :=
  .compare .eq
    (.call "f" false [.or (.column (.qualified "o" "paid")) (.column (.bare "age"))])
    (.literal (.int 1))

/-- The disjunction of two sources waits, and the one of one source runs inside its join. -/
theorem conjuncts_dealt_out_once_shop :
    ¬ (Expr.and (.and shopFilter stateTest) mixedTest).ShowsOr ∧
    DealsOut shopScope (.and (.and shopFilter stateTest) mixedTest)
      (of shopScope (some (.and (.and shopFilter stateTest) mixedTest))) ∧
    stateTest ∈
      (of shopScope (some (.and (.and shopFilter stateTest) mixedTest))).insideOf "o" ∧
    mixedTest ∈ (of shopScope (some (.and (.and shopFilter stateTest) mixedTest))).after := by
  have hor : ¬ (Expr.and (.and shopFilter stateTest) mixedTest).ShowsOr := by
    rw [Expr.showsOr_iff_containsOr]
    decide
  refine ⟨hor, (conjuncts_dealt_out_once shopScope _).2.1 hor, ?_, ?_⟩
  · exact List.mem_cons_of_mem _ List.mem_cons_self
  · exact List.mem_cons_of_mem _ List.mem_cons_self

end FilterSplit

end DocQuery
