import DocQuery.Proofs.Pipeline.Levels
import DocQuery.Proofs.Pipeline.Shape

/-!
# Where distinct values are checked

The command for distinct values takes one field, so a selection of distinct values should
pick one item, and no wildcard.  The check of a statement looks at its outermost selection
only, and there it knows the bare wildcard but not a qualified one.  Selections below it
are never checked: their plan shows the first item, and the others are lost.

* `Sql.Statement.resolved`, `Sql.Statement.below` — the selections that are planned for a
  statement
* `Sql.Select.PicksOneItem` — what a selection of distinct values should be
* `Settings.exists_command_iff` — what a statement is accepted for, level by level
* `Sql.Select.picksOneItem_iff_of_validate` — what the check leaves open at the top
* `Plan.getLast?_ownStages_of_distinct` — a selection of distinct values shows its first item
* `distinct_checked_at_top_only` — the three together

### What is load-bearing

Acceptance is a matter of the levels' own stages, and no step of a level counts its items.
-/

namespace DocQuery

open Sql

namespace Sql

/-! ### Selections that are planned -/

mutual

/-- The selections that are planned for a query; of a chain of set operations only the
first one counts. -/
def Query.resolved : Query → List Select
  | .plain s => s.resolved
  | .parenthesized q => q.resolved
  | .setOperation (.plain s :: _) _ => s.resolved
  | .setOperation _ _ => []

/-- A selection and those that are planned for its sources. -/
def Select.resolved : Select → List Select
  | ⟨distinct, items, source, joins, filter, groupBy, having, orderBy, limit, offset⟩ =>
    ⟨distinct, items, source, joins, filter, groupBy, having, orderBy, limit, offset⟩ ::
      (source.resolved ++ resolvedInJoins joins)

/-- The selections that are planned for a source. -/
def Source.resolved : Source → List Select
  | .table _ _ => []
  | .subquery q _ => q.resolved

/-- The selections that are planned for joined sources. -/
def resolvedInJoins : List Join → List Select
  | [] => []
  | ⟨_, right, _⟩ :: rest => right.resolved ++ resolvedInJoins rest

end

/-- The selections that are planned for a statement, the outermost one first. -/
def Statement.resolved : Statement → List Select
  | .select q => q.resolved
  | .delete d => d.source.resolved
  | .insert _ | .update _ => []

/-- The selections below the outermost one. -/
def Statement.below : Statement → List Select
  | .select q => q.resolved.tail
  | s => s.resolved

/-- A selection of distinct values picks one item, and that is no wildcard. -/
def Select.PicksOneItem (s : Select) : Prop :=
  s.distinct = true → ∃ item, s.items = [item] ∧ item.expr.isWildcard = false

/-- The outermost selection of a query comes first. -/
theorem Query.resolved_eq_cons {q : Query} {top : Select} (h : q.leading? = some top) :
    q.resolved = top :: q.resolved.tail := by
  have hcons (s : Select) : s.resolved = s :: s.resolved.tail := by
    obtain ⟨distinct, items, source, joins, filter, groupBy, having, orderBy, limit,
        offset⟩ := s
    rw [Select.resolved, List.tail_cons]
  fun_induction Query.leading? q with
  | case1 select =>
    cases h
    rw [Query.resolved]
    exact hcons top
  | case2 q ih =>
    rw [Query.resolved]
    exact ih h
  | case3 select rest operators =>
    cases h
    rw [Query.resolved]
    exact hcons top
  | case4 branches operators hfirst => cases h

end Sql

/-! ### The check at the top -/

/-- A selection is planned with its own items, without their base qualifier. -/
theorem Plan.items_of_ofSelect {types : FieldTypes} {depth : Nat} {s : Select} {p : Plan}
    (h : Plan.ofSelect types depth s = .ok p) :
    ∃ selection base, p.action = .select selection ∧ selection.distinct = s.distinct ∧
      selection.items = s.items.map (SelectItem.strip base) := by
  obtain ⟨_, scope, -, -, h⟩ := Plan.exists_scope_of_ofSelect h
  obtain ⟨limit, -, h⟩ := Outcome.bind_eq_ok.mp h
  obtain ⟨offset, -, h⟩ := Outcome.bind_eq_ok.mp h
  refine ⟨p.selection, scope.base.label, ?_⟩
  rw [← Outcome.pure_eq_ok.mp h]
  exact ⟨rfl, rfl, rfl⟩

/-- A selection of distinct values that passes the check has at most one item, and not the
bare wildcard alone. -/
theorem Selection.items_of_validate {s : Selection} (h : s.validate = .ok ())
    (hdistinct : s.distinct = true) : s.items.length ≤ 1 ∧ s.isAll = false := by
  rw [Selection.validate, hdistinct] at h
  split at h
  · cases h
  · rename_i hpassed
    simpa using hpassed

/-- **What the check leaves open.**  If the plan of a selection passes its check, the
selection picks one item unless it has none or selects all fields of one table. -/
theorem Sql.Select.picksOneItem_iff_of_validate {types : FieldTypes} {depth : Nat}
    {s : Select} {p : Plan} (hp : Plan.ofSelect types depth s = .ok p)
    (hvalid : p.validate = .ok ()) :
    s.PicksOneItem ↔ (s.distinct = true →
      s.items ≠ [] ∧ ∀ item ∈ s.items, ∀ table, item.expr ≠ .qualifiedWildcard table) := by
  obtain ⟨selection, base, haction, hflag, hitems⟩ := Plan.items_of_ofSelect hp
  rw [Plan.validate, haction] at hvalid
  refine imp_congr_right fun hdistinct => ?_
  obtain ⟨hlength, hall⟩ := Selection.items_of_validate hvalid (hflag.trans hdistinct)
  rw [hitems, List.length_map] at hlength
  rw [Selection.isAll, hitems] at hall
  cases hlist : s.items with
  | nil => simp
  | cons item rest =>
    rw [hlist, List.length_cons] at hlength
    obtain rfl : rest = [] := List.length_eq_zero_iff.mp (by omega)
    rw [hlist] at hall
    -- the bare wildcard is out, so a wildcard can only be a qualified one
    have hwildcard : item.expr ≠ .wildcard := by
      intro hexpr
      simp [SelectItem.strip, hexpr, Expr.strip, Expr.mapColumns] at hall
    have hkind : item.expr.isWildcard = false ↔
        ∀ table, item.expr ≠ .qualifiedWildcard table := by
      cases hexpr : item.expr <;> simp_all [Expr.isWildcard]
    simp [hkind]

/-- **Acceptance.**  A statement is accepted exactly if it has a plan, its outermost
action passes the check, and every level of the plan has its own stages. -/
theorem Settings.exists_command_iff (settings : Settings) (s : Statement) :
    (∃ c, settings.commandOfStatement s = .ok c) ↔
      ∃ p, Plan.ofStatement settings.types s = .ok p ∧ p.validate = .ok () ∧
        ∀ level ∈ p.levels, ∃ stages, level.ownStages = .ok stages := by
  have hcommand (p : Plan) : (∃ c, p.command settings = .ok c) ↔ ∃ d, p.draft = .ok d :=
    Outcome.exists_bind_pure_iff
  simp only [Settings.commandOfStatement, Outcome.bind_eq_ok]
  constructor
  · rintro ⟨c, p, hp, ⟨⟩, hvalid, hc⟩
    exact ⟨p, hp, hvalid, p.exists_draft_iff.mp ((hcommand p).mp ⟨c, hc⟩)⟩
  · rintro ⟨p, hp, hvalid, hlevels⟩
    obtain ⟨c, hc⟩ := (hcommand p).mpr (p.exists_draft_iff.mpr hlevels)
    exact ⟨c, p, hp, (), hvalid, hc⟩

/-! ### Levels of distinct values -/

/-- **A level of distinct values shows its first item and no other.**  Without groups, its
last stage is the projection on that item. -/
theorem Plan.getLast?_ownStages_of_distinct {p : Plan} {item : SelectItem}
    {rest : List SelectItem} {stages : List Document}
    (hdistinct : p.selection.distinct = true) (hgrouped : p.isGrouped = false)
    (hitems : p.selection.items = item :: rest) (h : p.ownStages = .ok stages) :
    stages.getLast? = some (stage "$project" (.single item.expr.stringValue (.int 1))) := by
  obtain ⟨d, hd, h⟩ := Outcome.bind_eq_ok.mp h
  cases Outcome.pure_eq_ok.mp h
  obtain ⟨hgroupBy, htotal⟩ : p.selection.groupBy.isEmpty = true ∧
      p.selection.totalGroup = false := by
    simpa [Plan.isGrouped, Selection.isGrouped] using hgrouped
  have hlater : Step.later = [.distinct, .groupBy, .totalGroup, .projection] ++
      [.countAll, .joins, .orderBy, .filter, .having, .paging, .assignments, .rows] := rfl
  rw [Plan.runSteps_eq, hlater] at hd
  obtain ⟨own, hown, hrest⟩ := Outcome.bind_eq_ok.mp (List.foldlM_append.symm.trans hd)
  -- the steps of groups and of projections leave the first item as it is
  have hfirst : own = { Draft.start p with
      projection := .single item.expr.stringValue (.int 1), distinct := true } := by
    simp only [List.foldlM_cons, List.foldlM_nil, Step.run, hdistinct, hitems,
      hgroupBy, htotal, Bool.and_false, Bool.true_or, Bool.false_eq_true, if_true,
      if_false] at hown
    exact (Outcome.pure_eq_ok.mp hown).symm
  have hprojection : d.projection = own.projection := by
    refine Step.foldlM_keeps Draft.projection ?_ hrest
    intro step hmem _ _ hk
    refine (hk.grouped ?_).1
    simp only [List.mem_cons, List.not_mem_nil, or_false] at hmem ⊢
    rintro (rfl | rfl | rfl | rfl) <;> simp at hmem
  rw [hfirst] at hprojection
  have hstage : Draft.stageUnlessEmpty "$project" (.single item.expr.stringValue (.int 1)) =
      [stage "$project" (.single item.expr.stringValue (.int 1))] := rfl
  rw [Draft.ownStages, Draft.pipeline, hgrouped]
  simp only [hprojection, hstage, Bool.false_eq_true, if_false]
  exact List.getLast?_concat

/-! ### Statements -/

/-- **Distinct values are checked at the top only.**  A statement is accepted exactly if
it has a plan, its outermost action passes the check and each level has its own stages.
In an accepted statement all selections of distinct values pick one item that is no
wildcard exactly if the outermost one has an item and does not select all fields of one
table, and those below it, which are not checked, do so.  Whatever other items such a
selection has, its level shows the first one alone. -/
theorem distinct_checked_at_top_only (settings : Settings) (s : Statement) :
    ((∃ c, settings.commandOfStatement s = .ok c) ↔
      ∃ p, Plan.ofStatement settings.types s = .ok p ∧ p.validate = .ok () ∧
        ∀ level ∈ p.levels, ∃ stages, level.ownStages = .ok stages) ∧
    ((∃ c, settings.commandOfStatement s = .ok c) →
      ((∀ select ∈ s.resolved, select.PicksOneItem) ↔
        (∀ top, s.selection? = some top → top.distinct = true →
          top.items ≠ [] ∧ ∀ item ∈ top.items, ∀ table,
            item.expr ≠ .qualifiedWildcard table) ∧
        ∀ select ∈ s.below, select.PicksOneItem)) ∧
    ∀ p, Plan.ofStatement settings.types s = .ok p → ∀ level ∈ p.levels,
      level.selection.distinct = true → level.isGrouped = false →
      ∀ item rest, level.selection.items = item :: rest →
      ∀ stages, level.ownStages = .ok stages →
        stages.getLast? =
          some (stage "$project" (.single item.expr.stringValue (.int 1))) := by
  refine ⟨Settings.exists_command_iff settings s, ?_, ?_⟩
  · intro haccepted
    obtain ⟨p, hp, hvalid, -⟩ := (Settings.exists_command_iff settings s).mp haccepted
    cases s with
    | select q =>
      obtain ⟨top, htop, hplan⟩ := Plan.exists_leading_of_ofQuery hp
      have hresolved : (Statement.select q).resolved = top :: (Statement.select q).below :=
        Query.resolved_eq_cons htop
      rw [hresolved, List.forall_mem_cons, Select.picksOneItem_iff_of_validate hplan hvalid]
      simp only [Statement.selection?, htop, Option.some.injEq, forall_eq']
    | insert i => simp [Statement.selection?, Statement.below]
    | update u => simp [Statement.selection?, Statement.below]
    | delete d => simp [Statement.selection?, Statement.below]
  · intro p _ level _ hdistinct hgrouped item rest hitems stages hstages
    exact Plan.getLast?_ownStages_of_distinct hdistinct hgrouped hitems hstages

/-- The selection `SELECT DISTINCT a, b FROM t`. -/
def distinctPair : Select :=
  ⟨true, [⟨.column (.bare "a"), none⟩, ⟨.column (.bare "b"), none⟩], .table "t" none, [],
    none, [], none, [], none, none⟩

/-- The statement `SELECT a FROM (SELECT DISTINCT a, b FROM t) AS x`. -/
def firstOfDistinctPair : Statement :=
  .select (.plain ⟨false, [⟨.column (.bare "a"), none⟩],
    .subquery (.plain distinctPair) (some "x"), [], none, [], none, [], none, none⟩)

/-- The statement `SELECT DISTINCT u.* FROM users AS u`. -/
def distinctFields : Statement :=
  .select (.plain ⟨true, [⟨.qualifiedWildcard "u", none⟩], .table "users" (some "u"), [],
    none, [], none, [], none, none⟩)

/-- Two columns of distinct values below the top, and all fields of one table at the top,
are accepted. -/
theorem distinct_checked_at_top_only_pair :
    (Settings.commandOfStatement {} firstOfDistinctPair = .ok ⟨"t", .aggregate [
        .single "$project" (.document (.single "a" (.int 1))),
        .single "$project" (.document ⟨[("_id", .int 0), ("a", .int 1)]⟩)] .empty⟩ ∧
      ¬ ∀ select ∈ firstOfDistinctPair.resolved, select.PicksOneItem) ∧
    (Settings.commandOfStatement {} distinctFields = .ok ⟨"users", .distinct "u.*" .empty⟩ ∧
      ¬ ∀ select ∈ distinctFields.resolved, select.PicksOneItem) := by
  refine ⟨⟨rfl, ?_⟩, rfl, ?_⟩
  · rw [(distinct_checked_at_top_only {} firstOfDistinctPair).2.1 ⟨_, rfl⟩]
    rintro ⟨-, hbelow⟩
    have hmem : distinctPair ∈ firstOfDistinctPair.below := by
      rw [show firstOfDistinctPair.below = [distinctPair] from rfl]
      exact List.mem_singleton_self distinctPair
    obtain ⟨item, hitems, -⟩ := hbelow distinctPair hmem rfl
    simp [distinctPair] at hitems
  · rw [(distinct_checked_at_top_only {} distinctFields).2.1 ⟨_, rfl⟩]
    rintro ⟨htop, -⟩
    exact (htop _ rfl rfl).2 _ (List.mem_singleton_self _) "u" rfl

end DocQuery
