import DocQuery.Proofs.Pipeline.Drafts
import DocQuery.Proofs.Pipeline.WriteFilter

/-!
# Clauses and the shape of a command

Seven shapes of commands stand for all statements.  Which one a selection takes is decided
on its plan, after sources are resolved and base qualifiers are dropped, but it can be
read off the selection itself.

* `Sql.Clause`, `Sql.Statement.has` — the clauses of a statement
* `Sql.Select.isStaged`, `Sql.Select.isCount` — what decides the shape, read off the selection
* `Plan.shape_of_ofSelect` — the plan of a selection decides as the selection does
* `Plan.exists_leading_of_ofQuery` — a query is planned as the selection that it stands for

### What is load-bearing

The shape depends on nothing that the selection does not show: the plan has as many joins
as are written, and its base source is a query exactly if a query is written there.
-/

namespace DocQuery

open Sql

/-! ### Clauses -/

namespace Sql

/-- The clauses that a shape may have no place for. -/
inductive Clause where
  | joins | sourceQuery | groupBy | having | orderBy | limit | offset
deriving Repr, DecidableEq

/-- Whether a source is a query. -/
def Source.isQuery : Source → Bool
  | .table .. => false
  | .subquery .. => true

/-- The name by which columns refer to a table: its alias, or its own name. -/
def Source.tableLabel : Source → String
  | .table name label => label.getD name
  | .subquery _ label => label.getD ""

/-- The clauses of a selection. -/
def Select.has (s : Select) : Clause → Bool
  | .joins => !s.joins.isEmpty
  | .sourceQuery => s.source.isQuery
  | .groupBy => !s.groupBy.isEmpty
  | .having => s.having.isSome
  | .orderBy => !s.orderBy.isEmpty
  | .limit => s.limit.isSome
  | .offset => s.offset.isSome

/-- The selection that a query stands for: of a chain of set operations, the first one. -/
def Query.leading? : Query → Option Select
  | .plain select => some select
  | .parenthesized q => q.leading?
  | .setOperation (.plain select :: _) _ => some select
  | .setOperation _ _ => none

/-- The selection that a statement stands for. -/
def Statement.selection? : Statement → Option Select
  | .select q => q.leading?
  | _ => none

/-- Whether a statement changes or removes rows. -/
def Statement.isChange : Statement → Bool
  | .update _ | .delete _ => true
  | _ => false

/-- The clauses of a statement. -/
def Statement.has (s : Statement) (clause : Clause) : Bool :=
  match s, clause with
  | .select q, _ => q.leading?.any (·.has clause)
  | .update u, .limit => u.limit.isSome
  | .delete d, .limit => d.limit.isSome
  | .delete d, .sourceQuery => d.source.isQuery
  | _, _ => false

/-- The selected items without the base qualifier. -/
def Select.ownItems (s : Select) : List SelectItem :=
  s.items.map (SelectItem.strip s.source.tableLabel)

/-- Whether `count(*)` is selected and nothing else. -/
def Select.isCount (s : Select) : Bool :=
  Plan.isCountAll s.ownItems

/-- Whether a selection takes several stages: an item is named, rows are joined, grouped
or come from a query, or an aggregate is selected that is not the only thing to be
counted. -/
def Select.isStaged (s : Select) : Bool :=
  s.ownItems.any (fun item => !item.expr.isWildcard && item.label.isSome) ||
    s.has .groupBy || s.has .joins || s.has .sourceQuery ||
    (s.ownItems.any Plan.isAggregateItem && !s.isCount)

end Sql

/-! ### Plans of selections -/

theorem Entries.isEmpty_put {α : Type} (name : String) (value : α) (entries : Entries α) :
    (Entries.put name value entries).isEmpty = false := by
  cases entries with
  | nil => rfl
  | cons entry rest =>
    rw [Entries.put]
    split <;> rfl

/-- A table of names is empty only if nothing was named. -/
theorem Aliases.isEmpty_ofList (pairs : List (String × String)) :
    (Aliases.ofList pairs).isEmpty = pairs.isEmpty := by
  have hrun : ∀ a : Aliases, (pairs.foldl (fun a pair => a.insert pair.1 pair.2) a).isEmpty =
      (a.isEmpty && pairs.isEmpty) := by
    induction pairs with
    | nil => simp
    | cons pair rest ih =>
      intro a
      rw [List.foldl_cons, ih]
      simp [Aliases.insert, Aliases.isEmpty, Entries.isEmpty_put]
  rw [Aliases.ofList, hrun]
  rfl

/-- Names are given if an item other than a wildcard has one. -/
theorem Plan.isEmpty_aliasesOf (items : List SelectItem) :
    (Plan.aliasesOf items).isEmpty =
      !items.any fun item => !item.expr.isWildcard && item.label.isSome := by
  rw [Plan.aliasesOf, Aliases.isEmpty_ofList]
  induction items with
  | nil => rfl
  | cons item rest ih =>
    rw [List.filterMap_cons, List.any_cons]
    cases hwildcard : item.expr.isWildcard with
    | true => simpa using ih
    | false =>
      cases hlabel : item.label with
      | none => simpa using ih
      | some label => simp

section Plans

variable {types : FieldTypes} {depth : Nat} {p : Plan}

/-- Joins are added one by one, and the base source stays. -/
theorem Plan.scope_of_resolveJoins {joins : List Join} {scope scope' : Scope}
    (h : Plan.resolveJoins types depth scope joins = .ok scope') :
    scope'.base = scope.base ∧ scope'.joined.length = scope.joined.length + joins.length := by
  induction joins generalizing scope with
  | nil =>
    rw [Plan.resolveJoins] at h
    cases h
    exact ⟨rfl, rfl⟩
  | cons join rest ih =>
    obtain ⟨kind, right, condition⟩ := join
    rw [Plan.resolveJoins, Outcome.bind_eq_ok] at h
    obtain ⟨-, -, h⟩ := h
    obtain ⟨source, -, h⟩ := Outcome.bind_eq_ok.mp h
    obtain ⟨next, hnext, h⟩ := Outcome.bind_eq_ok.mp h
    obtain ⟨-, -, hnext⟩ := Outcome.bind_eq_ok.mp hnext
    cases Outcome.pure_eq_ok.mp hnext
    obtain ⟨hbase, hlength⟩ := ih h
    refine ⟨hbase, ?_⟩
    rw [hlength, List.length_append, List.length_singleton, List.length_cons]
    omega

/-- A written source is resolved to a source of its kind; a table keeps its name. -/
theorem Plan.source_of_resolve {source : Source} {base : NamedSource}
    (h : Plan.resolve types depth source = .ok base) :
    base.origin.subplan?.isSome = source.isQuery ∧
    (source.isQuery = false → base.label = source.tableLabel) := by
  cases source with
  | table name label =>
    rw [Plan.resolve] at h
    cases h
    refine ⟨rfl, fun _ => ?_⟩
    simp [NamedSource.of, Origin.collectionName, Source.tableLabel]
  | subquery q label =>
    rw [Plan.resolve] at h
    split at h
    · cases h
    · obtain ⟨plan, -, h⟩ := Outcome.bind_eq_ok.mp h
      cases Outcome.pure_eq_ok.mp h
      exact ⟨rfl, fun hquery => by cases hquery⟩

/-- What the clauses of a selection contribute to the choice of a shape, its sources being
resolved. -/
theorem Plan.shape_of_ofClauses {scope : Scope} {s : Select}
    (h : Plan.ofClauses types scope s = .ok p) :
    ∃ selection, p.action = .select selection ∧ selection.distinct = s.distinct ∧
      selection.countAll = Plan.isCountAll (s.items.map (SelectItem.strip scope.base.label)) ∧
      (p.isAggregate = true ↔
        (s.items.map (SelectItem.strip scope.base.label)).any
            (fun item => !item.expr.isWildcard && item.label.isSome) = true ∨
          s.has .groupBy = true ∨ scope.joined ≠ [] ∨
          scope.base.origin.subplan?.isSome = true ∨
          (s.items.map (SelectItem.strip scope.base.label)).any Plan.isAggregateItem = true ∧
            selection.countAll = false) := by
  obtain ⟨limit, -, h⟩ := Outcome.bind_eq_ok.mp h
  obtain ⟨offset, -, h⟩ := Outcome.bind_eq_ok.mp h
  have hp := (Outcome.pure_eq_ok.mp h).symm
  refine ⟨p.selection, by rw [hp]; rfl, by rw [hp]; rfl, by rw [hp]; rfl, ?_⟩
  have haliases : p.selection.aliases =
      Plan.aliasesOf (s.items.map (SelectItem.strip scope.base.label)) := by rw [hp]; rfl
  have hgroupBy : p.selection.groupBy.isEmpty = s.groupBy.isEmpty := by
    rw [hp]
    exact List.isEmpty_map
  have htotal : p.selection.totalGroup = (s.groupBy.isEmpty &&
      (s.items.map (SelectItem.strip scope.base.label)).any Plan.isAggregateItem) := by
        rw [hp]; rfl
  have hjoined : p.scope.joined.isEmpty = scope.joined.isEmpty := by
    rw [hp]
    exact List.isEmpty_map
  have hbase : p.scope.base = scope.base := by rw [hp]
  rw [Plan.isAggregate, haliases, Plan.isEmpty_aliasesOf, hgroupBy, htotal, hjoined, hbase]
  cases hfields : s.groupBy.isEmpty <;> simp [Select.has, hfields, or_assoc]

/-- The plan of a selection: its sources are resolved, then its clauses are planned. -/
theorem Plan.exists_scope_of_ofSelect {s : Select} (h : Plan.ofSelect types depth s = .ok p) :
    ∃ base scope, Plan.resolve types depth s.source = .ok base ∧
      Plan.resolveJoins types depth (.ofBase base) s.joins = .ok scope ∧
      Plan.ofClauses types scope s = .ok p := by
  obtain ⟨distinct, items, source, joins, filter, groupBy, having, orderBy, limit,
      offset⟩ := s
  rw [Plan.ofSelect, Outcome.bind_eq_ok] at h
  obtain ⟨base, hbase, h⟩ := h
  obtain ⟨scope, hscope, h⟩ := Outcome.bind_eq_ok.mp h
  exact ⟨base, scope, hbase, hscope, h⟩

/-- The names of a planned selection are those that its items are given. -/
theorem Plan.aliases_of_ofSelect {s : Select} (h : Plan.ofSelect types depth s = .ok p) :
    p.selection.aliases = Plan.aliasesOf p.selection.items := by
  obtain ⟨_, scope, -, -, h⟩ := Plan.exists_scope_of_ofSelect h
  obtain ⟨limit, -, h⟩ := Outcome.bind_eq_ok.mp h
  obtain ⟨offset, -, h⟩ := Outcome.bind_eq_ok.mp h
  rw [← Outcome.pure_eq_ok.mp h]
  rfl

/-- **The plan of a selection decides its shape as the selection does.** -/
theorem Plan.shape_of_ofSelect {s : Select} (h : Plan.ofSelect types depth s = .ok p) :
    ∃ selection, p.action = .select selection ∧ selection.distinct = s.distinct ∧
      p.isAggregate = s.isStaged ∧ (s.isStaged = false → selection.countAll = s.isCount) := by
  obtain ⟨base, scope, hbase, hscope, h⟩ := Plan.exists_scope_of_ofSelect h
  obtain ⟨selection, haction, hdistinct, hcount, haggregate⟩ := Plan.shape_of_ofClauses h
  obtain ⟨hscopeBase, hlength⟩ := Plan.scope_of_resolveJoins hscope
  obtain ⟨hquery, hlabel⟩ := Plan.source_of_resolve hbase
  have hjoined : scope.joined ≠ [] ↔ s.has .joins = true := by
    simp only [Scope.ofBase, List.length_nil, Nat.zero_add] at hlength
    simp [Select.has, ← List.length_eq_zero_iff, hlength]
  rw [hscopeBase] at hcount haggregate
  refine ⟨selection, haction, hdistinct, ?_⟩
  cases hkind : s.source.isQuery with
  | true =>
    -- a query among the sources decides alone, whatever its columns are called
    have hp : p.isAggregate = true := by
      rw [haggregate, Scope.ofBase, hquery, hkind]
      simp
    have hs : s.isStaged = true := by simp [Select.isStaged, Select.has, hkind]
    exact ⟨hp.trans hs.symm, fun hfalse => by rw [hs] at hfalse; cases hfalse⟩
  | false =>
    have hbaseLabel : (Scope.ofBase base).base.label = s.source.tableLabel := hlabel hkind
    rw [hbaseLabel] at hcount haggregate
    have hsource : s.has .sourceQuery = false := hkind
    refine ⟨?_, fun _ => hcount⟩
    rw [Bool.eq_iff_iff, haggregate, hjoined, hcount, Scope.ofBase, hquery, hkind]
    simp [Select.isStaged, Select.ownItems, Select.isCount, hsource, or_assoc]

/-- A query is planned as the selection that it stands for. -/
theorem Plan.exists_leading_of_ofQuery {q : Query} (h : Plan.ofQuery types depth q = .ok p) :
    ∃ s, q.leading? = some s ∧ Plan.ofSelect types depth s = .ok p := by
  fun_induction Query.leading? q with
  | case1 select => exact ⟨select, rfl, by rwa [Plan.ofQuery] at h⟩
  | case2 q ih =>
    rw [Plan.ofQuery] at h
    exact ih h
  | case3 select rest operators => exact ⟨select, rfl, by rwa [Plan.ofQuery] at h⟩
  | case4 branches operators hfirst =>
    rw [Plan.ofQuery] at h
    · cases h
    · exact hfirst

/-- A statement that changes or removes rows is planned as one. -/
theorem Plan.isWrite_of_ofStatement {s : Statement} (hs : s.isChange = true)
    (hp : Plan.ofStatement types s = .ok p) : p.action.isWrite = true := by
  cases s with
  | select q => cases hs
  | insert i => cases hs
  | update u =>
    simp only [Plan.ofStatement, Plan.ofUpdate] at hp
    split at hp
    · cases hp
    · split at hp
      · cases hp
      · obtain ⟨limit, -, hp⟩ := Outcome.bind_eq_ok.mp hp
        cases Outcome.pure_eq_ok.mp hp
        rfl
  | delete d =>
    simp only [Plan.ofStatement, Plan.ofDelete] at hp
    split at hp
    · cases hp
    · obtain ⟨source, -, hp⟩ := Outcome.bind_eq_ok.mp hp
      obtain ⟨limit, -, hp⟩ := Outcome.bind_eq_ok.mp hp
      cases Outcome.pure_eq_ok.mp hp
      rfl

end Plans

end DocQuery
