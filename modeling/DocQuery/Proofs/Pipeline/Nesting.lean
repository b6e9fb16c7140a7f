import DocQuery.Proofs.Pipeline.Levels
import DocQuery.Proofs.Plan.Qualifier

/-!
# Nested selections become one pipeline

A selection may read from a selection, which may read from another one, down to a table.
Such a chain is planned exactly if it is not too deep and its bounds on rows are not too
large, and its command is one aggregation on the table: the stages of the innermost
selection, then those of the one around it, and so on.

* `Sql.Select.Nests` — a chain of selections over a table
* `Sql.Select.ownStages` — the stages of one selection of the chain, taken alone
* `Plan.exists_ofSelect_iff` — when a chain is planned
* `Plan.map_ofSelect_eq_levels` — the levels of its plan are the plans of its selections
* `nested_selects_one_pipeline` — the command of a chain

### What is load-bearing

The depth is checked on the way down, before any bound on rows is looked at.  So a chain
that is too deep fails for its depth alone, and a plan that exists does not depend on the
depth at which it stood.
-/

namespace DocQuery

open Sql

namespace Sql.Select

/-- The bounds on the rows of a selection are not too large. -/
def BoundsFit (s : Select) : Prop :=
  ∀ n, s.limit = some n ∨ s.offset = some n → n ≤ Plan.largestBound

/-- **A chain of selections.**  `s.Nests table inner` says that `s` reads from the first
selection of `inner`, each of them from the next one, and the last from `table`; nothing
is joined. -/
inductive Nests (table : String) : Select → List Select → Prop
  | table {s : Select} {label : Option String} (hsource : s.source = .table table label)
      (hjoins : s.joins = []) : Nests table s []
  | subquery {s below : Select} {rest : List Select} {label : Option String}
      (hsource : s.source = .subquery (.plain below) label) (hjoins : s.joins = [])
      (hbelow : Nests table below rest) : Nests table s (below :: rest)

/-- The stages of a selection without those of the selection that it reads from. -/
def ownStages (types : FieldTypes) (s : Select) : Except Fault (List Document) :=
  Plan.ofSelect types 0 s >>= Plan.ownStages

/-- The table of a chain is the one that its selection reads in the end. -/
theorem Nests.baseTable_eq {table : String} {s : Select} {inner : List Select}
    (h : s.Nests table inner) : s.baseTable = table := by
  induction h with
  | @table s label hsource hjoins =>
    obtain ⟨distinct, items, source, joins, filter, groupBy, having, orderBy, limit,
        offset⟩ := s
    cases hsource
    simp only [Select.baseTable, Source.baseTable]
  | @subquery s below rest label hsource hjoins hbelow ih =>
    obtain ⟨distinct, items, source, joins, filter, groupBy, having, orderBy, limit,
        offset⟩ := s
    cases hsource
    simp only [Select.baseTable, Source.baseTable, Query.baseTable]
    exact ih

end Sql.Select

namespace Plan

variable {types : FieldTypes} {depth : Nat} {table : String} {s : Select}
  {inner : List Select}

/-! ### Plans of chains -/

/-- A bound that is not too large is taken as it is written. -/
theorem checkBound_eq_ok_iff {bound : Option Int} {n : Int} :
    checkBound bound = .ok n ↔ (∀ m, bound = some m → m ≤ largestBound) ∧
      bound.getD (-1) = n := by
  cases bound with
  | none => simp [checkBound]
  | some m =>
    rw [checkBound]
    split <;> simp <;> omega

/-- A bound is accepted exactly if it is not too large. -/
theorem exists_checkBound_iff (bound : Option Int) :
    (∃ n, checkBound bound = .ok n) ↔ ∀ n, bound = some n → n ≤ largestBound := by
  simp only [checkBound_eq_ok_iff, exists_and_left, exists_eq', and_true]

/-- The clauses of a selection are planned exactly if its bounds on rows are not too large. -/
theorem exists_ofClauses_iff (scope : Scope) (s : Select) :
    (∃ p, ofClauses types scope s = .ok p) ↔ s.BoundsFit := by
  have hboth : (∃ p, ofClauses types scope s = .ok p) ↔
      (∃ n, checkBound s.limit = .ok n) ∧ ∃ n, checkBound s.offset = .ok n := by
    simp only [ofClauses, Outcome.bind_eq_ok, Outcome.pure_eq_ok]
    constructor
    · rintro ⟨_, limit, hlimit, offset, hoffset, -⟩
      exact ⟨⟨limit, hlimit⟩, offset, hoffset⟩
    · rintro ⟨⟨limit, hlimit⟩, offset, hoffset⟩
      exact ⟨_, limit, hlimit, offset, hoffset, rfl⟩
  rw [hboth, exists_checkBound_iff, exists_checkBound_iff, Select.BoundsFit]
  simp only [or_imp, forall_and]

/-- A selection from a table is planned at any depth alike. -/
theorem ofSelect_table {label : Option String} (hsource : s.source = .table table label)
    (hjoins : s.joins = []) :
    ofSelect types depth s = ofClauses types (.ofBase (.of label (.collection table))) s := by
  obtain ⟨distinct, items, source, joins, filter, groupBy, having, orderBy, limit,
      offset⟩ := s
  cases hsource
  cases hjoins
  rw [ofSelect, resolve]
  simp only [resolveJoins]
  rfl

/-- A selection from a selection is planned after that one, which stands one level deeper. -/
theorem ofSelect_subquery {below : Select} {label : Option String}
    (hsource : s.source = .subquery (.plain below) label) (hjoins : s.joins = []) :
    ofSelect types depth s =
      if deepest ≤ depth then .error (.nestingTooDeep deepest)
      else (do
        let p ← ofSelect types (depth + 1) below
        ofClauses types (.ofBase (.of label (.subplan p))) s) := by
  obtain ⟨distinct, items, source, joins, filter, groupBy, having, orderBy, limit,
      offset⟩ := s
  cases hsource
  cases hjoins
  rw [ofSelect, resolve, ofQuery]
  split
  · rfl
  · cases ofSelect types (depth + 1) below with
    | error fault => rfl
    | ok p =>
      simp only [resolveJoins]
      rfl

/-- A chain that is too deep fails for its depth. -/
theorem ofSelect_eq_nestingTooDeep (h : s.Nests table inner) (hdepth : depth ≤ deepest)
    (hdeep : deepest < depth + inner.length) :
    ofSelect types depth s = .error (.nestingTooDeep deepest) := by
  induction h generalizing depth with
  | table hsource hjoins =>
    rw [List.length_nil] at hdeep
    omega
  | subquery hsource hjoins hbelow ih =>
    rw [ofSelect_subquery hsource hjoins]
    split
    · rfl
    · rename_i hroom
      rw [List.length_cons] at hdeep
      rw [ih (by omega) (by omega)]
      rfl

/-- **A chain is planned exactly if it is not too deep and its bounds on rows are not too
large.** -/
theorem exists_ofSelect_iff (h : s.Nests table inner) (hdepth : depth ≤ deepest) :
    (∃ p, ofSelect types depth s = .ok p) ↔
      depth + inner.length ≤ deepest ∧ ∀ level ∈ s :: inner, level.BoundsFit := by
  induction h generalizing depth with
  | table hsource hjoins =>
    rw [ofSelect_table hsource hjoins, exists_ofClauses_iff]
    simp [hdepth]
  | @subquery s below rest label hsource hjoins hbelow ih =>
    rw [ofSelect_subquery hsource hjoins, List.forall_mem_cons, List.length_cons]
    split
    · rename_i hdeep
      simp only [reduceCtorEq, exists_false, false_iff]
      omega
    · rename_i hroom
      -- with a level left, the chain is planned if the rest of it is and the own bounds
      -- fit
      have hinner : (∃ p, ofSelect types (depth + 1) below = .ok p) ↔
          depth + 1 + rest.length ≤ deepest ∧ ∀ level ∈ below :: rest, level.BoundsFit :=
        ih (by omega)
      have hsplit : (∃ p, (do
          let p ← ofSelect types (depth + 1) below
          ofClauses types (.ofBase (.of label (.subplan p))) s) = .ok p) ↔
          (∃ p, ofSelect types (depth + 1) below = .ok p) ∧ s.BoundsFit := by
        simp only [Outcome.bind_eq_ok]
        constructor
        · rintro ⟨p, inner, hp, hclauses⟩
          exact ⟨⟨inner, hp⟩, (exists_ofClauses_iff _ s).mp ⟨p, hclauses⟩⟩
        · rintro ⟨⟨inner, hp⟩, hfit⟩
          obtain ⟨p, hclauses⟩ := (exists_ofClauses_iff _ s).mpr hfit
          exact ⟨p, inner, hp, hclauses⟩
      rw [hsplit, hinner]
      have hlength : depth + 1 + rest.length = depth + (rest.length + 1) := by omega
      rw [hlength]
      tauto

/-- A plan of a chain does not depend on the depth at which the chain stands. -/
theorem ofSelect_depth (h : s.Nests table inner) (hdepth : depth + inner.length ≤ deepest) :
    ofSelect types depth s = ofSelect types 0 s := by
  induction h generalizing depth with
  | table hsource hjoins => rw [ofSelect_table hsource hjoins, ofSelect_table hsource hjoins]
  | @subquery s below rest label hsource hjoins hbelow ih =>
    rw [List.length_cons] at hdepth
    have hone : ofSelect types (0 + 1) below = ofSelect types 0 below := ih (by omega)
    rw [ofSelect_subquery hsource hjoins, ofSelect_subquery hsource hjoins, if_neg (by omega),
      if_neg (by omega), ih (by omega), hone]

/-- The plan of a selection keeps the base source. -/
theorem base_of_ofClauses {scope : Scope} {p : Plan} (h : ofClauses types scope s = .ok p) :
    p.scope.base = scope.base := by
  obtain ⟨limit, -, h⟩ := Outcome.bind_eq_ok.mp h
  obtain ⟨offset, -, h⟩ := Outcome.bind_eq_ok.mp h
  rw [← Outcome.pure_eq_ok.mp h]

/-- **The levels of a chain's plan are the plans of its selections**, each planned alone. -/
theorem map_ofSelect_eq_levels (h : s.Nests table inner) {p : Plan}
    (hp : ofSelect types 0 s = .ok p) :
    (s :: inner).map (ofSelect types 0) = p.levels.map .ok := by
  induction h generalizing p with
  | @table s label hsource hjoins =>
    rw [Plan.levels_eq, List.map_cons, List.map_cons, hp]
    rw [ofSelect_table hsource hjoins] at hp
    have hbelow : p.scope.base.origin.levels = [] := by
      rw [base_of_ofClauses hp]
      show Origin.levels (.collection table) = []
      rw [Origin.levels]
    rw [hbelow]
    rfl
  | @subquery s below rest label hsource hjoins hbelow ih =>
    rw [Plan.levels_eq, List.map_cons, hp]
    rw [ofSelect_subquery hsource hjoins, if_neg (by decide)] at hp
    obtain ⟨q, hq, hclauses⟩ := Outcome.bind_eq_ok.mp hp
    -- the plan below was made one level deeper, which makes no difference
    have hroom := ((exists_ofSelect_iff hbelow (by decide)).mp ⟨q, hq⟩).1
    rw [ofSelect_depth hbelow hroom] at hq
    have hlevels : p.scope.base.origin.levels = q.levels := by
      rw [base_of_ofClauses hclauses]
      show Origin.levels (.subplan q) = q.levels
      rw [Origin.levels]
    rw [hlevels, ih hq]
    rfl

/-- The stages of a chain are those of its selections, innermost first. -/
theorem stages_of_nests (h : s.Nests table inner) {p : Plan}
    (hp : ofSelect types 0 s = .ok p) :
    p.stages =
      (do return (← (s :: inner).reverse.mapM (Select.ownStages types)).flatten) := by
  have hown : (s :: inner).map (Select.ownStages types) = p.levels.map Plan.ownStages := by
    have hplans := congrArg (List.map (· >>= Plan.ownStages)) (map_ofSelect_eq_levels h hp)
    rw [List.map_map, List.map_map] at hplans
    exact hplans
  have hreverse : (s :: inner).reverse.map (Select.ownStages types) =
      p.levels.reverse.map Plan.ownStages := by
    rw [List.map_reverse, List.map_reverse, hown]
  rw [Outcome.mapM_eq_of_map_eq hreverse]
  exact Plan.stages_eq p

end Plan

/-! ### Commands of chains -/

/-- A selection of several stages that asks for no distinct values becomes an aggregation. -/
theorem Plan.command_eq_aggregate (settings : Settings) {p : Plan} {selection : Selection}
    (haction : p.action = .select selection) (hdistinct : selection.distinct = false)
    (haggregate : p.isAggregate = true) :
    p.command settings = (do
      return ⟨p.collectionName, .aggregate (← p.stages) settings.aggregationOptions⟩) := by
  rw [Plan.command, Plan.stages]
  cases hd : p.draft with
  | error fault => rfl
  | ok d =>
    show Except.ok (d.command p settings.aggregationOptions) = .ok _
    have hselection : p.selection = selection := by rw [Plan.selection, haction]; rfl
    have hflag : d.distinct = false := by
      rw [Plan.distinct_of_draft hd, hselection, hdistinct]
    rw [Draft.command, Draft.operation, haction, Plan.collection_of_draft hd]
    simp only [Draft.selectOperation, hflag, haggregate]
    simp

/-- **Nested selections become one pipeline.**  A chain of selections over a table is
planned exactly if it is not too deep and its bounds on rows are not too large; one that
is too deep is not supported.  If the outermost selection passes its check, asks for no
distinct values and reads from another one, its command is an aggregation on the table
with the stages of each selection, innermost first. -/
theorem nested_selects_one_pipeline (settings : Settings) {table : String} {s : Select}
    {inner : List Select} (h : s.Nests table inner) :
    ((∃ p, Plan.ofStatement settings.types (.select (.plain s)) = .ok p) ↔
      inner.length ≤ Plan.deepest ∧ ∀ level ∈ s :: inner, level.BoundsFit) ∧
    (Plan.deepest < inner.length →
      Plan.ofStatement settings.types (.select (.plain s)) =
        .error (.nestingTooDeep Plan.deepest) ∧
      (Fault.nestingTooDeep Plan.deepest).kind = .unsupported) ∧
    ∀ p, Plan.ofStatement settings.types (.select (.plain s)) = .ok p → p.validate = .ok () →
      inner ≠ [] → s.distinct = false →
      settings.commandOfStatement (.select (.plain s)) = (do
        let stages ← (s :: inner).reverse.mapM (Select.ownStages settings.types)
        return ⟨table, .aggregate stages.flatten settings.aggregationOptions⟩) := by
  have hplan : Plan.ofStatement settings.types (.select (.plain s)) =
      Plan.ofSelect settings.types 0 s := by
    rw [Plan.ofStatement, Plan.ofQuery]
  rw [hplan]
  refine ⟨?_, ?_, ?_⟩
  · rw [Plan.exists_ofSelect_iff h (Nat.zero_le _), Nat.zero_add]
  · intro hdeep
    exact ⟨Plan.ofSelect_eq_nestingTooDeep h (Nat.zero_le _) (by omega), rfl⟩
  · intro p hp hvalid hinner hdistinct
    obtain ⟨selection, haction, hflag, haggregate, -⟩ := Plan.shape_of_ofSelect hp
    have hstaged : p.isAggregate = true := by
      cases h with
      | table => exact absurd rfl hinner
      | subquery hsource hjoins hbelow =>
        rw [haggregate, Select.isStaged]
        simp [Select.has, hsource, Source.isQuery]
    have htable : p.collectionName = table :=
      (Plan.collectionName_of_ofSelect s hp).trans h.baseTable_eq
    rw [Settings.commandOfStatement, hplan, hp]
    show (p.validate >>= fun _ => p.command settings) = _
    rw [hvalid]
    show p.command settings = _
    rw [Plan.command_eq_aggregate settings haction (hflag.trans hdistinct) hstaged,
      Plan.stages_of_nests h hp, htable]
    simp only [bind_assoc, pure_bind]

/-- The selection `SELECT items FROM source [WHERE filter] [ORDER BY order] [LIMIT limit]`. -/
def selectNames (items : List SelectItem) (source : Source) (filter : Option Expr)
    (orderBy : List OrderItem) (limit : Option Int) : Select :=
  ⟨false, items, source, [], filter, [], none, orderBy, limit, none⟩

/-- The selection `SELECT * FROM users WHERE age > 18`. -/
def adults : Select :=
  selectNames [⟨.wildcard, none⟩] (.table "users" none)
    (some (.compare .gt (.column (.bare "age")) (.literal (.int 18)))) [] none

/-- The selection `SELECT name, age FROM (SELECT * FROM users WHERE age > 18) AS a ORDER
BY age LIMIT 9`. -/
def youngestAdults : Select :=
  selectNames [⟨.column (.bare "name"), none⟩, ⟨.column (.bare "age"), none⟩]
    (.subquery (.plain adults) (some "a")) none [⟨.column (.bare "age"), true⟩] (some 9)

/-- The selection `SELECT name FROM (SELECT name, age FROM … LIMIT 9) AS y`. -/
def namesOfYoungestAdults : Select :=
  selectNames [⟨.column (.bare "name"), none⟩]
    (.subquery (.plain youngestAdults) (some "y")) none []
    none

/-- A chain of three selections: the filter of the innermost one comes first, then the
order, the bound and the two fields of the middle one, then the field of the outermost
one. -/
theorem nested_selects_one_pipeline_adults :
    namesOfYoungestAdults.Nests "users" [youngestAdults, adults] ∧
    Settings.commandOfStatement {} (.select (.plain namesOfYoungestAdults)) =
      .ok ⟨"users", .aggregate [
        .single "$match" (.document (.single "age" (.document (.single "$gt" (.int 18))))),
        .single "$sort" (.document (.single "age" (.int 1))),
        .single "$limit" (.int 9),
        .single "$project" (.document ⟨[("_id", .int 0), ("name", .int 1), ("age", .int 1)]⟩),
        .single "$project" (.document ⟨[("_id", .int 0), ("name", .int 1)]⟩)] .empty⟩ := by
  have hnests : namesOfYoungestAdults.Nests "users" [youngestAdults, adults] :=
    .subquery rfl rfl (.subquery rfl rfl (.table rfl rfl))
  refine ⟨hnests, ?_⟩
  rw [(nested_selects_one_pipeline {} hnests).2.2 _ rfl rfl (by simp) rfl]
  rfl

end DocQuery
