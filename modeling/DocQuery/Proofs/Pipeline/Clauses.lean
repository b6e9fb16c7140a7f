import DocQuery.Proofs.Pipeline.Insertion
import DocQuery.Proofs.Pipeline.Nesting
import DocQuery.Proofs.Pipeline.Shape

/-!
# The stages of clauses

Every clause of a selection is worked on and asks for stages of an aggregation.  A command
may have no place for them: then the clause is lost, and nothing is reported.

* `Plan.asked` — the stages that a clause asks for
* `Operation.stages` — the stages that a command stands for
* `Draft.part`, `Plan.asked_of_draft` — what a draft has for a clause: the stages asked
  for, or none
* `Draft.stages_operation` — the stages of a command, clause by clause
* `Sql.Statement.Loses`, `Sql.Statement.loses_iff` — the clauses that have no stages in a
  command

### What is load-bearing

All clauses leave their parts in one draft, and the shape of the command decides which of
them are taken out of it.  An aggregation takes all, a search the order and the bounds,
any other command none.
-/

namespace DocQuery

open Sql

/-! ### Stages by clause -/

/-- **The stages that a clause asks for.** -/
def Plan.asked (p : Plan) : Clause → Except Fault (List Document)
  | .sourceQuery => p.scope.base.origin.subplan?.elim (.ok []) Plan.stages
  | .joins => p.joinStages (.of p.scope p.filter)
  | .groupBy => do
    return [Draft.groupStage (← Aggregate.groupBody p.selection.items p.selection.groupBy)]
  | .having => p.selection.having.elim (.ok []) fun e => do
    return [stage "$match" (← Filter.compile (.groups p.types p.selection.aliases) e)]
  | .orderBy => do return [stage "$sort" (← sortDocument p.selection)]
  | .offset => .ok [.single "$skip" (.int p.selection.offset)]
  | .limit => .ok [.single "$limit" (.int p.limit)]

/-- The stages of a selection in the order in which they run: those of its clauses, the
filter in front of joins and groups, and what is shown in the end. -/
def Clause.arrange (part : Clause → List Document) (filter shown : List Document) :
    List Document :=
  part .sourceQuery ++ filter ++ part .joins ++ part .groupBy ++ part .having ++
    part .orderBy ++ part .offset ++ part .limit ++ shown

/-- A call behind a search. -/
inductive CursorCall where
  | sort (order : Document)
  | skip (n : Int)
  | limit (n : Int)

/-- The text of a call. -/
def CursorCall.text : CursorCall → String
  | .sort order => ".sort(" ++ order.render ++ ")"
  | .skip n => ".skip(" ++ toString n ++ ")"
  | .limit n => ".limit(" ++ toString n ++ ")"

/-- The calls behind a search. -/
def Operation.calls : Operation → List CursorCall
  | .find _ _ sort skip limit =>
    (if sort.isEmpty then [] else [.sort sort]) ++ (if 0 < skip then [.skip skip] else []) ++
      (if 0 < limit then [.limit limit] else [])
  | _ => []

/-- The calls are those that are written. -/
theorem Operation.modifiers_eq (op : Operation) :
    op.modifiers = op.calls.map CursorCall.text := by
  cases op with
  | find filter projection sort skip limit =>
    simp only [modifiers, calls, List.map_append]
    congr 1
    · congr 1
      · split <;> rfl
      · split <;> rfl
    · split <;> rfl
  | _ => rfl

/-- The stage that does the same as a call. -/
def CursorCall.stage : CursorCall → Document
  | .sort order => DocQuery.stage "$sort" order
  | .skip n => .single "$skip" (.int n)
  | .limit n => .single "$limit" (.int n)

/-- **The stages that a command stands for.**  A command that is no aggregation and no
search only chooses documents. -/
def Operation.stages : Operation → List Document
  | .aggregate pipeline _ => pipeline
  | .find filter projection sort skip limit =>
    Draft.stageUnlessEmpty "$match" filter ++
      (Operation.find filter projection sort skip limit).calls.map CursorCall.stage ++
      Draft.stageUnlessEmpty "$project" projection
  | .count filter | .distinct _ filter | .remove filter | .updateMany filter _ =>
    Draft.stageUnlessEmpty "$match" filter
  | .insertMany _ => []

/-- Stages that show rows, each on its own. -/
def AreProjections (stages : List Document) : Prop :=
  ∀ s ∈ stages, ∃ body, s = stage "$project" body

/-- What a draft has for a clause. -/
def Draft.part (d : Draft) (p : Plan) : Clause → List Document
  | .sourceQuery => d.previous
  | .joins => d.joins
  | .groupBy => if p.isGrouped then [groupStage d.projection] else []
  | .having => stageUnlessEmpty "$match" d.having
  | .orderBy => stageUnlessEmpty "$sort" d.sort
  | .offset => boundStage "$skip" d.offset
  | .limit => boundStage "$limit" d.limit

/-- The projections at the end of an aggregation. -/
def Draft.projections (d : Draft) (p : Plan) : List Document :=
  stageUnlessEmpty "$project" d.output ++
    (if p.isGrouped then [] else stageUnlessEmpty "$project" d.projection)

theorem Draft.pipeline_eq_arrange (d : Draft) (p : Plan) :
    d.pipeline p =
      Clause.arrange (d.part p) (stageUnlessEmpty "$match" d.filter) (d.projections p) := by
  simp only [pipeline, Clause.arrange, part, projections, List.append_assoc]

/-- The search of a draft. -/
def Draft.search (d : Draft) : Operation :=
  .find d.filter d.projection d.sort d.offset d.limit

/-- The calls behind a search are those of the order and the bounds. -/
theorem Draft.stages_calls_search (d : Draft) (p : Plan) :
    d.search.calls.map CursorCall.stage =
      d.part p .orderBy ++ d.part p .offset ++ d.part p .limit := by
  simp only [search, Operation.calls, List.map_append]
  congr 1
  · congr 1
    · rw [part, stageUnlessEmpty]
      split <;> rfl
    · rw [part, boundStage]
      split <;> rfl
  · rw [part, boundStage]
    split <;> rfl

theorem Draft.stageUnlessEmpty_eq_nil_iff {name : String} {body : Document} :
    stageUnlessEmpty name body = [] ↔ body = .empty := by
  unfold stageUnlessEmpty
  split
  · next hempty => simp [Document.eq_empty_of_isEmpty hempty]
  · next hbody =>
    refine iff_of_false (List.cons_ne_nil _ _) ?_
    rintro rfl
    exact hbody rfl

theorem Draft.boundStage_eq_nil_iff {name : String} {n : Int} :
    boundStage name n = [] ↔ n ≤ 0 := by
  unfold boundStage
  split <;> simp <;> omega

section Drafts

variable {p : Plan} {d : Draft}

theorem Origin.eq_of_subplan? {origin : Origin} {q : Plan} (h : origin.subplan? = some q) :
    origin = .subplan q := by
  cases origin with
  | collection name => cases h
  | subplan plan =>
    cases h
    rfl

/-- What a draft has for a query among the sources are the stages of that query. -/
theorem Plan.stages_of_draft (hd : p.draft = .ok d) {q : Plan}
    (hq : p.scope.base.origin.subplan? = some q) : q.stages = .ok d.previous := by
  obtain ⟨stages?, hstages, hprevious⟩ := Plan.previous_of_draft hd
  rw [Origin.eq_of_subplan? hq, Origin.stages] at hstages
  obtain ⟨inner, hinner, hstages⟩ := Outcome.bind_eq_ok.mp hstages
  cases Outcome.pure_eq_ok.mp hstages
  rw [Plan.stages, hinner, hprevious]
  rfl

/-- A collection has no stages. -/
theorem Plan.previous_of_draft_none (hd : p.draft = .ok d)
    (hnone : p.scope.base.origin.subplan? = none) : d.previous = [] := by
  obtain ⟨stages?, hstages, hprevious⟩ := Plan.previous_of_draft hd
  cases stages? with
  | none => exact hprevious
  | some stages =>
    have hsome := Origin.subplan?_isSome_of_stages hstages
    rw [hnone] at hsome
    cases hsome

/-- **A draft has the stages that a clause asks for, or none.** -/
theorem Plan.asked_of_draft (hd : p.draft = .ok d) (clause : Clause) :
    d.part p clause = [] ∨ p.asked clause = .ok (d.part p clause) := by
  cases clause with
  | sourceQuery =>
    cases hquery : p.scope.base.origin.subplan? with
    | none => exact .inl (Plan.previous_of_draft_none hd hquery)
    | some q =>
      right
      rw [Plan.asked, hquery]
      exact Plan.stages_of_draft hd hquery
  | joins =>
    by_cases hjoined : p.scope.joined = []
    · exact .inl (Plan.joins_of_draft_nil hd hjoined)
    · exact .inr (Plan.joins_of_draft hd hjoined)
  | groupBy =>
    cases hgrouped : p.isGrouped with
    | false =>
      left
      rw [Draft.part, hgrouped]
      rfl
    | true =>
      right
      rw [Draft.part, hgrouped, Plan.asked, (Plan.grouped_of_draft hd hgrouped).1]
      rfl
  | having =>
    cases hhaving : p.selection.having with
    | none =>
      left
      rw [Draft.part, Plan.having_of_draft_none hd hhaving]
      rfl
    | some e =>
      rw [Plan.asked, hhaving, Option.elim_some, Plan.having_of_draft hd hhaving, Draft.part,
        Draft.stageUnlessEmpty]
      split
      · exact .inl rfl
      · exact .inr rfl
  | orderBy =>
    rw [Plan.asked, Plan.sort_of_draft hd, Draft.part, Draft.stageUnlessEmpty]
    split
    · exact .inl rfl
    · exact .inr rfl
  | offset =>
    rw [Plan.asked, ← (Plan.bounds_of_draft hd).2, Draft.part, Draft.boundStage]
    split
    · exact .inr rfl
    · exact .inl rfl
  | limit =>
    rw [Plan.asked, ← (Plan.bounds_of_draft hd).1, Draft.part, Draft.boundStage]
    split
    · exact .inr rfl
    · exact .inl rfl

/-- Whether the command of a plan has a place for a clause. -/
def Plan.keeps (p : Plan) (clause : Clause) : Bool :=
  match p.action with
  | .select s => !s.distinct && (p.isAggregate || !s.countAll && clause != .having)
  | _ => false

theorem Plan.multistage_of_draft (hd : p.draft = .ok d) (hsingle : p.isAggregate = false) :
    d.multistage = false := by
  cases hmultistage : d.multistage with
  | false => rfl
  | true => rw [← hsingle, Plan.isAggregate_of_multistage hd hmultistage]

/-- A selection in a single stage has no part in front of the filter on groups. -/
theorem Draft.part_eq_nil_of_single (hd : p.draft = .ok d) (hsingle : p.isAggregate = false)
    (hcount : p.selection.countAll = false) :
    d.previous = [] ∧ d.joins = [] ∧ p.isGrouped = false := by
  simp only [Plan.isAggregate, hcount, Bool.or_eq_false_iff, Bool.not_false, Bool.and_true]
    at hsingle
  obtain ⟨⟨⟨⟨-, hfields⟩, hjoined⟩, horigin⟩, htotal⟩ := hsingle
  refine ⟨Plan.previous_of_draft_none hd (by simpa using horigin),
    Plan.joins_of_draft_nil hd (by simpa using hjoined), ?_⟩
  rw [Plan.isGrouped, Selection.isGrouped, hfields, htotal]
  rfl

theorem areProjections_nil : AreProjections [] :=
  fun _ hmem => absurd hmem List.not_mem_nil

theorem Draft.areProjections_stageUnlessEmpty (body : Document) :
    AreProjections (stageUnlessEmpty "$project" body) := by
  intro s hmem
  unfold stageUnlessEmpty at hmem
  split at hmem
  · cases hmem
  · exact ⟨body, List.mem_singleton.mp hmem⟩

theorem Draft.areProjections_projections (d : Draft) (p : Plan) :
    AreProjections (d.projections p) := by
  intro s hmem
  rcases List.mem_append.mp hmem with hmem | hmem
  · exact areProjections_stageUnlessEmpty _ s hmem
  · split at hmem
    · cases hmem
    · exact areProjections_stageUnlessEmpty _ s hmem

/-- A command without a place for clauses has the stage of its filter only. -/
theorem Draft.arrange_of_not_keeps (hkeeps : ∀ clause, p.keeps clause = false)
    (filter : List Document) :
    Clause.arrange (fun clause => if p.keeps clause then d.part p clause else []) filter [] =
      filter := by
  simp [Clause.arrange, hkeeps]

/-- The stages of a selection's command. -/
theorem Draft.stages_selectOperation {s : Selection} (haction : p.action = .select s)
    (hd : p.draft = .ok d) (options : Document) :
    ∃ shown, AreProjections shown ∧ (d.selectOperation p options).stages =
      Clause.arrange (fun clause => if p.keeps clause then d.part p clause else [])
        (stageUnlessEmpty "$match" d.filter) shown := by
  have hselection : p.selection = s := by rw [Plan.selection, haction]; rfl
  have hkeeps : ∀ clause, p.keeps clause =
      (!s.distinct && (p.isAggregate || !s.countAll && clause != .having)) := by
    intro clause
    rw [Plan.keeps, haction]
  rw [selectOperation, Plan.distinct_of_draft hd, Plan.countAll_of_draft hd, hselection]
  cases hdistinct : s.distinct with
  | true =>
    refine ⟨[], areProjections_nil, ?_⟩
    rw [arrange_of_not_keeps fun clause => by rw [hkeeps, hdistinct]; rfl]
    rfl
  | false =>
    cases hstaged : p.isAggregate with
    | true =>
      refine ⟨d.projections p, areProjections_projections d p, ?_⟩
      simp [hkeeps, hdistinct, hstaged, Operation.stages, pipeline_eq_arrange]
    | false =>
      cases hcount : s.countAll with
      | true =>
        refine ⟨[], areProjections_nil, ?_⟩
        have hnone : ∀ clause, p.keeps clause = false := fun clause => by
          rw [hkeeps, hdistinct, hstaged, hcount]
          rfl
        rw [arrange_of_not_keeps hnone]
        rfl
      | false =>
        obtain ⟨hprevious, hjoins, hgrouped⟩ :=
          part_eq_nil_of_single hd hstaged (hselection ▸ hcount)
        refine ⟨_, areProjections_stageUnlessEmpty d.projection, ?_⟩
        rw [Plan.multistage_of_draft hd hstaged]
        show stageUnlessEmpty "$match" d.filter ++ d.search.calls.map CursorCall.stage ++
          stageUnlessEmpty "$project" d.projection = _
        rw [stages_calls_search d p]
        simp [hkeeps, hdistinct, hstaged, hcount, Clause.arrange, part, hprevious, hjoins,
          hgrouped]

/-- **The stages of a command** are those of the filter, of the clauses that it has a
place for, and projections. -/
theorem Draft.stages_operation (hd : p.draft = .ok d)
    (hinsert : ∀ columns rows, p.action = .insert columns rows → d.filter = .empty)
    (options : Document) :
    ∃ shown, AreProjections shown ∧ (d.operation p options).stages =
      Clause.arrange (fun clause => if p.keeps clause then d.part p clause else [])
        (stageUnlessEmpty "$match" d.filter) shown := by
  rw [operation]
  cases haction : p.action with
  | select s => exact stages_selectOperation haction hd options
  | insert columns rows =>
    refine ⟨[], areProjections_nil, ?_⟩
    rw [arrange_of_not_keeps fun clause => by rw [Plan.keeps, haction],
      hinsert columns rows haction]
    rfl
  | update changes =>
    refine ⟨[], areProjections_nil, ?_⟩
    rw [arrange_of_not_keeps fun clause => by rw [Plan.keeps, haction]]
    rfl
  | delete =>
    refine ⟨[], areProjections_nil, ?_⟩
    rw [arrange_of_not_keeps fun clause => by rw [Plan.keeps, haction]]
    rfl

end Drafts

/-! ### Clauses that are lost -/

namespace Sql

/-- **The clauses that come to nothing**: a bound that is not positive, a condition on
groups whose filter is empty, and a query that has no stages. -/
inductive Select.AsksNothing (select : Select) (p : Plan) : Clause → Prop
  | limit {n : Int} (hlimit : select.limit = some n) (hn : n ≤ 0) :
    AsksNothing select p .limit
  | offset {n : Int} (hoffset : select.offset = some n) (hn : n ≤ 0) :
    AsksNothing select p .offset
  | having {e : Expr} (hhaving : p.selection.having = some (.not e))
    (hnegation : ¬ Filter.HasNegation (.groups p.types p.selection.aliases) e) :
    AsksNothing select p .having
  | sourceQuery {q : Plan} (horigin : p.scope.base.origin = .subplan q)
    (hstages : q.stages = .ok []) :
    AsksNothing select p .sourceQuery

/-- **The clauses that a statement with a plan loses.** -/
inductive Statement.Loses (s : Statement) (p : Plan) (clause : Clause) : Prop
  /-- The statement changes or removes rows. -/
  | change (hchange : s.isChange = true)
  /-- Distinct values are selected. -/
  | distinct {select : Select} (hselect : s.selection? = some select)
    (hdistinct : select.distinct = true)
  /-- Rows are only counted, in a single stage. -/
  | counted {select : Select} (hselect : s.selection? = some select)
    (hsingle : select.isStaged = false) (hcount : select.isCount = true)
  /-- The clause is a condition on groups, but there is a single stage. -/
  | ungrouped {select : Select} (hselect : s.selection? = some select)
    (hsingle : select.isStaged = false) (hhaving : clause = .having)
  | nothing {select : Select} (hselect : s.selection? = some select)
    (hnothing : select.AsksNothing p clause)

end Sql

section Plans

variable {types : FieldTypes} {depth : Nat} {s : Select} {p : Plan} {d : Draft}
  {clause : Clause}

/-- The clauses of a plan are those of its selection. -/
theorem Plan.clauses_of_ofSelect (h : Plan.ofSelect types depth s = .ok p) :
    Plan.checkBound s.limit = .ok p.limit ∧
    Plan.checkBound s.offset = .ok p.selection.offset ∧
    p.selection.having.isSome = s.having.isSome ∧
    p.selection.orderBy.isEmpty = s.orderBy.isEmpty ∧
    p.selection.groupBy.isEmpty = s.groupBy.isEmpty ∧ p.scope.joined.length = s.joins.length ∧
    p.scope.base.origin.subplan?.isSome = s.source.isQuery := by
  obtain ⟨base, scope, hbase, hscope, h⟩ := Plan.exists_scope_of_ofSelect h
  obtain ⟨limit, hlimit, h⟩ := Outcome.bind_eq_ok.mp h
  obtain ⟨offset, hoffset, h⟩ := Outcome.bind_eq_ok.mp h
  obtain ⟨hscopeBase, hlength⟩ := Plan.scope_of_resolveJoins hscope
  cases Outcome.pure_eq_ok.mp h
  refine ⟨hlimit, hoffset, Option.isSome_map, List.isEmpty_map, List.isEmpty_map, ?_, ?_⟩
  · simpa [Scope.ofBase] using hlength
  · show scope.base.origin.subplan?.isSome = s.source.isQuery
    rw [hscopeBase]
    exact (Plan.source_of_resolve hbase).1

/-- Every join has two stages. -/
theorem JoinedSource.length_of_stages {base : String} {inside : List Expr} {j : JoinedSource}
    {stages : List Document} (h : j.stages types base inside = .ok stages) :
    stages.length = 2 := by
  rw [JoinedSource.stages] at h
  split at h
  · cases h
  · obtain ⟨_, -, h⟩ := Outcome.bind_eq_ok.mp h
    cases Outcome.pure_eq_ok.mp h
    rfl

/-- Joins have stages. -/
theorem Plan.joinStages_ne_nil {split : FilterSplit} {stages : List Document}
    (h : p.joinStages split = .ok stages) (hjoined : p.scope.joined ≠ []) : stages ≠ [] := by
  obtain ⟨lookups, hlookups, h⟩ := Outcome.bind_eq_ok.mp h
  have hlengths : lookups.map List.length = p.scope.joined.map fun _ => 2 :=
    Outcome.map_results_of_mapM (fun j stages => JoinedSource.length_of_stages) hlookups
  have hflat : lookups.flatten ≠ [] := by
    rw [← List.length_pos_iff, List.length_flatten, hlengths]
    simpa [List.length_pos_iff] using hjoined
  split at h
  · cases Outcome.pure_eq_ok.mp h
    exact hflat
  · obtain ⟨waiting, -, h⟩ := Outcome.bind_eq_ok.mp h
    cases Outcome.pure_eq_ok.mp h
    exact List.append_ne_nil_of_left_ne_nil hflat _

/-- Something to order by gives an order. -/
theorem sortDocument_ne_empty {selection : Selection} {sort : Document}
    (h : sortDocument selection = .ok sort) (horder : selection.orderBy ≠ []) :
    sort ≠ .empty := by
  obtain ⟨entries, hentries, h⟩ := Outcome.bind_eq_ok.mp h
  cases Outcome.pure_eq_ok.mp h
  have hlength : entries.length = selection.orderBy.length := by
    simpa using congrArg List.length (Outcome.map_eq_of_mapM hentries).symm
  have hne : entries ≠ [] := by
    rw [← List.length_pos_iff, hlength]
    exact List.length_pos_iff.mpr horder
  rw [← List.dropLast_append_getLast hne]
  obtain ⟨field, v⟩ := entries.getLast hne
  rw [Document.ofList_append_singleton]
  exact Document.insert_ne_empty _ _ _

/-- **A draft has nothing for a clause exactly if the clause comes to nothing.** -/
theorem Draft.part_eq_nil_iff (hp : Plan.ofSelect types depth s = .ok p)
    (hd : p.draft = .ok d) (hclause : s.has clause = true) :
    d.part p clause = [] ↔ s.AsksNothing p clause := by
  obtain ⟨hlimit, hoffset, hhaving, horder, hgroup, hjoined, hquery⟩ :=
    Plan.clauses_of_ofSelect hp
  cases clause with
  | joins =>
    have hne : p.scope.joined ≠ [] := by
      rw [← List.length_pos_iff, hjoined]
      simpa [Select.has, List.length_pos_iff] using hclause
    have hstages := Plan.joinStages_ne_nil (Plan.joins_of_draft hd hne) hne
    exact iff_of_false hstages fun h => by cases h
  | groupBy =>
    have hgrouped : p.isGrouped = true := by
      have hfields : s.groupBy.isEmpty = false := by simpa [Select.has] using hclause
      rw [Plan.isGrouped, Selection.isGrouped, hgroup, hfields]
      rfl
    rw [Draft.part, if_pos hgrouped]
    exact iff_of_false (List.cons_ne_nil _ _) fun h => by cases h
  | orderBy =>
    have hne : p.selection.orderBy ≠ [] := by
      rw [← List.isEmpty_eq_false_iff, horder]
      simpa [Select.has] using hclause
    rw [Draft.part, Draft.stageUnlessEmpty_eq_nil_iff]
    exact iff_of_false (sortDocument_ne_empty (Plan.sort_of_draft hd) hne) fun h => by cases h
  | having =>
    obtain ⟨e, he⟩ : ∃ e, p.selection.having = some e := by
      rw [← Option.isSome_iff_exists, hhaving]
      exact hclause
    rw [Draft.part, Draft.stageUnlessEmpty_eq_nil_iff,
      Filter.compile_eq_empty_iff (Plan.having_of_draft hd he)]
    constructor
    · rintro ⟨x, rfl, hnegation⟩
      exact .having he hnegation
    · rintro (_ | _ | ⟨hnot, hnegation⟩)
      rw [he, Option.some.injEq] at hnot
      exact ⟨_, hnot, hnegation⟩
  | sourceQuery =>
    obtain ⟨q, hq⟩ : ∃ q, p.scope.base.origin.subplan? = some q := by
      rw [← Option.isSome_iff_exists, hquery]
      exact hclause
    have hstages := Plan.stages_of_draft hd hq
    constructor
    · intro hnil
      rw [Draft.part] at hnil
      exact .sourceQuery (Origin.eq_of_subplan? hq) (hnil ▸ hstages)
    · rintro (_ | _ | _ | ⟨horigin, hnone⟩)
      rw [horigin, Origin.subplan?, Option.some.injEq] at hq
      rw [← hq, hnone] at hstages
      exact (Except.ok.inj hstages).symm
  | limit =>
    obtain ⟨n, hn⟩ : ∃ n, s.limit = some n := Option.isSome_iff_exists.mp hclause
    have hbound : d.limit = n := by
      rw [(Plan.bounds_of_draft hd).1, ← (Plan.checkBound_eq_ok_iff.mp hlimit).2, hn]
      rfl
    rw [Draft.part, Draft.boundStage_eq_nil_iff, hbound]
    refine ⟨.limit hn, ?_⟩
    rintro ⟨hsame, hle⟩
    rw [hn, Option.some.injEq] at hsame
    rwa [hsame]
  | offset =>
    obtain ⟨n, hn⟩ : ∃ n, s.offset = some n := Option.isSome_iff_exists.mp hclause
    have hbound : d.offset = n := by
      rw [(Plan.bounds_of_draft hd).2, ← (Plan.checkBound_eq_ok_iff.mp hoffset).2, hn]
      rfl
    rw [Draft.part, Draft.boundStage_eq_nil_iff, hbound]
    refine ⟨.offset hn, ?_⟩
    rintro (_ | ⟨hsame, hle⟩)
    rw [hn, Option.some.injEq] at hsame
    rwa [hsame]

/-- **The place for a clause**, read off the selection. -/
theorem Plan.keeps_eq_false_iff (hp : Plan.ofSelect types depth s = .ok p) :
    p.keeps clause = false ↔ s.distinct = true ∨
      s.isStaged = false ∧ (clause = .having ∨ s.isCount = true) := by
  obtain ⟨selection, haction, hdistinct, haggregate, hcount⟩ := Plan.shape_of_ofSelect hp
  rw [Plan.keeps, haction]
  show (!selection.distinct && (p.isAggregate || !selection.countAll && clause != .having)) =
    false ↔ _
  rw [hdistinct, haggregate]
  cases hstaged : s.isStaged with
  | true => simp
  | false =>
    rw [hcount hstaged]
    cases s.distinct <;> cases s.isCount <;> simp

/-- **A statement loses a clause exactly if its command has no stages for it.** -/
theorem Sql.Statement.loses_iff {s : Statement} (hp : Plan.ofStatement types s = .ok p)
    (hd : p.draft = .ok d) (hclause : s.has clause = true) :
    s.Loses p clause ↔ (if p.keeps clause then d.part p clause else []) = [] := by
  have hchange : s.isChange = true → p.keeps clause = false := by
    intro hs
    have hwrite := Plan.isWrite_of_ofStatement hs hp
    rw [Plan.keeps]
    cases haction : p.action with
    | select selection => rw [haction] at hwrite; cases hwrite
    | _ => rfl
  cases s with
  | insert i => cases hclause
  | update u => exact iff_of_true (.change rfl) (by rw [hchange rfl]; rfl)
  | delete x => exact iff_of_true (.change rfl) (by rw [hchange rfl]; rfl)
  | select q =>
    obtain ⟨select, hselect, hplan⟩ := Plan.exists_leading_of_ofQuery hp
    have hhas : select.has clause = true := by simpa [Statement.has, hselect] using hclause
    have hselection : (Statement.select q).selection? = some select := hselect
    have hlost : (if p.keeps clause then d.part p clause else []) = [] ↔
        p.keeps clause = false ∨ d.part p clause = [] := by
      cases p.keeps clause <;> simp
    rw [hlost, Plan.keeps_eq_false_iff hplan, Draft.part_eq_nil_iff hplan hd hhas]
    constructor
    · rintro (hno | ⟨hown, hdistinct⟩ | ⟨hown, hsingle, hcount⟩ | ⟨hown, hsingle, hhaving⟩ |
        ⟨hown, hnothing⟩)
      · cases hno
      all_goals
        rw [hselection, Option.some.injEq] at hown
        subst hown
      · exact .inl (.inl hdistinct)
      · exact .inl (.inr ⟨hsingle, .inr hcount⟩)
      · exact .inl (.inr ⟨hsingle, .inl hhaving⟩)
      · exact .inr hnothing
    · rintro ((hdistinct | ⟨hsingle, hhaving | hcount⟩) | hnothing)
      · exact .distinct hselection hdistinct
      · exact .ungrouped hselection hsingle hhaving
      · exact .counted hselection hsingle hcount
      · exact .nothing hselection hnothing

end Plans

end DocQuery
