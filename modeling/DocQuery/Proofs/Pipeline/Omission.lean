import DocQuery.Proofs.Pipeline.Clauses

/-!
# Statements without one of their clauses

A clause is lost if the command has the same text without it.  The clauses behind the
groups can be left out of any statement, and then the text tells whether they were there.

* `Sql.Statement.without` — a statement without one of these clauses
* `Plan.draft_without`, `Plan.draft_without_limit` — its draft is without the part of the
  clause
* `Draft.render_command_without` — its command has the same text if there are no stages
  for the clause
* `clause_lost_iff` — which clauses reach the stages and the text of a command

### What is load-bearing

One step works on each of these clauses, and no other step looks at it.  A stage or a call
that is left out makes the text shorter, so it is enough to compare lengths.
-/

namespace DocQuery

open Sql

/-! ### Statements without a clause -/

namespace Sql

/-- Whether a clause stands behind the groups, where no other clause refers to it. -/
def Clause.isTrailing : Clause → Bool
  | .having | .orderBy | .limit | .offset => true
  | .joins | .sourceQuery | .groupBy => false

/-- A selection without a trailing clause. -/
def Select.without (s : Select) : Clause → Select
  | .having => { s with having := none }
  | .orderBy => { s with orderBy := [] }
  | .limit => { s with limit := none }
  | .offset => { s with offset := none }
  | .joins | .sourceQuery | .groupBy => s

/-- A query whose selection is without a trailing clause. -/
def Query.without (clause : Clause) : Query → Query
  | .plain select => .plain (select.without clause)
  | .parenthesized q => .parenthesized (q.without clause)
  | .setOperation (.plain select :: rest) operators =>
    .setOperation (.plain (select.without clause) :: rest) operators
  | .setOperation branches operators => .setOperation branches operators

/-- **A statement without a trailing clause.** -/
def Statement.without (s : Statement) (clause : Clause) : Statement :=
  match s, clause with
  | .select q, _ => .select (q.without clause)
  | .update u, .limit => .update { u with limit := none }
  | .delete d, .limit => .delete { d with limit := none }
  | _, _ => s

end Sql

/-- A plan without a trailing clause. -/
def Plan.without (p : Plan) : Clause → Plan
  | .having => { p with action := .select { p.selection with having := none } }
  | .orderBy => { p with action := .select { p.selection with orderBy := [] } }
  | .offset => { p with action := .select { p.selection with offset := -1 } }
  | .limit => { p with limit := -1 }
  | .joins | .sourceQuery | .groupBy => p

/-- A draft without the part of a trailing clause. -/
def Draft.without (d : Draft) : Clause → Draft
  | .having => { d with having := .empty }
  | .orderBy => { d with sort := .empty }
  | .offset => { d with offset := -1 }
  | .limit => { d with limit := -1 }
  | .joins | .sourceQuery | .groupBy => d

section Without

variable {types : FieldTypes} {depth : Nat} {p : Plan} {d : Draft} {clause : Clause}

theorem Plan.ofClauses_without {scope : Scope} {s : Select}
    (h : Plan.ofClauses types scope s = .ok p) :
    Plan.ofClauses types scope (s.without clause) = .ok (p.without clause) := by
  obtain ⟨l, hlimit, h⟩ := Outcome.bind_eq_ok.mp h
  obtain ⟨o, hoffset, h⟩ := Outcome.bind_eq_ok.mp h
  cases Outcome.pure_eq_ok.mp h
  have hnone : Plan.checkBound none = .ok (-1) := rfl
  cases clause <;> simp only [Select.without, Plan.ofClauses, hlimit, hoffset, hnone] <;> rfl

/-- The plan of a selection without a clause is its plan without the clause. -/
theorem Plan.ofSelect_without {s : Select} (h : Plan.ofSelect types depth s = .ok p) :
    Plan.ofSelect types depth (s.without clause) = .ok (p.without clause) := by
  obtain ⟨base, scope, hbase, hscope, h⟩ := Plan.exists_scope_of_ofSelect h
  have hsource : (s.without clause).source = s.source := by cases clause <;> rfl
  have hjoins : (s.without clause).joins = s.joins := by cases clause <;> rfl
  rw [← hsource] at hbase
  rw [← hjoins] at hscope
  have hclauses : Plan.ofClauses types scope (s.without clause) = .ok (p.without clause) :=
    Plan.ofClauses_without h
  generalize s.without clause = s' at hbase hscope hclauses ⊢
  obtain ⟨distinct, items, source, joins, filter, groupBy, having, orderBy, limit,
      offset⟩ := s'
  rw [Plan.ofSelect]
  exact Outcome.bind_eq_ok.mpr ⟨base, hbase, Outcome.bind_eq_ok.mpr ⟨scope, hscope, hclauses⟩⟩

theorem Plan.ofQuery_without {q : Query} (h : Plan.ofQuery types depth q = .ok p) :
    Plan.ofQuery types depth (q.without clause) = .ok (p.without clause) := by
  fun_induction Query.without clause q with
  | case1 select =>
    rw [Plan.ofQuery] at h ⊢
    exact Plan.ofSelect_without h
  | case2 q ih =>
    rw [Plan.ofQuery] at h ⊢
    exact ih h
  | case3 select rest operators =>
    rw [Plan.ofQuery] at h ⊢
    exact Plan.ofSelect_without h
  | case4 branches operators hfirst =>
    rw [Plan.ofQuery] at h
    · cases h
    · exact hfirst

/-- The steps in front of those of the trailing clauses. -/
def Step.leading : List Step :=
  [.source, .distinct, .groupBy, .totalGroup, .projection, .countAll, .joins]

/-- What the leading steps of a plan leave. -/
def Plan.leadingDraft (p : Plan) : Except Fault Draft :=
  Step.leading.foldlM (fun d step => step.run p p.scope.base.origin.stages d) (.start p)

section Steps

variable (previous : Except Fault (Option (List Document))) (d : Draft)

theorem Step.run_filter : Step.filter.run p previous d = (do
    let filter ← p.earlyFilter.elim (.ok d.filter) (Filter.compile p.filterContext)
    return { d with filter := filter }) := by
  rw [Step.run]
  cases p.earlyFilter <;> rfl

theorem Step.run_having : Step.having.run p previous d = (do
    let having ← p.selection.having.elim (.ok d.having)
      (Filter.compile (.groups p.types p.selection.aliases))
    return { d with having := having }) := by
  rw [Step.run]
  cases p.selection.having <;> rfl

end Steps

/-- **The draft of a selection**: the leading steps, then the trailing clauses and the
filter. -/
theorem Plan.draft_select {s : Selection} (haction : p.action = .select s) :
    p.draft = (do
      let start ← p.leadingDraft
      let sort ← sortDocument s
      let filter ← p.earlyFilter.elim (.ok start.filter) (Filter.compile p.filterContext)
      let having ← s.having.elim (.ok start.having)
        (Filter.compile (.groups p.types s.aliases))
      return { start with
        sort := sort, filter := filter, having := having
        limit := p.limit, offset := s.offset }) := by
  have hselection : p.selection = s := by rw [Plan.selection, haction]; rfl
  have hlist : Step.list =
      Step.leading ++ [.orderBy, .filter, .having, .paging, .assignments, .rows] := rfl
  rw [Plan.draft_eq_runSteps, Plan.runSteps, hlist, List.foldlM_append]
  refine bind_congr fun start => ?_
  simp only [List.foldlM_cons, List.foldlM_nil, Step.run_filter, Step.run_having, bind_assoc,
    pure_bind]
  simp only [Step.run, haction, hselection, bind_assoc, pure_bind]
  rfl

/-- The leading steps do not notice a trailing clause. -/
theorem Plan.leadingDraft_without {s : Selection} (haction : p.action = .select s) :
    (p.without clause).leadingDraft = p.leadingDraft := by
  obtain ⟨scope, types, filter, limit, action⟩ := p
  obtain rfl : action = .select s := haction
  have hstart : Draft.start (Plan.without ⟨scope, types, filter, limit, .select s⟩ clause) =
      .start ⟨scope, types, filter, limit, .select s⟩ := by
    cases clause <;> simp only [Draft.start, Plan.without, Plan.collectionName]
  have hscope : (Plan.without ⟨scope, types, filter, limit, .select s⟩ clause).scope =
      scope := by
    cases clause <;> rfl
  rw [Plan.leadingDraft, Plan.leadingDraft, hstart, hscope]
  refine Outcome.foldlM_congr (fun step hmem d => ?_) _
  simp only [Step.leading, List.mem_cons, List.not_mem_nil, or_false] at hmem
  rcases hmem with rfl | rfl | rfl | rfl | rfl | rfl | rfl <;> cases clause <;> rfl

/-- Nothing is left of trailing clauses by the leading steps. -/
theorem Plan.having_of_leadingDraft (h : p.leadingDraft = .ok d) : d.having = .empty :=
  Step.foldlM_keeps Draft.having
    (fun step hmem _ _ hk => hk.having (by rintro rfl; simp [Step.leading] at hmem)) h

/-- The draft of a selection from its parts. -/
theorem Plan.draft_of_parts {s : Selection} {start : Draft} {sort filter having : Document}
    (haction : p.action = .select s) (hstart : p.leadingDraft = .ok start)
    (hsort : sortDocument s = .ok sort)
    (hfilter : p.earlyFilter.elim (.ok start.filter) (Filter.compile p.filterContext) =
      .ok filter)
    (hhaving : s.having.elim (.ok start.having) (Filter.compile (.groups p.types s.aliases)) =
      .ok having) :
    p.draft = .ok { start with
      sort := sort, filter := filter, having := having
      limit := p.limit, offset := s.offset } := by
  rw [Plan.draft_select haction, hstart]
  show (sortDocument s >>= _) = _
  rw [hsort]
  show (p.earlyFilter.elim (.ok start.filter) (Filter.compile p.filterContext) >>= _) = _
  rw [hfilter]
  show (s.having.elim (Except.ok start.having) _ >>= _) = _
  rw [hhaving]
  rfl

/-- **Without a trailing clause, the draft of a selection is without its part.** -/
theorem Plan.draft_without {s : Selection} (haction : p.action = .select s)
    (hd : p.draft = .ok d) : (p.without clause).draft = .ok (d.without clause) := by
  have hleading : (p.without clause).leadingDraft = p.leadingDraft :=
    Plan.leadingDraft_without haction
  have hselection : p.selection = s := by rw [Plan.selection, haction]; rfl
  rw [Plan.draft_select haction] at hd
  obtain ⟨start, hstart, hd⟩ := Outcome.bind_eq_ok.mp hd
  obtain ⟨sort, hsort, hd⟩ := Outcome.bind_eq_ok.mp hd
  obtain ⟨filter, hfilter, hd⟩ := Outcome.bind_eq_ok.mp hd
  obtain ⟨having, hhaving, hd⟩ := Outcome.bind_eq_ok.mp hd
  cases Outcome.pure_eq_ok.mp hd
  rw [hstart] at hleading
  obtain ⟨scope, types, f, limit, action⟩ := p
  obtain rfl : action = .select s := haction
  cases clause with
  | having =>
    rw [Plan.draft_of_parts (s := { s with having := none }) rfl hleading hsort hfilter rfl,
      Plan.having_of_leadingDraft hstart]
    rfl
  | orderBy =>
    rw [Plan.draft_of_parts (s := { s with orderBy := [] }) rfl hleading rfl hfilter hhaving]
    rfl
  | offset =>
    rw [Plan.draft_of_parts (s := { s with offset := -1 }) rfl hleading hsort hfilter hhaving]
    rfl
  | _ =>
    rw [Plan.draft_of_parts rfl hleading hsort hfilter hhaving]
    rfl

/-- An assignment does not notice a bound. -/
theorem addAssignment_without (types : FieldTypes) (d : Draft) (assignment : Column × Expr) :
    addAssignment types (d.without .limit) assignment =
      (addAssignment types d assignment).map (·.without .limit) := by
  unfold addAssignment
  dsimp only
  split
  · rfl
  · rw [Outcome.map_bind]
    rfl

/-- The steps behind the bounds do not notice them. -/
theorem Step.run_without_limit {previous : Except Fault (Option (List Document))}
    {step : Step} (hstep : step ∈ [Step.assignments, .rows]) (d : Draft) :
    step.run (p.without .limit) previous (d.without .limit) =
      (step.run p previous d).map (·.without .limit) := by
  obtain ⟨scope, types, filter, limit, action⟩ := p
  simp only [List.mem_cons, List.not_mem_nil, or_false] at hstep
  obtain rfl | rfl := hstep
  · cases action with
    | update changes =>
      exact Outcome.foldlM_map fun assignment _ d => addAssignment_without types d assignment
    | _ => rfl
  · cases action with
    | insert columns rows =>
      simp only [Step.run]
      rw [Outcome.map_bind]
      rfl
    | _ => rfl

/-- **Without its bound, a plan has the draft without it**, whatever the statement does. -/
theorem Plan.draft_without_limit (hd : p.draft = .ok d) :
    (p.without .limit).draft = .ok (d.without .limit) := by
  have hlist : Step.list = (Step.leading ++ [Step.orderBy, .filter, .having]) ++
      .paging :: [.assignments, .rows] := rfl
  obtain ⟨start, own, hstart, hown, hafter⟩ := Plan.exists_run_around hd _ .paging _ hlist
  have hbegin : Draft.start (p.without .limit) = .start p := by
    obtain ⟨scope, types, filter, limit, action⟩ := p
    simp only [Draft.start, Plan.without, Plan.collectionName]
  have hbefore : (Step.leading ++ [Step.orderBy, .filter, .having]).foldlM
      (fun d step => step.run (p.without .limit) p.scope.base.origin.stages d) (.start p) =
        .ok start := by
    rw [← hstart]
    refine Outcome.foldlM_congr (fun step hmem d => ?_) _
    simp only [Step.leading, List.cons_append, List.nil_append, List.mem_cons,
      List.not_mem_nil, or_false] at hmem
    rcases hmem with rfl | rfl | rfl | rfl | rfl | rfl | rfl | rfl | rfl | rfl <;> rfl
  have hrest : [Step.assignments, .rows].foldlM
      (fun d step => step.run (p.without .limit) p.scope.base.origin.stages d)
        (own.without .limit) = .ok (d.without .limit) := by
    rw [Outcome.foldlM_map (φ := fun d => d.without .limit)
      (fun step hmem d => Step.run_without_limit hmem d), hafter]
    rfl
  cases hown
  rw [Plan.draft_eq_runSteps, Plan.runSteps, hlist, List.foldlM_append, hbegin]
  exact Outcome.bind_eq_ok.mpr ⟨start, hbefore, hrest⟩

end Without

/-! ### Texts -/

theorem length_intercalate (separator : String) (texts : List String) :
    (separator.intercalate texts).length =
      (String.join texts).length + (texts.length - 1) * separator.length := by
  induction texts with
  | nil => simp
  | cons text rest ih =>
    cases rest with
    | nil => simp
    | cons next rest =>
      rw [String.intercalate_cons_cons, String.length_append, String.length_append, ih]
      simp only [String.join_cons, String.length_append, List.length_cons, Nat.add_sub_cancel,
        Nat.succ_mul]
      omega

namespace Operation

theorem renderItems_eq_map (items : List Json) :
    Json.renderItems items = items.map Json.render := by
  induction items with
  | nil => rfl
  | cons item rest ih => rw [Json.renderItems, ih, List.map_cons]

theorem length_renderList (documents : List Document) :
    (renderList documents).length =
      (String.join (documents.map fun d => d.toJson.render)).length +
      (documents.length - 1) + 2 := by
  rw [renderList, Json.render, String.length_append, String.length_append, length_intercalate,
    renderItems_eq_map]
  have hbrackets : "[".length = 1 ∧ "]".length = 1 ∧ ",".length = 1 := ⟨rfl, rfl, rfl⟩
  simp only [List.map_map, List.length_map, Function.comp_def, hbrackets]
  omega

/-- With more stages, the text gets longer. -/
theorem length_renderList_lt {front stages behind : List Document} (h : stages ≠ []) :
    (renderList (front ++ behind)).length <
      (renderList (front ++ stages ++ behind)).length := by
  obtain ⟨s, rest, rfl⟩ := List.exists_cons_of_ne_nil h
  have hpos : 0 < s.toJson.render.length := by
    obtain ⟨entries⟩ := s
    have hbrace : "\x7b".length = 1 := rfl
    rw [Document.toJson, Json.render, String.length_append, String.length_append, hbrace]
    omega
  rw [length_renderList, length_renderList]
  simp only [List.map_append, List.map_cons, String.join_append, String.join_cons,
    String.length_append, List.length_append, List.length_cons]
  omega

end Operation

theorem CursorCall.length_text_pos (call : CursorCall) : 0 < call.text.length := by
  have hnames : ".sort(".length = 6 ∧ ".skip(".length = 6 ∧ ".limit(".length = 7 :=
    ⟨rfl, rfl, rfl⟩
  cases call <;> simp only [text, String.length_append, hnames] <;> omega

namespace Command

theorem length_render (c : Command) :
    c.render.length = c.collection.length + c.operation.name.length +
      (", ".intercalate c.operation.arguments).length +
        (String.join c.operation.modifiers).length + 6 := by
  have hwords : "db.".length = 3 ∧ ".".length = 1 ∧ "(".length = 1 ∧ ")".length = 1 :=
    ⟨rfl, rfl, rfl, rfl⟩
  simp only [render, String.length_append, hwords]
  omega

/-- An aggregation with more stages has another text. -/
theorem render_aggregate_ne {collection : String} {front stages behind : List Document}
    {options : Document} (h : stages ≠ []) :
    (Command.mk collection (.aggregate (front ++ behind) options)).render ≠
      (Command.mk collection (.aggregate (front ++ stages ++ behind) options)).render := by
  intro heq
  have hlength := congrArg String.length heq
  have hlt : (Operation.renderList (front ++ behind)).length <
      (Operation.renderList (front ++ stages ++ behind)).length :=
    Operation.length_renderList_lt h
  simp only [length_render, Operation.arguments, Operation.modifiers, Operation.name,
    length_intercalate, String.join_cons, String.length_append, List.length_cons] at hlength
  omega

end Command

section Texts

variable {p : Plan} {d : Draft} {clause : Clause}

/-- The stages of a trailing clause stand in one place. -/
theorem Clause.exists_arrange {part other : Clause → List Document}
    (filter shown : List Document) (htrailing : clause.isTrailing = true)
    (hother : ∀ c, other c = if c = clause then [] else part c) :
    ∃ front behind, arrange part filter shown = front ++ part clause ++ behind ∧
      arrange other filter shown = front ++ behind := by
  cases clause with
  | having =>
    exact ⟨part .sourceQuery ++ filter ++ part .joins ++ part .groupBy,
      part .orderBy ++ part .offset ++ part .limit ++ shown,
      by simp only [arrange, List.append_assoc], by simp [arrange, hother]⟩
  | orderBy =>
    exact ⟨part .sourceQuery ++ filter ++ part .joins ++ part .groupBy ++ part .having,
      part .offset ++ part .limit ++ shown,
      by simp only [arrange, List.append_assoc], by simp [arrange, hother]⟩
  | offset =>
    exact ⟨part .sourceQuery ++ filter ++ part .joins ++ part .groupBy ++ part .having ++
      part .orderBy, part .limit ++ shown,
      by simp only [arrange, List.append_assoc], by simp [arrange, hother]⟩
  | limit =>
    exact ⟨part .sourceQuery ++ filter ++ part .joins ++ part .groupBy ++ part .having ++
      part .orderBy ++ part .offset, shown,
      by simp only [arrange, List.append_assoc], by simp [arrange, hother]⟩
  | _ => cases htrailing

theorem Draft.part_without (htrailing : clause.isTrailing = true) (other : Clause) :
    (d.without clause).part (p.without clause) other =
      if other = clause then [] else d.part p other := by
  cases clause <;> cases htrailing <;> cases other <;> rfl

/-- **The text of an aggregation** is the same without a trailing clause if there are no
stages for it. -/
theorem Draft.render_pipeline_without (htrailing : clause.isTrailing = true)
    (collection : String) (options : Document) :
    (Command.mk collection
        (.aggregate ((d.without clause).pipeline (p.without clause)) options)).render =
      (Command.mk collection (.aggregate (d.pipeline p) options)).render ↔
        d.part p clause = [] := by
  have hfilter : (d.without clause).filter = d.filter := by cases clause <;> rfl
  have hprojections : (d.without clause).projections (p.without clause) =
      d.projections p := by
    cases clause <;> rfl
  obtain ⟨front, behind, hwith, hwithout⟩ := Clause.exists_arrange
    (stageUnlessEmpty "$match" d.filter) (d.projections p) htrailing
    (fun other => part_without (p := p) (d := d) htrailing other)
  rw [pipeline_eq_arrange, pipeline_eq_arrange, hfilter, hprojections, hwith, hwithout]
  constructor
  · intro heq
    by_contra hpart
    exact Command.render_aggregate_ne hpart heq
  · intro hpart
    rw [hpart, List.append_nil]

/-- The calls behind a search that stand for a clause. -/
def Draft.callsFor (d : Draft) : Clause → List CursorCall
  | .orderBy => if d.sort.isEmpty then [] else [.sort d.sort]
  | .offset => if 0 < d.offset then [.skip d.offset] else []
  | .limit => if 0 < d.limit then [.limit d.limit] else []
  | _ => []

theorem Draft.callsFor_eq_nil_iff (hhaving : clause ≠ .having)
    (htrailing : clause.isTrailing = true) :
    d.callsFor clause = [] ↔ d.part p clause = [] := by
  cases clause with
  | having => exact absurd rfl hhaving
  | orderBy => rw [callsFor, part, stageUnlessEmpty]; split <;> simp
  | offset => rw [callsFor, part, boundStage]; split <;> simp
  | limit => rw [callsFor, part, boundStage]; split <;> simp
  | _ => cases htrailing

/-- **The text of a search** is the same without a trailing clause if there is no call for
it. -/
theorem Draft.render_search_without (htrailing : clause.isTrailing = true)
    (collection : String) :
    (Command.mk collection (d.without clause).search).render =
      (Command.mk collection d.search).render ↔ d.callsFor clause = [] := by
  have hcalls : ∀ e : Draft, e.search.modifiers =
      (e.callsFor .orderBy ++ e.callsFor .offset ++ e.callsFor .limit).map CursorCall.text :=
    fun e => Operation.modifiers_eq e.search
  have hwithout : ∀ other, (d.without clause).callsFor other =
      if other = clause then [] else d.callsFor other := by
    intro other
    cases clause <;> cases htrailing <;> cases other <;> rfl
  have harguments : (d.without clause).search.arguments = d.search.arguments := by
    cases clause <;> rfl
  have hname : (d.without clause).search.name = d.search.name := rfl
  constructor
  · intro heq
    by_contra hsome
    have hlength := congrArg String.length heq
    rw [Command.length_render, Command.length_render, harguments, hname, hcalls, hcalls,
      hwithout, hwithout, hwithout] at hlength
    have hpos : 0 < (String.join ((d.callsFor clause).map CursorCall.text)).length := by
      obtain ⟨call, rest, hcons⟩ := List.exists_cons_of_ne_nil hsome
      have htext := call.length_text_pos
      rw [hcons, List.map_cons, String.join_cons, String.length_append]
      omega
    simp only [List.map_append, String.join_append, String.length_append] at hlength
    cases clause with
    | having => exact hsome rfl
    | orderBy | offset | limit =>
      simp only [reduceCtorEq, if_true, if_false, List.map_nil, String.join_nil,
        String.length_empty] at hlength
      omega
    | _ => cases htrailing
  · intro hnone
    have hsame : ∀ other, (d.without clause).callsFor other = d.callsFor other := by
      intro other
      rw [hwithout]
      split
      · next hother => rw [hother, hnone]
      · rfl
    have hmodifiers : (d.without clause).search.modifiers = d.search.modifiers := by
      rw [hcalls, hcalls, hsame, hsame, hsame]
    rw [Command.render, Command.render, harguments, hmodifiers]
    rfl

/-- The shape of a selection's command does not depend on trailing clauses. -/
theorem Draft.selectOperation_without (options : Document) :
    (d.without clause).selectOperation (p.without clause) options =
      if d.distinct then .distinct (d.projection.keys.head?.getD "") d.filter
      else if d.countAll && !p.isAggregate then .count d.filter
      else if p.isAggregate || d.multistage then
        .aggregate ((d.without clause).pipeline (p.without clause)) options
      else (d.without clause).search := by
  cases clause <;> rfl

/-- The text of a selection's command without a trailing clause. -/
theorem Draft.render_selectOperation_without {s : Selection} (haction : p.action = .select s)
    (hd : p.draft = .ok d) (htrailing : clause.isTrailing = true) (collection : String)
    (options : Document) :
    (Command.mk collection
        ((d.without clause).selectOperation (p.without clause) options)).render =
      (Command.mk collection (d.selectOperation p options)).render ↔
        (if p.keeps clause then d.part p clause else []) = [] := by
  have hselection : p.selection = s := by rw [Plan.selection, haction]; rfl
  have hkeeps : p.keeps clause =
      (!s.distinct && (p.isAggregate || !s.countAll && clause != .having)) := by
    rw [Plan.keeps, haction]
  rw [selectOperation_without, selectOperation, Plan.distinct_of_draft hd,
    Plan.countAll_of_draft hd, hselection, hkeeps]
  cases s.distinct with
  | true => exact iff_of_true rfl rfl
  | false =>
    cases hstaged : p.isAggregate with
    | true =>
      rw [Bool.not_true, Bool.and_false]
      exact render_pipeline_without htrailing collection options
    | false =>
      cases s.countAll with
      | true => exact iff_of_true rfl rfl
      | false =>
        rw [Plan.multistage_of_draft hd hstaged]
        refine (render_search_without htrailing collection).trans ?_
        by_cases hhaving : clause = .having
        · rw [hhaving]
          exact iff_of_true rfl rfl
        · rw [callsFor_eq_nil_iff (p := p) hhaving htrailing]
          simp [hhaving]

/-- **The text of a command** is the same without a trailing clause exactly if it has no
stages for the clause. -/
theorem Draft.render_command_without (hd : p.draft = .ok d)
    (htrailing : clause.isTrailing = true)
    (haction : (∃ s, p.action = .select s) ∨ clause = .limit) (options : Document) :
    ((d.without clause).command (p.without clause) options).render =
      (d.command p options).render ↔
      (if p.keeps clause then d.part p clause else []) = [] := by
  have hcollection : (d.without clause).collection = d.collection := by cases clause <;> rfl
  rw [command, command, hcollection]
  by_cases hselect : ∃ s, p.action = .select s
  · obtain ⟨s, hs⟩ := hselect
    have hwith : d.operation p options = d.selectOperation p options := by rw [operation, hs]
    have hwithout : (d.without clause).operation (p.without clause) options =
        (d.without clause).selectOperation (p.without clause) options := by
      rw [operation]
      cases clause <;> first | rfl | simp only [Plan.without, hs]
    rw [hwith, hwithout]
    exact render_selectOperation_without hs hd htrailing d.collection options
  · -- commands that write do not look at the bound
    obtain rfl : clause = .limit := haction.resolve_left hselect
    cases hact : p.action with
    | select s => exact absurd ⟨s, hact⟩ hselect
    | _ =>
      refine iff_of_true ?_ (by rw [Plan.keeps, hact]; rfl)
      simp only [operation, Plan.without, hact]
      rfl

end Texts

/-! ### Statements that lose a clause -/

section Statements

variable {types : FieldTypes} {s : Statement} {p : Plan} {d : Draft} {clause : Clause}

/-- Of the trailing clauses, a statement that is no selection can have a bound only. -/
theorem Sql.Statement.isSelect_of_has (htrailing : clause.isTrailing = true)
    (hclause : s.has clause = true) : (∃ q, s = .select q) ∨ clause = .limit := by
  cases s with
  | select q => exact .inl ⟨q, rfl⟩
  | _ => cases clause <;> simp_all [Statement.has, Clause.isTrailing]

theorem Plan.isSelect_of_ofQuery {depth : Nat} {q : Query}
    (hp : Plan.ofQuery types depth q = .ok p) :
    ∃ selection, p.action = .select selection := by
  obtain ⟨select, -, hplan⟩ := Plan.exists_leading_of_ofQuery hp
  obtain ⟨selection, haction, -⟩ := Plan.shape_of_ofSelect hplan
  exact ⟨selection, haction⟩

/-- The plan of a statement without its bound. -/
theorem Plan.ofStatement_without_limit (hp : Plan.ofStatement types s = .ok p)
    (hs : s.isChange = true) :
    Plan.ofStatement types (s.without .limit) = .ok (p.without .limit) := by
  cases s with
  | select q => cases hs
  | insert i => cases hs
  | update u =>
    obtain ⟨table, assignments, filter, limit⟩ := u
    cases table with
    | subquery q label => cases hp
    | table name label =>
      simp only [Statement.without, Plan.ofStatement, Plan.ofUpdate] at hp ⊢
      split at hp
      · cases hp
      · next hname =>
        obtain ⟨bound, -, hp⟩ := Outcome.bind_eq_ok.mp hp
        cases Outcome.pure_eq_ok.mp hp
        rw [if_neg hname]
        rfl
  | delete x =>
    simp only [Statement.without, Plan.ofStatement, Plan.ofDelete] at hp ⊢
    split at hp
    · cases hp
    · next htargets =>
      obtain ⟨source, hsource, hp⟩ := Outcome.bind_eq_ok.mp hp
      obtain ⟨bound, -, hp⟩ := Outcome.bind_eq_ok.mp hp
      cases Outcome.pure_eq_ok.mp hp
      have hsame : Plan.deletesOne { x with limit := none } = Plan.deletesOne x := rfl
      rw [hsame, if_neg htargets]
      exact Outcome.bind_eq_ok.mpr ⟨source, hsource, rfl⟩

/-- **The command of a statement without a trailing clause.** -/
theorem Settings.commandOfStatement_without {settings : Settings}
    (hp : Plan.ofStatement settings.types s = .ok p) (hvalid : p.validate = .ok ())
    (hd : p.draft = .ok d) (htrailing : clause.isTrailing = true)
    (hclause : s.has clause = true) :
    settings.commandOfStatement (s.without clause) =
      .ok ((d.without clause).command (p.without clause) settings.aggregationOptions) := by
  have hparts : Plan.ofStatement settings.types (s.without clause) = .ok (p.without clause) ∧
      (p.without clause).validate = .ok () ∧
        (p.without clause).draft = .ok (d.without clause) := by
    cases s with
    | select q =>
      obtain ⟨selection, haction⟩ := Plan.isSelect_of_ofQuery hp
      refine ⟨Plan.ofQuery_without hp, ?_, Plan.draft_without haction hd⟩
      rw [← hvalid]
      obtain ⟨scope, types, filter, limit, action⟩ := p
      obtain rfl : action = .select selection := haction
      cases clause <;> rfl
    | insert i => cases hclause
    | _ =>
      obtain rfl : clause = .limit := by
        rcases Statement.isSelect_of_has htrailing hclause with ⟨q, hq⟩ | hlimit
        · cases hq
        · exact hlimit
      refine ⟨Plan.ofStatement_without_limit hp rfl, ?_, Plan.draft_without_limit hd⟩
      rw [← hvalid]
      rfl
  obtain ⟨hplan, hvalid', hdraft⟩ := hparts
  exact Outcome.bind_eq_ok.mpr ⟨_, hplan, Outcome.bind_eq_ok.mpr ⟨(), hvalid',
    Outcome.bind_eq_ok.mpr ⟨_, hdraft, rfl⟩⟩⟩

/-- Nothing is chosen by a statement that adds rows. -/
theorem Plan.filter_of_insert (hp : Plan.ofStatement types s = .ok p) (hd : p.draft = .ok d)
    {columns : List String} {rows : List (List Expr)}
    (haction : p.action = .insert columns rows) : d.filter = .empty := by
  have hwrite : s.isChange = true → d.filter = .empty := by
    intro hs
    have hp := Plan.isWrite_of_ofStatement hs hp
    rw [haction] at hp
    cases hp
  cases s with
  | select q =>
    obtain ⟨selection, hselect⟩ := Plan.isSelect_of_ofQuery hp
    rw [haction] at hselect
    cases hselect
  | update u => exact hwrite rfl
  | delete x => exact hwrite rfl
  | insert i =>
    rw [Plan.ofStatement, Plan.ofInsert_eq] at hp
    cases hfault : i.formFaults.head? with
    | some fault =>
      rw [hfault] at hp
      cases hp
    | none =>
      rw [hfault] at hp
      cases hp
      exact Plan.compile_earlyFilter hd

end Statements

/-- **The clauses that reach a command, and those that are lost.**  The stages of the
command of an accepted statement are those of the filter, those that the clauses ask for,
each in its place, and projections.  A clause of the statement has no stages there exactly
if the statement loses it.

A clause behind the groups is then not in the text either: the statement without it is
accepted as well, and its command has the same text exactly if the clause is lost. -/
theorem clause_lost_iff (settings : Settings) {s : Statement} {p : Plan} {c : Command}
    (hp : Plan.ofStatement settings.types s = .ok p)
    (h : settings.commandOfStatement s = .ok c) :
    ∃ kept filter shown, AreProjections shown ∧
      p.earlyFilter.elim (.ok .empty) (Filter.compile p.filterContext) = .ok filter ∧
      c.operation.stages =
        Clause.arrange kept (Draft.stageUnlessEmpty "$match" filter) shown ∧
      (∀ clause, kept clause = [] ∨ p.asked clause = .ok (kept clause)) ∧
      ∀ clause, s.has clause = true → (kept clause = [] ↔ s.Loses p clause) ∧
        (clause.isTrailing = true →
          ∃ c', settings.commandOfStatement (s.without clause) = .ok c' ∧
            (c'.render = c.render ↔ s.Loses p clause)) := by
  obtain ⟨p', hp', h⟩ := Outcome.bind_eq_ok.mp h
  cases hp.symm.trans hp'
  obtain ⟨⟨⟩, hvalid, h⟩ := Outcome.bind_eq_ok.mp h
  obtain ⟨d, hd, h⟩ := Outcome.bind_eq_ok.mp h
  cases Outcome.pure_eq_ok.mp h
  obtain ⟨shown, hshown, hstages⟩ := Draft.stages_operation hd
    (fun columns rows => Plan.filter_of_insert hp hd) settings.aggregationOptions
  refine ⟨_, d.filter, shown, hshown, ?_, hstages, fun clause => ?_, fun clause hclause => ?_⟩
  · have hfilter := Plan.compile_earlyFilter hd
    cases hearly : p.earlyFilter with
    | none =>
      rw [hearly] at hfilter
      rw [hfilter]
      rfl
    | some e =>
      rw [hearly] at hfilter
      exact hfilter
  · split
    · exact Plan.asked_of_draft hd clause
    · exact .inl rfl
  · refine ⟨(Statement.loses_iff hp hd hclause).symm, fun htrailing => ?_⟩
    refine ⟨_, Settings.commandOfStatement_without hp hvalid hd htrailing hclause, ?_⟩
    rw [Statement.loses_iff hp hd hclause]
    refine Draft.render_command_without hd htrailing ?_ settings.aggregationOptions
    rcases Statement.isSelect_of_has htrailing hclause with ⟨q, rfl⟩ | hlimit
    · exact .inl (Plan.isSelect_of_ofQuery hp)
    · exact .inr hlimit

/-- The statement `SELECT [DISTINCT] item FROM users [HAVING having] [LIMIT limit]`. -/
def selectFromUsers (distinct : Bool) (item : SelectItem) (having : Option Expr)
    (limit : Option Int) : Statement :=
  .select (.plain ⟨distinct, [item], .table "users" none, [], none, [], having, [],
    limit, none⟩)

/-- The condition `age > 3`. -/
def olderThanThree : Expr :=
  .compare .gt (.column (.bare "age")) (.literal (.int 3))

/-- The statement `SELECT name AS n FROM users HAVING having LIMIT 0`. -/
def namesAliased (having : Expr) : Statement :=
  selectFromUsers false ⟨.column (.bare "name"), some "n"⟩ (some having) (some 0)

/-- Statements with a clause that they lose, one for each way: `SELECT DISTINCT city FROM
users LIMIT 5`, `SELECT count(*) FROM users LIMIT 5`, `SELECT name FROM users HAVING age >
3`, `SELECT name AS n FROM users HAVING age > 3 LIMIT 0`, `SELECT name AS n FROM users
HAVING NOT (age > 3 AND age > 3) LIMIT 0`, `UPDATE users SET age = 3 LIMIT 1` and `DELETE
FROM users LIMIT 1`. -/
def statementsWithLoss : List (Statement × Clause) :=
  [(selectFromUsers true ⟨.column (.bare "city"), none⟩ none (some 5), .limit),
    (selectFromUsers false ⟨.call "count" false [.wildcard], none⟩ none (some 5), .limit),
    (selectFromUsers false ⟨.column (.bare "name"), none⟩ (some olderThanThree) none,
      .having),
    (namesAliased olderThanThree, .limit),
    (namesAliased (.not (.and olderThanThree olderThanThree)), .having),
    (.update ⟨.table "users" none, [(.bare "age", .literal (.int 3))], none, some 1⟩, .limit),
    (.delete ⟨[], .table "users" none, none, some 1⟩, .limit)]

/-- Each of the statements is accepted, and its command has the same text without the
clause.  Where names are given and the filter is not empty, a condition on groups is in
the text. -/
theorem clause_lost_iff_each :
    (∀ x ∈ statementsWithLoss, x.1.has x.2 = true ∧
      ∃ c c', Settings.commandOfStatement {} x.1 = .ok c ∧
        Settings.commandOfStatement {} (x.1.without x.2) = .ok c' ∧ c'.render = c.render) ∧
    (namesAliased olderThanThree).has .having = true ∧
    ∃ c c', Settings.commandOfStatement {} (namesAliased olderThanThree) = .ok c ∧
      Settings.commandOfStatement {} ((namesAliased olderThanThree).without .having) =
        .ok c' ∧ c'.render ≠ c.render := by
  have htexts : ∀ (s : Statement) (clause : Clause) {p : Plan} {c : Command},
      Plan.ofStatement {} s = .ok p → Settings.commandOfStatement {} s = .ok c →
      s.has clause = true → clause.isTrailing = true →
      ∃ c', Settings.commandOfStatement {} (s.without clause) = .ok c' ∧
        (c'.render = c.render ↔ s.Loses p clause) := by
    intro s clause p c hp hc hclause htrailing
    obtain ⟨kept, filter, shown, -, -, -, -, hclauses⟩ := clause_lost_iff {} hp hc
    exact (hclauses clause hclause).2 htrailing
  have hlost : ∀ {s : Statement} {p : Plan} {c : Command} {clause : Clause},
      Plan.ofStatement {} s = .ok p → Settings.commandOfStatement {} s = .ok c →
      s.has clause = true → clause.isTrailing = true → s.Loses p clause →
      s.has clause = true ∧ ∃ c c', Settings.commandOfStatement {} s = .ok c ∧
        Settings.commandOfStatement {} (s.without clause) = .ok c' ∧
          c'.render = c.render := by
    intro s p c clause hp hc hclause htrailing hloses
    obtain ⟨c', hc', htext⟩ := htexts s clause hp hc hclause htrailing
    exact ⟨hclause, c, c', hc, hc', htext.mpr hloses⟩
  refine ⟨?_, rfl, ?_⟩
  · simp only [statementsWithLoss, List.forall_mem_cons, List.not_mem_nil, false_imp_iff,
      implies_true, and_true]
    refine ⟨?_, ?_, ?_, ?_, ?_, ?_, ?_⟩
    · exact hlost rfl rfl rfl rfl (.distinct rfl rfl)
    · exact hlost rfl rfl rfl rfl (.counted rfl rfl rfl)
    · exact hlost rfl rfl rfl rfl (.ungrouped rfl rfl rfl)
    · exact hlost rfl rfl rfl rfl (.nothing rfl (.limit rfl (by decide)))
    · refine hlost rfl rfl rfl rfl (.nothing rfl (.having rfl ?_))
      rintro (⟨c, hc, -⟩ | ⟨op, l, r, f, key, inner, hcompare, -⟩)
      · cases hc
      · cases hcompare
    · exact hlost rfl rfl rfl rfl (.change rfl)
    · exact hlost rfl rfl rfl rfl (.change rfl)
  · obtain ⟨c', hc', htext⟩ := htexts (namesAliased olderThanThree) .having rfl rfl rfl rfl
    refine ⟨_, c', rfl, hc', fun hsame => ?_⟩
    obtain hchange | ⟨hselect, hdistinct⟩ | ⟨hselect, hsingle, -⟩ | ⟨hselect, hsingle, -⟩ |
      ⟨hselect, hnothing⟩ := htext.mp hsame
    · cases hchange
    all_goals cases hselect
    · cases hdistinct
    · cases hsingle
    · cases hsingle
    · obtain _ | _ | ⟨hnot, -⟩ := hnothing
      cases hnot

end DocQuery
