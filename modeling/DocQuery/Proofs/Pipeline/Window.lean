import DocQuery.Proofs.Pipeline.Clauses
import DocQuery.Proofs.Sql.Bounds

/-!
# The window of rows

Bounds behind a selection cut a window out of the rows that the selection has without
them: the offset leaves rows out in front, and the limit ends the window.  Both kinds of
commands for rows do that, at the end of an aggregation or by the calls behind a search.

* `Engine`, `Engine.run` — how commands are run, given what their other parts do
* `Plan.paged`, `Plan.draft_paged` — bounds change nothing in a draft but the bounds
* `Engine.run_paged` — the rows of a command with bounds
* `bounds_cut_window` — from the text of a selection to the rows of its command

### What is load-bearing

Behind the bounds of an aggregation there are projections only.  A projection shows every
row on its own, so it does not matter that rows are cut off before it and not after it.
In a command a bound counts as absent unless it is positive, so a limit of zero is none:
all rows behind the offset come out.
-/

namespace DocQuery

open Sql

/-! ### Engines -/

/-- **What runs commands**: what all stages but bounds and projections make of rows, and
what a projection shows of a row. -/
structure Engine where
  stage : Document → List Document → List Document
  shown : Document → Document → Document

namespace Engine

/-- Runs a stage of an aggregation. -/
def runStage (g : Engine) (rows : List Document) : Document → List Document
  | ⟨[("$skip", .int n)]⟩ => rows.drop n.toNat
  | ⟨[("$limit", .int n)]⟩ => rows.take n.toNat
  | ⟨[("$project", .document body)]⟩ => rows.map (g.shown body)
  | stage => g.stage stage rows

/-- Runs a call behind a search. -/
def runCall (g : Engine) (rows : List Document) : CursorCall → List Document
  | .sort order => g.stage (DocQuery.stage "$sort" order) rows
  | .skip n => rows.drop n.toNat
  | .limit n => rows.take n.toNat

/-- **The rows of a command**, from the rows of its collection.  A search finds the rows
that match, goes through its calls and shows what is left; an aggregation runs its stages
in order. -/
def run (g : Engine) (rows : List Document) : Operation → List Document
  | .find filter projection sort skip limit =>
    ((Operation.find filter projection sort skip limit).calls.foldl g.runCall
      (g.stage (DocQuery.stage "$match" filter) rows)).map (g.shown projection)
  | .aggregate pipeline _ => pipeline.foldl g.runStage rows
  | _ => []

end Engine

/-- **The rows behind an offset, up to a limit.** -/
def window {α : Type} (limit offset : Option Nat) (rows : List α) : List α :=
  match limit with
  | some n => (rows.drop (offset.getD 0)).take n
  | none => rows.drop (offset.getD 0)

/-- The bound that a command writes down: it counts as absent unless it is positive. -/
def positive? (n : Int) : Option Nat :=
  if 0 < n then some n.toNat else none

theorem map_window {α β : Type} (f : α → β) (limit offset : Option Nat) (rows : List α) :
    (window limit offset rows).map f = window limit offset (rows.map f) := by
  cases limit <;> simp [window, List.map_take, List.map_drop]

/-! ### Drafts with bounds -/

/-- A plan with other bounds. -/
def Plan.paged (p : Plan) (limit offset : Int) : Plan :=
  { p with limit := limit, action := .select { p.selection with offset := offset } }

/-- A draft with other bounds. -/
def Draft.paged (d : Draft) (limit offset : Int) : Draft :=
  { d with limit := limit, offset := offset }

section Drafts

variable {p : Plan} {selection : Selection} {previous : Except Fault (Option (List Document))}

/-- **Step.**  No step but one notices the bounds. -/
theorem Step.run_paged (haction : p.action = .select selection) {step : Step}
    (hstep : step ≠ .paging) (limit offset : Int) (d : Draft) :
    step.run (p.paged limit offset) previous d = step.run p previous d := by
  obtain ⟨scope, types, filter, limit₀, action⟩ := p
  obtain rfl : action = .select selection := haction
  cases step with
  | paging => exact absurd rfl hstep
  | _ => rfl

/-- The steps before that of the bounds. -/
def Step.beforePaging : List Step :=
  [.source, .distinct, .groupBy, .totalGroup, .projection, .countAll, .joins, .orderBy,
    .filter, .having]

/-- **Run.**  The draft of a plan with other bounds is the draft of the plan with those
bounds. -/
theorem Plan.draft_paged (haction : p.action = .select selection) (limit offset : Int) :
    (p.paged limit offset).draft = p.draft.map (·.paged limit offset) := by
  have hlist : Step.list = Step.beforePaging ++ [.paging, .assignments, .rows] := rfl
  have hstart : Draft.start (p.paged limit offset) = .start p := by
    obtain ⟨scope, types, filter, limit₀, action⟩ := p
    rw [Draft.start, Draft.start, Plan.paged, Plan.collectionName, Plan.collectionName]
  have hstages : (p.paged limit offset).scope.base.origin.stages =
      p.scope.base.origin.stages := rfl
  rw [Plan.draft_eq_runSteps, Plan.draft_eq_runSteps, Plan.runSteps, Plan.runSteps, hlist,
    List.foldlM_append, List.foldlM_append, hstart, hstages,
    Outcome.foldlM_congr (fun step hmem =>
      Step.run_paged haction (by rintro rfl; simp [Step.beforePaging] at hmem) limit offset)]
  cases Step.beforePaging.foldlM (fun d step => step.run p p.scope.base.origin.stages d)
    (.start p) with
  | error fault => rfl
  | ok d =>
    -- behind the bounds there are steps of statements that write only
    obtain ⟨scope, types, filter, limit₀, action⟩ := p
    obtain rfl : action = .select selection := haction
    rfl

/-- How a selection is put together does not depend on its bounds. -/
theorem Plan.validate_paged (haction : p.action = .select selection) (limit offset : Int) :
    (p.paged limit offset).validate = p.validate := by
  obtain ⟨scope, types, filter, limit₀, action⟩ := p
  obtain rfl : action = .select selection := haction
  rfl

end Drafts

/-! ### Plans with bounds -/

section Plans

variable {types : FieldTypes} {depth : Nat} {s : Select}

/-- **The plan of a selection with bounds** is that of the selection, if the bounds are
not too large. -/
theorem Plan.ofSelect_paged (hlimit : s.limit = none) (hoffset : s.offset = none)
    (limit offset : Option Int) :
    Plan.ofSelect types depth (s.paged limit offset) = (do
      let p ← Plan.ofSelect types depth s
      let l ← Plan.checkBound limit
      let o ← Plan.checkBound offset
      return p.paged l o) := by
  obtain ⟨distinct, items, source, joins, filter, groupBy, having, orderBy, limit₀,
      offset₀⟩ := s
  obtain rfl : limit₀ = none := hlimit
  obtain rfl : offset₀ = none := hoffset
  rw [Select.paged, Plan.ofSelect, Plan.ofSelect, bind_assoc]
  refine bind_congr fun base => ?_
  rw [bind_assoc]
  exact bind_congr fun scope => rfl

/-- Without bounds, the bounds of the plan are absent. -/
theorem Plan.paged_of_ofSelect (hlimit : s.limit = none) (hoffset : s.offset = none)
    {p : Plan} (h : Plan.ofSelect types depth s = .ok p) : p.paged (-1) (-1) = p := by
  have hpaged : Plan.ofSelect types depth (s.paged none none) = .ok (p.paged (-1) (-1)) := by
    rw [Plan.ofSelect_paged hlimit hoffset, h]
    rfl
  have hsame : s.paged none none = s := by
    obtain ⟨_, _, _, _, _, _, _, _, limit, offset⟩ := s
    obtain rfl : limit = none := hlimit
    obtain rfl : offset = none := hoffset
    rfl
  rw [hsame, h] at hpaged
  exact (Except.ok.inj hpaged).symm

/-- Without bounds, the bounds of the draft are absent. -/
theorem Plan.paged_of_draft (hlimit : s.limit = none) (hoffset : s.offset = none) {p : Plan}
    {d : Draft} (hp : Plan.ofSelect types depth s = .ok p) (hd : p.draft = .ok d) :
    d.paged (-1) (-1) = d := by
  obtain ⟨selection, haction, -⟩ := Plan.shape_of_ofSelect hp
  have hpaged := Plan.draft_paged haction (-1) (-1)
  rw [Plan.paged_of_ofSelect hlimit hoffset hp, hd] at hpaged
  exact (Except.ok.inj hpaged).symm

/-- A selection that is neither of distinct values nor counted is drafted as one of rows. -/
theorem Plan.isRows_of_draft {p : Plan} {d : Draft} (hdistinct : s.distinct = false)
    (hcount : s.isCount = true → s.isStaged = true) (hp : Plan.ofSelect types depth s = .ok p)
    (hd : p.draft = .ok d) : d.distinct = false ∧ (d.countAll && !p.isAggregate) = false := by
  obtain ⟨selection, haction, hsame, haggregate, hcountAll⟩ := Plan.shape_of_ofSelect hp
  have hselection : p.selection = selection := by rw [Plan.selection, haction]; rfl
  rw [Plan.distinct_of_draft hd, Plan.countAll_of_draft hd, hselection, hsame, haggregate]
  refine ⟨hdistinct, ?_⟩
  cases hstaged : s.isStaged with
  | true => exact Bool.and_false _
  | false =>
    rw [hcountAll hstaged, Bool.not_false, Bool.and_true, Bool.eq_false_iff]
    intro hcounted
    rw [hcount hcounted] at hstaged
    cases hstaged

end Plans

/-! ### Rows of commands with bounds -/

/-- The stages of an aggregation before its bounds. -/
def Draft.stagesBefore (d : Draft) (p : Plan) : List Document :=
  d.previous ++ stageUnlessEmpty "$match" d.filter ++ d.joins ++
    (if p.isGrouped then [groupStage d.projection] else []) ++
    stageUnlessEmpty "$match" d.having ++
    stageUnlessEmpty "$sort" d.sort

theorem Draft.pipeline_eq_bounds (d : Draft) (p : Plan) :
    d.pipeline p = d.stagesBefore p ++ Draft.boundStage "$skip" d.offset ++
      Draft.boundStage "$limit" d.limit ++ d.projections p := by
  simp only [Draft.pipeline, Draft.stagesBefore, Draft.projections, List.append_assoc]

/-- A selection of rows is an aggregation or a search. -/
theorem Draft.operation_eq_rows {p : Plan} {selection : Selection} {d : Draft}
    (haction : p.action = .select selection) (hdistinct : d.distinct = false)
    (hcount : (d.countAll && !p.isAggregate) = false) (options : Document) :
    d.operation p options = if p.isAggregate || d.multistage then
      .aggregate (d.pipeline p) options
      else .find d.filter d.projection d.sort d.offset d.limit := by
  rw [Draft.operation, haction]
  simp only [Draft.selectOperation, hdistinct, hcount, Bool.false_eq_true, if_false]

/-- The clauses that the shape of a command can hold. -/
def Operation.hasPlaceFor : Operation → Clause → Bool
  | .aggregate .., _ => true
  | .find .., .orderBy | .find .., .limit | .find .., .offset => true
  | _, _ => false

/-- A command for rows can hold bounds. -/
theorem Draft.hasPlaceFor_paged {p : Plan} {d : Draft} (hdistinct : d.distinct = false)
    (hcount : (d.countAll && !p.isAggregate) = false) (options : Document)
    (limit offset : Int) :
    ((d.paged limit offset).operation (p.paged limit offset) options).hasPlaceFor .limit =
      true := by
  have hrows :=
    Draft.operation_eq_rows (p := p.paged limit offset) (d := d.paged limit offset) rfl
    hdistinct hcount options
  rw [hrows]
  split <;> rfl

namespace Engine

variable (g : Engine)

/-- The stages of bounds cut out the window. -/
theorem foldl_boundStages (limit offset : Int) (rows : List Document) :
    (Draft.boundStage "$limit" limit).foldl g.runStage
        ((Draft.boundStage "$skip" offset).foldl g.runStage rows) =
      window (positive? limit) (positive? offset) rows := by
  have hskip : (Draft.boundStage "$skip" offset).foldl g.runStage rows =
      rows.drop ((positive? offset).getD 0) := by
    unfold Draft.boundStage positive?
    split <;> rfl
  rw [hskip]
  generalize positive? offset = skipped
  unfold Draft.boundStage positive?
  split <;> rfl

/-- A projection shows every row on its own. -/
theorem exists_map_project (body : Document) :
    ∃ f, ∀ rows, (Draft.stageUnlessEmpty "$project" body).foldl g.runStage rows =
      rows.map f := by
  unfold Draft.stageUnlessEmpty
  split
  · exact ⟨id, fun rows => (List.map_id rows).symm⟩
  · exact ⟨g.shown body, fun rows => rfl⟩

/-- **Behind the bounds every row is shown on its own.** -/
theorem exists_map_projections (d : Draft) (p : Plan) :
    ∃ f, ∀ rows, (d.projections p).foldl g.runStage rows = rows.map f := by
  obtain ⟨output, houtput⟩ := exists_map_project g d.output
  obtain ⟨projection, hprojection⟩ := exists_map_project g d.projection
  unfold Draft.projections
  split
  · exact ⟨output, fun rows => by rw [List.foldl_append, houtput]; rfl⟩
  · refine ⟨projection ∘ output, fun rows => ?_⟩
    rw [List.foldl_append, houtput, hprojection, List.map_map]

/-- **An aggregation with bounds gives the window of what it gives without them.** -/
theorem run_pipeline (d : Draft) (p : Plan) (rows : List Document) :
    (d.pipeline p).foldl g.runStage rows = window (positive? d.limit) (positive? d.offset)
      (((d.paged (-1) (-1)).pipeline p).foldl g.runStage rows) := by
  obtain ⟨f, hf⟩ := exists_map_projections g d p
  have hbefore : (d.paged (-1) (-1)).stagesBefore p = d.stagesBefore p := rfl
  have hbehind : (d.paged (-1) (-1)).projections p = d.projections p := rfl
  have hnone : (positive? (d.paged (-1) (-1)).limit) = none ∧
      (positive? (d.paged (-1) (-1)).offset) = none := ⟨rfl, rfl⟩
  simp only [Draft.pipeline_eq_bounds, hbefore, hbehind, List.foldl_append,
    foldl_boundStages, hf, map_window, hnone.1, hnone.2]
  rfl

/-- **A search with bounds gives the window of what it gives without them.** -/
theorem foldl_calls (filter projection sort : Document) (skip limit : Int)
    (rows : List Document) :
    (Operation.find filter projection sort skip limit).calls.foldl g.runCall rows =
      window (positive? limit) (positive? skip)
        ((Operation.find filter projection sort (-1) (-1)).calls.foldl g.runCall rows) := by
  have hskip : ∀ rows,
    (if 0 < skip then [CursorCall.skip skip] else []).foldl g.runCall rows =
      rows.drop ((positive? skip).getD 0) := by
    intro rows
    unfold positive?
    split <;> rfl
  have hnone : (Operation.find filter projection sort (-1) (-1)).calls =
      if sort.isEmpty then [] else [.sort sort] := by
    simp [Operation.calls]
  rw [hnone, Operation.calls, List.foldl_append, List.foldl_append, hskip]
  generalize positive? skip = skipped
  generalize (if sort.isEmpty then [] else [CursorCall.sort sort]).foldl g.runCall
    rows = sorted
  unfold positive?
  split <;> rfl

/-- **The rows of a command with bounds** are the window of its rows without them. -/
theorem run_paged {p : Plan} {selection : Selection} {d : Draft}
    (haction : p.action = .select selection) (hdistinct : d.distinct = false)
    (hcount : (d.countAll && !p.isAggregate) = false) (options : Document)
    (limit offset : Int) (rows : List Document) :
    g.run rows ((d.paged limit offset).operation (p.paged limit offset) options) =
      window (positive? limit) (positive? offset)
        (g.run rows ((d.paged (-1) (-1)).operation p options)) := by
  have hwith : (d.paged limit offset).operation (p.paged limit offset) options =
      if p.isAggregate || d.multistage then
        .aggregate ((d.paged limit offset).pipeline p) options
      else .find d.filter d.projection d.sort offset limit :=
    Draft.operation_eq_rows (p := p.paged limit offset) (d := d.paged limit offset) rfl
      hdistinct hcount
      options
  have hwithout : (d.paged (-1) (-1)).operation p options =
      if p.isAggregate || d.multistage then
        .aggregate ((d.paged (-1) (-1)).pipeline p) options
      else .find d.filter d.projection d.sort (-1) (-1) :=
    Draft.operation_eq_rows (d := d.paged (-1) (-1)) haction hdistinct hcount options
  rw [hwith, hwithout]
  split
  · exact run_pipeline g (d.paged limit offset) p rows
  · exact (congrArg _ (foldl_calls g _ _ _ _ _ _)).trans (map_window _ _ _ _)

end Engine

/-! ### Commands of texts with bounds -/

namespace Sql.Bounds

/-- Bounds that commands can hold. -/
structure Small (b : Bounds) : Prop where
  limit : ∀ n ∈ b.limit?, n ≤ 2147483647
  offset : ∀ m ∈ b.offset?, m ≤ 2147483647

theorem Small.fits {b : Bounds} (h : b.Small) : b.Fits := by
  have hfits : ∀ n : Nat, n ≤ 2147483647 → Decimal.fitsInt64 n = true := by
    intro n hn
    simp only [Decimal.fitsInt64, Bool.and_eq_true, decide_eq_true_eq]
    omega
  exact ⟨fun n hn => hfits n (h.limit n hn), fun m hm => hfits m (h.offset m hm)⟩

/-- The number that a plan has for a bound. -/
def planned (number : Option Nat) : Int :=
  (number.map Int.ofNat).getD (-1)

theorem checkBound_eq_ok_iff {number : Option Nat} {value : Int} :
    Plan.checkBound (number.map Int.ofNat) = .ok value ↔
      (∀ n ∈ number, n ≤ 2147483647) ∧ planned number = value := by
  rw [Plan.checkBound_eq_ok_iff, planned, Plan.largestBound]
  refine and_congr_left fun _ => ?_
  cases number with
  | none => simp
  | some n =>
    simp only [Option.map_some, Option.some.injEq, forall_eq', Option.mem_def,
      Int.ofNat_eq_natCast]
    omega

/-- Of the bounds that are written, those that are positive get into a command. -/
theorem positive?_planned (number : Option Nat) :
    positive? (planned number) = number.filter (0 < ·) := by
  cases number with
  | none => rfl
  | some n => cases n <;> simp [positive?, planned, Option.filter]

end Sql.Bounds

/-- To leave out no rows is no bound. -/
theorem window_filter_offset {α : Type} (limit offset : Option Nat) (rows : List α) :
    window limit (offset.filter (0 < ·)) rows = window limit offset rows := by
  have hskip : (offset.filter (0 < ·)).getD 0 = offset.getD 0 := by
    cases offset with
    | none => rfl
    | some m => cases m <;> rfl
  cases limit <;> simp only [window, hskip]

/-- A limit of zero that counts as none goes unnoticed only where there are no rows. -/
theorem window_filter_limit_eq_iff {α : Type} (limit offset : Option Nat) (rows : List α) :
    window (limit.filter (0 < ·)) offset rows = window limit offset rows ↔
      (limit = some 0 → window none offset rows = []) := by
  cases limit with
  | none => simp [window]
  | some n => cases n <;> simp [window, Option.filter]

namespace Engine

variable {p : Plan} {selection : Selection} {d : Draft}

/-- The rows of a command with the bounds that are written. -/
theorem run_bounds (g : Engine) (haction : p.action = .select selection)
    (hdistinct : d.distinct = false) (hcount : (d.countAll && !p.isAggregate) = false)
    (hnone : d.paged (-1) (-1) = d) (options : Document) (b : Bounds) (rows : List Document) :
    g.run rows ((d.paged (Bounds.planned b.limit?) (Bounds.planned b.offset?)).operation
        (p.paged (Bounds.planned b.limit?) (Bounds.planned b.offset?)) options) =
      window (b.limit?.filter (0 < ·)) b.offset? (g.run rows (d.operation p options)) := by
  rw [run_paged g haction hdistinct hcount, Bounds.positive?_planned,
    Bounds.positive?_planned, window_filter_offset, hnone]

end Engine

namespace Settings

variable {settings : Settings} {s : Select} {c : Command}

/-- **The command of a selection**: it is planned, checked and drafted. -/
theorem commandOfStatement_plain_eq_ok_iff :
    settings.commandOfStatement (.select (.plain s)) = .ok c ↔
      ∃ p d, Plan.ofSelect settings.types 0 s = .ok p ∧ p.validate = .ok () ∧
        p.draft = .ok d ∧
        d.command p settings.aggregationOptions = c := by
  simp only [commandOfStatement, Plan.ofStatement, Plan.ofQuery, Plan.command,
    Outcome.bind_eq_ok, Outcome.pure_eq_ok]
  constructor
  · rintro ⟨p, hp, ⟨⟩, hvalid, d, hd, hc⟩
    exact ⟨p, d, hp, hvalid, hd, hc⟩
  · rintro ⟨p, d, hp, hvalid, hd, hc⟩
    exact ⟨p, hp, (), hvalid, d, hd, hc⟩

/-- **The command of a selection with bounds** is that of the selection, with those bounds. -/
theorem commandOfStatement_bounds_eq_ok_iff (hlimit : s.limit = none)
    (hoffset : s.offset = none) (b : Bounds) :
    settings.commandOfStatement (.select (.plain (b.apply s))) = .ok c ↔
      b.Small ∧ ∃ p d, Plan.ofSelect settings.types 0 s = .ok p ∧ p.validate = .ok () ∧
        p.draft = .ok d ∧
        (d.paged (Bounds.planned b.limit?) (Bounds.planned b.offset?)).command
          (p.paged (Bounds.planned b.limit?) (Bounds.planned b.offset?))
            settings.aggregationOptions =
            c := by
  rw [commandOfStatement_plain_eq_ok_iff, Bounds.apply, Plan.ofSelect_paged hlimit hoffset]
  simp only [Outcome.bind_eq_ok, Outcome.pure_eq_ok, Bounds.checkBound_eq_ok_iff]
  constructor
  · rintro ⟨_, d', ⟨p, hp, _, ⟨hn, rfl⟩, _, ⟨hm, rfl⟩, rfl⟩, hvalid, hd', hc⟩
    obtain ⟨selection, haction, -⟩ := Plan.shape_of_ofSelect hp
    rw [Plan.validate_paged haction] at hvalid
    rw [Plan.draft_paged haction] at hd'
    cases hd : p.draft with
    | error fault =>
      rw [hd] at hd'
      cases hd'
    | ok d =>
      rw [hd] at hd'
      cases hd'
      exact ⟨⟨hn, hm⟩, p, d, hp, hvalid, hd, hc⟩
  · rintro ⟨⟨hn, hm⟩, p, d, hp, hvalid, hd, hc⟩
    obtain ⟨selection, haction, -⟩ := Plan.shape_of_ofSelect hp
    refine ⟨_, d.paged _ _, ⟨p, hp, _, ⟨hn, rfl⟩, _, ⟨hm, rfl⟩, rfl⟩, ?_, ?_, hc⟩
    · rw [Plan.validate_paged haction, hvalid]
    · rw [Plan.draft_paged haction, hd]
      rfl

/-- The command of a text that reads as a selection. -/
theorem commandOfText_eq_of_ofString {text : String} {statement : Statement}
    (h : Statement.ofString text = .ok statement) :
    settings.commandOfText text = settings.commandOfStatement statement := by
  rw [commandOfText, h]
  rfl

/-- A text with bounds has a command exactly if its selection with those bounds has it. -/
theorem commandOfText_bounds_eq_ok_iff {text : String} (hread : s.IsReadFrom text)
    (hlimit : s.limit = none) (hoffset : s.offset = none) (b : Bounds) :
    settings.commandOfText (text ++ b.text) = .ok c ↔
      settings.commandOfStatement (.select (.plain (b.apply s))) = .ok c := by
  by_cases hfits : b.Fits
  · rw [commandOfText_eq_of_ofString (hread.ofString_append hlimit hoffset hfits)]
  · -- numbers that are not read are too large for a command as well
    refine iff_of_false (fun h => ?_) (fun h => ?_)
    · obtain ⟨statement, hstatement, -⟩ := Outcome.bind_eq_ok.mp h
      cases hparse : Statement.ofString (text ++ b.text) with
      | error message =>
        rw [hparse] at hstatement
        cases hstatement
      | ok found => exact hread.ofString_append_ne hlimit hoffset hfits found hparse
    · exact hfits ((commandOfStatement_bounds_eq_ok_iff hlimit hoffset b).mp h).1.fits

end Settings

/-- **Bounds cut out a window, but for a limit of zero.**  A selection of rows with bounds
written behind it is accepted exactly if the selection is and both numbers are at most
`2147483647`.  Then the rows of its command are those of the selection's command behind
the offset, up to the limit.  A limit of zero counts as none, which shows unless no rows
are left behind the offset. -/
theorem bounds_cut_window (settings : Settings) {s : Select} {text : String}
    (hread : s.IsReadFrom text) (hlimit : s.limit = none) (hoffset : s.offset = none)
    (hdistinct : s.distinct = false) (hcount : s.isCount = true → s.isStaged = true) :
    (∀ b : Bounds, (∃ c, settings.commandOfText (text ++ b.text) = .ok c) ↔
      (∃ c, settings.commandOfText text = .ok c) ∧
        (∀ n ∈ b.limit?, n ≤ 2147483647) ∧ ∀ m ∈ b.offset?, m ≤ 2147483647) ∧
    (∀ (b : Bounds) (c c' : Command), settings.commandOfText text = .ok c →
      settings.commandOfText (text ++ b.text) = .ok c' →
      c'.collection = c.collection ∧ c'.operation.hasPlaceFor .limit = true ∧
      c'.operation.modifiers = c'.operation.calls.map CursorCall.text ∧
      ∀ (g : Engine) (rows : List Document),
        g.run rows c'.operation =
          window (b.limit?.filter (0 < ·)) b.offset? (g.run rows c.operation) ∧
        (g.run rows c'.operation = window b.limit? b.offset? (g.run rows c.operation) ↔
          (b.limit? = some 0 → window none b.offset? (g.run rows c.operation) = []))) ∧
    ∀ (n m : Nat) (c : Command),
      settings.commandOfText (text ++ (Bounds.limitOffset n m).text) = .ok c ↔
        settings.commandOfText (text ++ (Bounds.pair m n).text) = .ok c := by
  have hplain : settings.commandOfText text =
      settings.commandOfStatement (.select (.plain s)) :=
    Settings.commandOfText_eq_of_ofString hread.ofString
  refine ⟨fun b => ?_, fun b c c' hc hc' => ?_, fun n m c => ?_⟩
  · simp only [Settings.commandOfText_bounds_eq_ok_iff hread hlimit hoffset, hplain,
      Settings.commandOfStatement_bounds_eq_ok_iff hlimit hoffset,
      Settings.commandOfStatement_plain_eq_ok_iff]
    constructor
    · rintro ⟨_, hsmall, p, d, hp, hvalid, hd, -⟩
      exact ⟨⟨_, p, d, hp, hvalid, hd, rfl⟩, hsmall.limit, hsmall.offset⟩
    · rintro ⟨⟨_, p, d, hp, hvalid, hd, -⟩, hn, hm⟩
      exact ⟨_, ⟨hn, hm⟩, p, d, hp, hvalid, hd, rfl⟩
  · rw [hplain, Settings.commandOfStatement_plain_eq_ok_iff] at hc
    rw [Settings.commandOfText_bounds_eq_ok_iff hread hlimit hoffset,
      Settings.commandOfStatement_bounds_eq_ok_iff hlimit hoffset] at hc'
    obtain ⟨p, d, hp, -, hd, rfl⟩ := hc
    obtain ⟨-, p', d', hp', -, hd', rfl⟩ := hc'
    cases hp.symm.trans hp'
    cases hd.symm.trans hd'
    obtain ⟨selection, haction, -⟩ := Plan.shape_of_ofSelect hp
    obtain ⟨hnotDistinct, hnotCount⟩ := Plan.isRows_of_draft hdistinct hcount hp hd
    have hnone := Plan.paged_of_draft hlimit hoffset hp hd
    refine ⟨rfl, Draft.hasPlaceFor_paged hnotDistinct hnotCount _ _ _,
      Operation.modifiers_eq _, fun g rows => ?_⟩
    have hrun :=
      g.run_bounds haction hnotDistinct hnotCount hnone settings.aggregationOptions b rows
    refine ⟨hrun, ?_⟩
    rw [← window_filter_limit_eq_iff, Draft.command, Draft.command, hrun]
  · rw [Settings.commandOfText_bounds_eq_ok_iff hread hlimit hoffset,
      Settings.commandOfText_bounds_eq_ok_iff hread hlimit hoffset]
    rfl

/-- The selection `SELECT name FROM users ORDER BY age ASC`. -/
def namesByAge : Select :=
  ⟨false, [⟨.column (.bare "name"), none⟩], .table "users" none, [], none, [], none,
    [⟨.column (.bare "age"), true⟩], none, none⟩

theorem isWritten_namesByAge : namesByAge.IsWritten := by
  have hcolumn : ∀ word ∈ ["name", "age"], (Expr.column (.bare word)).ReadsBack :=
    fun word hword =>
    (Expr.IsFormula.test (.operand (.bare (by revert word; decide)))).readsBack
  constructor
  case nonempty => exact List.cons_ne_nil _ _
  case items =>
    simp only [namesByAge, List.mem_singleton, forall_eq]
    exact ⟨hcolumn _ (by decide), nofun, nofun⟩
  case quantifier =>
    intro _ item hitem
    obtain rfl := Option.mem_some.mp hitem
    have hfirst : Expr.firstWord (.column (.bare "name")) = "NAME".toList := rfl
    rw [hfirst]
    exact ⟨by decide, by decide⟩
  case source => exact .table (by decide) nofun
  case orderBy =>
    simp only [namesByAge, List.mem_singleton, forall_eq]
    exact hcolumn _ (by decide)
  all_goals nofun

/-- A limit of zero keeps all rows behind the offset. -/
theorem bounds_cut_window_zero :
    namesByAge.IsReadFrom namesByAge.display ∧
    ∃ c c', Settings.commandOfText {} namesByAge.display = .ok c ∧
      Settings.commandOfText {} (namesByAge.display ++ (Bounds.limitOffset 0 5).text) =
        .ok c' ∧
      ∀ (g : Engine) (rows : List Document),
        g.run rows c'.operation = (g.run rows c.operation).drop 5 := by
  have hread := isWritten_namesByAge.isReadFrom
  obtain ⟨haccepted, hrows, -⟩ := bounds_cut_window {} hread rfl rfl rfl (by decide)
  have hc : Settings.commandOfText {} namesByAge.display = .ok ⟨"users", .find .empty
      ⟨[("_id", .int 0), ("name", .int 1)]⟩ ⟨[("age", .int 1)]⟩ (-1) (-1)⟩ :=
    Settings.commandOfText_eq_of_ofString hread.ofString
  obtain ⟨c', hc'⟩ := (haccepted (.limitOffset 0 5)).mpr ⟨⟨_, hc⟩, by simp [Bounds.limit?],
    by simp [Bounds.offset?]⟩
  exact ⟨hread, _, c', hc, hc', fun g rows => ((hrows _ _ _ hc hc').2.2.2 g rows).1⟩

end DocQuery
