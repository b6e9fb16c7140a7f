import DocQuery.Convert
import DocQuery.Proofs.Pipeline.Drafts

/-!
# The levels of a plan

A plan may read from another plan, that one from a third, and so on down to a collection.
Every level contributes its own stages, and the pipeline of the whole plan is made of
them, innermost first.

* `Plan.levels` — a plan and the plans below it, outermost first
* `Draft.ownStages`, `Plan.ownStages` — the stages of one level, without those below it
* `Step.run_after` — no step but the first notices the stages of the levels below
* `Plan.stages_eq` — the pipeline is the concatenation of the levels' own stages
* `Plan.exists_draft_iff` — a draft exists exactly if every level has its stages

### What is load-bearing

The levels below reach a draft through one step only, the first.  All other steps add the
same parts to a draft whether or not something was put below it.
-/

namespace DocQuery

open Sql

/-! ### Levels -/

mutual

/-- A plan and the plans that it reads from, outermost first. -/
def Plan.levels : Plan → List Plan
  | ⟨⟨⟨label, origin⟩, joined⟩, types, filter, limit, action⟩ =>
    ⟨⟨⟨label, origin⟩, joined⟩, types, filter, limit, action⟩ :: origin.levels

/-- The plans behind a source, outermost first. -/
def Origin.levels : Origin → List Plan
  | .collection _ => []
  | .subplan p => p.levels

end

theorem Plan.levels_eq (p : Plan) : p.levels = p :: p.scope.base.origin.levels := by
  obtain ⟨⟨⟨label, origin⟩, joined⟩, types, filter, limit, action⟩ := p
  rw [Plan.levels]

/-- The stages of a draft without those of the levels below. -/
def Draft.ownStages (d : Draft) (p : Plan) : List Document :=
  { d with previous := [] }.pipeline p

/-- The stages of a plan without those of the plan that it reads from. -/
def Plan.ownStages (p : Plan) : Except Fault (List Document) := do
  return (← p.runSteps (.ok none)).ownStages p

/-- All stages of a plan. -/
def Plan.stages (p : Plan) : Except Fault (List Document) := do
  return (← p.draft).pipeline p

/-- The stages of the levels below come first. -/
theorem Draft.pipeline_eq (d : Draft) (p : Plan) :
    d.pipeline p = d.previous ++ d.ownStages p := by
  simp only [Draft.ownStages, Draft.pipeline, List.append_assoc, List.nil_append]

/-! ### Steps over a level below -/

/-- A draft that is put behind the stages of the levels below. -/
def Draft.after (stages : List Document) (d : Draft) : Draft :=
  { d with previous := stages, multistage := true }

section Steps

variable {p : Plan} {previous : Except Fault (Option (List Document))}

/-- Assignments do not notice what comes before them. -/
theorem addAssignment_after (types : FieldTypes) (stages : List Document) (d : Draft)
    (assignment : Column × Expr) :
    addAssignment types (d.after stages) assignment =
      (addAssignment types d assignment).map (Draft.after stages) := by
  unfold addAssignment
  dsimp only
  split
  · rfl
  · rw [Outcome.map_bind]
    rfl

/-- **Step.**  A step other than the first does the same behind the stages of the levels
below. -/
theorem Step.run_after {step : Step} (hstep : step ≠ .source) (stages : List Document)
    (d : Draft) :
    step.run p previous (d.after stages) =
      (step.run p (.ok none) d).map (Draft.after stages) := by
  cases step with
  | source => exact absurd rfl hstep
  | distinct =>
    simp only [Step.run]
    split
    · split <;> rfl
    · rfl
  | groupBy =>
    simp only [Step.run]
    split
    · rfl
    · simp only [Outcome.map_bind]
      rfl
  | totalGroup =>
    simp only [Step.run]
    split
    · simp only [Outcome.map_bind]
      rfl
    · rfl
  | projection =>
    simp only [Step.run]
    split
    · rfl
    · rw [Outcome.map_bind]
      rfl
  | countAll => rfl
  | joins =>
    simp only [Step.run]
    split
    · rfl
    · rw [Outcome.map_bind]
      rfl
  | orderBy =>
    simp only [Step.run]
    rw [Outcome.map_bind]
    rfl
  | filter =>
    simp only [Step.run]
    split
    · rw [Outcome.map_bind]
      rfl
    · rfl
  | having =>
    simp only [Step.run]
    split
    · rw [Outcome.map_bind]
      rfl
    · rfl
  | paging => rfl
  | assignments =>
    simp only [Step.run]
    split
    · exact Outcome.foldlM_map fun assignment _ d =>
        addAssignment_after p.types stages d assignment
    · rfl
  | rows =>
    simp only [Step.run]
    split
    · rw [Outcome.map_bind]
      rfl
    · rfl

/-- The steps after the first. -/
def Step.later : List Step :=
  Step.list.tail

theorem Step.ne_source_of_mem_later {step : Step} (h : step ∈ Step.later) :
    step ≠ .source := by
  rintro rfl
  revert h
  decide

/-- A run of all steps takes the levels below first. -/
theorem Plan.runSteps_eq :
    p.runSteps previous = (do
      let stages? ← previous
      Step.later.foldlM (fun d step => step.run p previous d)
        (stages?.elim (.start p) fun stages => (Draft.start p).after stages)) := by
  rw [Plan.runSteps, show Step.list = .source :: Step.later from rfl, List.foldlM_cons]
  cases previous with
  | error fault => rfl
  | ok stages? => cases stages? <;> rfl

/-- **Run.**  Behind the stages of the levels below, all steps do what they do at the
start. -/
theorem Plan.runSteps_some (stages : List Document) :
    p.runSteps (.ok (some stages)) = (p.runSteps (.ok none)).map (Draft.after stages) := by
  rw [Plan.runSteps_eq, Plan.runSteps_eq]
  exact Outcome.foldlM_map fun step hmem d =>
    Step.run_after (Step.ne_source_of_mem_later hmem) stages d

/-- No step puts anything below a draft if nothing is there. -/
theorem Plan.previous_of_runSteps_none {d : Draft} (h : p.runSteps (.ok none) = .ok d) :
    d.previous = [] := by
  rw [Plan.runSteps_eq] at h
  exact Step.foldlM_keeps Draft.previous
    (fun step hmem _ _ hk => hk.previous (Step.ne_source_of_mem_later hmem)) h

end Steps

/-! ### Stages of all levels -/

/-- **Level.**  The pipeline of a plan is that of the level below it, followed by its own
stages. -/
theorem Plan.stages_step (p : Plan) :
    p.stages = (do
      let previous ← p.scope.base.origin.stages
      let own ← p.ownStages
      return previous.getD [] ++ own) := by
  rw [Plan.stages, Plan.draft_eq_runSteps, Plan.ownStages]
  cases p.scope.base.origin.stages with
  | error fault =>
    -- the levels below come first, so their fault is the one that is reported
    rw [Plan.runSteps_eq]
    rfl
  | ok stages? =>
    cases stages? with
    | none =>
      cases hrun : p.runSteps (.ok none) with
      | error fault => rfl
      | ok d =>
        show Except.ok (d.pipeline p) = .ok ([] ++ d.ownStages p)
        rw [Draft.pipeline_eq, Plan.previous_of_runSteps_none hrun]
    | some stages =>
      rw [Plan.runSteps_some]
      cases p.runSteps (.ok none) with
      | error fault => rfl
      | ok d =>
        show Except.ok ((d.after stages).pipeline p) = .ok (stages ++ d.ownStages p)
        rw [Draft.pipeline_eq]
        rfl

/-- The stages of levels, one level after the other. -/
def Plan.stagesOf (levels : List Plan) : Except Fault (List Document) := do
  return (← levels.mapM Plan.ownStages).flatten

theorem Plan.stagesOf_append_singleton (levels : List Plan) (p : Plan) :
    Plan.stagesOf (levels ++ [p]) = (do
      let stages ← Plan.stagesOf levels
      let own ← p.ownStages
      return stages ++ own) := by
  simp only [Plan.stagesOf, List.mapM_append, List.mapM_cons, List.mapM_nil]
  cases levels.mapM Plan.ownStages with
  | error fault => rfl
  | ok stages =>
    cases p.ownStages with
    | error fault => rfl
    | ok own =>
      show Except.ok (stages ++ [own]).flatten = .ok (stages.flatten ++ own)
      rw [List.flatten_append, List.flatten_singleton]

mutual

/-- **The pipeline of a plan is the concatenation of its levels' own stages**, innermost
first.  If a level has no stages, the innermost such level decides the fault. -/
theorem Plan.stages_eq : (p : Plan) → p.stages = Plan.stagesOf p.levels.reverse
  | ⟨⟨⟨label, origin⟩, joined⟩, types, filter, limit, action⟩ => by
    rw [Plan.stages_step, Plan.levels_eq, List.reverse_cons, Plan.stagesOf_append_singleton,
      ← Origin.stages_eq origin]
    show (origin.stages >>= _) = _
    cases origin.stages <;> rfl

/-- The stages that a source brings with it are those of the levels behind it. -/
theorem Origin.stages_eq : (origin : Origin) →
    origin.stages.map (Option.getD · []) = Plan.stagesOf origin.levels.reverse
  | .collection name => by
    rw [Origin.stages, Origin.levels]
    rfl
  | .subplan p => by
    have hstages : (Origin.subplan p).stages.map (Option.getD · []) = p.stages := by
      rw [Origin.stages, Plan.stages, Outcome.map_bind]
      rfl
    rw [hstages, Origin.levels]
    exact Plan.stages_eq p

end

/-- **A plan has a draft exactly if each of its levels has stages.** -/
theorem Plan.exists_draft_iff (p : Plan) :
    (∃ d, p.draft = .ok d) ↔ ∀ level ∈ p.levels, ∃ stages, level.ownStages = .ok stages := by
  have hstages : (∃ stages, p.stages = .ok stages) ↔ ∃ d, p.draft = .ok d :=
    Outcome.exists_bind_pure_iff
  have hlevels : (∃ stages, Plan.stagesOf p.levels.reverse = .ok stages) ↔
      ∃ parts, p.levels.reverse.mapM Plan.ownStages = .ok parts :=
    Outcome.exists_bind_pure_iff
  rw [← hstages, Plan.stages_eq, hlevels, Outcome.exists_mapM_eq_ok_iff]
  simp only [List.mem_reverse]

/-- The draft of a plan is for the collection that the innermost level reads. -/
theorem Plan.collection_of_draft {p : Plan} {d : Draft} (h : p.draft = .ok d) :
    d.collection = p.collectionName := by
  rw [Plan.draft_eq_runSteps, Plan.runSteps] at h
  refine Outcome.foldlM_preserves (P := fun d => d.collection = p.collectionName) ?_ h rfl
  intro step _ d d' hrun hd
  have hwrites := Step.writes_of_run hrun
  cases step <;> simp only [Step.Writes] at hwrites <;> grind

end DocQuery
