import DocQuery.Pipeline.Step
import DocQuery.Proofs.Outcome

/-!
# What the steps leave in a draft

The steps of a plan run one after the other over one draft.  A field of the draft that
only one step writes is found in the final draft as that step has left it.

* `Plan.draft_eq_runSteps` — the draft of a plan is the run of its steps
* `Step.Writes`, `Step.writes_of_run` — the fields that a step may write
* `Step.filter_eq_of_run` — no step but its own writes the filter
* `Plan.compile_earlyFilter` — the filter of a draft is the compiled early filter
-/

namespace DocQuery

open Sql

/-- The draft of a plan is the run of its steps over the stages of its base source. -/
theorem Plan.draft_eq_runSteps (p : Plan) :
    p.draft = p.runSteps p.scope.base.origin.stages := by
  obtain ⟨⟨⟨label, origin⟩, joined⟩, types, filter, limit, action⟩ := p
  rw [Plan.draft]

/-- **What a step may write.**  All other fields of the draft stay as they are. -/
def Step.Writes (step : Step) (d d' : Draft) : Prop :=
  match step with
  | .source => ∃ stages multistage,
    d' = { d with previous := stages, multistage := multistage }
  | .distinct => ∃ projection distinct,
    d' = { d with projection := projection, distinct := distinct }
  | .groupBy => ∃ groupBy projection output multistage, d' = { d with
    groupBy := groupBy, projection := projection, output := output, multistage := multistage }
  | .totalGroup => ∃ projection output,
    d' = { d with projection := projection, output := output }
  | .projection => ∃ projection, d' = { d with projection := projection }
  | .countAll => ∃ countAll, d' = { d with countAll := countAll }
  | .joins => ∃ joins multistage, d' = { d with joins := joins, multistage := multistage }
  | .orderBy => ∃ sort, d' = { d with sort := sort }
  | .filter => ∃ filter, d' = { d with filter := filter }
  | .having => ∃ having, d' = { d with having := having }
  | .paging => ∃ limit offset, d' = { d with limit := limit, offset := offset }
  | .assignments => ∃ stored removed, d' = { d with stored := stored, removed := removed }
  | .rows => ∃ documents, d' = { d with documents := documents }

/-- Assignments write the stored and the removed fields. -/
theorem writes_addAssignment {types : FieldTypes} {d d' d₀ : Draft}
    {assignment : Column × Expr} (h : addAssignment types d assignment = .ok d')
    (hd : Step.assignments.Writes d₀ d) : Step.assignments.Writes d₀ d' := by
  obtain ⟨stored, removed, rfl⟩ := hd
  unfold addAssignment at h
  dsimp only at h
  split at h
  · cases h
    exact ⟨_, _, rfl⟩
  · obtain ⟨v, -, h⟩ := Outcome.bind_eq_ok.mp h
    cases Outcome.pure_eq_ok.mp h
    exact ⟨_, _, rfl⟩

/-- **Step.**  A step writes nothing but its own fields. -/
theorem Step.writes_of_run {p : Plan} {previous : Except Fault (Option (List Document))}
    {d d' : Draft} {step : Step} (h : step.run p previous d = .ok d') : step.Writes d d' := by
  cases step with
  | source =>
    obtain ⟨stages?, -, h⟩ := Outcome.bind_eq_ok.mp h
    split at h
    · cases Outcome.pure_eq_ok.mp h
      exact ⟨_, _, rfl⟩
    · cases Outcome.pure_eq_ok.mp h
      exact ⟨_, _, rfl⟩
  | distinct =>
    simp only [Step.run] at h
    split at h
    · split at h
      · cases h
        exact ⟨_, _, rfl⟩
      · cases h
        exact ⟨_, _, rfl⟩
    · cases h
      exact ⟨_, _, rfl⟩
  | groupBy =>
    simp only [Step.run] at h
    split at h
    · cases h
      exact ⟨_, _, _, _, rfl⟩
    · obtain ⟨body, -, h⟩ := Outcome.bind_eq_ok.mp h
      obtain ⟨output, -, h⟩ := Outcome.bind_eq_ok.mp h
      cases Outcome.pure_eq_ok.mp h
      exact ⟨_, _, _, _, rfl⟩
  | totalGroup =>
    simp only [Step.run] at h
    split at h
    · obtain ⟨body, -, h⟩ := Outcome.bind_eq_ok.mp h
      obtain ⟨output, -, h⟩ := Outcome.bind_eq_ok.mp h
      cases Outcome.pure_eq_ok.mp h
      exact ⟨_, _, rfl⟩
    · cases h
      exact ⟨_, _, rfl⟩
  | projection =>
    simp only [Step.run] at h
    split at h
    · cases h
      exact ⟨_, rfl⟩
    · obtain ⟨projection, -, h⟩ := Outcome.bind_eq_ok.mp h
      cases Outcome.pure_eq_ok.mp h
      exact ⟨_, rfl⟩
  | countAll =>
    cases h
    exact ⟨_, rfl⟩
  | joins =>
    simp only [Step.run] at h
    split at h
    · cases h
      exact ⟨_, _, rfl⟩
    · obtain ⟨stages, -, h⟩ := Outcome.bind_eq_ok.mp h
      cases Outcome.pure_eq_ok.mp h
      exact ⟨_, _, rfl⟩
  | orderBy =>
    obtain ⟨sort, -, h⟩ := Outcome.bind_eq_ok.mp h
    cases Outcome.pure_eq_ok.mp h
    exact ⟨_, rfl⟩
  | filter =>
    simp only [Step.run] at h
    split at h
    · obtain ⟨filter, -, h⟩ := Outcome.bind_eq_ok.mp h
      cases Outcome.pure_eq_ok.mp h
      exact ⟨_, rfl⟩
    · cases h
      exact ⟨_, rfl⟩
  | having =>
    simp only [Step.run] at h
    split at h
    · obtain ⟨having, -, h⟩ := Outcome.bind_eq_ok.mp h
      cases Outcome.pure_eq_ok.mp h
      exact ⟨_, rfl⟩
    · cases h
      exact ⟨_, rfl⟩
  | paging =>
    cases h
    exact ⟨_, _, rfl⟩
  | assignments =>
    simp only [Step.run] at h
    split at h
    · exact Outcome.foldlM_preserves (P := Step.assignments.Writes d)
        (fun _ _ _ _ hstep hd => writes_addAssignment hstep hd) h ⟨_, _, rfl⟩
    · cases h
      exact ⟨_, _, rfl⟩
  | rows =>
    simp only [Step.run] at h
    split at h
    · obtain ⟨documents, -, h⟩ := Outcome.bind_eq_ok.mp h
      cases Outcome.pure_eq_ok.mp h
      exact ⟨_, rfl⟩
    · cases h
      exact ⟨_, rfl⟩

/-- Every step but its own leaves the filter alone. -/
theorem Step.filter_eq_of_run {p : Plan} {previous : Except Fault (Option (List Document))}
    {d d' : Draft} {step : Step} (hne : step ≠ .filter) (h : step.run p previous d = .ok d') :
    d'.filter = d.filter := by
  have hwrites := Step.writes_of_run h
  cases step with
  | filter => exact absurd rfl hne
  | source => obtain ⟨_, _, rfl⟩ := hwrites; rfl
  | distinct => obtain ⟨_, _, rfl⟩ := hwrites; rfl
  | groupBy => obtain ⟨_, _, _, _, rfl⟩ := hwrites; rfl
  | totalGroup => obtain ⟨_, _, rfl⟩ := hwrites; rfl
  | projection => obtain ⟨_, rfl⟩ := hwrites; rfl
  | countAll => obtain ⟨_, rfl⟩ := hwrites; rfl
  | joins => obtain ⟨_, _, rfl⟩ := hwrites; rfl
  | orderBy => obtain ⟨_, rfl⟩ := hwrites; rfl
  | having => obtain ⟨_, rfl⟩ := hwrites; rfl
  | paging => obtain ⟨_, _, rfl⟩ := hwrites; rfl
  | assignments => obtain ⟨_, _, rfl⟩ := hwrites; rfl
  | rows => obtain ⟨_, rfl⟩ := hwrites; rfl

/-- **Run.**  The filter of a draft is the compiled part of the filter that runs before
joins and groups; without such a part it is empty. -/
theorem Plan.compile_earlyFilter {p : Plan} {d : Draft} (h : p.draft = .ok d) :
    match p.earlyFilter with
    | some e => Filter.compile p.filterContext e = .ok d.filter
    | none => d.filter = .empty := by
  rw [Plan.draft_eq_runSteps, Plan.runSteps] at h
  have hlist : Step.list = [.source, .distinct, .groupBy, .totalGroup, .projection,
    .countAll, .joins, .orderBy] ++ .filter :: [.having, .paging, .assignments, .rows] := rfl
  rw [hlist, List.foldlM_append, Outcome.bind_eq_ok] at h
  obtain ⟨before, hbefore, h⟩ := h
  rw [List.foldlM_cons, Outcome.bind_eq_ok] at h
  obtain ⟨own, hown, hafter⟩ := h
  -- the run falls into the steps before the filter's own, that step, and those after it
  have hstart : before.filter = .empty :=
    Outcome.foldlM_preserves (P := fun draft => draft.filter = .empty)
      (fun step hmem _ _ hstep hsame =>
        (Step.filter_eq_of_run (by rintro rfl; simp at hmem) hstep).trans hsame) hbefore rfl
  have hend : d.filter = own.filter :=
    Outcome.foldlM_preserves (P := fun draft => draft.filter = own.filter)
      (fun step hmem _ _ hstep hsame =>
        (Step.filter_eq_of_run (by rintro rfl; simp at hmem) hstep).trans hsame) hafter rfl
  rw [Step.run] at hown
  rw [hend]
  cases hearly : p.earlyFilter with
  | some e =>
    rw [hearly] at hown
    obtain ⟨f, hf, hown⟩ := Outcome.bind_eq_ok.mp hown
    cases Outcome.pure_eq_ok.mp hown
    exact hf
  | none =>
    rw [hearly] at hown
    cases hown
    exact hstart

end DocQuery
