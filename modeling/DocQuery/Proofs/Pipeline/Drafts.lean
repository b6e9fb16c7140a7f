import DocQuery.Proofs.Pipeline.Steps

/-!
# The draft that a plan ends with

Every field of a draft is written by one step, or by a few that exclude each other.  So
the final draft can be read off the plan, one field at a time.

* `Step.Keeps`, `Step.keeps_of_writes` — the fields that a step leaves alone
* `Plan.exists_run_around` — the run of all steps, cut at one of them
* `Plan.distinct_of_draft`, `Plan.countAll_of_draft` — the two flags of a selection
* `Plan.isAggregate_of_multistage` — a draft of several stages comes from an aggregation
* `Plan.grouped_of_draft` — the two documents of a grouped selection
* `Plan.having_of_draft` — the filter on groups
* `Plan.joins_of_draft` — the stages of the joins
* `Plan.sort_of_draft` — the order of the rows
* `Plan.bounds_of_draft` — the bounds on rows
* `Plan.previous_of_draft` — the stages of a query that is the base source
-/

namespace DocQuery

open Sql

/-- **What a step keeps.**  A field that is not the step's own stays as it is. -/
structure Step.Keeps (step : Step) (d d' : Draft) : Prop where
  distinct : step ≠ .distinct → d'.distinct = d.distinct
  countAll : step ≠ .countAll → d'.countAll = d.countAll
  multistage : step ∉ [Step.source, .groupBy, .joins] → d'.multistage = d.multistage
  /-- The body of the groups or the projection, and the projection after the groups. -/
  grouped : step ∉ [Step.distinct, .groupBy, .totalGroup, .projection] →
    d'.projection = d.projection ∧ d'.output = d.output
  previous : step ≠ .source → d'.previous = d.previous
  having : step ≠ .having → d'.having = d.having
  joins : step ≠ .joins → d'.joins = d.joins
  sort : step ≠ .orderBy → d'.sort = d.sort
  bounds : step ≠ .paging → d'.limit = d.limit ∧ d'.offset = d.offset
  /-- The fields that an update stores, and those that it removes. -/
  changes : step ≠ .assignments → d'.stored = d.stored ∧ d'.removed = d.removed

theorem Step.keeps_of_writes {step : Step} {d d' : Draft} (h : step.Writes d d') :
    step.Keeps d d' := by
  constructor <;> cases step <;> simp only [Step.Writes] at h <;> grind

section Runs

variable {p : Plan} {previous : Except Fault (Option (List Document))} {d d' : Draft}

/-- **Frame.**  A run of steps keeps what each of them keeps. -/
theorem Step.foldlM_keeps {α : Type} (field : Draft → α) {steps : List Step}
    (hkeeps : ∀ step ∈ steps, ∀ e e', step.Keeps e e' → field e' = field e)
    (hrun : steps.foldlM (fun d step => step.run p previous d) d = .ok d') :
    field d' = field d :=
  Outcome.foldlM_preserves (P := fun draft => field draft = field d)
    (fun step hmem e e' hstep hsame =>
      (hkeeps step hmem e e' (Step.keeps_of_writes (Step.writes_of_run hstep))).trans hsame)
    hrun rfl

/-- A field that its own step leaves alone is as at the start. -/
theorem Plan.start_of_draft {α : Type} (field : Draft → α) {own : Step}
    (hothers : ∀ step e e', step ≠ own → step.Keeps e e' → field e' = field e)
    (hown : ∀ e e', own.run p p.scope.base.origin.stages e = .ok e' → field e' = field e)
    (h : p.draft = .ok d) : field d = field (.start p) := by
  rw [Plan.draft_eq_runSteps, Plan.runSteps] at h
  refine Outcome.foldlM_preserves (P := fun draft => field draft = field (.start p)) ?_ h rfl
  intro step _ e e' hrun he
  by_cases hstep : step = own
  · subst hstep
    exact (hown e e' hrun).trans he
  · have hkeeps := Step.keeps_of_writes (Step.writes_of_run hrun)
    exact (hothers step e e' hstep hkeeps).trans he

/-- The run of all steps falls into the steps before one of them, that step, and those
after it. -/
theorem Plan.exists_run_around (h : p.draft = .ok d) (before : List Step) (step : Step)
    (after : List Step) (hlist : Step.list = before ++ step :: after) :
    ∃ start own,
      before.foldlM (fun d step => step.run p p.scope.base.origin.stages d) (.start p) =
        .ok start ∧
      step.run p p.scope.base.origin.stages start = .ok own ∧
      after.foldlM (fun d step => step.run p p.scope.base.origin.stages d) own = .ok d := by
  rw [Plan.draft_eq_runSteps, Plan.runSteps, hlist, List.foldlM_append,
    Outcome.bind_eq_ok] at h
  obtain ⟨start, hstart, h⟩ := h
  rw [List.foldlM_cons, Outcome.bind_eq_ok] at h
  obtain ⟨own, hown, hafter⟩ := h
  exact ⟨start, own, hstart, hown, hafter⟩

/-! ### The flags of a selection -/

theorem Plan.distinct_of_draft (h : p.draft = .ok d) : d.distinct = p.selection.distinct := by
  obtain ⟨start, own, hstart, hown, hafter⟩ :=
    Plan.exists_run_around h [.source] .distinct _ rfl
  have hbegin : start.distinct = false :=
    Step.foldlM_keeps Draft.distinct
      (fun step hmem _ _ hk => hk.distinct (by rintro rfl; simp at hmem)) hstart
  have hend : d.distinct = own.distinct :=
    Step.foldlM_keeps Draft.distinct
      (fun step hmem _ _ hk => hk.distinct (by rintro rfl; simp at hmem)) hafter
  rw [hend]
  rw [Step.run] at hown
  cases hdistinct : p.selection.distinct with
  | true =>
    rw [hdistinct, if_pos rfl] at hown
    split at hown <;> cases hown <;> rfl
  | false =>
    rw [hdistinct] at hown
    cases hown
    exact hbegin

theorem Plan.countAll_of_draft (h : p.draft = .ok d) : d.countAll = p.selection.countAll := by
  obtain ⟨start, own, -, hown, hafter⟩ := Plan.exists_run_around h
    [.source, .distinct, .groupBy, .totalGroup, .projection] .countAll _ rfl
  have hend : d.countAll = own.countAll :=
    Step.foldlM_keeps Draft.countAll
      (fun step hmem _ _ hk => hk.countAll (by rintro rfl; simp at hmem)) hafter
  rw [hend]
  cases hown
  rfl

/-! ### Several stages -/

/-- Only a query among the sources leaves stages. -/
theorem Origin.subplan?_isSome_of_stages {origin : Origin} {stages : List Document}
    (h : origin.stages = .ok (some stages)) : origin.subplan?.isSome = true := by
  cases origin with
  | collection name => rw [Origin.stages] at h; cases h
  | subplan q => rfl

/-- **Step.**  Whatever makes a draft take several stages makes its plan an aggregation. -/
theorem Step.isAggregate_of_run {step : Step}
    (h : step.run p p.scope.base.origin.stages d = .ok d')
    (hd : d.multistage = true → p.isAggregate = true) (hd' : d'.multistage = true) :
    p.isAggregate = true := by
  have hkeeps := (Step.keeps_of_writes (Step.writes_of_run h)).multistage
  by_cases hmem : step ∈ [Step.source, .groupBy, .joins]
  · simp only [List.mem_cons, List.not_mem_nil, or_false] at hmem
    obtain rfl | rfl | rfl := hmem
    · obtain ⟨stages?, hstages, h⟩ := Outcome.bind_eq_ok.mp h
      cases stages? with
      | none =>
        cases Outcome.pure_eq_ok.mp h
        exact hd hd'
      | some stages => simp [Plan.isAggregate, Origin.subplan?_isSome_of_stages hstages]
    · rw [Step.run] at h
      cases hgroup : p.selection.groupBy.isEmpty with
      | true =>
        rw [hgroup] at h
        cases h
        exact hd hd'
      | false => simp [Plan.isAggregate, hgroup]
    · rw [Step.run] at h
      cases hjoined : p.scope.joined.isEmpty with
      | true =>
        rw [hjoined] at h
        cases h
        exact hd hd'
      | false => simp [Plan.isAggregate, hjoined]
  · exact hd (hkeeps hmem ▸ hd')

/-- **Run.**  A draft of several stages comes from an aggregation. -/
theorem Plan.isAggregate_of_multistage (h : p.draft = .ok d) (hd : d.multistage = true) :
    p.isAggregate = true := by
  rw [Plan.draft_eq_runSteps, Plan.runSteps] at h
  exact Outcome.foldlM_preserves
    (P := fun draft => draft.multistage = true → p.isAggregate = true)
    (fun _ _ _ _ hstep hbefore => Step.isAggregate_of_run hstep hbefore) h
      (by simp [Draft.start]) hd

/-! ### The documents of a grouped selection -/

/-- **The two documents of a grouped selection** stand in the final draft as they were
built: neither the distinct value before them nor the projection after them takes their
place. -/
theorem Plan.grouped_of_draft (h : p.draft = .ok d) (hgrouped : p.isGrouped = true) :
    Aggregate.groupBody p.selection.items p.selection.groupBy = .ok d.projection ∧
    Aggregate.groupOutput p.selection.items p.selection.groupBy = .ok d.output := by
  obtain ⟨start, own, hstart, hown, hafter⟩ := Plan.exists_run_around h
    [.source, .distinct, .groupBy, .totalGroup] .projection _ rfl
  have hend : (d.projection, d.output) = (own.projection, own.output) :=
    Step.foldlM_keeps (fun d => (d.projection, d.output))
      (fun step hmem _ _ hk => Prod.ext_iff.mpr (hk.grouped (by
        simp only [List.mem_cons, List.not_mem_nil, or_false] at hmem ⊢
        rintro (rfl | rfl | rfl | rfl) <;> simp at hmem))) hafter
  -- a grouped selection has no projection of its own
  have hsame : own = start := by
    simp only [Step.run, hgrouped, Bool.or_true, Bool.true_or, if_true] at hown
    exact (Except.ok.inj hown).symm
  obtain ⟨hprojection, houtput⟩ := Prod.mk.inj hend
  rw [hprojection, houtput, hsame]
  simp only [List.foldlM_cons, List.foldlM_nil, Outcome.bind_eq_ok, Outcome.pure_eq_ok]
    at hstart
  obtain ⟨d₁, -, d₂, -, d₃, hgroup, d₄, htotal, rfl⟩ := hstart
  cases hfields : p.selection.groupBy with
  | nil =>
    have htotalGroup : p.selection.totalGroup = true := by
      simpa [Plan.isGrouped, Selection.isGrouped, hfields] using hgrouped
    rw [Step.run, hfields, htotalGroup] at htotal
    obtain ⟨body, hbody, htotal⟩ := Outcome.bind_eq_ok.mp htotal
    obtain ⟨output, houtput, htotal⟩ := Outcome.bind_eq_ok.mp htotal
    cases Outcome.pure_eq_ok.mp htotal
    exact ⟨hbody, houtput⟩
  | cons field fields =>
    rw [Step.run, hfields] at htotal
    cases htotal
    rw [Step.run, hfields] at hgroup
    obtain ⟨body, hbody, hgroup⟩ := Outcome.bind_eq_ok.mp hgroup
    obtain ⟨output, houtput, hgroup⟩ := Outcome.bind_eq_ok.mp hgroup
    cases Outcome.pure_eq_ok.mp hgroup
    exact ⟨hbody, houtput⟩

/-- **The filter on groups** is the compiled condition on them. -/
theorem Plan.having_of_draft (h : p.draft = .ok d) {e : Expr}
    (he : p.selection.having = some e) :
    Filter.compile (.groups p.types p.selection.aliases) e = .ok d.having := by
  obtain ⟨start, own, -, hown, hafter⟩ := Plan.exists_run_around h
    [.source, .distinct, .groupBy, .totalGroup, .projection, .countAll, .joins, .orderBy,
      .filter]
    .having _ rfl
  have hend : d.having = own.having :=
    Step.foldlM_keeps Draft.having
      (fun step hmem _ _ hk => hk.having (by rintro rfl; simp at hmem)) hafter
  rw [Step.run, he] at hown
  obtain ⟨filter, hfilter, hown⟩ := Outcome.bind_eq_ok.mp hown
  rw [hend, ← Outcome.pure_eq_ok.mp hown]
  exact hfilter

/-- Without a condition on groups there is no filter on them. -/
theorem Plan.having_of_draft_none (h : p.draft = .ok d) (hnone : p.selection.having = none) :
    d.having = .empty := by
  refine Plan.start_of_draft Draft.having (fun _ _ _ hne hk => hk.having hne) ?_ h
  intro e e' hrun
  rw [Step.run, hnone] at hrun
  cases hrun
  rfl

/-- **The stages of the joins** are those of the split filter. -/
theorem Plan.joins_of_draft (h : p.draft = .ok d) (hjoined : p.scope.joined ≠ []) :
    p.joinStages (.of p.scope p.filter) = .ok d.joins := by
  obtain ⟨start, own, -, hown, hafter⟩ := Plan.exists_run_around h
    [.source, .distinct, .groupBy, .totalGroup, .projection, .countAll] .joins _ rfl
  have hend : d.joins = own.joins :=
    Step.foldlM_keeps Draft.joins
      (fun step hmem _ _ hk => hk.joins (by rintro rfl; simp at hmem)) hafter
  rw [Step.run, if_neg (by simpa using hjoined)] at hown
  obtain ⟨stages, hstages, hown⟩ := Outcome.bind_eq_ok.mp hown
  rw [hend, ← Outcome.pure_eq_ok.mp hown]
  exact hstages

/-- Without joins there are no stages for them. -/
theorem Plan.joins_of_draft_nil (h : p.draft = .ok d) (hnone : p.scope.joined = []) :
    d.joins = [] := by
  refine Plan.start_of_draft Draft.joins (fun _ _ _ hne hk => hk.joins hne) ?_ h
  intro e e' hrun
  rw [Step.run, hnone] at hrun
  cases hrun
  rfl

/-- **The order of the rows** is the document of the order that is written. -/
theorem Plan.sort_of_draft (h : p.draft = .ok d) : sortDocument p.selection = .ok d.sort := by
  obtain ⟨start, own, -, hown, hafter⟩ := Plan.exists_run_around h
    [.source, .distinct, .groupBy, .totalGroup, .projection, .countAll, .joins] .orderBy _ rfl
  have hend : d.sort = own.sort :=
    Step.foldlM_keeps Draft.sort
      (fun step hmem _ _ hk => hk.sort (by rintro rfl; simp at hmem)) hafter
  rw [Step.run] at hown
  obtain ⟨sort, hsort, hown⟩ := Outcome.bind_eq_ok.mp hown
  rw [hend, ← Outcome.pure_eq_ok.mp hown]
  exact hsort

/-- **The bounds on rows** are those of the plan. -/
theorem Plan.bounds_of_draft (h : p.draft = .ok d) :
    d.limit = p.limit ∧ d.offset = p.selection.offset := by
  obtain ⟨start, own, -, hown, hafter⟩ := Plan.exists_run_around h
    [.source, .distinct, .groupBy, .totalGroup, .projection, .countAll, .joins, .orderBy,
      .filter, .having] .paging _ rfl
  have hend : (d.limit, d.offset) = (own.limit, own.offset) :=
    Step.foldlM_keeps (fun d => (d.limit, d.offset))
      (fun step hmem _ _ hk => Prod.ext_iff.mpr
        (hk.bounds (by rintro rfl; simp at hmem))) hafter
  cases hown
  exact Prod.mk.inj hend

/-- **The stages of a query that is the base source** come first; a collection has none. -/
theorem Plan.previous_of_draft (h : p.draft = .ok d) :
    ∃ stages?, p.scope.base.origin.stages = .ok stages? ∧ d.previous = stages?.getD [] := by
  obtain ⟨start, own, hstart, hown, hafter⟩ := Plan.exists_run_around h [] .source _ rfl
  cases Outcome.pure_eq_ok.mp hstart
  have hend : d.previous = own.previous :=
    Step.foldlM_keeps Draft.previous
      (fun step hmem _ _ hk => hk.previous (by rintro rfl; simp at hmem)) hafter
  obtain ⟨stages?, hstages, hown⟩ := Outcome.bind_eq_ok.mp hown
  refine ⟨stages?, hstages, ?_⟩
  rw [hend]
  cases stages? with
  | none =>
    cases Outcome.pure_eq_ok.mp hown
    rfl
  | some stages =>
    cases Outcome.pure_eq_ok.mp hown
    rfl

end Runs

end DocQuery
