import DocQuery.Proofs.Join.Variables
import DocQuery.Proofs.Join.Waiting
import DocQuery.Proofs.Predicate.StrayConditions

/-!
# Where a join reads its variables

The filter inside a join reads the columns of other sources through variables.  Variables
are evaluated inside expressions only.

* `Plan.joinCondition?` — the condition that runs inside a join
* `Plan.exists_join_of_lookup` — where a lookup comes from
* `Binding.hasVariables_condition` — the variables of a bound condition are bound
* `lookup_variables_evaluated_iff` — the variables in the filter of a lookup
-/

namespace DocQuery

open Sql Text

/-! ### Lookups -/

/-- The condition that runs inside a join: its own, and what the filter of the statement
adds. -/
def Plan.joinCondition? (p : Plan) (j : JoinedSource) : Option Expr :=
  conjunction? (j.condition.toList ++
    (FilterSplit.of p.scope p.filter).insideOf j.source.label)

/-- **Every lookup is that of a join**, with the variables and the filter of its condition. -/
theorem Plan.exists_join_of_lookup {p : Plan} {d : Draft} (hd : p.draft = .ok d)
    (hjoined : p.scope.joined ≠ []) {body : Document}
    (hbody : stage "$lookup" body ∈ d.joins) :
    ∃ j ∈ p.scope.joined, ∃ bound pipeline,
      JoinedSource.lookupParts p.types
        ((p.joinCondition? j).map (Binding.bind j.source.label p.scope.base.label)) =
          .ok (bound, pipeline) ∧
      body.get? "let" = some (.document bound) ∧
        body.get? "pipeline" = some (.array pipeline) := by
  obtain ⟨lookups, waiting, hlookups, hwaiting, hjoins⟩ :=
    Plan.exists_stages_of_draft hd hjoined
  -- the other stages around the joins have other names
  have hkey : ∀ {name : String} {inner : Document}, stage "$lookup" body = stage name inner →
      "$lookup" = name ∧ body = inner := by
    intro name inner heq
    cases heq
    exact ⟨rfl, rfl⟩
  rw [hjoins, List.mem_append] at hbody
  rcases hbody with hbody | hbody
  · obtain ⟨stages, hstages, hbody⟩ := List.mem_flatten.mp hbody
    obtain ⟨j, hj, hstages'⟩ := Outcome.exists_of_mem_mapM hlookups hstages
    unfold JoinedSource.stages at hstages'
    split at hstages'
    · cases hstages'
    · obtain ⟨⟨bound, pipeline⟩, hparts, hstages'⟩ := Outcome.bind_eq_ok.mp hstages'
      cases Outcome.pure_eq_ok.mp hstages'
      rcases List.mem_pair.mp hbody with heq | heq
      · obtain ⟨-, rfl⟩ := hkey heq
        exact ⟨j, hj, bound, pipeline, hparts, rfl, rfl⟩
      · exact absurd (hkey heq).1 (by decide)
  · rw [FilterSplit.waitingStages] at hwaiting
    split at hwaiting
    · obtain ⟨filter, -, hwaiting⟩ := Outcome.bind_eq_ok.mp hwaiting
      cases Outcome.pure_eq_ok.mp hwaiting
      exact absurd (hkey (List.mem_singleton.mp hbody)).1 (by decide)
    · cases hwaiting
      exact absurd hbody List.not_mem_nil

/-! ### Bound conditions -/

theorem Sql.Expr.ownText_mapColumns {f : Column → Column} {e : Expr}
    (h : ∀ c, e ≠ .column c) : (e.mapColumns f).ownText = e.ownText := by
  cases e with
  | column c => exact absurd rfl (h c)
  | _ => rfl

namespace Binding

variable {label base : String} {e : Expr}

/-- A column that is no variable inside a join has no dollar signs. -/
theorem noDollar_column {c : Column} (hc : NoDollar c.display) (hinner : ¬ IsOuter label c) :
    NoDollar (column label base c).display := by
  rw [column, variableOf?_of_not_isOuter hinner]
  cases hquoted : c.quoted with
  | true => exact hc
  | false =>
    rw [Column.display, hquoted, if_neg Bool.false_ne_true, Column.fullName] at hc
    cases htable : c.table with
    | none =>
      rw [htable] at hc
      exact hc
    | some table =>
      rw [htable] at hc
      intro hmem
      have hname : '$' ∈ c.name.toList := hmem
      exact hc (by simp [hname])

/-- **Inside a join all that is written with dollar signs are bound variables**, if the
condition is written without. -/
theorem hasVariables_condition (he : NoDollar e.display) :
    (bind label base e).condition.HasVariables fun v =>
      v ∈ (bind label base e).bound.keys := by
  intro x hx
  obtain ⟨y, hy, rfl⟩ := Expr.exists_of_within_mapColumns hx
  have hown : NoDollar y.ownText := (Expr.noDollar_display_iff e).mp he y hy
  by_cases hcolumn : ∃ c, y = .column c
  · obtain ⟨c, rfl⟩ := hcolumn
    rw [Expr.mapColumns]
    by_cases houter : IsOuter label c
    · refine .inr ⟨variableName (outerPath base c), ?_, by rw [column_of_isOuter houter]⟩
      exact (mem_keys_bound_iff e _).mpr
        ⟨c, Expr.within_column_iff.mp hy, variableOf?_of_isOuter houter⟩
    · exact .inl (noDollar_column hown houter)
  · have hother : ∀ c, y ≠ .column c := fun c heq => hcolumn ⟨c, heq⟩
    rw [Expr.ownText_mapColumns hother]
    exact .inl hown

/-- **Variables stand for outer columns.** -/
theorem readsVariable_iff (he : NoDollar e.display) :
    (e.mapColumns (column label base)).ReadsVariable ↔ ∃ c ∈ e.columns, IsOuter label c := by
  rw [Expr.ReadsVariable, Expr.columns_mapColumns]
  constructor
  · rintro ⟨inside, hinside, v, hv⟩
    obtain ⟨c, hc, rfl⟩ := List.mem_map.mp hinside
    refine ⟨c, hc, ?_⟩
    by_contra houter
    have hcolumn : NoDollar c.display :=
      (Expr.noDollar_display_iff e).mp he _ (Expr.within_column_iff.mpr hc)
    have hclean : NoDollar (column label base c).display := noDollar_column hcolumn houter
    rw [hv] at hclean
    exact hclean.not_holdsVariable (holdsVariable_variable v)
  · rintro ⟨c, hc, houter⟩
    exact ⟨_, List.mem_map_of_mem hc, _, column_of_isOuter houter⟩

end Binding

/-- **Where the variables of a join are evaluated.**  Every lookup is that of a join.  If
the condition of the join is written without dollar signs, then the variables in it stand
for its outer columns, and all variables that are evaluated in the filter of the lookup
are bound; listed variables lose doubled quotes.  A variable stands where it is not
evaluated, as a key, in a text or in a regular expression, exactly if the condition
strays. -/
theorem lookup_variables_evaluated_iff {p : Plan} {d : Draft} (hd : p.draft = .ok d)
    (hjoined : p.scope.joined ≠ [])
    (hplain : ∀ j ∈ p.scope.joined, ∀ e ∈ p.joinCondition? j, NoDollar e.display)
    {body : Document} (hbody : stage "$lookup" body ∈ d.joins) :
    (body.get? "let" = some (.document .empty) ∧ body.get? "pipeline" = some (.array [])) ∨
    ∃ j ∈ p.scope.joined, ∃ e ∈ p.joinCondition? j, ∃ binding filter,
      binding = Binding.bind j.source.label p.scope.base.label e ∧
      body.get? "let" = some (.document binding.bound) ∧
      body.get? "pipeline" = some (.array [.document (stage "$match" filter)]) ∧
      (∀ x : Expr, x.Within e →
        ((x.mapColumns (Binding.column j.source.label p.scope.base.label)).ReadsVariable ↔
          ∃ c ∈ x.columns, Binding.IsOuter j.source.label c)) ∧
      (∀ text, HoldsVariable text → filter.Occurs text true →
        ∃ v ∈ binding.bound.keys, text = "$$" ++ v ∨ text = "$$" ++ Operand.unquote v) ∧
      ((∃ text, HoldsVariable text ∧ filter.Occurs text false) ↔
        Filter.Strays p.types .test false binding.condition) := by
  obtain ⟨j, hj, bound, pipeline, hparts, hlet, hpipeline⟩ :=
    Plan.exists_join_of_lookup hd hjoined hbody
  cases he : p.joinCondition? j with
  | none =>
    rw [he] at hparts
    cases hparts
    exact .inl ⟨hlet, hpipeline⟩
  | some e =>
    rw [he] at hparts
    obtain ⟨filter, hfilter, hparts⟩ := Outcome.bind_eq_ok.mp hparts
    cases Outcome.pure_eq_ok.mp hparts
    have hdollar : NoDollar e.display := hplain j hj e he
    have hshows :=
      (Filter.traced (Binding.hasVariables_condition hdollar)).test false filter hfilter
    refine .inr ⟨j, hj, e, he, _, filter, rfl, hlet, hpipeline, fun x hx => ?_, hshows.bound,
      hshows.astray_iff⟩
    exact Binding.readsVariable_iff (Expr.noDollar_display_of_within hdollar hx)

/-! ### Orders of users whose name begins with a letter -/

/-- `_id = o.user_id and name like 'a%'`. -/
def initialCondition : Expr :=
  .and (.compare .eq (.column (.bare "_id")) (.column (.qualified "o" "user_id")))
    (.like false (.column (.bare "name")) (.literal (.string "a%")))

/-- Users with their orders, if the name of the user begins with `a`. -/
def initialPlan : Plan where
  scope := ⟨.of (some "u") (.collection "users"),
    [⟨.inner, .of (some "o") (.collection "orders"), some initialCondition⟩]⟩
  types := {}
  filter := none
  limit := -1
  action := .select { Selection.none with items := [⟨.column (.bare "name"), none⟩] }

/-- The variable of the identifier is evaluated, that of the name is the key of a test. -/
theorem lookup_variables_evaluated_iff_initial :
    ∃ d body filter, initialPlan.draft = .ok d ∧ stage "$lookup" body ∈ d.joins ∧
      body.get? "pipeline" = some (.array [.document (stage "$match" filter)]) ∧
      ∃ text, HoldsVariable text ∧ filter.Occurs text false := by
  obtain ⟨d, hd, body, hbody, filter, hpipeline⟩ : ∃ d, initialPlan.draft = .ok d ∧
      ∃ body, stage "$lookup" body ∈ d.joins ∧ ∃ filter,
        body.get? "pipeline" = some (.array [.document (stage "$match" filter)]) :=
    ⟨_, rfl, _, List.mem_cons_self, _, rfl⟩
  refine ⟨d, body, filter, hd, hbody, hpipeline, ?_⟩
  have hplain : ∀ j ∈ initialPlan.scope.joined, ∀ e ∈ initialPlan.joinCondition? j,
      NoDollar e.display := by
    intro j hj e he
    cases List.mem_singleton.mp hj
    cases he
    decide
  rcases lookup_variables_evaluated_iff hd (List.cons_ne_nil _ _) hplain hbody with
    ⟨-, hnone⟩ | ⟨j, hj, e, he, binding, filter', rfl, -, hfilter, -, -, hastray⟩
  · cases hpipeline.symm.trans hnone
  · cases hpipeline.symm.trans hfilter
    cases List.mem_singleton.mp hj
    cases he
    have houter : Binding.IsOuter "o" (.bare "name") := ⟨rfl, by decide⟩
    have hvariable : (Binding.column "o" "u" (.bare "name")).IsVariable :=
      ⟨_, Binding.column_of_isOuter houter⟩
    exact hastray.mpr (.and (.inr rfl) (.like (.inl ⟨_, List.mem_cons_self, hvariable⟩)))

end DocQuery
