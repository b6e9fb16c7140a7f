import DocQuery.Proofs.Predicate.GroupTests

/-!
# When filters on groups read what groups hold

A filter on groups runs behind the stage that builds the groups, so nothing but the fields
of that stage is there to be read.

* `Document.Provides` — the fields behind the stage of the groups
* `Aggregate.Offers`, `Aggregate.provides_iff_offers` — the same fields, in terms of the
  selection
* `having_reads_offered_iff` — when a filter on groups reads fields of the group only

### What is load-bearing

The names that a filter reads are known exactly (`Filter.fieldsRead_compile`), so the
condition on them is necessary as well.  Nothing leads a grouping field to the key of the
group, where it is kept.
-/

namespace DocQuery

open Sql

/-! ### The fields of a group -/

/-- The fields behind the stage that builds the groups: the keys of its body, and the
parts of a composite key. -/
def Document.Provides (body : Document) (name : String) : Prop :=
  body.contains name = true ∨ ∃ key part, body.get? "_id" = some (.document key) ∧
    key.contains part = true ∧ name = "_id." ++ part

namespace Aggregate

/-- The fields that a grouped selection offers: the key of the groups, the parts of a
composite key, and the selected aggregates under their own names. -/
inductive Offers (items : List SelectItem) (fields : List String) : String → Prop
  | key : Offers items fields "_id"
  | part (hseveral : 2 ≤ fields.length) {field : String} (hfield : field ∈ fields) :
    Offers items fields ("_id." ++ flatName field)
  | aggregate {c : Call} {label : Option String} (hitem : ⟨c.toExpr, label⟩ ∈ items) :
    Offers items fields (label.getD c.ownName)

variable {items : List SelectItem} {fields : List String} {body : Document} {name : String}

/-- A loop over the selection stores its entries and keeps what was there. -/
theorem contains_collect {entry : SelectItem → Except Fault (Option (String × Value))}
    {d d' : Document} (h : collect entry d items = .ok d') :
    d'.contains name = true ↔ d.contains name = true ∨
      ∃ item ∈ items, ∃ v, entry item = .ok (some (name, v)) := by
  induction items generalizing d with
  | nil =>
    cases h
    simp
  | cons item rest ih =>
    rw [collect_cons] at h
    obtain ⟨stored, hstored, h⟩ := Outcome.bind_eq_ok.mp h
    rw [ih h]
    simp only [List.mem_cons, exists_eq_or_imp, hstored]
    cases stored with
    | none => simp [store]
    | some stored =>
      obtain ⟨own, v⟩ := stored
      have hinsert : (store d (some (own, v))).contains name = true ↔
          d.contains name = true ∨ own = name := by
        rw [store, Document.contains, Document.get?_insert]
        by_cases hname : name = own
        · simp [hname]
        · simp [hname, Ne.symm hname, Document.contains]
      simp [hinsert, or_assoc]

theorem contains_single (key : String) (v : Value) :
    (Document.single key v).contains name = true ↔ name = key := by
  by_cases h : name = key
  · simp [Document.contains, Document.get?, Document.single, Entries.get?, h]
  · simp [Document.contains, Document.get?, Document.single, Entries.get?, h, Ne.symm h]

/-- The key of the groups is one entry, whatever it is made of. -/
theorem exists_groupKey (hfields : fields ≠ []) : ∃ v, groupKey fields = .single "_id" v ∧
    ∀ key, v = .document key ↔ 2 ≤ fields.length ∧ key = .ofList
      (fields.map fun field => (flatName field, .string (reference field))) := by
  match fields with
  | [field] => exact ⟨_, rfl, by simp⟩
  | first :: second :: rest => exact ⟨_, rfl, by simp [eq_comm]⟩

/-- The parts of a composite key are the flat names of its fields. -/
theorem contains_ofList (part : String) :
    (Document.ofList (fields.map fun field =>
      (flatName field, .string (reference field)))).contains part = true ↔
      ∃ field ∈ fields, flatName field = part := by
  rw [Document.contains, Document.get?_ofList, Option.isSome_map, List.find?_isSome]
  constructor
  · rintro ⟨entry, hentry, hname⟩
    obtain ⟨field, hfield, rfl⟩ := List.mem_map.mp (List.mem_reverse.mp hentry)
    exact ⟨field, hfield, beq_iff_eq.mp hname⟩
  · rintro ⟨field, hfield, rfl⟩
    exact ⟨_, List.mem_reverse.mpr (List.mem_map_of_mem hfield), beq_self_eq_true _⟩

/-- The body of the groups has the key and the selected aggregates. -/
theorem contains_groupBody (h : groupBody items fields = .ok body) (hfields : fields ≠ []) :
    body.contains name = true ↔ name = "_id" ∨
      ∃ c : Call, ∃ label, ⟨c.toExpr, label⟩ ∈ items ∧ name = label.getD c.ownName := by
  have hbody := h
  rw [groupBody, addAccumulators_eq_collect] at h
  rw [contains_collect h]
  refine or_congr ?_ ⟨?_, ?_⟩
  · obtain ⟨v, hkey, -⟩ := exists_groupKey hfields
    rw [hkey, contains_single]
  · rintro ⟨⟨expr, label⟩, hitem, v, hentry⟩
    have hname := eq_of_accumulatorEntry hentry
    cases expr with
    | call own distinct args => exact ⟨⟨own, distinct, args⟩, label, hitem, hname⟩
    | _ => cases hentry
  · rintro ⟨c, label, hitem, rfl⟩
    obtain ⟨collected, hcollected⟩ := exists_accumulator_of_groupBody hbody hitem
    exact ⟨_, hitem, _, accumulatorEntry_call c label hcollected⟩

/-- **The body of the groups provides what the selection offers**, unless an aggregate is
stored in the place of the key. -/
theorem provides_iff_offers (h : groupBody items fields = .ok body) (hfields : fields ≠ [])
    (hcolumns : ∀ item ∈ items, item.outputName = "_id" →
      ∃ column, item.expr = .column column) :
    body.Provides name ↔ Offers items fields name := by
  obtain ⟨v, hgroup, hcomposite⟩ := exists_groupKey hfields
  have hid : body.get? "_id" = some v := by
    rw [get?_groupBody_id h hcolumns, hgroup]
    rfl
  constructor
  · rintro (hcontains | ⟨key, part, hdocument, hpart, rfl⟩)
    · rcases (contains_groupBody h hfields).mp hcontains with rfl | ⟨c, label, hitem, rfl⟩
      · exact .key
      · exact .aggregate hitem
    · rw [hid, Option.some.injEq, hcomposite] at hdocument
      obtain ⟨hseveral, rfl⟩ := hdocument
      obtain ⟨field, hfield, rfl⟩ := (contains_ofList part).mp hpart
      exact .part hseveral hfield
  · rintro (_ | ⟨hseveral, hfield⟩ | hitem)
    · exact .inl ((contains_groupBody h hfields).mpr (.inl rfl))
    · refine .inr ⟨_, _, ?_, (contains_ofList _).mpr ⟨_, hfield, rfl⟩, rfl⟩
      rw [hid, Option.some.injEq, hcomposite]
      exact ⟨hseveral, rfl⟩
    · exact .inl ((contains_groupBody h hfields).mpr (.inr ⟨_, _, hitem, rfl⟩))

end Aggregate

open Aggregate

/-- **When filters on groups read fields of the group only.**  The filter stands right
behind the stage of the groups.  It reads a column under its alias or its path and an
aggregate under the name that it is stored with, so all that it reads is there exactly if
these names are offered by the selection.

The names of selected aggregates are offered, and so are the aggregates themselves up to
case, if no other named expression is written like them.  A grouping field is offered as
the key of the group and not under its own name, and an aggregate that is not selected is
not offered at all. -/
theorem having_reads_offered_iff {types : FieldTypes} {depth : Nat} {select : Select}
    {p : Plan} {d : Draft} (hp : Plan.ofSelect types depth select = .ok p)
    (hd : p.draft = .ok d) (hgroup : p.selection.groupBy ≠ [])
    (hcolumns : ∀ item ∈ p.selection.items, item.outputName = "_id" →
      ∃ column, item.expr = .column column)
    {e : Expr} (he : p.selection.having = some e)
    (htest : e.IsGroupTest p.types p.selection.aliases) :
    (∃ before after, d.pipeline p = before ++ stage "$group" d.projection ::
      (Draft.stageUnlessEmpty "$match" d.having ++ after)) ∧
    d.having.fieldsRead = e.groupNames p.selection.aliases ∧
    ((∀ name ∈ d.having.fieldsRead, d.projection.Provides name) ↔
      ∀ name ∈ e.groupNames p.selection.aliases,
        Offers p.selection.items p.selection.groupBy name) ∧
    ∀ (c : Call) (label : Option String), ⟨c.toExpr, label⟩ ∈ p.selection.items →
      (∀ own, label = some own → p.selection.aliases.aliasOf? own = none →
        Offers p.selection.items p.selection.groupBy
          (Operand.aliased (some p.selection.aliases) own)) ∧
      ((∀ item ∈ p.selection.items, item.label.isSome = true →
          Aliases.callKey item.expr.display = Aliases.callKey c.display →
          ∃ other : Call, item.expr = other.toExpr ∧ other.SameUpToCase c) →
        ∀ read : Call, read.SameUpToCase c →
          Offers p.selection.items p.selection.groupBy
            (storedName p.selection.aliases read)) := by
  have hgrouped : p.isGrouped = true := by
    simp [Plan.isGrouped, Selection.isGrouped, hgroup]
  obtain ⟨hbody, -⟩ := Plan.grouped_of_draft hd hgrouped
  have hreads := Filter.fieldsRead_compile htest (Plan.having_of_draft hd he)
  refine ⟨?_, hreads, ?_, ?_⟩
  · have hid : d.projection.contains "_id" = true :=
      (contains_groupBody hbody hgroup).mpr (.inl rfl)
    refine ⟨d.previous ++ Draft.stageUnlessEmpty "$match" d.filter ++ d.joins,
      Draft.stageUnlessEmpty "$sort" d.sort ++ Draft.boundStage "$skip" d.offset ++
        Draft.boundStage "$limit" d.limit ++
          Draft.stageUnlessEmpty "$project" d.output ++ [], ?_⟩
    simp only [Draft.pipeline, hgrouped, if_true, Draft.groupStage, hid, List.append_assoc,
      List.cons_append, List.nil_append]
  · rw [hreads]
    exact forall₂_congr fun name _ => provides_iff_offers hbody hgroup hcolumns
  · intro c label hitem
    constructor
    · rintro own rfl hfree
      rw [Operand.aliased, Option.bind_some, hfree]
      exact .aggregate hitem
    · intro hwritten read hread
      obtain ⟨collected, hcollected⟩ := exists_accumulator_of_groupBody hbody hitem
      obtain ⟨other, own, hother, -, hname⟩ :=
        exists_item_storedName hitem hcollected hwritten hread
      rw [Plan.aliases_of_ofSelect hp, hname]
      exact .aggregate hother

theorem having_reads_offered_iff_city :
    Plan.ofSelect {} 0 (countPerCity "n") = .ok (countPerCityPlan "n") ∧
    (countPerCityPlan "n").selection.having =
      some (.compare .gt (.call "count" false [.wildcard]) (.literal (.int 1))) ∧
    ∃ d, (countPerCityPlan "n").draft = .ok d ∧ d.having.fieldsRead = ["n"] ∧
      d.projection.Provides "n" := by
  have hplan : Plan.ofSelect {} 0 (countPerCity "n") = .ok (countPerCityPlan "n") := rfl
  have hone : (Expr.literal (.int 1)).IsPlain {}
      (countPerCityPlan "n").selection.aliases := by
    intro counterpart v hv expression
    rw [Operand.value, Operand.ofCounterpart_empty] at hv
    cases hv
    rfl
  have hcolumns : ∀ item ∈ (countPerCityPlan "n").selection.items, item.outputName = "_id" →
      ∃ column, item.expr = .column column := by
    intro item hitem hname
    rcases List.mem_cons.mp hitem with rfl | hitem
    · exact ⟨_, rfl⟩
    · cases List.mem_singleton.mp hitem
      exact absurd hname (by decide)
  have hitem : ⟨Call.toExpr ⟨"COUNT", false, [.wildcard]⟩, some "n"⟩ ∈
      (countPerCityPlan "n").selection.items := List.mem_cons_of_mem _ List.mem_cons_self
  obtain ⟨d, hd⟩ : ∃ d, (countPerCityPlan "n").draft = .ok d := ⟨_, rfl⟩
  obtain ⟨-, hreads, hiff, hselected⟩ :=
    having_reads_offered_iff hplan hd (List.cons_ne_nil _ _)
    hcolumns rfl (.compare .gt (.call (c := ⟨"count", false, [.wildcard]⟩) (by decide))
      (.constant rfl hone))
  have hname : d.having.fieldsRead = ["n"] := hreads
  refine ⟨hplan, rfl, d, hd, hname, hiff.mpr ?_ "n" (hname ▸ List.mem_singleton_self "n")⟩
  rw [← hreads, hname, List.forall_mem_singleton]
  exact (hselected _ _ hitem).1 "n" rfl rfl

/-- A grouping field is read under its own name, which the group does not offer. -/
example : (Expr.compare .eq (.column (.bare "city")) (.literal (.string "x"))).groupNames
      (countPerCityPlan "n").selection.aliases = ["city"] ∧
    groupBody (countPerCity "n").items ["city"] =
      .ok ⟨[("_id", .string "$city"), ("n", .document (.single "$sum" (.int 1)))]⟩ :=
  ⟨rfl, rfl⟩

end DocQuery
