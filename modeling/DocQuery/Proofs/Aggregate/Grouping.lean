import DocQuery.Aggregate.Group
import DocQuery.Proofs.Document.Storing
import DocQuery.Proofs.Outcome
import DocQuery.Proofs.Predicate.Comparison

/-!
# Grouped selections show what they select

A grouped selection becomes two documents: what is collected per group, and the projection
that gives the collected values the names of the selection.  They are built apart from
each other and have to agree on every name.

* `Sql.SelectItem.outputName` — the name under which a selected value is asked for
* `Aggregate.shown` — the value that the projection shows under a name
* `Aggregate.get?_collect` — what a loop over the selection stores
* `grouped_output_faithful` — every selected value is shown under its own name

### What is load-bearing

**One loop.**  Both documents are built by storing at most one entry for each selected
item (`Aggregate.collect`).  With different names nothing is overwritten, and everything
else follows from the entries of single items.

**The key.**  The key of the groups lives under `_id`, which the projection always hides.
Its parts are named by `Aggregate.flatName`, which is not injective, so of several fields
with one flat name only the last one is kept (`Aggregate.keyField?`).
-/

namespace DocQuery

open Sql

/-! ### Names of selected values -/

namespace Sql

/-- The name that a call's result gets without an alias. -/
def Call.ownName (c : Call) : String :=
  c.generatedName c.aggregatedField.toOption.join

theorem Call.ownName_of_aggregatedField {c : Call} {field : Option String}
    (h : c.aggregatedField = .ok field) : c.ownName = c.generatedName field := by
  rw [Call.ownName, h]
  rfl

/-- The name of a selected value without an alias. -/
def Expr.ownName : Expr → String
  | .call name distinct args => Call.ownName ⟨name, distinct, args⟩
  | .column c => c.fullName
  | e => e.display

/-- The name under which a selected value is asked for: the alias, if there is one. -/
def SelectItem.outputName (item : SelectItem) : String :=
  item.label.getD item.expr.ownName

/-- The aggregate calls that can be collected: a count of at most one argument, or one of
the others of a column. -/
def Call.IsSupported (c : Call) : Prop :=
  c.plainName = "count" ∧ c.args.length ≤ 1 ∨
    c.plainName ∈ ["sum", "avg", "min", "max"] ∧ ∃ column, c.args = [.column column]

/-- What a grouped selection may select: grouping fields and supported aggregates. -/
inductive Expr.IsGrouped (fields : List String) : Expr → Prop where
  | column (c : Column) (h : c.fullName ∈ fields) : IsGrouped fields (.column c)
  | call (c : Call) (h : c.IsSupported) : IsGrouped fields c.toExpr

theorem Expr.IsGrouped.isSupported {fields : List String} {c : Call}
    (h : c.toExpr.IsGrouped fields) : c.IsSupported := by
  generalize hexpr : c.toExpr = e at h
  cases h with
  | column => cases hexpr
  | call other hother =>
    cases c
    cases other
    cases hexpr
    exact hother

end Sql

namespace Aggregate

/-! ### Storing one entry for each item -/

/-- An entry for a document, or nothing to store. -/
def store (d : Document) : Option (String × Value) → Document
  | some (name, value) => d.insert name value
  | none => d

/-- Stores the entries of selected items one after the other. -/
def collect (entry : SelectItem → Except Fault (Option (String × Value))) (d : Document)
    (items : List SelectItem) : Except Fault Document :=
  items.foldlM (fun d item => return store d (← entry item)) d

section Collect

variable {entry : SelectItem → Except Fault (Option (String × Value))} {d d' : Document}
  {items : List SelectItem} {item : SelectItem} {name : String} {value : Value}

theorem collect_cons : collect entry d (item :: items) =
    entry item >>= fun stored => collect entry (store d stored) items := by
  rw [collect, List.foldlM_cons]
  cases entry item <;> rfl

/-- Nothing is stored under other names than those of the entries. -/
theorem get?_collect_of_ne (h : collect entry d items = .ok d')
    (hname : ∀ item ∈ items, ∀ stored, entry item = .ok (some stored) → stored.1 ≠ name) :
    d'.get? name = d.get? name := by
  refine Outcome.foldlM_preserves (P := fun b => b.get? name = d.get? name) ?_ h rfl
  intro item hitem b b' hstep hb
  obtain ⟨stored, hentry, hstore⟩ := Outcome.bind_eq_ok.mp hstep
  cases Outcome.pure_eq_ok.mp hstore
  cases stored with
  | none => exact hb
  | some stored =>
    rw [store, Document.get?_insert_of_ne _ _ (hname item hitem stored hentry).symm, hb]

/-- **Entries with different names are all kept.** -/
theorem get?_collect (h : collect entry d items = .ok d')
    (hnamed : ∀ item stored, entry item = .ok (some stored) → stored.1 = item.outputName)
    (hnames : (items.map SelectItem.outputName).Nodup) (hitem : item ∈ items)
    (hentry : entry item = .ok (some (name, value))) : d'.get? name = some value := by
  obtain ⟨before, after, rfl⟩ := List.append_of_mem hitem
  rw [collect, List.foldlM_append] at h
  obtain ⟨middle, -, h⟩ := Outcome.bind_eq_ok.mp h
  rw [← collect, collect_cons, hentry] at h
  rw [get?_collect_of_ne (d := middle.insert name value) h, Document.get?_insert_self]
  -- the names after the item differ from its own
  intro other hother stored hstored
  rw [hnamed other stored hstored, show name = item.outputName from hnamed item _ hentry]
  rw [List.map_append, List.map_cons] at hnames
  have hlater := (List.nodup_cons.mp (List.nodup_append.mp hnames).2.1).1
  rintro hsame
  exact hlater (hsame ▸ List.mem_map_of_mem hother)

/-- The loop goes through if every item has its entry. -/
theorem exists_collect (h : ∀ item ∈ items, ∃ stored, entry item = .ok stored)
    (d : Document) : ∃ d', collect entry d items = .ok d' := by
  induction items generalizing d with
  | nil => exact ⟨d, rfl⟩
  | cons item rest ih =>
    obtain ⟨stored, hstored⟩ := h item List.mem_cons_self
    obtain ⟨d', hd'⟩ := ih (fun other hother => h other (List.mem_cons_of_mem item hother))
      (store d stored)
    refine ⟨d', ?_⟩
    rw [collect_cons, hstored]
    exact hd'

/-- An item without its entry stops the loop. -/
theorem exists_of_collect (h : collect entry d items = .ok d') (hitem : item ∈ items) :
    ∃ stored, entry item = .ok stored := by
  obtain ⟨before, after, rfl⟩ := List.append_of_mem hitem
  rw [collect, List.foldlM_append] at h
  obtain ⟨middle, -, h⟩ := Outcome.bind_eq_ok.mp h
  rw [← collect, collect_cons] at h
  obtain ⟨stored, hstored, -⟩ := Outcome.bind_eq_ok.mp h
  exact ⟨stored, hstored⟩

end Collect

/-! ### Accumulators -/

/-- The entry of an item in the body of a group. -/
def accumulatorEntry (item : SelectItem) : Except Fault (Option (String × Value)) :=
  match item.expr with
  | .call name distinct args => do
    let (output, operation) ← accumulator ⟨name, distinct, args⟩ item.label
    return some (output, .document operation)
  | _ => .ok none

theorem addAccumulators_eq_collect (body : Document) (items : List SelectItem) :
    addAccumulators body items = collect accumulatorEntry body items := by
  induction items generalizing body with
  | nil => rfl
  | cons item rest ih =>
    obtain ⟨expr, label⟩ := item
    rw [collect_cons]
    cases expr with
    | call name distinct args =>
      simp only [addAccumulators, accumulatorEntry]
      cases accumulator ⟨name, distinct, args⟩ label with
      | error fault => rfl
      | ok stored => exact ih _
    | _ => exact ih body

/-- An accumulator is stored under the name of its result. -/
theorem eq_of_accumulator {c : Call} {label : Option String} {stored : String × Document}
    (h : accumulator c label = .ok stored) : stored.1 = label.getD c.ownName := by
  obtain ⟨field, hfield, h⟩ := Outcome.bind_eq_ok.mp h
  obtain ⟨body, -, h⟩ := Outcome.bind_eq_ok.mp h
  rw [← Outcome.pure_eq_ok.mp h, Call.ownName_of_aggregatedField hfield]

theorem accumulatorEntry_call (c : Call) (label : Option String) {stored : String × Document}
    (h : accumulator c label = .ok stored) :
    accumulatorEntry ⟨c.toExpr, label⟩ =
      .ok (some (label.getD c.ownName, .document stored.2)) := by
  simp only [accumulatorEntry, Call.toExpr, h, ← eq_of_accumulator h]
  rfl

theorem eq_of_accumulatorEntry {item : SelectItem} {stored : String × Value}
    (h : accumulatorEntry item = .ok (some stored)) : stored.1 = item.outputName := by
  rw [accumulatorEntry] at h
  split at h
  · rename_i name distinct args hexpr
    obtain ⟨result, hresult, h⟩ := Outcome.bind_eq_ok.mp h
    have hstored := Option.some.inj (Outcome.pure_eq_ok.mp h)
    rw [← hstored, eq_of_accumulator hresult, SelectItem.outputName, hexpr, Expr.ownName]
  · cases h

/-- Counts add one for each row. -/
theorem operation_count {c : Call} (h : c.plainName = "count") (field : Option String) :
    operation c field = .ok (.single "$sum" (.int 1)) := by
  unfold operation
  split <;> simp_all

/-- The other aggregates read their field. -/
theorem operation_field {c : Call} (h : c.plainName ∈ ["sum", "avg", "min", "max"])
    (path : String) :
    operation c (some path) =
      .ok (.single ("$" ++ c.plainName) (.string (reference path))) := by
  unfold operation
  split <;> simp_all

/-- At most one argument is read as a field. -/
theorem exists_aggregatedField {c : Call} (h : c.args.length ≤ 1) :
    ∃ field, c.aggregatedField = .ok field := by
  obtain ⟨name, distinct, args⟩ := c
  rw [Call.aggregatedField]
  split
  · exact ⟨none, rfl⟩
  · exact ⟨none, rfl⟩
  · exact ⟨_, rfl⟩
  · rename_i hnil _ hsingle
    match args, h with
    | [], _ => exact absurd rfl hnil
    | [arg], _ => exact absurd rfl (hsingle arg)

/-- Supported calls have an accumulator. -/
theorem exists_accumulator {c : Call} (h : c.IsSupported) (label : Option String) :
    ∃ body, accumulator c label = .ok (label.getD c.ownName, body) := by
  have hread : ∃ field body, c.aggregatedField = .ok field ∧
      operation c field = .ok body := by
    rcases h with ⟨hname, hargs⟩ | ⟨hname, column, hargs⟩
    · obtain ⟨field, hfield⟩ := exists_aggregatedField hargs
      exact ⟨field, _, hfield, operation_count hname field⟩
    · refine ⟨some (Expr.column column).stringValue, _, ?_, operation_field hname _⟩
      rw [Call.aggregatedField, hargs]
  obtain ⟨field, body, hfield, hbody⟩ := hread
  refine ⟨body, Outcome.bind_eq_ok.mpr ⟨field, hfield,
    Outcome.bind_eq_ok.mpr ⟨body, hbody, ?_⟩⟩⟩
  rw [Call.ownName_of_aggregatedField hfield]
  rfl

/-! ### Outputs -/

/-- The entry of an item in the final projection. -/
def outputEntry (fields : List String) (item : SelectItem) :
    Except Fault (Option (String × Value)) :=
  match item.expr with
  | .call name distinct args => do
    let name ← Call.outputName ⟨name, distinct, args⟩ item.label
    return some (name, .int 1)
  | .column c =>
    .ok (some (item.label.getD c.fullName, .string (groupedPath fields c.fullName)))
  | e => .error (.groupExpression e.display)

theorem addOutputs_eq_collect (fields : List String) (output : Document)
    (items : List SelectItem) :
    addOutputs fields output items = collect (outputEntry fields) output items := by
  induction items generalizing output with
  | nil => rfl
  | cons item rest ih =>
    obtain ⟨expr, label⟩ := item
    rw [collect_cons]
    cases expr with
    | call name distinct args =>
      simp only [addOutputs, outputEntry]
      cases Call.outputName ⟨name, distinct, args⟩ label with
      | error fault => rfl
      | ok name => exact ih _
    | column c => exact ih _
    | _ => rfl

theorem eq_of_outputName {c : Call} {label : Option String} {name : String}
    (h : c.outputName label = .ok name) : name = label.getD c.ownName := by
  obtain ⟨field, hfield, h⟩ := Outcome.bind_eq_ok.mp h
  rw [← Outcome.pure_eq_ok.mp h, Call.ownName_of_aggregatedField hfield]

theorem eq_of_outputEntry {fields : List String} {item : SelectItem} {stored : String × Value}
    (h : outputEntry fields item = .ok (some stored)) : stored.1 = item.outputName := by
  rw [outputEntry] at h
  split at h
  · rename_i name distinct args hexpr
    obtain ⟨result, hresult, h⟩ := Outcome.bind_eq_ok.mp h
    have hstored := Option.some.inj (Outcome.pure_eq_ok.mp h)
    rw [← hstored, eq_of_outputName hresult, SelectItem.outputName, hexpr, Expr.ownName]
  · rename_i c hexpr
    cases h
    rw [SelectItem.outputName, hexpr, Expr.ownName]
  · cases h

theorem outputEntry_call (fields : List String) {c : Call} (h : c.IsSupported)
    (label : Option String) :
    outputEntry fields ⟨c.toExpr, label⟩ = .ok (some (label.getD c.ownName, .int 1)) := by
  obtain ⟨body, hbody⟩ := exists_accumulator h label
  obtain ⟨field, hfield, -⟩ := Outcome.bind_eq_ok.mp hbody
  have hname : c.outputName label = .ok (label.getD c.ownName) := by
    rw [Call.ownName_of_aggregatedField hfield]
    exact Outcome.bind_eq_ok.mpr ⟨field, hfield, rfl⟩
  simp only [outputEntry, Call.toExpr, hname]
  rfl

/-! ### The key of the groups -/

/-- The grouping field that is kept under the flat name of `field`: of several fields with
that name the last one. -/
def keyField? (fields : List String) (field : String) : Option String :=
  fields.reverse.find? fun other => flatName other == flatName field

/-- A flat name is a single part of a path. -/
theorem dot_notMem_flatName (path : String) : '.' ∉ (flatName path).toList := by
  simp only [flatName, Text.replaceChar, String.toList_ofList, List.mem_map, not_exists,
    not_and]
  intro c _
  split
  · decide
  · rename_i hc
    rintro rfl
    exact hc rfl

/-- **The path of a grouping field leads to its part of the key.** -/
theorem operandIn_groupedPath {fields : List String} {body : Document} {field : String}
    (hbody : body.get? "_id" = (groupKey fields).get? "_id") (hfield : field ∈ fields)
    (hkey : keyField? fields field = some field) :
    Filter.operandIn body (.string (groupedPath fields field)) =
      some (.string (reference field)) := by
  have hmem : fields.contains field = true := List.contains_iff_mem.mpr hfield
  rw [groupedPath, if_pos hmem]
  match fields with
  | [single] =>
    cases List.mem_singleton.mp hfield
    rw [if_pos (by simp), show "$_id" = "$" ++ "_id" from rfl, Filter.operandIn_reference,
      Document.at?_eq_get? _ (by decide), hbody]
    rfl
  | first :: second :: rest =>
    have hpath : "$_id." ++ flatName field = "$" ++ ("_id" ++ "." ++ flatName field) := by
      rw [← String.append_assoc, ← String.append_assoc]
      rfl
    rw [if_neg (by simp), hpath, Filter.operandIn_reference,
      Document.at?_nested (by decide) (dot_notMem_flatName field) hbody, Document.get?_ofList,
      ← List.map_reverse, List.find?_map]
    rw [keyField?] at hkey
    simp only [Function.comp_def, hkey, Option.map_some]

/-! ### What is shown -/

/-- The value that the final projection shows under a name: nothing where it is missing or
hidden by `0`, the collected value for any other number, else the value of the projected
expression. -/
def shown (body output : Document) (name : String) : Option Value :=
  match output.get? name with
  | some (.int n) => if n = 0 then none else body.get? name
  | some value => Filter.operandIn body value
  | none => none

/-- The projection of a grouped selection shows what is selected.

* The key of the groups is hidden, whatever is selected under its name.
* An aggregate is shown as its accumulator.
* A grouping field is shown as itself, unless an aggregate is stored in the place of the
  key or another field has taken its part of the key. -/
structure IsFaithful (items : List SelectItem) (fields : List String)
    (body output : Document) : Prop where
  hidden : ∀ item ∈ items, item.outputName = "_id" → shown body output item.outputName = none
  call : ∀ (c : Call) (label : Option String), ⟨c.toExpr, label⟩ ∈ items →
    label.getD c.ownName ≠ "_id" →
    ∃ collected, accumulator c label = .ok (label.getD c.ownName, collected) ∧
      shown body output (label.getD c.ownName) = some (.document collected)
  column : ∀ (c : Column) (label : Option String), ⟨.column c, label⟩ ∈ items →
    label.getD c.fullName ≠ "_id" →
    (∀ other ∈ items, other.outputName = "_id" → ∃ column, other.expr = .column column) →
    keyField? fields c.fullName = some c.fullName →
    shown body output (label.getD c.fullName) = some (.string (reference c.fullName))

/-- The final projection holds the entry of every item, and hides the key. -/
theorem get?_groupOutput {items : List SelectItem} {fields : List String} {output : Document}
    (h : groupOutput items fields = .ok output) {item : SelectItem} {value : Value}
    (hnames : (items.map SelectItem.outputName).Nodup) (hitem : item ∈ items)
    (hentry : outputEntry fields item = .ok (some (item.outputName, value)))
    (hname : item.outputName ≠ "_id") : output.get? item.outputName = some value := by
  obtain ⟨stored, hstored, h⟩ := Outcome.bind_eq_ok.mp h
  rw [addOutputs_eq_collect] at hstored
  rw [← Outcome.pure_eq_ok.mp h, Document.get?_insert_of_ne _ _ hname]
  exact get?_collect hstored (fun _ _ => eq_of_outputEntry) hnames hitem hentry

theorem get?_groupOutput_id {items : List SelectItem} {fields : List String}
    {output : Document} (h : groupOutput items fields = .ok output) :
    output.get? "_id" = some (.int 0) := by
  obtain ⟨stored, -, h⟩ := Outcome.bind_eq_ok.mp h
  rw [← Outcome.pure_eq_ok.mp h, Document.get?_insert_self]

/-- The body of the groups holds the accumulator of every selected aggregate. -/
theorem get?_groupBody {items : List SelectItem} {fields : List String} {body : Document}
    (h : groupBody items fields = .ok body) {c : Call} {label : Option String}
    {collected : String × Document} (hnames : (items.map SelectItem.outputName).Nodup)
    (hitem : ⟨c.toExpr, label⟩ ∈ items) (hcollected : accumulator c label = .ok collected) :
    body.get? (label.getD c.ownName) = some (.document collected.2) := by
  rw [groupBody, addAccumulators_eq_collect] at h
  exact get?_collect h (fun _ _ => eq_of_accumulatorEntry) hnames hitem
    (accumulatorEntry_call c label hcollected)

/-- The key of the groups stays unless an aggregate is stored in its place. -/
theorem get?_groupBody_id {items : List SelectItem} {fields : List String} {body : Document}
    (h : groupBody items fields = .ok body)
    (hcolumns : ∀ item ∈ items, item.outputName = "_id" →
      ∃ column, item.expr = .column column) :
    body.get? "_id" = (groupKey fields).get? "_id" := by
  rw [groupBody, addAccumulators_eq_collect] at h
  refine get?_collect_of_ne h fun item hitem stored hstored hname => ?_
  rw [eq_of_accumulatorEntry hstored] at hname
  obtain ⟨column, hcolumn⟩ := hcolumns item hitem hname
  rw [accumulatorEntry, hcolumn] at hstored
  cases hstored

/-- Grouping fields and supported aggregates can be grouped. -/
theorem exists_groupBody {items : List SelectItem} {fields : List String}
    (h : ∀ item ∈ items, item.expr.IsGrouped fields) :
    ∃ body, groupBody items fields = .ok body := by
  simp only [groupBody, addAccumulators_eq_collect]
  refine exists_collect (fun item hitem => ?_) (groupKey fields)
  obtain ⟨expr, label⟩ := item
  cases h _ hitem with
  | column c hc => exact ⟨none, rfl⟩
  | call c hc =>
    obtain ⟨collected, hcollected⟩ := exists_accumulator hc label
    exact ⟨_, accumulatorEntry_call c label hcollected⟩

theorem exists_groupOutput {items : List SelectItem} {fields : List String}
    (h : ∀ item ∈ items, item.expr.IsGrouped fields) :
    ∃ output, groupOutput items fields = .ok output := by
  have hstored : ∃ stored, addOutputs fields .empty items = .ok stored := by
    simp only [addOutputs_eq_collect]
    refine exists_collect (fun item hitem => ?_) .empty
    obtain ⟨expr, label⟩ := item
    cases h _ hitem with
    | column c hc => exact ⟨_, rfl⟩
    | call c hc => exact ⟨_, outputEntry_call fields hc label⟩
  obtain ⟨stored, hstored⟩ := hstored
  exact ⟨_, Outcome.bind_eq_ok.mpr ⟨stored, hstored, rfl⟩⟩

end Aggregate

open Aggregate

/-- **Grouped output is faithful.**  A selection of grouping fields and supported
aggregates with different names can be grouped, and every selected value is shown under
its own name. -/
theorem grouped_output_faithful {items : List SelectItem} {fields : List String}
    (hitems : ∀ item ∈ items, item.expr.IsGrouped fields)
    (hnames : (items.map SelectItem.outputName).Nodup) :
    ∃ body output, groupBody items fields = .ok body ∧ groupOutput items fields = .ok output ∧
      IsFaithful items fields body output := by
  obtain ⟨body, hbody⟩ := exists_groupBody hitems
  obtain ⟨output, houtput⟩ := exists_groupOutput hitems
  refine ⟨body, output, hbody, houtput, ?_, ?_, ?_⟩
  · intro item _ hname
    rw [shown, hname, get?_groupOutput_id houtput]
    rfl
  · intro c label hitem hname
    have hc : c.IsSupported := (hitems _ hitem).isSupported
    obtain ⟨collected, hcollected⟩ := exists_accumulator hc label
    refine ⟨collected, hcollected, ?_⟩
    have hshown :=
      get?_groupOutput houtput hnames hitem (outputEntry_call fields hc label) hname
    rw [shown, show output.get? (label.getD c.ownName) = some (.int 1) from hshown,
      get?_groupBody hbody hnames hitem hcollected]
    rfl
  · intro c label hitem hname hcolumns hkey
    have hfield : c.fullName ∈ fields := by
      cases hitems _ hitem with
      | column c hc => exact hc
    have hshown := get?_groupOutput houtput hnames hitem rfl hname
    rw [shown, show output.get? (label.getD c.fullName) =
      some (.string (groupedPath fields c.fullName)) from hshown]
    exact operandIn_groupedPath (get?_groupBody_id hbody hcolumns) hfield hkey

/-- The selection `a.b AS ab, c, sum(price) AS revenue, count(*)`. -/
def salesItems : List SelectItem :=
  [⟨.column (.qualified "a" "b"), some "ab"⟩, ⟨.column (.bare "c"), none⟩,
    ⟨.call "sum" false [.column (.bare "price")], some "revenue"⟩,
    ⟨.call "count" false [.wildcard], none⟩]

theorem isGrouped_count (fields : List String) :
    (Expr.call "count" false [.wildcard]).IsGrouped fields :=
  .call ⟨"count", false, [.wildcard]⟩ (.inl ⟨rfl, Nat.le_refl 1⟩)

theorem salesItems_isGrouped : ∀ item ∈ salesItems, item.expr.IsGrouped ["a.b", "c"] := by
  have hsum : (Expr.call "sum" false [.column (.bare "price")]).IsGrouped ["a.b", "c"] :=
    .call ⟨"sum", false, [.column (.bare "price")]⟩ (.inr ⟨by decide, _, rfl⟩)
  simp only [salesItems, List.forall_mem_cons]
  exact ⟨.column _ (by decide), .column _ (by decide), hsum, isGrouped_count _, by simp⟩

theorem grouped_output_faithful_sales :
    (∀ item ∈ salesItems, item.expr.IsGrouped ["a.b", "c"]) ∧
    (salesItems.map SelectItem.outputName).Nodup ∧
    ∃ body output, groupBody salesItems ["a.b", "c"] = .ok body ∧
      groupOutput salesItems ["a.b", "c"] = .ok output ∧
      IsFaithful salesItems ["a.b", "c"] body output ∧
      shown body output "ab" = some (.string "$a.b") ∧
      shown body output "count" = some (.document (.single "$sum" (.int 1))) := by
  have hnames : (salesItems.map SelectItem.outputName).Nodup := by decide
  refine ⟨salesItems_isGrouped, hnames, ?_⟩
  obtain ⟨body, output, hbody, houtput, hshown⟩ :=
    grouped_output_faithful salesItems_isGrouped hnames
  refine ⟨body, output, hbody, houtput, hshown, ?_, ?_⟩
  · refine hshown.column (.qualified "a" "b") (some "ab") (by simp [salesItems])
      (by decide) ?_ rfl
    intro other hother hname
    simp only [salesItems, List.mem_cons, List.not_mem_nil, or_false] at hother
    rcases hother with rfl | rfl | rfl | rfl <;> exact absurd hname (by decide)
  · obtain ⟨collected, hcollected, hcount⟩ :=
      hshown.call ⟨"count", false, [.wildcard]⟩ none (by simp [salesItems, Call.toExpr])
        (by decide)
    cases hcollected
    exact hcount

/-- The selection `_id, count(*)`. -/
def countPerId : List SelectItem :=
  [⟨.column (.bare "_id"), none⟩, ⟨.call "count" false [.wildcard], none⟩]

/-- The selection `a.b, a_b`. -/
def alikeFields : List SelectItem :=
  [⟨.column (.qualified "a" "b"), none⟩, ⟨.column (.bare "a_b"), none⟩]

/-- The selection `city, count(*) AS _id`. -/
def countAsId : List SelectItem :=
  [⟨.column (.bare "city"), none⟩, ⟨.call "count" false [.wildcard], some "_id"⟩]

/-- **Not every selected value is shown.**  The key is hidden when it is selected itself,
a part of it is lost to a field with the same flat name, and all of it to an aggregate
that is named like the key. -/
theorem grouped_output_loses_key :
    ((∀ item ∈ countPerId, item.expr.IsGrouped ["_id"]) ∧
      (countPerId.map SelectItem.outputName).Nodup ∧
      ∃ body output, groupBody countPerId ["_id"] = .ok body ∧
        groupOutput countPerId ["_id"] = .ok output ∧ shown body output "_id" = none) ∧
    ((∀ item ∈ alikeFields, item.expr.IsGrouped ["a.b", "a_b"]) ∧
      (alikeFields.map SelectItem.outputName).Nodup ∧
      ∃ body output, groupBody alikeFields ["a.b", "a_b"] = .ok body ∧
        groupOutput alikeFields ["a.b", "a_b"] = .ok output ∧
        shown body output "a.b" = some (.string "$a_b")) ∧
    (∀ item ∈ countAsId, item.expr.IsGrouped ["city"]) ∧
      (countAsId.map SelectItem.outputName).Nodup ∧
      ∃ body output, groupBody countAsId ["city"] = .ok body ∧
        groupOutput countAsId ["city"] = .ok output ∧
        shown body output "city" = some (.document (.single "$sum" (.int 1))) := by
  simp only [countPerId, alikeFields, countAsId, List.forall_mem_cons]
  refine ⟨⟨⟨.column _ (by decide), isGrouped_count _, by simp⟩, by decide, _, _, rfl,
    rfl, rfl⟩, ⟨⟨.column _ (by decide), .column _ (by decide), by simp⟩, by decide, _, _, rfl,
    rfl, rfl⟩,
    ⟨.column _ (by decide), isGrouped_count _, by simp⟩, by decide, _, _, rfl, rfl, rfl⟩

end DocQuery
