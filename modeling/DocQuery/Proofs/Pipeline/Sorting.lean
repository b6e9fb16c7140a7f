import DocQuery.Proofs.Document.Ordering
import DocQuery.Proofs.Pipeline.Drafts
import DocQuery.Proofs.Pipeline.Shape

/-!
# The order of rows

The fields that rows are ordered by come from a list in which a field may stand more than
once, under one name or under several: as a column, and as the label of a selected item.

* `behind`, `sortField` — what a name in the order stands for, and what it is compared by
* `Plan.get?_fieldOf_aliasesOf` — the table of names goes back to the last item with a label
* `Plan.OrdersByColumns` — a plan whose rows are ordered by columns and labels of columns
* `Plan.OrdersByColumns.sortDocument_eq` — the document of the order
* `sort_takes_last_directions` — how far it orders rows as it is written

### What is load-bearing

A label goes back to the written form of its item, which is the path of the column if the
column is not quoted.  A document keeps a field where it first comes, with the direction
that comes last, while rows are compared by the direction that comes first.
-/

namespace DocQuery

open Sql

variable {types : FieldTypes} {depth : Nat} {s : Select} {p : Plan}
  {order : List (Column × Bool)}

/-! ### Names in the order -/

/-- What a name stands for: the last selected item that has it as its label, in a form
that is given, else the name itself. -/
def behind (form : Expr → String) (items : List SelectItem) (name : String) : String :=
  ((items.reverse.find? fun item => item.label == some name).map fun item => form
    item.expr).getD name

/-- The field that a name in the order is compared by: the written form of what is behind
it, unless that reads like an aggregate. -/
def sortField (items : List SelectItem) (name : String) : String :=
  if Aggregate.isAggregateText (behind Expr.display items name) then name
  else behind Expr.display items name

/-- The fields that columns in the order stand for, with their directions. -/
def orderKeys (field : String → String) (order : List (Column × Bool)) : Entries Bool :=
  order.map fun entry => (field (Expr.column entry.1).stringValue, entry.2)

theorem map_orderKeys {α : Type} (value : Bool → α) (field : String → String)
    (order : List (Column × Bool)) :
    (orderKeys field order).map (fun key => (key.1, value key.2)) =
      order.map fun entry => (field (Expr.column entry.1).stringValue, value entry.2) :=
  List.map_map

/-- An item with a label is added to the table of names in its written form. -/
theorem Plan.aliasesOf_append_named (items : List SelectItem) {item : SelectItem}
    {label : String} (hlabel : item.label = some label)
    (hitem : item.expr.isWildcard = false) :
    Plan.aliasesOf (items ++ [item]) =
      (Plan.aliasesOf items).insert item.expr.display label := by
  simp [Plan.aliasesOf, Aliases.ofList, List.filterMap_append, hlabel, hitem]

theorem Plan.aliasesOf_append_unnamed (items : List SelectItem) {item : SelectItem}
    (hitem : item.expr.isWildcard = true ∨ item.label = none) :
    Plan.aliasesOf (items ++ [item]) = Plan.aliasesOf items := by
  rcases hitem with hitem | hitem <;>
    simp [Plan.aliasesOf, Aliases.ofList, List.filterMap_append, hitem]

/-- The table of names goes back from a label to the last item that has it. -/
theorem Plan.get?_fieldOf_aliasesOf {items : List SelectItem} {name : String}
    (h : ∀ item ∈ items, item.label = some name → item.expr.isWildcard = false) :
    (Plan.aliasesOf items).fieldOf.get? name =
      (items.reverse.find? fun item => item.label == some name).map fun item =>
        item.expr.display := by
  induction items using List.reverseRecOn with
  | nil => rfl
  | append_singleton items item ih =>
    have ih := ih fun other hother => h other (List.mem_append_left _ hother)
    rw [List.reverse_concat, List.find?_cons]
    by_cases hnamed : item.label = some name
    · have hitem := h item (by simp) hnamed
      rw [Plan.aliasesOf_append_named items hnamed hitem, Aliases.insert, Entries.get?_put]
      simp [hnamed]
    · have hskip : (item.label == some name) = false := by simpa using hnamed
      rw [hskip, ← ih]
      by_cases hitem : item.expr.isWildcard = true ∨ item.label = none
      · rw [Plan.aliasesOf_append_unnamed items hitem]
      · rw [not_or, Bool.not_eq_true] at hitem
        obtain ⟨label, hlabel⟩ := Option.ne_none_iff_exists'.mp hitem.2
        have hne : name ≠ label := fun heq => hnamed (heq ▸ hlabel)
        rw [Plan.aliasesOf_append_named items hlabel hitem.1, Aliases.insert,
          Entries.get?_put]
        simp [hne]

/-! ### Plans without fields to group by -/

/-- Without fields to group by, rows are ordered by what a name goes back to, unless that
reads like an aggregate. -/
theorem orderField_column {selection : Selection} {c : Column} {field : String}
    (hgroupBy : selection.groupBy = [])
    (hfield : selection.aliases.resolve (Expr.column c).stringValue = .ok field) :
    orderField selection (.column c) =
      .ok (if Aggregate.isAggregateText field then
        (Expr.column c).stringValue else field) := by
  simp only [orderField, hfield, hgroupBy, bind, Except.bind]
  split <;> rfl

/-- A plan whose rows are ordered by columns, or by labels of selected columns. -/
structure Plan.OrdersByColumns (p : Plan) (order : List (Column × Bool)) : Prop where
  ungrouped : p.selection.groupBy = []
  columns : p.selection.orderBy = order.map fun entry => ⟨.column entry.1, entry.2⟩
  /-- No name is a label and a labelled column that disagree. -/
  clear : ∀ entry ∈ order,
    p.selection.aliases.isAmbiguous (Expr.column entry.1).stringValue = false
  labels : ∀ entry ∈ order, ∀ item ∈ p.selection.items,
    item.label = some (Expr.column entry.1).stringValue → ∃ c, item.expr = .column c

/-- The written form of a column names its field: it has no quotes, and does not read like
an aggregate. -/
def Sql.Column.NamesField (c : Column) : Prop :=
  c.quoted = false ∧ Aggregate.isAggregateText c.fullName = false

/-- The labels that rows are ordered by stand for columns whose written form names their
field. -/
def Plan.LabelsNameFields (p : Plan) (order : List (Column × Bool)) : Prop :=
  ∀ entry ∈ order, ∀ item ∈ p.selection.items, ∀ c : Column,
    item.label = some (Expr.column entry.1).stringValue → item.expr = .column c → c.NamesField

namespace Plan.OrdersByColumns

theorem not_isWildcard_of_label (h : p.OrdersByColumns order) {entry : Column × Bool}
    (hentry : entry ∈ order) : ∀ item ∈ p.selection.items,
      item.label = some (Expr.column entry.1).stringValue → item.expr.isWildcard = false := by
  intro item hitem hlabel
  obtain ⟨c, hc⟩ := h.labels entry hentry item hitem hlabel
  rw [hc]
  rfl

/-- A name in the order goes back to the written form of what is behind it. -/
theorem resolve_eq (h : p.OrdersByColumns order) (hp : Plan.ofSelect types depth s = .ok p)
    {entry : Column × Bool} (hentry : entry ∈ order) :
    p.selection.aliases.resolve (Expr.column entry.1).stringValue =
      .ok (behind Expr.display p.selection.items (Expr.column entry.1).stringValue) := by
  have hfield := Plan.get?_fieldOf_aliasesOf (h.not_isWildcard_of_label hentry)
  rw [← Plan.aliases_of_ofSelect hp] at hfield
  rw [Aliases.resolve, h.clear entry hentry, hfield]
  rfl

theorem orderField_eq (h : p.OrdersByColumns order) (hp : Plan.ofSelect types depth s = .ok p)
    {entry : Column × Bool} (hentry : entry ∈ order) :
    orderField p.selection (.column entry.1) =
      .ok (sortField p.selection.items (Expr.column entry.1).stringValue) := by
  rw [orderField_column h.ungrouped (h.resolve_eq hp hentry), sortField]

/-- **The document of the order** is made of the fields one after the other. -/
theorem sortDocument_eq (h : p.OrdersByColumns order)
    (hp : Plan.ofSelect types depth s = .ok p) :
    sortDocument p.selection =
      .ok (.ofDirections (orderKeys (sortField p.selection.items) order)) := by
  have hentries : p.selection.orderBy.map (fun item => do
      return (← orderField p.selection item.expr,
        Value.int (if item.ascending then 1 else -1))) =
        order.map fun entry => pure
          (sortField p.selection.items (Expr.column entry.1).stringValue,
            Value.direction entry.2) := by
    rw [h.columns, List.map_map]
    refine List.map_congr_left fun entry hentry => ?_
    rw [Function.comp, h.orderField_eq hp hentry]
    rfl
  rw [sortDocument, Outcome.mapM_eq_of_map_eq hentries, List.mapM_pure, Document.ofDirections,
    map_orderKeys, pure_bind]
  rfl

/-- Such a label is compared by the field that it means. -/
theorem sortField_eq (h : p.OrdersByColumns order) (hnames : p.LabelsNameFields order)
    {entry : Column × Bool} (hentry : entry ∈ order) :
    sortField p.selection.items (Expr.column entry.1).stringValue =
      behind Expr.stringValue p.selection.items (Expr.column entry.1).stringValue := by
  rw [sortField, behind, behind]
  cases hitem : p.selection.items.reverse.find? fun item =>
      item.label == some (Expr.column entry.1).stringValue with
  | none => exact ite_self _
  | some item =>
    have hmem := List.mem_reverse.mp (List.mem_of_find?_eq_some hitem)
    have hlabel : item.label = some (Expr.column entry.1).stringValue := by
      simpa using List.find?_some hitem
    obtain ⟨c, hc⟩ := h.labels entry hentry item hmem hlabel
    obtain ⟨hquoted, htext⟩ := hnames entry hentry item hmem c hlabel hc
    simp [hc, Expr.display, Expr.stringValue, Column.display, hquoted, htext]

theorem orderKeys_eq (h : p.OrdersByColumns order) (hnames : p.LabelsNameFields order) :
    orderKeys (sortField p.selection.items) order =
      orderKeys (behind Expr.stringValue p.selection.items) order := by
  rw [orderKeys, orderKeys]
  refine List.map_congr_left fun entry hentry => ?_
  rw [h.sortField_eq hnames hentry]

end Plan.OrdersByColumns

/-! ### The order as it is written -/

/-- **The order of rows takes the last directions.**  In a selection without fields to
group by, let the rows be ordered by columns and by labels of selected columns, none of
them ambiguous.  Then the document of the order is there, and every draft has it: its
fields are the ones that the names are compared by, each in the place where it first comes
and with the direction that comes last.  It orders all documents as the written list does
exactly if it consists of the first entries of the fields that are meant.  If the written
forms behind the labels name their fields, that is so exactly if every field has the same
direction where it first comes and where it last comes; and documents that one field alone
tells apart are ordered by its last direction, where the list says its first one. -/
theorem sort_takes_last_directions (hp : Plan.ofSelect types depth s = .ok p)
    (h : p.OrdersByColumns order) :
    let written := orderKeys (sortField p.selection.items) order
    let meant := orderKeys (behind Expr.stringValue p.selection.items) order
    ∃ sort : Document, sortDocument p.selection = .ok sort ∧
      (∀ d, p.draft = .ok d → d.sort = sort) ∧
      sort.keys = (written.map Prod.fst).eraseDups ∧
      (∀ field, sort.get? field = (Entries.get? written.reverse field).map Value.direction) ∧
      (OrderAlike sort.directions meant ↔ sort.directions = meant.firsts) ∧
      (p.LabelsNameFields order →
        written = meant ∧
        (OrderAlike sort.directions meant ↔
          ∀ field, Entries.get? meant field = Entries.get? meant.reverse field) ∧
        ∀ (κ : Type) [LinearOrder κ] (read : String → Document → κ) (x y : Document)
          (field : String),
          (∀ other, other ≠ field → read other x = read other y) →
            (compareBy read meant x y = (Entries.get? meant field).elim .eq fun ascending =>
              directed ascending (compare (read field x) (read field y))) ∧
            compareBy read sort.directions x y =
              (Entries.get? meant.reverse field).elim .eq fun ascending =>
                directed ascending (compare (read field x) (read field y))) := by
  intro written meant
  refine ⟨.ofDirections written, h.sortDocument_eq hp, ?_, Document.keys_ofDirections written,
    Document.get?_ofDirections written, Document.orderAlike_directions_iff written, ?_⟩
  · intro d hd
    have hsort := Plan.sort_of_draft hd
    rw [h.sortDocument_eq hp] at hsort
    exact (Except.ok.inj hsort).symm
  · intro hnames
    have hmeant : written = meant := h.orderKeys_eq hnames
    rw [hmeant]
    refine ⟨rfl, ?_, ?_⟩
    · rw [Document.orderAlike_directions_iff, Document.directions_eq_firsts_iff]
    · intro κ _ read x y field honly
      refine ⟨compareBy_of_only honly meant, ?_⟩
      rw [compareBy_of_only honly, Document.get?_directions_ofDirections]

/-- The selection `SELECT name AS n FROM users ORDER BY n, name DESC`. -/
def usersByNameTwice : Select :=
  ⟨false, [⟨.column (.bare "name"), some "n"⟩], .table "users" none, [], none, [], none,
    [⟨.column (.bare "n"), true⟩, ⟨.column (.bare "name"), false⟩], none, none⟩

/-- The columns that users are ordered by. -/
def nameTwice : List (Column × Bool) :=
  [(.bare "n", true), (.bare "name", false)]

theorem items_usersByNameTwice (hp : Plan.ofSelect {} 0 usersByNameTwice = .ok p) :
    p.selection.items = usersByNameTwice.items := by
  cases hp
  rfl

theorem ordersByColumns_usersByNameTwice (hp : Plan.ofSelect {} 0 usersByNameTwice = .ok p) :
    p.OrdersByColumns nameTwice := by
  cases hp
  refine ⟨rfl, rfl, by decide, ?_⟩
  intro entry _ item hitem _
  cases List.mem_singleton.mp hitem
  exact ⟨_, rfl⟩

theorem labelsNameFields_usersByNameTwice (hp : Plan.ofSelect {} 0 usersByNameTwice = .ok p) :
    p.LabelsNameFields nameTwice := by
  intro entry _ item hitem c _ hc
  rw [items_usersByNameTwice hp] at hitem
  cases List.mem_singleton.mp hitem
  cases hc
  exact ⟨rfl, by decide⟩

/-- A column and its label in opposite directions: the rows come in descending order,
although the list says ascending. -/
theorem sort_takes_last_directions_label :
    ∃ p d, Plan.ofSelect {} 0 usersByNameTwice = .ok p ∧ p.draft = .ok d ∧
      p.OrdersByColumns nameTwice ∧ p.LabelsNameFields nameTwice ∧
      d.sort = .single "name" (.int (-1)) ∧
      ¬ OrderAlike d.sort.directions [("name", true), ("name", false)] := by
  obtain ⟨p, d, hp, hd, hsort⟩ : ∃ p d, Plan.ofSelect {} 0 usersByNameTwice = .ok p ∧
      p.draft = .ok d ∧ d.sort = .single "name" (.int (-1)) := ⟨_, _, rfl, rfl, rfl⟩
  have horder := ordersByColumns_usersByNameTwice hp
  have hnames := labelsNameFields_usersByNameTwice hp
  obtain ⟨sort, -, hdraft, -, -, -, hcase⟩ := sort_takes_last_directions hp horder
  obtain ⟨-, halike, -⟩ := hcase hnames
  rw [items_usersByNameTwice hp] at halike
  refine ⟨p, d, hp, hd, horder, hnames, hsort, fun hsame => ?_⟩
  rw [hdraft d hd] at hsame
  exact absurd (halike.mp hsame "name") (by decide)

end DocQuery
