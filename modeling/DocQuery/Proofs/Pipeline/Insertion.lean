import DocQuery.Convert
import DocQuery.Proofs.Document.Storing
import DocQuery.Proofs.Pipeline.Steps
import Mathlib.Data.List.Forall2

/-!
# Insertions

An insertion stores all of its rows or none.  Its form is checked when it is planned, its
values when the rows become documents, and the first fault in that order is the one that
is reported.

* `Sql.Insert.faults` — all that is wrong with an insertion, in the order of the checks
* `Sql.Insert.IsAcceptable`, `Sql.Insert.faults_eq_nil_iff` — an insertion with nothing wrong
* `Sql.Insert.HoldsRow`, `Sql.Insert.holdsRow_of_rowDocument` — the document of a row
* `Settings.commandOfStatement_insert` — the checks of both layers, one after the other
* `insertion_all_or_nothing` — when an insertion is accepted, what it stores and why it is
  refused

### What is load-bearing

Columns and values are paired by a `zip`, which would drop the end of the longer list.
The widths of all rows are checked in the layer before, so that nothing is dropped.
-/

namespace DocQuery

open Outcome

namespace Sql

/-- The expressions that may stand in a row: constants, with or without signs. -/
def Expr.isStorable : Expr → Bool
  | .literal _ | .signed .. => true
  | _ => false

namespace Insert

/-! ### Faults -/

/-- What is wrong with the form: with the table, with the columns, and with the width of
each row. -/
def formFaults (i : Insert) : List Fault :=
  (if Text.allBlank i.table then [.insertWithoutTable] else []) ++
  (if i.columns.isEmpty then [.insertWithoutColumns] else []) ++
  (i.rows.filter (·.length != i.columns.length)).map fun row =>
    .rowWidth i.columns.length row.length

/-- The fault of an expression as the value of a column. -/
def cellFault? (types : FieldTypes) (column : String) (e : Expr) : Option Fault :=
  if e.isStorable then fault? (Operand.value types none (some (.column (.bare column))) e)
  else some (.storedExpression "insert" e.display)

/-- What is wrong with the values, row by row and from left to right. -/
def valueFaults (types : FieldTypes) (i : Insert) : List Fault :=
  i.rows.flatMap fun row => (i.columns.zip row).filterMap fun cell =>
    cellFault? types cell.1 cell.2

/-- **All that is wrong with an insertion**, in the order of the checks. -/
def faults (types : FieldTypes) (i : Insert) : List Fault :=
  i.formFaults ++ i.valueFaults types

/-- **An insertion with nothing wrong.** -/
structure IsAcceptable (types : FieldTypes) (i : Insert) : Prop where
  table : Text.allBlank i.table = false
  columns : i.columns ≠ []
  width : ∀ row ∈ i.rows, row.length = i.columns.length
  value : ∀ row ∈ i.rows, ∀ (k : Nat) (column : String)
    (e : Expr), i.columns[k]? = some column →
    row[k]? = some e →
      e.isStorable = true ∧
        ∃ v, Operand.value types none (some (.column (.bare column))) e = .ok v

theorem cellFault?_eq_none_iff {types : FieldTypes} {column : String} {e : Expr} :
    cellFault? types column e = none ↔ e.isStorable = true ∧
      ∃ v, Operand.value types none (some (.column (.bare column))) e = .ok v := by
  rw [cellFault?]
  cases e.isStorable with
  | true => simp [fault?_eq_none_iff]
  | false => simp

theorem formFaults_eq_nil_iff {i : Insert} :
    i.formFaults = [] ↔ Text.allBlank i.table = false ∧ i.columns ≠ [] ∧
      ∀ row ∈ i.rows, row.length = i.columns.length := by
  simp [formFaults, List.append_eq_nil_iff, List.filter_eq_nil_iff]

theorem valueFaults_eq_nil_iff {types : FieldTypes} {i : Insert} :
    i.valueFaults types = [] ↔ ∀ row ∈ i.rows, ∀ (k : Nat) (column : String) (e : Expr),
      i.columns[k]? = some column → row[k]? = some e →
        e.isStorable = true ∧
          ∃ v, Operand.value types none (some (.column (.bare column))) e = .ok v := by
  rw [valueFaults, List.flatMap_eq_nil_iff]
  refine forall₂_congr fun row _ => ?_
  rw [List.filterMap_eq_nil_iff]
  constructor
  · intro h k column e hcolumn he
    have hcell : (column, e) ∈ i.columns.zip row :=
      List.mem_of_getElem? (List.getElem?_zip_eq_some.mpr ⟨hcolumn, he⟩)
    exact cellFault?_eq_none_iff.mp (h (column, e) hcell)
  · intro h cell hcell
    obtain ⟨k, hk⟩ := List.mem_iff_getElem?.mp hcell
    obtain ⟨hcolumn, he⟩ := List.getElem?_zip_eq_some.mp hk
    exact cellFault?_eq_none_iff.mpr (h k cell.1 cell.2 hcolumn he)

theorem faults_eq_nil_iff {types : FieldTypes} {i : Insert} :
    i.faults types = [] ↔ i.IsAcceptable types := by
  rw [faults, List.append_eq_nil_iff, formFaults_eq_nil_iff, valueFaults_eq_nil_iff]
  constructor
  · rintro ⟨⟨htable, hcolumns, hwidth⟩, hvalue⟩
    exact ⟨htable, hcolumns, hwidth, hvalue⟩
  · rintro ⟨htable, hcolumns, hwidth, hvalue⟩
    exact ⟨⟨htable, hcolumns, hwidth⟩, hvalue⟩

/-! ### Rows -/

/-- **The document of a row.**  Its keys are the columns in the order in which they first
come, and a column has the value that stands at its last place in the row. -/
structure HoldsRow (types : FieldTypes) (columns : List String) (row : List Expr)
    (d : Document) : Prop where
  keys : d.keys = columns.eraseDups
  value : ∀ (k : Nat) (column : String), columns[k]? = some column →
    column ∉ columns.drop (k + 1) →
    ∃ e v, row[k]? = some e ∧
      Operand.value types none (some (.column (.bare column))) e = .ok v ∧
      d.get? column = some v

end Insert

end Sql

open Sql

section Rows

variable {types : FieldTypes} {columns : List String} {row : List Expr}

theorem fault?_storedValue (types : FieldTypes) (column : String) (e : Expr) :
    fault? (storedValue types "insert" column e) = Insert.cellFault? types column e := by
  cases e <;> rfl

/-- A value that is stored is the value of its expression. -/
theorem value_of_storedValue {context column : String} {e : Expr} {v : Value}
    (h : storedValue types context column e = .ok v) :
    Operand.value types none (some (.column (.bare column))) e = .ok v := by
  cases e with
  | literal l => exact h
  | signed minus e => exact h
  | _ => cases h

/-- The first value of a row that cannot be stored decides. -/
theorem fault?_rowDocument (types : FieldTypes) (columns : List String) (row : List Expr) :
    fault? (rowDocument types columns row) =
      ((columns.zip row).filterMap fun cell => Insert.cellFault? types cell.1
        cell.2).head? := by
  rw [rowDocument, fault?_bind_of_ok _ fun _ => rfl, fault?_mapM, List.head?_filterMap]
  congr 1
  funext cell
  rw [fault?_bind_of_ok _ fun _ => rfl, fault?_storedValue]

/-- An entry of the document of a row is a column with the value that stands below it. -/
theorem exists_entry_of_mapM {entries : List (String × Value)}
    (hwidth : row.length = columns.length) (h : (columns.zip row).mapM (fun cell => do
      return (cell.1, ← storedValue types "insert" cell.1 cell.2)) = .ok entries)
    {k : Nat} {column : String} (hcolumn : columns[k]? = some column) :
    ∃ e v, row[k]? = some e ∧
      Operand.value types none (some (.column (.bare column))) e = .ok v ∧
      entries[k]? = some (column, v) := by
  obtain ⟨e, he⟩ : ∃ e, row[k]? = some e := by
    obtain ⟨hlength, -⟩ := List.getElem?_eq_some_iff.mp hcolumn
    exact ⟨_, List.getElem?_eq_getElem (hwidth ▸ hlength)⟩
  have hcell : (columns.zip row)[k]? = some (column, e) :=
    List.getElem?_zip_eq_some.mpr ⟨hcolumn, he⟩
  have houtcome := congrArg (·[k]?) (map_eq_of_mapM h)
  simp only [List.getElem?_map, hcell, Option.map_some] at houtcome
  obtain ⟨entry, hentry, hok⟩ := Option.map_eq_some_iff.mp houtcome.symm
  obtain ⟨v, hv, hpair⟩ := bind_eq_ok.mp hok.symm
  cases pure_eq_ok.mp hpair
  exact ⟨e, v, he, value_of_storedValue hv, hentry⟩

/-- **What the document of a row holds.** -/
theorem Sql.Insert.holdsRow_of_rowDocument {d : Document}
    (hwidth : row.length = columns.length) (h : rowDocument types columns row = .ok d) :
    Insert.HoldsRow types columns row d := by
  obtain ⟨entries, hentries, h⟩ := bind_eq_ok.mp h
  cases pure_eq_ok.mp h
  have hlength : entries.length = columns.length := by
    have hlengths := congrArg List.length (map_eq_of_mapM hentries)
    rw [List.length_map, List.length_map, List.length_zip, hwidth, Nat.min_self] at hlengths
    exact hlengths.symm
  have hnames : entries.map Prod.fst = columns := by
    refine List.ext_getElem? fun k => ?_
    rw [List.getElem?_map]
    cases hcolumn : columns[k]? with
    | none =>
      rw [List.getElem?_eq_none (hlength ▸ List.getElem?_eq_none_iff.mp hcolumn)]
      rfl
    | some column =>
      obtain ⟨e, v, -, -, hentry⟩ := exists_entry_of_mapM hwidth hentries hcolumn
      rw [hentry]
      rfl
  refine ⟨by rw [Document.keys_ofList, hnames], fun k column hcolumn hlast => ?_⟩
  obtain ⟨e, v, he, hv, hentry⟩ := exists_entry_of_mapM hwidth hentries hcolumn
  refine ⟨e, v, he, hv, Document.get?_ofList_of_last hentry ?_⟩
  rw [List.map_drop, hnames]
  exact hlast

end Rows

/-! ### Insertions -/

/-- The plan of an insertion whose form is right. -/
def Sql.Insert.plan (types : FieldTypes) (i : Insert) : Plan :=
  .ofSource types (.of none (.collection i.table)) none (-1) (.insert i.columns i.rows)

/-- The first fault in the form of an insertion decides. -/
theorem Plan.ofInsert_eq (types : FieldTypes) (i : Insert) :
    Plan.ofInsert types i = i.formFaults.head?.elim (.ok (i.plan types)) .error := by
  rw [Plan.ofInsert, Insert.formFaults, List.head?_append, List.head?_append, List.head?_map,
    List.head?_filter]
  cases htable : Text.allBlank i.table with
  | true => rfl
  | false =>
    cases hcolumns : i.columns.isEmpty with
    | true => rfl
    | false =>
      cases hrow : i.rows.find? (·.length != i.columns.length) with
      | some row => rfl
      | none => rfl

/-- No step but the last one adds anything to an insertion. -/
theorem Sql.Insert.draft_plan (types : FieldTypes) (i : Insert) :
    (i.plan types).draft = (do
      return {
        collection := i.table
        documents := ← i.rows.mapM (rowDocument types i.columns) }) := by
  rw [Plan.draft_eq_runSteps]
  change (do
    let d : Draft := { collection := i.table }
    return { d with documents := d.documents ++
      (← i.rows.mapM (rowDocument types i.columns)) }) >>=
      pure = _
  cases i.rows.mapM (rowDocument types i.columns) <;> rfl

/-- **The two layers of an insertion**: the form is checked, then the rows become
documents. -/
theorem Settings.commandOfStatement_insert (settings : Settings) (i : Insert) :
    settings.commandOfStatement (.insert i) = i.formFaults.head?.elim
      (do return ⟨i.table,
        .insertMany (← i.rows.mapM (rowDocument settings.types i.columns))⟩)
      .error := by
  rw [Settings.commandOfStatement, Plan.ofStatement, Plan.ofInsert_eq]
  cases i.formFaults.head? with
  | some fault => rfl
  | none =>
    change (i.plan settings.types).command settings = _
    rw [Plan.command, Insert.draft_plan]
    cases i.rows.mapM (rowDocument settings.types i.columns) <;> rfl

/-- **The first fault of an insertion is the one that is reported.** -/
theorem Settings.fault?_commandOfStatement_insert (settings : Settings) (i : Insert) :
    fault? (settings.commandOfStatement (.insert i)) = (i.faults settings.types).head? := by
  rw [Settings.commandOfStatement_insert, Insert.faults, List.head?_append]
  cases i.formFaults.head? with
  | some fault => rfl
  | none =>
    calc fault? (do
          return (⟨i.table,
            .insertMany (← i.rows.mapM (rowDocument settings.types i.columns))⟩ : Command))
        = fault? (i.rows.mapM (rowDocument settings.types i.columns)) :=
          fault?_bind_of_ok _ fun _ => rfl
      _ = i.rows.findSome? fun row => fault? (rowDocument settings.types i.columns row) :=
          fault?_mapM _ _
      _ = (i.valueFaults settings.types).head? := by
          rw [Insert.valueFaults, List.head?_flatMap]
          simp only [fault?_rowDocument]

/-- **An insertion stores all of its rows or none.**  It is accepted exactly if nothing is
wrong with it; it then adds one document for each row, in their order, and each holds the
values of its row.  Else it is refused because of the first thing that is wrong. -/
theorem insertion_all_or_nothing (settings : Settings) (i : Insert) :
    ((∃ c, settings.commandOfStatement (.insert i) = .ok c) ↔ i.IsAcceptable settings.types) ∧
    (∀ c, settings.commandOfStatement (.insert i) = .ok c → c.collection = i.table ∧
      ∃ documents, c.operation = .insertMany documents ∧
        List.Forall₂ (Insert.HoldsRow settings.types i.columns) i.rows documents) ∧
    ∀ fault, settings.commandOfStatement (.insert i) = .error fault ↔
      (i.faults settings.types).head? = some fault := by
  have hfault := settings.fault?_commandOfStatement_insert i
  have haccepted : (∃ c, settings.commandOfStatement (.insert i) = .ok c) ↔
      i.IsAcceptable settings.types := by
    rw [← fault?_eq_none_iff, hfault, List.head?_eq_none_iff, Insert.faults_eq_nil_iff]
  refine ⟨haccepted, fun c hc => ?_, fun fault => by rw [← fault?_eq_some_iff, hfault]⟩
  have hacceptable := haccepted.mp ⟨c, hc⟩
  have hform : i.formFaults = [] :=
    (List.append_eq_nil_iff.mp (Insert.faults_eq_nil_iff.mpr hacceptable)).1
  rw [Settings.commandOfStatement_insert, hform] at hc
  obtain ⟨documents, hdocuments, hc⟩ := bind_eq_ok.mp hc
  cases pure_eq_ok.mp hc
  have hrows : List.Forall₂ (fun row d => rowDocument settings.types i.columns row =
    .ok d) i.rows
      documents := by
    have hall := List.forall₂_eq_eq_eq.symm ▸ map_eq_of_mapM hdocuments
    rwa [List.forall₂_map_left_iff, List.forall₂_map_right_iff] at hall
  exact ⟨rfl, documents, rfl, ((List.forall₂_and_left _ _).mpr ⟨hacceptable.width, hrows⟩).imp
    fun _ _ h => Insert.holdsRow_of_rowDocument h.1 h.2⟩

/-- Two rows, with a column that is written twice. -/
def twoRows : Insert where
  table := "t"
  columns := ["a", "b", "a"]
  rows := [[.literal (.int 1), .literal .null, .literal (.int 2)],
    [.signed true (.literal (.int 3)), .literal (.bool true), .literal (.string "x")]]

/-- The value at the last place stays; a row that is too short comes before a column as a
value. -/
theorem insertion_all_or_nothing_two_rows :
    Settings.commandOfStatement {} (.insert twoRows) = .ok ⟨"t", .insertMany
      [⟨[("a", .int 2), ("b", .null)]⟩, ⟨[("a", .string "x"), ("b", .bool true)]⟩]⟩ ∧
    twoRows.IsAcceptable {} ∧
    (∃ documents, List.Forall₂ (Insert.HoldsRow {} twoRows.columns) twoRows.rows documents) ∧
    Settings.commandOfStatement {} (.insert
      ⟨"t", ["a", "b"], [[.column (.bare "c"), .literal .null], [.literal .null]]⟩) =
        .error (.rowWidth 2 1) := by
  have hcommand : Settings.commandOfStatement {} (.insert twoRows) = .ok ⟨"t", .insertMany
      [⟨[("a", .int 2), ("b", .null)]⟩, ⟨[("a", .string "x"), ("b", .bool true)]⟩]⟩ := rfl
  have h := insertion_all_or_nothing {} twoRows
  obtain ⟨-, documents, -, hrows⟩ := h.2.1 _ hcommand
  exact ⟨hcommand, h.1.mp ⟨_, hcommand⟩, ⟨documents, hrows⟩,
    ((insertion_all_or_nothing {} _).2.2 _).mpr rfl⟩

end DocQuery
