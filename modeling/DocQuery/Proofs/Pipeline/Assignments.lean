import DocQuery.Proofs.Document.Updating
import DocQuery.Proofs.Pipeline.Shape
import Mathlib.Data.List.Nodup
import Mathlib.Data.List.Pairwise

/-!
# The assignments of an update

An update statement assigns to columns from left to right, a command for updates stores
some fields and removes others all at once.  Both come to the same exactly if the
assignments keep apart: no column is given a value and removed as well, and no column is a
part of another.

* `Sql.Update.changes` — what the assignments ask for, one by one
* `netChanges` — what is left of them in the command: of each field the last value, and no
  field twice
* `writeAll_netChanges` — assignments that keep apart can be made all at once
* `pairwise_netChanges_iff` — the command is refused unless the assignments keep apart
* `update_means_assignments` — from the statement to the changed document

### What is load-bearing

Stored values replace each other in their place, while removed fields are listed apart
from them and come last.  So the order of a value and a removal of one field is lost: the
command asks for both.
-/

namespace DocQuery

open Sql Content

/-! ### Changes of a statement -/

namespace Sql

/-- What an assignment asks for: a bare `NULL` removes the field, and other constants are
stored. -/
def changeOf (types : FieldTypes) (label : String) (assignment : Column × Expr) :
    Except Fault (String × Content) :=
  let field := (assignment.1.strip label).fullName
  match assignment.2 with
  | .literal .null => .ok (field, none)
  | e => do return (field, some (← storedValue types "update" field e))

/-- **The changes that an update asks for**, from left to right. -/
def Update.changes (types : FieldTypes) (u : Update) : Except Fault (Entries Content) :=
  u.assignments.mapM (changeOf types u.table.tableLabel)

end Sql

/-- The values among changes. -/
def storedValues (changes : Entries Content) : List (String × Value) :=
  changes.filterMap fun change => change.2.map (change.1, ·)

/-- The fields that changes remove. -/
def removedFields (changes : Entries Content) : List String :=
  changes.filterMap fun change => if change.2.isNone then some change.1 else none

/-- A draft with changes. -/
def Draft.record (d : Draft) (changes : Entries Content) : Draft :=
  { d with stored := d.stored.extend ⟨storedValues changes⟩
           removed := d.removed ++ removedFields changes }

theorem Draft.record_cons (d : Draft) (change : String × Content)
    (changes : Entries Content) :
    (d.record [change]).record changes = d.record (change :: changes) := by
  obtain ⟨field, x⟩ := change
  cases x with
  | none => simp [Draft.record, storedValues, removedFields, Document.extend]
  | some v => simp [Draft.record, storedValues, removedFields, Document.extend]

/-- **Step.**  An assignment adds its change. -/
theorem addAssignment_strip (types : FieldTypes) (label : String) (d : Draft)
    (assignment : Column × Expr) :
    addAssignment types d (assignment.1.strip label, assignment.2) =
      (changeOf types label assignment).map fun change => d.record [change] := by
  obtain ⟨column, e⟩ := assignment
  by_cases hnull : e = .literal .null
  · subst hnull
    rfl
  · have hchange : changeOf types label (column, e) = (do
        return ((column.strip label).fullName,
          some (← storedValue types "update" (column.strip label).fullName e))) := by
      unfold changeOf
      dsimp only
      split
      · exact absurd rfl hnull
      · rfl
    rw [hchange]
    unfold addAssignment
    dsimp only
    split
    · exact absurd rfl hnull
    · cases storedValue types "update" (column.strip label).fullName e with
      | error fault => rfl
      | ok v =>
        have hrecord : d.record [((column.strip label).fullName, some v)] =
            { d with stored := d.stored.insert (column.strip label).fullName v } := by
          simp [Draft.record, storedValues, removedFields, Document.extend]
        exact congrArg Except.ok hrecord.symm

/-- **Run.**  The assignments add their changes. -/
theorem foldlM_addAssignment (types : FieldTypes) (label : String)
    (assignments : List (Column × Expr)) (d : Draft) :
    (assignments.map fun a => (a.1.strip label, a.2)).foldlM (addAssignment types) d =
      (assignments.mapM (changeOf types label)).map d.record := by
  induction assignments generalizing d with
  | nil =>
    have hnothing : d.record [] = d := by
      simp [Draft.record, storedValues, removedFields, Document.extend]
    simp only [List.map_nil, List.foldlM_nil, List.mapM_nil]
    exact congrArg Except.ok hnothing.symm
  | cons assignment rest ih =>
    rw [List.map_cons, List.foldlM_cons, List.mapM_cons, addAssignment_strip,
      Outcome.map_bind]
    cases changeOf types label assignment with
    | error fault => rfl
    | ok change =>
      refine (ih (d.record [change])).trans ?_
      cases rest.mapM (changeOf types label) with
      | error fault => rfl
      | ok changes => exact congrArg Except.ok (d.record_cons change changes)

/-! ### Changes of a command -/

/-- The last value of every field that is stored. -/
def netStored (changes : Entries Content) : Entries Content :=
  (Document.ofList (storedValues changes)).entries.map fun entry => (entry.1, some entry.2)

/-- The fields that are removed. -/
def netRemoved (changes : Entries Content) : Entries Content :=
  (Document.ofList ((removedFields changes).map fun field => (field, .string ""))).entries.map
    fun entry => (entry.1, none)

/-- **What is left of changes in a command**: no field is stored twice, or removed twice. -/
def netChanges (changes : Entries Content) : Entries Content :=
  netStored changes ++ netRemoved changes

/-- The document of an update holds what is left of the changes. -/
theorem Draft.changes_update {d : Draft} {changes : Entries Content}
    (hstored : d.stored = .ofList (storedValues changes))
    (hremoved : d.removed = removedFields changes) :
    d.update.operands "$set" = .ofList (storedValues changes) ∧
      d.update.operands "$unset" =
        .ofList ((removedFields changes).map fun field => (field, .string "")) ∧
      d.update.changes = netChanges changes := by
  have hset : d.update.operands "$set" = d.stored := by
    cases hnone : d.stored.isEmpty with
    | true =>
      rw [Document.eq_empty_of_isEmpty hnone]
      cases hfields : d.removed.isEmpty <;>
        simp [Document.operands, Draft.update, hnone, hfields, Document.get?, Entries.get?]
    | false => simp [Document.operands, Draft.update, hnone, Document.get?, Entries.get?]
  have hunset : d.update.operands "$unset" =
      .ofList (d.removed.map fun field => (field, .string "")) := by
    cases hnone : d.removed with
    | nil =>
      cases hfields : d.stored.isEmpty <;>
        simp [Document.operands, Draft.update, hnone, hfields, Document.get?, Entries.get?,
          Document.ofList]
    | cons field rest =>
      cases hfields : d.stored.isEmpty <;>
        simp [Document.operands, Draft.update, hnone, hfields, Document.get?, Entries.get?]
  rw [hstored] at hset
  rw [hremoved] at hunset
  exact ⟨hset, hunset, by rw [Document.changes, hset, hunset]; rfl⟩

section NetChanges

variable {changes : Entries Content} {field : String}

theorem mem_storedValues {v : Value} :
    (field, v) ∈ storedValues changes ↔ (field, some v) ∈ changes := by
  simp [storedValues, Option.map_eq_some_iff]

theorem mem_removedFields : field ∈ removedFields changes ↔ (field, none) ∈ changes := by
  simp [removedFields]

/-- The stored fields of a command are those that are given a value. -/
theorem mem_keys_storedValues :
    field ∈ (Document.ofList (storedValues changes)).keys ↔
      ∃ v, (field, some v) ∈ changes := by
  simp [Document.mem_keys_ofList, mem_storedValues]

/-- The removed fields of a command are those that are given nothing. -/
theorem mem_keys_removedFields :
    field ∈ (Document.ofList
        ((removedFields changes).map fun field => (field, .string ""))).keys ↔
      (field, none) ∈ changes := by
  simp [Document.mem_keys_ofList, mem_removedFields]

theorem mem_netChanges_some {v : Value} :
    (field, some v) ∈ netChanges changes ↔
      (field, v) ∈ (Document.ofList (storedValues changes)).entries := by
  simp [netChanges, netStored, netRemoved]

theorem mem_netChanges_none : (field, none) ∈ netChanges changes ↔
    (field, none) ∈ changes := by
  refine Iff.trans ?_ mem_keys_removedFields
  simp [netChanges, netStored, netRemoved, Document.keys]

/-- Every field of the changes is changed by the command, in the same way. -/
theorem exists_mem_netChanges {x : Content} (h : (field, x) ∈ changes) :
    ∃ y, (field, y) ∈ netChanges changes ∧ y.isSome = x.isSome := by
  cases x with
  | none => exact ⟨none, mem_netChanges_none.mpr h, rfl⟩
  | some v =>
    have hkey := mem_keys_storedValues.mpr ⟨v, h⟩
    obtain ⟨entry, hentry, rfl⟩ := List.mem_map.mp hkey
    exact ⟨some entry.2, mem_netChanges_some.mpr hentry, rfl⟩

/-- Every field that a command changes is changed by the assignments, in the same way. -/
theorem exists_mem_of_mem_netChanges {x : Content} (h : (field, x) ∈ netChanges changes) :
    ∃ y, (field, y) ∈ changes ∧ y.isSome = x.isSome := by
  cases x with
  | none => exact ⟨none, mem_netChanges_none.mp h, rfl⟩
  | some v =>
    have hentry := Document.mem_of_mem_ofList (mem_netChanges_some.mp h)
    exact ⟨some v, mem_storedValues.mp hentry, rfl⟩

/-- A command changes no field twice in one way. -/
theorem eq_of_mem_netChanges {x y : Content} (hx : (field, x) ∈ netChanges changes)
    (hy : (field, y) ∈ netChanges changes) (hkind : x.isSome = y.isSome) : x = y := by
  rcases cases_kind hkind with ⟨rfl, rfl⟩ | ⟨v, w, rfl, rfl⟩
  · rfl
  · have hnodup := Document.nodup_keys_ofList (storedValues changes)
    have hv := (Entries.get?_eq_some_iff hnodup).mpr (mem_netChanges_some.mp hx)
    have hw := (Entries.get?_eq_some_iff hnodup).mpr (mem_netChanges_some.mp hy)
    exact hv.symm.trans hw

theorem nodup_netStored (changes : Entries Content) :
    ((netStored changes).map Prod.fst).Nodup := by
  rw [netStored, List.map_map]
  exact Document.nodup_keys_ofList _

theorem nodup_netRemoved (changes : Entries Content) :
    ((netRemoved changes).map Prod.fst).Nodup := by
  rw [netRemoved, List.map_map]
  exact Document.nodup_keys_ofList _

theorem isSome_of_mem_netStored {change : String × Content} (h : change ∈ netStored changes) :
    change.2.isSome = true := by
  obtain ⟨entry, -, rfl⟩ := List.mem_map.mp h
  rfl

theorem eq_none_of_mem_netRemoved {change : String × Content}
    (h : change ∈ netRemoved changes) : change.2 = none := by
  obtain ⟨entry, -, rfl⟩ := List.mem_map.mp h
  rfl

theorem nodup_netChanges (changes : Entries Content) : (netChanges changes).Nodup := by
  refine List.nodup_append.mpr ⟨(nodup_netStored changes).of_map,
    (nodup_netRemoved changes).of_map, ?_⟩
  rintro a ha b hb rfl
  have hsome := isSome_of_mem_netStored ha
  rw [eq_none_of_mem_netRemoved hb] at hsome
  cases hsome

/-! ### Assignments that keep apart -/

/-- Two changes that keep apart: at one field both store or both remove, and two fields do
not meet. -/
def Agree (a b : String × Content) : Prop :=
  if a.1 = b.1 then a.2.isSome = b.2.isSome else Independent (parts a.1) (parts b.1)

/-- **A command is accepted exactly if its assignments keep apart.** -/
theorem pairwise_netChanges_iff :
    ((netChanges changes).map fun change => parts change.1).Pairwise Independent ↔
      ∀ a ∈ changes, ∀ b ∈ changes, Agree a b := by
  rw [List.pairwise_map]
  constructor
  · intro hpairwise a ha b hb
    obtain ⟨x, hx, hxa⟩ := exists_mem_netChanges ha
    obtain ⟨y, hy, hyb⟩ := exists_mem_netChanges hb
    have hsymm : Std.Symm fun a b : String × Content => Independent (parts a.1) (parts b.1) :=
      ⟨fun _ _ h => h.symm⟩
    have hapart := hpairwise.forall hx hy
    unfold Agree
    split
    · rename_i hfield
      by_contra hkind
      have hne : (a.1, x) ≠ (b.1, y) := fun heq =>
        hkind (by rw [← hxa, ← hyb, (Prod.mk.inj heq).2])
      have hindependent := hapart hne
      rw [hfield] at hindependent
      exact Independent.irrefl _ hindependent
    · rename_i hfield
      exact hapart fun heq => hfield (Prod.mk.inj heq).1
  · intro hagree
    refine List.Nodup.pairwise_of_forall_ne (nodup_netChanges changes) ?_
    rintro ⟨f, x⟩ hx ⟨g, y⟩ hy hne
    obtain ⟨x', hx', hxx'⟩ := exists_mem_of_mem_netChanges hx
    obtain ⟨y', hy', hyy'⟩ := exists_mem_of_mem_netChanges hy
    have hboth := hagree _ hx' _ hy'
    unfold Agree at hboth
    split at hboth
    · rename_i hfield
      obtain rfl : f = g := hfield
      have hkind : x.isSome = y.isSome := hxx'.symm.trans (hboth.trans hyy')
      exact absurd (congrArg (Prod.mk f) (eq_of_mem_netChanges hx hy hkind)) hne
    · exact hboth

theorem Agree.independent {a b : String × Content} (h : Agree a b) (hne : a.1 ≠ b.1) :
    Independent (parts a.1) (parts b.1) := by
  rwa [Agree, if_neg hne] at h

theorem netStored_append_some (changes : Entries Content) (field : String) (v : Value) :
    netStored (changes ++ [(field, some v)]) = (netStored changes).put field (some v) := by
  have hvalues : storedValues (changes ++ [(field, some v)]) = storedValues changes ++
      [(field, v)] := by
    simp [storedValues]
  rw [netStored, hvalues, Document.ofList_append_singleton]
  exact Entries.map_put some field v _

theorem netStored_append_none (changes : Entries Content) (field : String) :
    netStored (changes ++ [(field, none)]) = netStored changes := by
  simp [netStored, storedValues]

theorem netRemoved_append_some (changes : Entries Content) (field : String) (v : Value) :
    netRemoved (changes ++ [(field, some v)]) = netRemoved changes := by
  simp [netRemoved, removedFields]

theorem netRemoved_append_none (changes : Entries Content) (field : String) :
    netRemoved (changes ++ [(field, none)]) = (netRemoved changes).put field none := by
  have hfields : removedFields (changes ++ [(field, none)]) = removedFields changes ++
      [field] := by
    simp [removedFields]
  rw [netRemoved, hfields, List.map_append, List.map_singleton,
    Document.ofList_append_singleton]
  exact Entries.map_put (fun _ => none) field _ _

/-- **Assignments that keep apart can be made all at once.** -/
theorem writeAll_netChanges (hagree : ∀ a ∈ changes, ∀ b ∈ changes, Agree a b) (y : Content) :
    writeAll (netChanges changes) y = writeAll changes y := by
  induction changes using List.reverseRecOn with
  | nil => rfl
  | append_singleton changes change ih =>
    obtain ⟨field, x⟩ := change
    have hbefore := ih fun a ha b hb =>
      hagree a (List.mem_append_left _ ha) b (List.mem_append_left _ hb)
    have hlast : ∀ {a}, a ∈ changes → Agree a (field, x) := fun ha =>
      hagree _ (List.mem_append_left _ ha) _ (List.mem_append_right _ List.mem_cons_self)
    have hpaths : ∀ {a}, a ∈ netChanges changes → a.1 ≠ field →
        Independent (parts field) (parts a.1) := by
      intro a ha hne
      obtain ⟨y, hy, -⟩ := exists_mem_of_mem_netChanges ha
      exact ((hlast hy).independent hne).symm
    rw [writeAll_append changes, funext (writeAll_singleton field x), ← hbefore, netChanges,
      netChanges, writeAll_append, writeAll_append, Option.bind_assoc]
    cases x with
    | none =>
      rw [netStored_append_none, netRemoved_append_none]
      refine congrArg _ (funext fun y' => ?_)
      refine (writeAll_put (nodup_netRemoved changes) (fun a ha => ?_) (fun a ha => ?_)
        y').symm
      · rw [eq_none_of_mem_netRemoved ha]
      · exact hpaths (List.mem_append_right _ ha)
    | some v =>
      have hother : ∀ a ∈ netRemoved changes, a.2 = none ∧
          Independent (parts field) (parts a.1) := by
        intro a ha
        have hremoved := eq_none_of_mem_netRemoved ha
        refine ⟨hremoved, hpaths (List.mem_append_right _ ha) ?_⟩
        -- the field is stored, so it is not removed as well
        rintro rfl
        obtain ⟨y, hy, hkind⟩ := exists_mem_of_mem_netChanges (List.mem_append_right _ ha)
        have hboth := hlast hy
        rw [Agree, if_pos rfl, hkind, hremoved] at hboth
        cases hboth
      rw [netStored_append_some, netRemoved_append_some,
        ← writeAll_put (z := some v) (nodup_netStored changes) (fun a ha =>
          isSome_of_mem_netStored ha)
          (fun a ha => hpaths (List.mem_append_left _ ha)), Option.bind_assoc]
      exact congrArg _ (funext fun y' => (writeAll_remove_comm (some v) hother y').symm)

end NetChanges

/-! ### From the statement to the command -/

section Statements

variable {types : FieldTypes} {u : Update} {p : Plan} {d : Draft}

/-- The plan of an update has its assignments, without the base qualifier. -/
theorem Plan.action_of_ofUpdate (hp : Plan.ofStatement types (.update u) = .ok p) :
    p.types = types ∧
      p.action =
        .update (u.assignments.map fun a => (a.1.strip u.table.tableLabel, a.2)) := by
  obtain ⟨table, assignments, filter, limit⟩ := u
  cases table with
  | subquery q label => cases hp
  | table name label =>
    simp only [Plan.ofStatement, Plan.ofUpdate] at hp
    split at hp
    · cases hp
    · obtain ⟨bound, -, hp⟩ := Outcome.bind_eq_ok.mp hp
      cases Outcome.pure_eq_ok.mp hp
      exact ⟨rfl, rfl⟩

/-- The draft of an update has what its assignments add to nothing. -/
theorem Plan.changes_of_draft {assignments : List (Column × Expr)}
    (haction : p.action = .update assignments) (hd : p.draft = .ok d) :
    ∃ start own, start.stored = .empty ∧ start.removed = [] ∧
      assignments.foldlM (addAssignment p.types) start = .ok own ∧
      d.stored = own.stored ∧ d.removed = own.removed := by
  obtain ⟨start, own, hstart, hown, hafter⟩ := Plan.exists_run_around hd
    [.source, .distinct, .groupBy, .totalGroup, .projection, .countAll, .joins, .orderBy,
      .filter, .having, .paging] .assignments _ rfl
  have hbegin : (start.stored, start.removed) = (.empty, []) :=
    Step.foldlM_keeps (fun d => (d.stored, d.removed))
      (fun step hmem _ _ hk => Prod.ext_iff.mpr
        (hk.changes (by rintro rfl; simp at hmem))) hstart
  have hend : (d.stored, d.removed) = (own.stored, own.removed) :=
    Step.foldlM_keeps (fun d => (d.stored, d.removed))
      (fun step hmem _ _ hk => Prod.ext_iff.mpr
        (hk.changes (by rintro rfl; simp at hmem))) hafter
  rw [Step.run, haction] at hown
  exact ⟨start, own, congrArg Prod.fst hbegin, congrArg Prod.snd hbegin, hown,
    congrArg Prod.fst hend, congrArg Prod.snd hend⟩

/-- **The draft of an update has the changes of its statement.** -/
theorem Plan.exists_changes_of_draft (hp : Plan.ofStatement types (.update u) = .ok p)
    (hd : p.draft = .ok d) :
    ∃ changes, u.changes types = .ok changes ∧ d.stored = .ofList (storedValues changes) ∧
      d.removed = removedFields changes := by
  obtain ⟨rfl, haction⟩ := Plan.action_of_ofUpdate hp
  obtain ⟨start, own, hstored, hremoved, hrun, hstoredEnd, hremovedEnd⟩ :=
    Plan.changes_of_draft haction hd
  rw [foldlM_addAssignment] at hrun
  cases hchanges : u.assignments.mapM (changeOf p.types u.table.tableLabel) with
  | error fault =>
    rw [hchanges] at hrun
    cases hrun
  | ok changes =>
    rw [hchanges] at hrun
    cases hrun
    refine ⟨changes, hchanges, ?_, ?_⟩
    · rw [hstoredEnd, Draft.record, hstored]
      rfl
    · rw [hremovedEnd, Draft.record, hremoved]
      rfl

end Statements

/-- **An update means its assignments, if they keep apart.**  The command of an update
stores the fields that are assigned a value and removes those that are assigned a bare
`NULL`, so a field is in both exactly if it is assigned both.  If the assignments keep
apart, the command makes of every document what they make of it one after the other from
left to right, and each field then holds what was assigned to it last.  Otherwise the
command is refused. -/
theorem update_means_assignments (settings : Settings) {u : Update} {c : Command}
    (h : settings.commandOfStatement (.update u) = .ok c) :
    ∃ changes filter update, u.changes settings.types = .ok changes ∧
      c.operation = .updateMany filter update ∧
      (∀ field, (field ∈ (update.operands "$set").keys ↔ ∃ v, (field, some v) ∈ changes) ∧
        (field ∈ (update.operands "$unset").keys ↔ (field, none) ∈ changes)) ∧
      ((∀ a ∈ changes, ∀ b ∈ changes, Agree a b) → ∀ d,
        update.updated? d = d.assigned? changes ∧
        ∀ d', update.updated? d = some d' → ∀ before field x behind,
          changes = before ++ (field, x) :: behind → (∀ a ∈ behind, a.1 ≠ field) →
            d'.at? field = x) ∧
      ((∃ a ∈ changes, ∃ b ∈ changes, ¬ Agree a b) → ∀ d, update.updated? d = none) := by
  obtain ⟨p, hp, h⟩ := Outcome.bind_eq_ok.mp h
  obtain ⟨-, -, h⟩ := Outcome.bind_eq_ok.mp h
  obtain ⟨draft, hd, h⟩ := Outcome.bind_eq_ok.mp h
  cases Outcome.pure_eq_ok.mp h
  obtain ⟨changes, hchanges, hstored, hremoved⟩ := Plan.exists_changes_of_draft hp hd
  obtain ⟨hset, hunset, hnet⟩ := Draft.changes_update hstored hremoved
  have hoperation : (draft.command p settings.aggregationOptions).operation =
      .updateMany draft.filter draft.update := by
    rw [Draft.command, Draft.operation, (Plan.action_of_ofUpdate hp).2]
  have hupdated : ∀ d, draft.update.updated? d =
      if ((netChanges changes).map fun change => parts change.1).Pairwise Independent then
        d.assigned? (netChanges changes)
      else none := fun d => by rw [Document.updated?, hnet]
  refine ⟨changes, draft.filter, draft.update, hchanges, hoperation, fun field => ?_, ?_, ?_⟩
  · rw [hset, hunset]
    exact ⟨mem_keys_storedValues, mem_keys_removedFields⟩
  · intro hagree d
    have hsame : draft.update.updated? d = d.assigned? changes := by
      rw [hupdated, if_pos (pairwise_netChanges_iff.mpr hagree), Document.assigned?,
        writeAll_netChanges hagree, Document.assigned?]
    refine ⟨hsame, ?_⟩
    rintro d' hd' before field x behind rfl hlast
    rw [hsame] at hd'
    refine Document.at?_of_assigned? (fun a ha => ?_) hd'
    have hx : (field, x) ∈ before ++ (field, x) :: behind := by simp
    exact (hagree _ hx a (by simp [ha])).independent (Ne.symm (hlast a ha))
  · rintro ⟨a, ha, b, hb, hclash⟩ d
    rw [hupdated, if_neg fun hpairwise =>
      hclash (pairwise_netChanges_iff.mp hpairwise a ha b hb)]

/-- The statement `UPDATE users SET a = 1, a = second`. -/
def assignTwice (second : Literal) : Update :=
  ⟨.table "users" none, [(.bare "a", .literal (.int 1)), (.bare "a", .literal second)],
    none, none⟩

/-- The update that stores `2` under `a`. -/
def storeTwo : Document :=
  .single "$set" (.document (.single "a" (.int 2)))

/-- The update that stores `1` under `a` and removes `a` as well. -/
def storeAndRemove : Document :=
  ⟨[("$set", .document (.single "a" (.int 1))),
    ("$unset", .document (.single "a" (.string "")))]⟩

/-- A value may be assigned again, but not removed again. -/
theorem update_means_assignments_twice :
    Settings.commandOfStatement {} (.update (assignTwice (.int 2))) =
        .ok ⟨"users", .updateMany .empty storeTwo⟩ ∧
      (∀ d, storeTwo.updated? d = d.assigned? [("a", some (.int 1)), ("a", some (.int 2))]) ∧
      storeTwo.updated? (.single "b" .null) = some ⟨[("b", .null), ("a", .int 2)]⟩ ∧
    Settings.commandOfStatement {} (.update (assignTwice .null)) =
        .ok ⟨"users", .updateMany .empty storeAndRemove⟩ ∧
      ∀ d, storeAndRemove.updated? d = none := by
  have htwo : Settings.commandOfStatement {} (.update (assignTwice (.int 2))) =
      .ok ⟨"users", .updateMany .empty storeTwo⟩ := rfl
  have hnull : Settings.commandOfStatement {} (.update (assignTwice .null)) =
      .ok ⟨"users", .updateMany .empty storeAndRemove⟩ := rfl
  refine ⟨htwo, fun d => ?_, rfl, hnull, fun d => ?_⟩
  · obtain ⟨changes, _, _, hchanges, hoperation, -, hagree, -⟩ :=
      update_means_assignments {} htwo
    cases hoperation
    obtain rfl : [("a", some (.int 1)), ("a", some (.int 2))] = changes :=
      Except.ok.inj hchanges
    refine (hagree (fun a ha b hb => ?_) d).1
    simp only [List.mem_cons, List.not_mem_nil, or_false] at ha hb
    rcases ha with rfl | rfl <;> rcases hb with rfl | rfl <;> rfl
  · obtain ⟨changes, _, _, hchanges, hoperation, -, -, hclash⟩ :=
      update_means_assignments {} hnull
    cases hoperation
    obtain rfl : [("a", some (.int 1)), ("a", none)] = changes := Except.ok.inj hchanges
    refine hclash ⟨("a", some (.int 1)), by simp, ("a", none), by simp, ?_⟩ d
    rw [Agree, if_pos rfl]
    exact fun h => Bool.false_ne_true h.symm

end DocQuery
