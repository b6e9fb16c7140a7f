import DocQuery.Document.Json
import DocQuery.Proofs.Document.History
import Mathlib.Data.List.Perm.Basic
import Mathlib.Data.List.Forall2

/-!
# The two JSON forms of a value

A value has a JSON form whose members stand in the order of the fields, and one whose
members are sorted by key.  Both say what the value is, entry by entry, so they differ in
the order of members alone.

* `Json.sorted_sortMembers`, `Json.perm_sortMembers` — sorting members
* `Value.KeysDistinct` — a value whose documents hold no key twice
* `Value.keysDistinct_of_run?` — what a series of changes builds is such a value
* `Arrangement`, `Json.StandsFor` — a JSON value that says what a value is, with members
  in a given order
* `Value.standsFor_toJson`, `Value.standsFor_toSortedJson` — so do the two forms
* `Json.Reordered` — two JSON values that differ in the order of members alone
* `Json.StandsFor.reordered` — and so do all JSON values that say what one value is
* `json_forms_differ_in_order_alone` — the two forms

### What is load-bearing

Of members with one key the sorted form keeps the last one only.  A document holds no key
twice, and this has to be known at every depth (`Value.KeysDistinct`).
-/

namespace DocQuery

/-! ### Sorting members -/

namespace Json

variable {key : String} {value : Json} {members : List (String × Json)}

/-- The keys of members in order, none of them twice. -/
def Sorted (members : List (String × Json)) : Prop :=
  (members.map Prod.fst).Pairwise (· < ·)

theorem mem_of_mem_putSorted {member : String × Json}
    (h : member ∈ putSorted key value members) :
    member = (key, value) ∨ member ∈ members := by
  induction members with
  | nil => exact .inl (List.mem_singleton.mp h)
  | cons first rest ih =>
    rw [putSorted] at h
    split at h
    · exact List.mem_cons.mp h
    · split at h
      · exact (List.mem_cons.mp h).imp_right (List.mem_cons_of_mem first)
      · rcases List.mem_cons.mp h with rfl | h
        · exact .inr List.mem_cons_self
        · exact (ih h).imp_right (List.mem_cons_of_mem first)

/-- **Step.**  Storing a member keeps the members sorted. -/
theorem Sorted.putSorted (h : Sorted members) (key : String) (value : Json) :
    Sorted (putSorted key value members) := by
  induction members with
  | nil => exact List.pairwise_singleton ..
  | cons first rest ih =>
    obtain ⟨hfirst, hrest⟩ := List.pairwise_cons.mp h
    rw [Json.putSorted]
    split
    · rename_i hlt
      refine List.pairwise_cons.mpr ⟨fun other hother => ?_, h⟩
      rcases List.mem_cons.mp hother with rfl | hother
      · exact hlt
      · exact String.lt_trans hlt (hfirst other hother)
    · rename_i hnot
      split
      · rename_i heq
        rw [← beq_iff_eq.mp heq] at hfirst
        exact List.pairwise_cons.mpr ⟨hfirst, hrest⟩
      · rename_i hne
        have hlt : first.1 < key :=
          Std.lt_of_le_of_ne (String.not_lt.mp hnot) fun heq => hne (beq_iff_eq.mpr heq.symm)
        refine List.pairwise_cons.mpr ⟨fun other hother => ?_, ih hrest⟩
        obtain ⟨member, hmember, rfl⟩ := List.mem_map.mp hother
        rcases mem_of_mem_putSorted hmember with rfl | hmember
        · exact hlt
        · exact hfirst member.1 (List.mem_map_of_mem hmember)

/-- **Step.**  Storing a member with a new key loses none of the others. -/
theorem perm_putSorted (h : key ∉ members.map Prod.fst) :
    (putSorted key value members).Perm ((key, value) :: members) := by
  induction members with
  | nil => exact .refl _
  | cons first rest ih =>
    obtain ⟨hfirst, hrest⟩ := not_or.mp (mt List.mem_cons.mpr h)
    rw [putSorted]
    split
    · exact .refl _
    · rw [if_neg (by simpa using hfirst)]
      exact ((ih hrest).cons first).trans (.swap _ _ _)

/-- **Run.**  Members that are stored one by one are sorted. -/
theorem sorted_sortMembers (members : List (String × Json)) :
    Sorted (sortMembers members) := by
  have hrun : ∀ acc, Sorted acc →
      Sorted (members.foldl (fun acc entry => putSorted entry.1 entry.2 acc) acc) := by
    induction members with
    | nil => exact fun _ h => h
    | cons member rest ih => exact fun acc h => ih _ (h.putSorted member.1 member.2)
  exact hrun [] List.Pairwise.nil

/-- **Run.**  Members with different keys are all kept. -/
theorem perm_sortMembers (h : (members.map Prod.fst).Nodup) :
    (sortMembers members).Perm members := by
  have hrun : ∀ acc : List (String × Json), ((acc ++ members).map Prod.fst).Nodup →
      (members.foldl (fun acc entry => putSorted entry.1 entry.2 acc) acc).Perm (acc ++
        members) := by
    clear h
    induction members with
    | nil => exact fun acc _ => by rw [List.append_nil]; exact .refl acc
    | cons member rest ih =>
      intro acc hkeys
      have hmiddle : (acc ++ member :: rest).Perm (member :: acc ++ rest) := List.perm_middle
      have hnodup := (hmiddle.map Prod.fst).nodup_iff.mp hkeys
      rw [List.cons_append, List.map_cons, List.nodup_cons, List.map_append] at hnodup
      have hnew : member.1 ∉ acc.map Prod.fst :=
        fun hmem => hnodup.1 (List.mem_append_left _ hmem)
      have hput : (putSorted member.1 member.2 acc).Perm (member :: acc) :=
        perm_putSorted hnew
      have hall := (hput.append_right rest).trans hmiddle.symm
      exact (ih _ ((hall.map Prod.fst).nodup_iff.mpr hkeys)).trans hall
  exact hrun [] h

end Json

/-! ### What a JSON value says -/

/-- **A value whose documents, at every depth, hold no key twice.** -/
inductive Value.KeysDistinct : Value → Prop
  | null : KeysDistinct .null
  | bool (b : Bool) : KeysDistinct (.bool b)
  | int (n : Int) : KeysDistinct (.int n)
  | double (x : Float) : KeysDistinct (.double x)
  | string (s : String) : KeysDistinct (.string s)
  | objectId (id : ObjectId) : KeysDistinct (.objectId id)
  | date (instant : Calendar.Instant) : KeysDistinct (.date instant)
  | array {items : List Value} (h : ∀ v ∈ items, KeysDistinct v) : KeysDistinct (.array items)
  | document {d : Document} (hkeys : d.keys.Nodup)
    (h : ∀ entry ∈ d.entries, KeysDistinct entry.2) :
      KeysDistinct (.document d)

open Document in
/-- A series of changes that gives keys such values builds such a value. -/
theorem Value.keysDistinct_of_run? {edits : List Edit} {d : Document}
    (hrun : run? edits = some d)
    (h : ∀ given ∈ history edits, ∀ v, given.2 = some v → v.KeysDistinct) :
    (Value.document d).KeysDistinct := by
  obtain ⟨built, hbuilt, hfollows⟩ := exists_run? edits
  obtain rfl : built = d := Option.some.inj (hbuilt.symm.trans hrun)
  refine .document hfollows.distinct fun entry hentry => ?_
  have hget : built.get? entry.1 = some entry.2 :=
    (Entries.get?_eq_some_iff hfollows.distinct).mpr hentry
  obtain ⟨before, after, hhistory, -⟩ := (hfollows.get?_eq_some_iff entry.1 entry.2).mp hget
  exact h (entry.1, some entry.2) (by rw [hhistory]; simp) entry.2 rfl

/-- An order in which the fields of a document are listed. -/
inductive Arrangement where
  | asStored
  | byKey

/-- The fields of a document, each of them once, listed in an order. -/
def Arrangement.Lists : Arrangement → Document → List (String × Value) → Prop
  | .asStored, d, fields => fields = d.entries
  | .byKey, d, fields => fields.Perm d.entries ∧ (fields.map Prod.fst).Pairwise (· < ·)

theorem Arrangement.Lists.perm {order : Arrangement} {d : Document}
    {fields : List (String × Value)} (h : order.Lists d fields) : fields.Perm d.entries := by
  cases order with
  | asStored => exact List.Perm.of_eq h
  | byKey => exact h.1

mutual

/-- **A JSON value that says what a value is.**  Identifiers and dates are objects with
one member, and doubles that are no finite numbers are null.  An array has an item for
each item, and an object has a member for each field of the document, with the members in
the given order. -/
inductive Json.StandsFor (order : Arrangement) : Json → Value → Prop
  | null : Json.StandsFor order .null .null
  | bool (b : Bool) : Json.StandsFor order (.bool b) (.bool b)
  | int (n : Int) : Json.StandsFor order (.int n) (.int n)
  | finite {x : Float} (h : x.isFinite = true) : Json.StandsFor order (.double x) (.double x)
  | notFinite {x : Float} (h : x.isFinite = false) : Json.StandsFor order .null (.double x)
  | string (s : String) : Json.StandsFor order (.string s) (.string s)
  | objectId (id : ObjectId) : Json.StandsFor order (.object [("$oid", .string id.hex)])
    (.objectId id)
  | date (instant : Calendar.Instant) :
      Json.StandsFor order (.object [("$date", .string instant.render)]) (.date instant)
  | array {items : List Json} {values : List Value}
      (h : List.Forall₂ (Json.StandsFor order) items values) :
      Json.StandsFor order (.array items) (.array values)
  | document {members : List (String × Json)} {d : Document} {fields : List (String × Value)}
      (hlists : order.Lists d fields)
        (h : List.Forall₂ (Json.MemberFor order) members fields) :
      Json.StandsFor order (.object members) (.document d)

/-- A member that says what a field is. -/
inductive Json.MemberFor (order : Arrangement) : String × Json → String × Value → Prop
  | mk (key : String) {j : Json} {v : Value} (h : Json.StandsFor order j v) :
      Json.MemberFor order (key, j) (key, v)

end

mutual

/-- **Two JSON values that differ in the order of members alone**, at any depth. -/
inductive Json.Reordered : Json → Json → Prop
  | same (j : Json) : Json.Reordered j j
  | array {items items' : List Json} (h : List.Forall₂ Json.Reordered items items') :
      Json.Reordered (.array items) (.array items')
  | object {members arranged members' : List (String × Json)} (hperm : members.Perm arranged)
      (h : List.Forall₂ Json.MemberReordered arranged members') :
      Json.Reordered (.object members) (.object members')

/-- Two members with one key whose values differ in the order of members alone. -/
inductive Json.MemberReordered : String × Json → String × Json → Prop
  | mk (key : String) {j j' : Json} (h : Json.Reordered j j') :
  Json.MemberReordered (key, j) (key, j')

end

/-! ### The two forms -/

theorem jsonOfItems_eq_map (items : List Value) :
    jsonOfItems items = items.map Value.toJson := by
  induction items with
  | nil => rfl
  | cons v rest ih => rw [jsonOfItems, ih, List.map_cons]

theorem jsonOfEntries_eq_map (entries : List (String × Value)) :
    jsonOfEntries entries = entries.map fun entry => (entry.1, entry.2.toJson) := by
  induction entries with
  | nil => rfl
  | cons entry rest ih => rw [jsonOfEntries, ih, List.map_cons]

theorem sortedJsonOfItems_eq_map (items : List Value) :
    sortedJsonOfItems items = items.map Value.toSortedJson := by
  induction items with
  | nil => rfl
  | cons v rest ih => rw [sortedJsonOfItems, ih, List.map_cons]

theorem sortedJsonOfEntries_eq_map (entries : List (String × Value)) :
    sortedJsonOfEntries entries = entries.map fun entry =>
    (entry.1, entry.2.toSortedJson) := by
  induction entries with
  | nil => rfl
  | cons entry rest ih => rw [sortedJsonOfEntries, ih, List.map_cons]

/-- Members that are made field by field say what the fields are. -/
theorem forall₂_memberFor {order : Arrangement} {form : Value → Json}
    {entries : List (String × Value)}
    (h : ∀ entry ∈ entries, (form entry.2).StandsFor order entry.2) :
    List.Forall₂ (Json.MemberFor order) (entries.map fun entry => (entry.1, form entry.2))
      entries := by
  rw [List.forall₂_map_left_iff, List.forall₂_same]
  exact fun entry hentry => .mk entry.1 (h entry hentry)

/-- Members that say what fields are have their keys. -/
theorem keys_eq_of_forall₂_memberFor {order : Arrangement} {members : List (String × Json)}
    {fields : List (String × Value)}
    (h : List.Forall₂ (Json.MemberFor order) members fields) :
    members.map Prod.fst = fields.map Prod.fst := by
  induction h with
  | nil => rfl
  | cons hmember _ ih =>
    cases hmember
    rw [List.map_cons, List.map_cons, ih]

/-- A double is itself or null, whatever the order of members. -/
theorem standsFor_double (order : Arrangement) (x : Float) :
    (Value.double x).leafJson.StandsFor order (.double x) := by
  cases hx : x.isFinite with
  | true =>
    rw [Value.leafJson, hx, if_pos rfl]
    exact .finite hx
  | false =>
    rw [Value.leafJson, hx, if_neg Bool.false_ne_true]
    exact .notFinite hx

namespace Value

variable {v : Value}

/-- **The first form says what a value is, with the members as stored.** -/
theorem standsFor_toJson (h : v.KeysDistinct) : v.toJson.StandsFor .asStored v := by
  induction h with
  | null => exact .null
  | bool b => exact .bool b
  | int n => exact .int n
  | double x => exact standsFor_double .asStored x
  | string s => exact .string s
  | objectId id => exact .objectId id
  | date instant => exact .date instant
  | @array items _ ih =>
    rw [toJson, jsonOfItems_eq_map]
    refine .array ?_
    rw [List.forall₂_map_left_iff, List.forall₂_same]
    exact ih
  | @document d _ _ ih =>
    obtain ⟨entries⟩ := d
    rw [toJson, Document.toJson, jsonOfEntries_eq_map]
    exact .document rfl (forall₂_memberFor ih)

/-- **The second form says what a value is, with the members sorted by key.** -/
theorem standsFor_toSortedJson (h : v.KeysDistinct) : v.toSortedJson.StandsFor .byKey v := by
  induction h with
  | null => exact .null
  | bool b => exact .bool b
  | int n => exact .int n
  | double x => exact standsFor_double .byKey x
  | string s => exact .string s
  | objectId id => exact .objectId id
  | date instant => exact .date instant
  | @array items _ ih =>
    rw [toSortedJson, sortedJsonOfItems_eq_map]
    refine .array ?_
    rw [List.forall₂_map_left_iff, List.forall₂_same]
    exact ih
  | @document d hkeys _ ih =>
    obtain ⟨entries⟩ := d
    rw [toSortedJson, Document.toSortedJson, sortedJsonOfEntries_eq_map]
    -- sorting the members sorts the fields that they say the values of
    have hmembers := forall₂_memberFor ih
    have hnodup := hkeys
    rw [Document.keys, ← keys_eq_of_forall₂_memberFor hmembers] at hnodup
    obtain ⟨fields, hfields, hperm⟩ :=
      List.perm_comp_forall₂ (Json.perm_sortMembers hnodup) hmembers
    have hsorted :=
      Json.sorted_sortMembers (entries.map fun entry => (entry.1, entry.2.toSortedJson))
    rw [Json.Sorted, keys_eq_of_forall₂_memberFor hfields] at hsorted
    exact .document ⟨hperm, hsorted⟩ hfields

end Value

/-! ### The order of members -/

/-- What stands for the same list, item by item, is alike item by item. -/
theorem forall₂_of_common {α β γ : Type} {r : α → γ → Prop} {s : β → γ → Prop}
    {t : α → β → Prop} {xs : List α} {ys : List β} {zs : List γ} (hxs : List.Forall₂ r xs zs)
    (hys : List.Forall₂ s ys zs) (h : ∀ z ∈ zs, ∀ x y, r x z → s y z → t x y) :
    List.Forall₂ t xs ys := by
  induction hxs generalizing ys with
  | nil =>
    cases hys
    exact .nil
  | cons hx _ ih =>
    cases hys with
    | cons hy hrest =>
      exact .cons (h _ List.mem_cons_self _ _ hx hy)
        (ih hrest fun z hz => h z (List.mem_cons_of_mem _ hz))

/-- **JSON values that say what one value is differ in the order of members alone.** -/
theorem Json.StandsFor.reordered {v : Value} (hv : v.KeysDistinct)
    {order order' : Arrangement} {j j' : Json} (h : j.StandsFor order v)
    (h' : j'.StandsFor order' v) : j.Reordered j' := by
  induction hv generalizing j j' with
  | null | bool | int | string | objectId | date =>
    cases h
    cases h'
    exact .same _
  | double x =>
    cases h with
    | finite hx =>
      cases h' with
      | finite => exact .same _
      | notFinite hx' => cases hx.symm.trans hx'
    | notFinite hx =>
      cases h' with
      | finite hx' => cases hx.symm.trans hx'
      | notFinite => exact .same _
  | array _ ih =>
    cases h with
    | array hitems =>
      cases h' with
      | array hitems' =>
        exact .array (forall₂_of_common hitems hitems' fun v hv _ _ => ih v hv)
  | @document d _ _ ih =>
    cases h with
    | @document members _ fields hlists hmembers =>
      cases h' with
      | @document members' _ fields' hlists' hmembers' =>
        have hfields : fields.Perm fields' := hlists.perm.trans hlists'.perm.symm
        -- the members follow the fields into the other order
        have hcomp : Relation.Comp (List.Forall₂ (MemberFor order)) List.Perm members
            fields' :=
          ⟨fields, hmembers, hfields⟩
        rw [List.forall₂_comp_perm_eq_perm_comp_forall₂] at hcomp
        obtain ⟨arranged, hperm, harranged⟩ := hcomp
        refine .object hperm (forall₂_of_common harranged hmembers' fun field hfield x y hx
          hy => ?_)
        cases hx with
        | mk key hx =>
          cases hy with
          | mk _ hy => exact .mk key (ih _ (hlists'.perm.mem_iff.mp hfield) hx hy)

/-- **The two JSON forms differ in the order of members alone.**  For every value whose
documents hold no key twice, the first form says what the value is, entry by entry, with
the members of each object in the order of the fields.  The second form says the same with
the members of each object sorted by key.  Neither loses an entry or holds one twice, and
one is the other with the members of objects reordered. -/
theorem json_forms_differ_in_order_alone {v : Value} (h : v.KeysDistinct) :
    v.toJson.StandsFor .asStored v ∧ v.toSortedJson.StandsFor .byKey v ∧
      v.toJson.Reordered v.toSortedJson :=
  have hstored := Value.standsFor_toJson h
  have hsorted := Value.standsFor_toSortedJson h
  ⟨hstored, hsorted, hstored.reordered h hsorted⟩

/-- A field that holds an array with a document, and a field that comes before it by key. -/
def taggedEdits : List Document.Edit :=
  [.insert "tags" (.array [.int 1, .document ⟨[("y", .null), ("x", .string "s")]⟩]),
    .insert "at" (.bool true)]

/-- At both depths the fields are stored in one order and sorted into another. -/
theorem json_forms_differ_in_order_alone_tagged :
    ∃ d, Document.run? taggedEdits = some d ∧ (Value.document d).KeysDistinct ∧
      d.keys = ["tags", "at"] ∧
      d.toSortedJson = .object [("at", .bool true),
        ("tags", .array [.int 1, .object [("x", .string "s"), ("y", .null)]])] ∧
      d.toJson.Reordered d.toSortedJson := by
  obtain ⟨d, hd, -⟩ := Document.exists_run? taggedEdits
  have hinner : (Value.document ⟨[("y", .null), ("x", .string "s")]⟩).KeysDistinct :=
    .document (by decide) (List.forall_mem_cons.mpr ⟨.null,
      List.forall_mem_singleton.mpr (.string "s")⟩)
  have htags : (Value.array [.int 1,
      .document ⟨[("y", .null), ("x", .string "s")]⟩]).KeysDistinct :=
    .array (List.forall_mem_cons.mpr ⟨.int 1, List.forall_mem_singleton.mpr hinner⟩)
  have hgiven : ∀ given ∈ Document.history taggedEdits, ∀ v, given.2 = some v →
      v.KeysDistinct := by
    refine List.forall_mem_cons.mpr ⟨?_, List.forall_mem_singleton.mpr ?_⟩
    · rintro _ ⟨⟩
      exact htags
    · rintro _ ⟨⟩
      exact .bool true
  have hdistinct := Value.keysDistinct_of_run? hd hgiven
  refine ⟨d, hd, hdistinct, ?_, ?_, (json_forms_differ_in_order_alone hdistinct).2.2⟩
  · cases hd
    rfl
  · cases hd
    rfl

end DocQuery
