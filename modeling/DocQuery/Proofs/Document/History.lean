import DocQuery.Proofs.Document.Shifting
import DocQuery.Proofs.Document.Updating

/-!
# Documents remember the order of storing

A document is built by storing fields, one by one or many at once, and by dropping them.
Whatever is done to it, it stays a map whose keys stand in the order in which they came.

* `Document.Edit`, `Document.run?` — the changes of a document, and what a series of them
  builds
* `Document.history` — what keys were given by a series of changes
* `Document.Follows` — a document that holds what its history says
* `Document.Follows.step`, `Document.exists_run?` — one change, and a series of changes
* `Document.keys_extend`, `Document.keys_shiftInsert_zero` — where keys come to stand
* `documents_remember_order` — the document that a series of changes builds

### What is load-bearing

A key is given a value or nothing, and of all that it was given the last counts.  Every
change only adds to what keys were given, but for the collection of fields, which starts
anew.
-/

namespace DocQuery

open Entries

namespace Document

variable {d : Document} {given : List (String × Content)} {key : String}

/-! ### Changes -/

/-- **One change of a document.**  Collecting fields makes a new document. -/
inductive Edit where
  | insert (key : String) (value : Value)
  | erase (key : String)
  | extend (other : Document)
  | collect (fields : List (String × Value))
  | insertFirst (key : String) (value : Value)

/-- Fields as they are given to a document one by one. -/
def stored (fields : List (String × Value)) : List (String × Content) :=
  fields.map fun field => (field.1, some field.2)

namespace Edit

/-- The document after a change. -/
def result? (d : Document) : Edit → Option Document
  | .insert key value => some (d.insert key value)
  | .erase key => some (d.erase key)
  | .extend other => some (d.extend other)
  | .collect fields => some (.ofList fields)
  | .insertFirst key value => d.shiftInsert 0 key value

/-- What keys were given after a change: a value, or nothing where they were dropped. -/
def record (given : List (String × Content)) : Edit → List (String × Content)
  | .insert key value => given ++ [(key, some value)]
  | .erase key => given ++ [(key, none)]
  | .extend other => given ++ stored other.entries
  | .collect fields => stored fields
  | .insertFirst key value => given ++ [(key, some value)]

end Edit

/-- The document that a series of changes makes of the empty one. -/
def run? (edits : List Edit) : Option Document :=
  edits.foldlM Edit.result? .empty

/-- What keys were given by a series of changes. -/
def history (edits : List Edit) : List (String × Content) :=
  edits.foldl Edit.record []

/-! ### Documents and their history -/

/-- **A document that holds what its history says**: no key twice, and under each key the
value that it was given last, unless it was dropped since. -/
structure Follows (d : Document) (given : List (String × Content)) : Prop where
  distinct : d.keys.Nodup
  get?_eq_some_iff : ∀ key value, d.get? key = some value ↔ IsLast given key (some value)

theorem follows_empty : Follows .empty [] where
  distinct := List.nodup_nil
  get?_eq_some_iff := fun _ _ => by simp [not_isLast_nil]

namespace Follows

/-- Giving one key something leaves the history of all others as it is. -/
theorem give (h : d.Follows given) {d' : Document} {x : Content} (hkeys : d'.keys.Nodup)
    (hget : ∀ other, d'.get? other = if other == key then x else d.get? other) :
    d'.Follows (given ++ [(key, x)]) where
  distinct := hkeys
  get?_eq_some_iff := by
    intro other value
    rw [hget, isLast_append_singleton, ← h.get?_eq_some_iff]
    by_cases heq : other = key
    · simp [heq, eq_comm]
    · simp [heq]

theorem set (h : d.Follows given) (key : String) (x : Content) :
    (d.set key x).Follows (given ++ [(key, x)]) := by
  refine h.give ?_ fun other => get?_set d key other x
  cases x with
  | none =>
    rw [Document.set, keys_erase]
    exact h.distinct.filter _
  | some v => exact Entries.nodup_put h.distinct

theorem insertAll (h : d.Follows given) (fields : List (String × Value)) :
    (fields.foldl (fun acc field => acc.insert field.1 field.2) d).Follows (given ++
      stored fields) := by
  induction fields generalizing d given with
  | nil => simpa [stored] using h
  | cons field rest ih =>
    have hrest := ih (h.set field.1 (some field.2))
    rwa [List.append_assoc] at hrest

/-- **Step.**  A change never fails, and the document goes on to hold what its history
says. -/
theorem step (h : d.Follows given) (edit : Edit) :
    ∃ d', edit.result? d = some d' ∧ d'.Follows (edit.record given) := by
  cases edit with
  | insert key value => exact ⟨_, rfl, h.set key (some value)⟩
  | erase key => exact ⟨_, rfl, h.set key none⟩
  | extend other => exact ⟨_, rfl, h.insertAll other.entries⟩
  | collect fields => exact ⟨_, rfl, follows_empty.insertAll fields⟩
  | insertFirst key value =>
    -- the first place is there for every key: a present one is a field itself
    have hplace : ¬ (key ∈ d.keys ∧ d.size ≤ 0) := by
      rintro ⟨hmem, hsize⟩
      have hpositive : 0 < d.keys.length := List.length_pos_of_mem hmem
      rw [length_keys] at hpositive
      omega
    refine ⟨_, (shiftInsert_eq h.distinct 0 key value).trans (if_neg hplace), ?_⟩
    have hthere : min 0 (d.erase key).size ≤ (d.erase key).size := Nat.min_le_right ..
    exact h.give (nodup_keys_placed h.distinct hthere value) (get?_placed hthere value)

end Follows

/-- **Run.**  A series of changes builds a document that holds what its history says. -/
theorem exists_run? (edits : List Edit) :
    ∃ d, run? edits = some d ∧ d.Follows (history edits) := by
  have hrun : ∀ (d : Document) (given : List (String × Content)), d.Follows given →
      ∃ d', edits.foldlM Edit.result? d = some d' ∧
        d'.Follows (edits.foldl Edit.record given) := by
    induction edits with
    | nil => exact fun d given h => ⟨d, rfl, h⟩
    | cons edit rest ih =>
      intro d given h
      obtain ⟨next, hnext, hfollows⟩ := h.step edit
      rw [List.foldlM_cons, hnext]
      exact ih next _ hfollows
  exact hrun .empty [] follows_empty

/-! ### Where keys come to stand -/

/-- Storing many fields is storing them one by one. -/
theorem foldlM_insert (d : Document) (fields : List (String × Value)) :
    (fields.map fun field => Edit.insert field.1 field.2).foldlM Edit.result? d =
      some (fields.foldl (fun acc field => acc.insert field.1 field.2) d) := by
  induction fields generalizing d with
  | nil => rfl
  | cons field rest ih => exact ih _

/-- The keys of a further document that are new come last, in their own order. -/
theorem keys_extend (d : Document) {other : Document} (hother : other.keys.Nodup) :
    (d.extend other).keys = d.keys ++ other.keys.removeAll d.keys := by
  obtain ⟨fields⟩ := other
  show (fields.foldl (fun acc field => acc.insert field.1 field.2) d).keys =
    d.keys ++ (fields.map Prod.fst).removeAll d.keys
  replace hother : (fields.map Prod.fst).Nodup := hother
  induction fields generalizing d with
  | nil => simp [List.removeAll]
  | cons field rest ih =>
    rw [List.map_cons, List.nodup_cons] at hother
    rw [List.foldl_cons, ih _ hother.2, keys_insert, List.map_cons]
    by_cases hmem : field.1 ∈ d.keys
    · simp [hmem, List.removeAll]
    · -- the new key is not among those that follow, so it does not hold them back
      have hrest : (rest.map Prod.fst).removeAll (d.keys ++ [field.1]) =
          (rest.map Prod.fst).removeAll d.keys := by
        refine List.filter_congr fun key hkey => ?_
        have hne : key ≠ field.1 := fun heq => hother.1 (heq ▸ hkey)
        simp [hne]
      rw [if_neg hmem, hrest]
      simp [hmem, List.removeAll]

/-- A new key that is stored first moves the others back by one. -/
theorem keys_shiftInsert_zero (hnew : key ∉ d.keys) (value : Value) :
    ∃ d', d.shiftInsert 0 key value = some d' ∧ d'.keys = key :: d.keys := by
  have hcontains : d.contains key = false :=
    Bool.eq_false_iff.mpr (mt (mem_keys_iff d key).mpr hnew)
  refine ⟨_, shiftInsert_zero value hcontains, ?_⟩
  have hothers : d.keys.filter (· != key) = d.keys := by
    rw [List.filter_eq_self]
    intro other hother
    exact bne_iff_ne.mpr fun heq => hnew (heq ▸ hother)
  rw [insertFirst, keys, List.map_cons]
  exact congrArg (key :: ·) ((keys_erase d key).trans hothers)

end Document

open Document in
/-- **Documents remember the order of storing.**  Every series of changes builds a
document.  Its keys are pairwise distinct, and a key has the value that it was given last,
unless it was dropped since.  Storing under a present key leaves all keys where they are,
and a new key comes last, or first if it is stored there.  Dropping a key keeps the order
of the others.  Adding a further document is storing its fields one by one, so that its
new keys come last in their own order, and so is collecting fields. -/
theorem documents_remember_order (edits : List Edit) :
    ∃ d, run? edits = some d ∧ d.keys.Nodup ∧
      (∀ key value, d.get? key = some value ↔ IsLast (history edits) key (some value)) ∧
      (∀ key value,
        (d.insert key value).keys = if key ∈ d.keys then d.keys else d.keys ++ [key]) ∧
      (∀ key value, key ∉ d.keys →
        ∃ d', d.shiftInsert 0 key value = some d' ∧ d'.keys = key :: d.keys) ∧
      (∀ key, (d.erase key).keys = d.keys.filter (· != key)) ∧
      (∀ other : Document, run? (edits ++ [.extend other]) =
        run? (edits ++ other.entries.map fun field => .insert field.1 field.2)) ∧
      (∀ others other, run? others = some other →
        (d.extend other).keys = d.keys ++ other.keys.removeAll d.keys) ∧
      ∀ fields, run? (edits ++ [.collect fields]) =
        run? (fields.map fun field => .insert field.1 field.2) := by
  obtain ⟨d, hd, hfollows⟩ := exists_run? edits
  have happend : ∀ more, run? (edits ++ more) = more.foldlM Edit.result? d := by
    intro more
    rw [run?, List.foldlM_append, ← run?, hd]
    rfl
  refine ⟨d, hd, hfollows.distinct, hfollows.get?_eq_some_iff, keys_insert d,
    fun _ value hnew => keys_shiftInsert_zero hnew value, keys_erase d, ?_, ?_, ?_⟩
  · intro other
    rw [happend, happend, foldlM_insert]
    rfl
  · intro others other hother
    obtain ⟨built, hbuilt, hothers⟩ := exists_run? others
    cases hbuilt.symm.trans hother
    exact keys_extend d hothers.distinct
  · intro fields
    rw [happend, run?, foldlM_insert]
    rfl

/-- Two fields are stored, a third one in front of them, and the first one anew. -/
def frontedEdits : List Document.Edit :=
  [.insert "b" (.int 1), .insert "a" (.int 2), .insertFirst "_id" .null, .insert "b" (.int 3)]

/-- The field that is stored anew keeps its place and has the new value. -/
theorem documents_remember_order_fronted :
    ∃ d, Document.run? frontedEdits = some d ∧ d.keys = ["_id", "b", "a"] ∧
      d.get? "b" = some (.int 3) ∧ (d.insert "c" .null).keys = ["_id", "b", "a", "c"] := by
  obtain ⟨d, hd, -, hget, hinsert, -⟩ := documents_remember_order frontedEdits
  have hkeys : d.keys = ["_id", "b", "a"] := by
    cases hd
    rfl
  refine ⟨d, hd, hkeys, (hget "b" (.int 3)).mpr ?_, ?_⟩
  · exact ⟨[("b", some (.int 1)), ("a", some (.int 2)), ("_id", some .null)], [], rfl,
      by decide⟩
  · rw [hinsert, hkeys]
    decide

end DocQuery
