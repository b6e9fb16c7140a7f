import DocQuery.Proofs.Document.Storing
import Mathlib.Data.List.InsertIdx
import Mathlib.Data.List.Nodup

/-!
# Fields at a chosen place

A field can be stored at a place that is counted from zero.  A key that is present already
leaves its old place first, so there is one place less for it than for a new key.  The
bound on the place is taken before that, and a present key finds nothing where the bound
sends it.

* `Document.keys_erase`, `Document.size_erase` — the other keys
* `Document.placed` — a field at a place among the others
* `Document.shiftInsert_eq` — which place a field gets, and when it gets none
* `shiftInsert_fails_past_present_key` — what storing at a place does
-/

namespace DocQuery

namespace Document

variable {d : Document} {place : Nat} {key : String}

/-! ### The other keys -/

theorem get?_erase (d : Document) (key other : String) :
    (d.erase key).get? other = if other == key then none else d.get? other :=
  Entries.get?_erase d.entries key other

/-- The other keys keep their order. -/
theorem keys_erase (d : Document) (key : String) :
    (d.erase key).keys = d.keys.filter (· != key) := by
  rw [keys, keys, List.filter_map]
  rfl

theorem length_keys (d : Document) : d.keys.length = d.size :=
  List.length_map Prod.fst

/-- There is one key less without a present key. -/
theorem size_erase (hkeys : d.keys.Nodup) (key : String) :
    (d.erase key).size = if key ∈ d.keys then d.size - 1 else d.size := by
  rw [← length_keys, ← length_keys, keys_erase, ← hkeys.erase_eq_filter]
  split
  · rename_i hmem
    exact List.length_erase_of_mem hmem
  · rename_i hmem
    rw [List.erase_of_not_mem hmem]

/-! ### Places -/

/-- The document with a field at a place among the others. -/
def placed (d : Document) (place : Nat) (key : String) (value : Value) : Document :=
  ⟨(d.erase key).entries.insertIdx place (key, value)⟩

theorem keys_placed (d : Document) (place : Nat) (key : String) (value : Value) :
    (d.placed place key value).keys = (d.keys.filter (· != key)).insertIdx place key := by
  rw [← keys_erase, keys, placed, List.map_insertIdx]
  rfl

/-- A placed field has its value, and the others keep theirs. -/
theorem get?_placed (hplace : place ≤ (d.erase key).size) (value : Value) (other : String) :
    (d.placed place key value).get? other =
      if other == key then some value else d.get? other := by
  have hmissing : (d.erase key).get? key = none := by
    rw [get?_erase, beq_self_eq_true, if_pos rfl]
  refine (Entries.get?_insertIdx value hmissing hplace other).trans ?_
  by_cases h : other = key
  · simp [h]
  · have hother := get?_erase d key other
    rw [beq_false_of_ne h, if_neg Bool.false_ne_true] at hother ⊢
    exact hother

theorem nodup_keys_placed (hkeys : d.keys.Nodup) (hplace : place ≤ (d.erase key).size)
    (value : Value) : (d.placed place key value).keys.Nodup := by
  have hothers : key ∉ d.keys.filter (· != key) := by simp
  rw [← length_keys, keys_erase] at hplace
  rw [keys_placed, (List.perm_insertIdx key _ hplace).nodup_iff, List.nodup_cons]
  exact ⟨hothers, hkeys.filter _⟩

/-- An item that is filtered out may stand anywhere. -/
theorem filter_insertIdx_of_neg {α : Type} {p : α → Bool} {a : α} (ha : p a = false)
    (place : Nat) (items : List α) : (items.insertIdx place a).filter p = items.filter p := by
  induction place generalizing items with
  | zero => simp [ha]
  | succ place ih =>
    cases items with
    | nil => rfl
    | cons item rest => simp [List.filter_cons, ih]

/-- **Which place a field gets.**  A present key that is sent behind all fields gets none;
any other field gets the place that is asked for, as far as there are other fields before
it. -/
theorem shiftInsert_eq (hkeys : d.keys.Nodup) (index : Nat) (key : String) (value : Value) :
    d.shiftInsert index key value =
      if key ∈ d.keys ∧ d.size ≤ index then none
      else some (d.placed (min index (d.erase key).size) key value) := by
  have hcontains : d.contains key = true ↔ key ∈ d.keys := (mem_keys_iff d key).symm
  have hsize := size_erase hkeys key
  rw [shiftInsert]
  by_cases hmem : key ∈ d.keys
  · -- the key itself counts for the bound, but not for the place
    have hpositive : 0 < d.size := length_keys d ▸ List.length_pos_of_mem hmem
    rw [if_pos hmem] at hsize
    by_cases hindex : d.size ≤ index
    · simp [hcontains.mpr hmem, hmem, hindex]
    · have hplace : min index d.size = min index (d.erase key).size := by omega
      have hbound : min index d.size ≠ d.size := by omega
      simp [hindex, hbound, ← hplace, placed]
  · rw [if_neg hmem] at hsize
    have hnew : d.contains key = false := Bool.eq_false_iff.mpr (mt hcontains.mp hmem)
    simp [hnew, hmem, hsize, placed]

end Document

/-- **Storing a field at a place.**  For every document and every index, storing fails
exactly if the key is present and the index is not that of a field.  Otherwise the key
stands at the index, or behind all other keys if there are fewer of them; it has the
value, no key is repeated, and the other keys keep their order and their values. -/
theorem shiftInsert_fails_past_present_key {d : Document} (hkeys : d.keys.Nodup) (index : Nat)
    (key : String) (value : Value) :
    (d.shiftInsert index key value = none ↔ key ∈ d.keys ∧ d.keys.length ≤ index) ∧
    ∀ d', d.shiftInsert index key value = some d' →
      d'.keys[min index (d.keys.filter (· != key)).length]? = some key ∧
      d'.get? key = some value ∧ d'.keys.Nodup ∧
      d'.keys.filter (· != key) = d.keys.filter (· != key) ∧
      ∀ other, other ≠ key → d'.get? other = d.get? other := by
  have hothers : (d.keys.filter (· != key)).length = (d.erase key).size := by
    rw [← Document.length_keys, Document.keys_erase]
  rw [Document.shiftInsert_eq hkeys, Document.length_keys]
  split
  · rename_i hbehind
    exact ⟨iff_of_true rfl hbehind, fun d' h => by cases h⟩
  · rename_i hplaced
    refine ⟨iff_of_false (fun h => by cases h) hplaced, ?_⟩
    rintro d' ⟨⟩
    have hplace : min index (d.erase key).size ≤ (d.erase key).size := Nat.min_le_right ..
    refine ⟨?_, ?_, Document.nodup_keys_placed hkeys hplace value, ?_, ?_⟩
    · rw [Document.keys_placed, hothers, List.getElem?_insertIdx_self,
        if_pos (hothers ▸ hplace)]
    · rw [Document.get?_placed hplace, beq_self_eq_true, if_pos rfl]
    · rw [Document.keys_placed, Document.filter_insertIdx_of_neg (by simp),
        List.filter_filter]
      simp
    · intro other hother
      rw [Document.get?_placed hplace, beq_false_of_ne hother]
      rfl

/-- A document with the fields `a` and `b`. -/
def fieldPair : Document :=
  (Document.single "a" (.int 1)).insert "b" (.int 2)

/-- The first of two fields can be moved to the second place, but not behind it. -/
theorem shiftInsert_fails_past_present_key_pair :
    fieldPair.keys.Nodup ∧ fieldPair.shiftInsert 2 "a" (.int 3) = none ∧
    ∃ d, fieldPair.shiftInsert 1 "a" (.int 3) = some d ∧ d.keys[1]? = some "a" ∧
      d.get? "a" = some (.int 3) ∧ d.get? "b" = fieldPair.get? "b" := by
  have hkeys : fieldPair.keys.Nodup := by decide
  have hfails := (shiftInsert_fails_past_present_key hkeys 2 "a" (.int 3)).1
  obtain ⟨hiff, hstored⟩ := shiftInsert_fails_past_present_key hkeys 1 "a" (.int 3)
  refine ⟨hkeys, hfails.mpr (by decide), ?_⟩
  obtain ⟨d, hd⟩ := Option.ne_none_iff_exists'.mp (mt hiff.mp (by decide))
  obtain ⟨hplace, hvalue, -, -, hother⟩ := hstored d hd
  exact ⟨d, hd, hplace, hvalue, hother "b" (by decide)⟩

end DocQuery
