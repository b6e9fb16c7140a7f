import DocQuery.Proofs.Entries
import DocQuery.Proofs.Predicate.Meaning
import Mathlib.Data.List.Induction

/-!
# What a document holds after fields are stored

* `Document.get?_insert`, `Document.get?_ofList` — of several values under one key the
  last one stays
* `Document.mem_keys_iff`, `Document.keys_insert` — the keys of a document
* `Document.get?_ofList_of_last` — the value at the last place of a key is the one that stays
* `Document.keys_ofList`, `Document.nodup_keys_ofList`, `Document.mem_keys_ofList` — the
  keys of a document that is built from a list
* `Document.at?_eq_get?`, `Document.at?_nested` — paths with one part and with two
-/

namespace DocQuery.Document

/-- A key has the value stored last, and the other keys keep theirs. -/
theorem get?_insert (d : Document) (key other : String) (value : Value) :
    (d.insert key value).get? other = if other == key then some value else d.get? other :=
  Entries.get?_put d.entries key other value

@[simp] theorem get?_insert_self (d : Document) (key : String) (value : Value) :
    (d.insert key value).get? key = some value := by
  rw [get?_insert, beq_self_eq_true, if_pos rfl]

theorem get?_insert_of_ne (d : Document) {key other : String} (value : Value)
    (h : other ≠ key) : (d.insert key value).get? other = d.get? other := by
  rw [get?_insert, beq_eq_false_iff_ne.mpr h]
  rfl

/-- A key is present exactly if it has a value. -/
theorem mem_keys_iff (d : Document) (key : String) : key ∈ d.keys ↔ (d.get? key).isSome := by
  obtain ⟨entries⟩ := d
  simp only [keys, get?]
  induction entries with
  | nil => simp
  | cons entry rest ih =>
    by_cases h : entry.1 = key
    · simp [Entries.get?, h]
    · simpa [Entries.get?, h, Ne.symm h] using ih

/-- A present key keeps its place, and a new one comes last. -/
theorem keys_insert (d : Document) (key : String) (value : Value) :
    (d.insert key value).keys = if key ∈ d.keys then d.keys else d.keys ++ [key] :=
  Entries.names_put d.entries key value

/-- The value of a key is the last one in the list. -/
theorem get?_ofList (entries : List (String × Value)) (key : String) :
    (ofList entries).get? key = (entries.reverse.find? (·.1 == key)).map Prod.snd := by
  have hrun : ∀ d : Document,
      (entries.foldl (fun acc entry => acc.insert entry.1 entry.2) d).get? key =
        ((entries.reverse.find? (·.1 == key)).map Prod.snd).or (d.get? key) := by
    induction entries with
    | nil => simp
    | cons entry rest ih =>
      intro d
      rw [List.foldl_cons, ih, get?_insert, List.reverse_cons, List.find?_append,
        List.find?_singleton]
      cases rest.reverse.find? (·.1 == key) with
      | some found => rfl
      | none =>
        by_cases h : entry.1 = key
        · simp [h]
        · simp [h, Ne.symm h]
  rw [ofList, hrun, get?_empty, Option.or_none]

/-- The value at the last place of a key is the one that stays. -/
theorem get?_ofList_of_last {entries : List (String × Value)} {k : Nat}
    {entry : String × Value} (hk : entries[k]? = some entry)
    (hlast : entry.1 ∉ (entries.drop (k + 1)).map Prod.fst) :
    (ofList entries).get? entry.1 = some entry.2 := by
  obtain ⟨hlength, hentry⟩ := List.getElem?_eq_some_iff.mp hk
  have hafter : (entries.drop (k + 1)).reverse.find? (·.1 == entry.1) = none := by
    rw [List.find?_eq_none]
    intro other hother hsame
    rw [beq_iff_eq] at hsame
    exact hlast (List.mem_map.mpr ⟨other, List.mem_reverse.mp hother, hsame⟩)
  have hsplit : entries = entries.take k ++ entry :: entries.drop (k + 1) := by
    rw [← hentry, ← List.drop_eq_getElem_cons hlength, List.take_append_drop]
  rw [get?_ofList, hsplit, List.reverse_append, List.reverse_cons, List.append_assoc,
    List.find?_append, hafter]
  simp

theorem ofList_append_singleton (entries : List (String × Value)) (field : String)
    (v : Value) : ofList (entries ++ [(field, v)]) = (ofList entries).insert field v := by
  rw [ofList, List.foldl_append]
  rfl

theorem eq_empty_of_isEmpty {d : Document} (h : d.isEmpty = true) : d = empty := by
  obtain ⟨entries⟩ := d
  exact congrArg mk (List.isEmpty_iff.mp h)

/-- The keys stand in the order in which they first come. -/
theorem keys_ofList (entries : List (String × Value)) :
    (ofList entries).keys = (entries.map Prod.fst).eraseDups := by
  induction entries using List.reverseRecOn with
  | nil => rfl
  | append_singleton entries entry ih =>
    have hmem : entry.1 ∈ (ofList entries).keys ↔ entry.1 ∈ entries.map Prod.fst := by
      rw [ih, List.mem_eraseDups]
    rw [ofList_append_singleton, keys_insert, List.map_append, List.eraseDups_append]
    by_cases h : entry.1 ∈ entries.map Prod.fst
    · have hpresent : [entry.1].removeAll (entries.map Prod.fst) = [] := by
        simp [List.removeAll, h]
      rw [if_pos (hmem.mpr h), ih, List.map_singleton, hpresent, List.eraseDups_nil,
        List.append_nil]
    · have hnew : [entry.1].removeAll (entries.map Prod.fst) = [entry.1] := by
        simp [List.removeAll, h]
      rw [if_neg (mt hmem.mp h), ih, List.map_singleton, hnew]
      rfl

theorem nodup_keys_ofList (entries : List (String × Value)) :
    (ofList entries).keys.Nodup := by
  induction entries using List.reverseRecOn with
  | nil => exact List.nodup_nil
  | append_singleton entries entry ih =>
    rw [ofList_append_singleton]
    exact Entries.nodup_put ih

theorem mem_of_mem_ofList {entries : List (String × Value)} {entry : String × Value}
    (h : entry ∈ (ofList entries).entries) : entry ∈ entries := by
  induction entries using List.reverseRecOn with
  | nil => exact h
  | append_singleton entries added ih =>
    rw [ofList_append_singleton] at h
    rcases Entries.mem_of_mem_put h with rfl | h
    · exact List.mem_append_right _ List.mem_cons_self
    · exact List.mem_append_left _ (ih h)

theorem mem_keys_ofList {entries : List (String × Value)} {field : String} :
    field ∈ (ofList entries).keys ↔ field ∈ entries.map Prod.fst := by
  induction entries using List.reverseRecOn with
  | nil => exact Iff.rfl
  | append_singleton entries added ih =>
    rw [ofList_append_singleton, keys_insert, List.map_append, List.mem_append, ← ih]
    split
    · rename_i hpresent
      refine (or_iff_left_of_imp fun hfield => ?_).symm
      rw [List.mem_singleton.mp hfield]
      exact hpresent
    · exact List.mem_append

/-! ### Paths -/

/-- A path without dots is a key. -/
theorem at?_eq_get? (d : Document) {key : String} (h : '.' ∉ key.toList) :
    d.at? key = d.get? key := by
  have hparts := @List.splitOn_intercalate _ [key.toList] _ _ '.' (by simpa using h) (by simp)
  rw [List.intercalate_singleton] at hparts
  rw [at?, hparts, follow, String.ofList_toList]

/-- A path with one dot leads through a document. -/
theorem at?_nested {d inner : Document} {key part : String} (hkey : '.' ∉ key.toList)
    (hpart : '.' ∉ part.toList) (hinner : d.get? key = some (.document inner)) :
    d.at? (key ++ "." ++ part) = inner.get? part := by
  have hparts := @List.splitOn_intercalate _ [key.toList, part.toList] _ _ '.'
    (by simpa using ⟨hkey, hpart⟩) (by simp)
  have hjoined : (key ++ "." ++ part).toList =
      ['.'].intercalate [key.toList, part.toList] := by
    simp [List.intercalate]
  rw [at?, hjoined, hparts, follow, String.ofList_toList, hinner]
  simp only [follow, String.ofList_toList]

end DocQuery.Document
