import DocQuery.Entries
import Mathlib.Data.List.Induction
import Mathlib.Data.List.Perm.Basic

/-!
# Names and their values

What is stored under the names of a small map, and how storing changes it.

* `Entries.get?_eq_some_iff` — a name is found exactly if it is stored
* `Entries.get?_eq_of_perm` — the order of the entries does not matter
* `Entries.nodup_put` — storing keeps names from being repeated
* `Entries.flatten_put_append` — adding to a list under a name adds to the lists as a whole
* `Entries.put_put_self`, `Entries.put_put_comm` — storing twice, under one name or under two
* `Entries.erase_put_self`, `Entries.erase_put_comm` — storing and erasing
* `Entries.get?_insertIdx` — an entry at a chosen place
* `Entries.IsLast`, `Entries.get?_foldl_put_eq_some_iff` — what was stored last is what is
  found
-/

namespace DocQuery.Entries

variable {α : Type} {xs ys : Entries α}

theorem mem_of_mem_put {name : String} {value : α} {entries : Entries α}
    {entry : String × α} (h : entry ∈ put name value entries) :
    entry = (name, value) ∨ entry ∈ entries := by
  induction entries with
  | nil => exact .inl (List.mem_singleton.mp h)
  | cons first rest ih =>
    rw [put] at h
    split at h
    · rcases List.mem_cons.mp h with h | h
      · exact .inl h
      · exact .inr (List.mem_cons_of_mem first h)
    · rcases List.mem_cons.mp h with h | h
      · exact .inr (h ▸ List.mem_cons_self)
      · exact (ih h).imp_right (List.mem_cons_of_mem first)

theorem mem_of_get? {name : String} {value : α} {entries : Entries α}
    (h : entries.get? name = some value) : (name, value) ∈ entries := by
  induction entries with
  | nil => cases h
  | cons first rest ih =>
    rw [get?] at h
    split at h
    · rename_i hname
      cases h
      rw [beq_iff_eq] at hname
      exact hname ▸ List.mem_cons_self
    · exact List.mem_cons_of_mem first (ih h)

/-- A name is found exactly if it is stored. -/
theorem get?_eq_some_iff (hnodup : (xs.map Prod.fst).Nodup) {name : String} {value : α} :
    xs.get? name = some value ↔ (name, value) ∈ xs := by
  refine ⟨mem_of_get?, ?_⟩
  induction xs with
  | nil => intro h; cases h
  | cons entry rest ih =>
    rw [List.map_cons, List.nodup_cons] at hnodup
    intro h
    rw [get?]
    rcases List.mem_cons.mp h with h | h
    · cases h
      simp
    · have hne : entry.1 ≠ name := by
        rintro rfl
        exact hnodup.1 (List.mem_map.mpr ⟨_, h, rfl⟩)
      simpa [hne] using ih hnodup.2 h

/-- Without repeated names, a look-up does not depend on the order of the entries. -/
theorem get?_eq_of_perm (hnodup : (ys.map Prod.fst).Nodup) (h : xs.Perm ys) (name : String) :
    xs.get? name = ys.get? name := by
  have hnodup' : (xs.map Prod.fst).Nodup := (h.map Prod.fst).nodup_iff.mpr hnodup
  apply Option.ext
  intro value
  rw [get?_eq_some_iff hnodup', get?_eq_some_iff hnodup, h.mem_iff]

/-- Storing keeps names from being repeated. -/
theorem nodup_put {name : String} {value : α} (h : (xs.map Prod.fst).Nodup) :
    ((put name value xs).map Prod.fst).Nodup := by
  rw [names_put]
  split
  · exact h
  · rename_i hnew
    refine List.nodup_append.mpr ⟨h, by simp, ?_⟩
    intro x hx y hy
    rw [List.mem_singleton.mp hy]
    rintro rfl
    exact hnew hx

/-- **Adding to the list of a name adds to the lists as a whole.**  A name that is not
stored has no list yet. -/
theorem flatten_put_append (lists : Entries (List α)) (name : String) (added : List α) :
    ((lists.put name ((lists.get? name).getD [] ++ added)).map Prod.snd).flatten.Perm
      ((lists.map Prod.snd).flatten ++ added) := by
  induction lists with
  | nil => simp [get?, put]
  | cons entry rest ih =>
    rw [put, get?]
    split
    · simp only [Option.getD_some, List.map_cons, List.flatten_cons, List.append_assoc]
      exact List.Perm.append_left _ List.perm_append_comm
    · simp only [List.map_cons, List.flatten_cons, List.append_assoc]
      exact List.Perm.append_left _ ih

/-! ### Storing and erasing -/

section Exchange

variable {β : Type} {key other : String}

theorem get?_erase (entries : Entries α) (key other : String) :
    get? (erase entries key) other = if other == key then none else get? entries other := by
  induction entries with
  | nil => simp [erase]
  | cons entry rest ih =>
    by_cases hkey : entry.1 = key
    · have herase : erase (entry :: rest) key = erase rest key := by simp [erase, hkey]
      rw [herase, ih, get?]
      by_cases h : other = key
      · simp [h]
      · simp [h, hkey, Ne.symm h]
    · have herase : erase (entry :: rest) key = entry :: erase rest key := by
        simp [erase, hkey]
      rw [herase, get?, get?, ih]
      by_cases h : entry.1 = other
      · have hne : other ≠ key := fun heq => hkey (h.trans heq)
        simp [h, hne]
      · simp [h]

theorem erase_of_get? {entries : Entries α} (h : get? entries key = none) :
    erase entries key = entries := by
  induction entries with
  | nil => rfl
  | cons entry rest ih =>
    rw [get?] at h
    split at h
    · cases h
    · rename_i hne
      rw [erase, List.filter_cons_of_pos (by simpa using hne)]
      exact congrArg (entry :: ·) (ih h)

theorem put_put_self (key : String) (v w : α) (entries : Entries α) :
    put key w (put key v entries) = put key w entries := by
  induction entries with
  | nil => simp [put]
  | cons entry rest ih =>
    by_cases h : entry.1 = key
    · simp [put, h]
    · simp [put, h, ih]

/-- A stored field keeps its place, so another one may be stored before or after. -/
theorem put_put_comm (hne : key ≠ other) (v w : α) {entries : Entries α}
    (hkey : (get? entries key).isSome = true) :
    put key v (put other w entries) = put other w (put key v entries) := by
  induction entries with
  | nil => cases hkey
  | cons entry rest ih =>
    by_cases h : entry.1 = key
    · simp [put, h, hne]
    · by_cases h' : entry.1 = other
      · simp [put, h', Ne.symm hne]
      · have hrest : (get? rest key).isSome = true := by simpa [get?, h] using hkey
        simp [put, h, h', ih hrest]

theorem erase_put_self (key : String) (v : α) (entries : Entries α) :
    erase (put key v entries) key = erase entries key := by
  induction entries with
  | nil => simp [erase, put]
  | cons entry rest ih =>
    by_cases h : entry.1 = key
    · simp [put, erase, h]
    · rw [erase, erase] at ih
      simp [put, erase, h, ih]

theorem erase_put_comm (hne : key ≠ other) (v : α) (entries : Entries α) :
    erase (put key v entries) other = put key v (erase entries other) := by
  induction entries with
  | nil => simp [erase, put, hne]
  | cons entry rest ih =>
    rw [erase, erase] at ih
    by_cases h : entry.1 = key
    · simp [put, erase, h, hne]
    · by_cases h' : entry.1 = other
      · simp [put, erase, h', Ne.symm hne, ih]
      · simp [put, erase, h, h', ih]

/-- An entry of a new name may be put anywhere. -/
theorem get?_insertIdx {entries : Entries α} {place : Nat} (v : α)
    (h : get? entries key = none) (hplace : place ≤ entries.length) (other : String) :
    get? (entries.insertIdx place (key, v)) other =
      if other == key then some v else get? entries other := by
  induction place generalizing entries with
  | zero => rw [List.insertIdx_zero, get?, BEq.comm]
  | succ place ih =>
    cases entries with
    | nil => exact absurd hplace (by simp)
    | cons entry rest =>
      rw [get?] at h
      split at h
      · cases h
      · rename_i hne
        rw [beq_iff_eq] at hne
        rw [List.insertIdx_succ_cons, get?, get?, ih h (by simpa using hplace)]
        by_cases hother : entry.1 = other
        · simp [hother, hother ▸ hne]
        · simp [hother]

theorem map_put (φ : α → β) (key : String) (v : α) (entries : Entries α) :
    (put key v entries).map (fun entry => (entry.1, φ entry.2)) =
      put key (φ v) (entries.map fun entry => (entry.1, φ entry.2)) := by
  induction entries with
  | nil => rfl
  | cons entry rest ih =>
    by_cases h : entry.1 = key
    · simp [put, h]
    · simp [put, h, ih]

end Exchange

/-! ### Histories -/

section History

variable {history : List (String × α)} {name : String} {value : α}

/-- **The last value that was stored under a name.** -/
def IsLast (history : List (String × α)) (name : String) (value : α) : Prop :=
  ∃ before after, history = before ++ (name, value) :: after ∧ name ∉ after.map Prod.fst

theorem isLast_iff_find? :
    IsLast history name value ↔ history.reverse.find? (·.1 == name) = some (name, value) := by
  rw [List.find?_eq_some_iff_append]
  constructor
  · rintro ⟨before, after, rfl, hafter⟩
    refine ⟨beq_self_eq_true name, after.reverse, before.reverse, by simp, ?_⟩
    intro entry hentry
    have hne : entry.1 ≠ name := fun heq =>
      hafter (List.mem_map.mpr ⟨entry, List.mem_reverse.mp hentry, heq⟩)
    simpa using hne
  · rintro ⟨-, after, before, hreverse, hafter⟩
    refine ⟨before.reverse, after.reverse, by simpa using congrArg List.reverse hreverse, ?_⟩
    intro hmem
    obtain ⟨entry, hentry, heq⟩ := List.mem_map.mp hmem
    simpa [heq] using hafter entry (List.mem_reverse.mp hentry)

instance [DecidableEq α] : Decidable (IsLast history name value) :=
  decidable_of_iff _ isLast_iff_find?.symm

theorem not_isLast_nil : ¬ IsLast ([] : List (String × α)) name value := by
  simp [isLast_iff_find?]

/-- **Step.**  What is stored next is the last value of its name, and no other name
notices. -/
theorem isLast_append_singleton {entry : String × α} :
    IsLast (history ++ [entry]) name value ↔
      if name = entry.1 then value = entry.2 else IsLast history name value := by
  rw [isLast_iff_find?, List.reverse_append, List.reverse_singleton, List.singleton_append,
    List.find?_cons]
  by_cases h : name = entry.1
  · simp [h, Prod.ext_iff, eq_comm]
  · have hskip : (entry.1 == name) = false := beq_false_of_ne (Ne.symm h)
    rw [hskip, if_neg h, isLast_iff_find?]

/-- A name has a last value exactly if something was stored under it. -/
theorem exists_isLast_iff : (∃ value, IsLast history name value) ↔
    name ∈ history.map Prod.fst := by
  induction history using List.reverseRecOn with
  | nil => simp [not_isLast_nil]
  | append_singleton history entry ih =>
    simp only [isLast_append_singleton, List.map_append, List.mem_append, ← ih,
      List.map_singleton, List.mem_singleton]
    by_cases h : name = entry.1 <;> simp [h]

/-- If no name is repeated, every value is the last one of its name. -/
theorem isLast_of_mem (hnodup : (history.map Prod.fst).Nodup) (h : (name, value) ∈ history) :
    IsLast history name value := by
  obtain ⟨before, after, rfl⟩ := List.append_of_mem h
  refine ⟨before, after, rfl, ?_⟩
  rw [List.map_append, List.map_cons] at hnodup
  exact (List.nodup_cons.mp (List.nodup_append.mp hnodup).2.1).1

/-- **Run.**  Under every name stands the value that was stored last. -/
theorem get?_foldl_put_eq_some_iff :
    get? (history.foldl (fun held entry => put entry.1 entry.2 held) []) name = some value ↔
      IsLast history name value := by
  induction history using List.reverseRecOn with
  | nil => simp [not_isLast_nil]
  | append_singleton history entry ih =>
    rw [List.foldl_append, List.foldl_cons, List.foldl_nil, get?_put, isLast_append_singleton]
    by_cases h : name = entry.1
    · simp [h, eq_comm]
    · simpa [h] using ih

end History

end DocQuery.Entries
