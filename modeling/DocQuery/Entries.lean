/-!
# Entries

Small maps from names to values that remember the order in which names were first stored.

## Main Definitions

* `Entries` — a list of names with their values
* `Entries.put` — stores a value
* `Entries.get?` — the value of a name

## Design Notes

Storing under a present name replaces the value in place, so entries that are only built
with `put` hold every name once.
-/

namespace DocQuery

/-- Names with their values, in the order in which the names were first stored. -/
abbrev Entries (α : Type) := List (String × α)

namespace Entries

variable {α : Type}

def get? : Entries α → String → Option α
  | [], _ => none
  | entry :: rest, name => if entry.1 == name then some entry.2 else get? rest name

/-- Stores a value under a name: in the place of the name if it is present, else at the
end. -/
def put (name : String) (value : α) : Entries α → Entries α
  | [] => [(name, value)]
  | entry :: rest =>
    if entry.1 == name then (name, value) :: rest else entry :: put name value rest

def erase (entries : Entries α) (name : String) : Entries α :=
  entries.filter fun entry => entry.1 != name

@[simp] theorem get?_nil (name : String) : get? ([] : Entries α) name = none := rfl

@[simp] theorem put_nil (name : String) (value : α) :
    put name value ([] : Entries α) = [(name, value)] := rfl

/-- A name has the value stored last, and the other names keep theirs. -/
theorem get?_put (entries : Entries α) (name other : String) (value : α) :
    get? (put name value entries) other =
      if other == name then some value else get? entries other := by
  induction entries with
  | nil =>
    by_cases h : name = other
    · simp [put, get?, h]
    · simp [put, get?, h, Ne.symm h]
  | cons entry rest ih =>
    by_cases hkey : entry.1 = name
    · by_cases h : name = other
      · simp [put, get?, hkey, h]
      · simp [put, get?, hkey, h, Ne.symm h]
    · by_cases h : entry.1 = other
      · have hne : other ≠ name := fun e => hkey (h.trans e)
        simp [put, get?, h, hne]
      · simp only [put, get?, beq_iff_eq, hkey, h, if_false]
        simpa using ih

/-- Storing under a present name keeps the names, and a new name comes last. -/
theorem names_put (entries : Entries α) (name : String) (value : α) :
    (put name value entries).map Prod.fst =
      if name ∈ entries.map Prod.fst then entries.map Prod.fst
      else entries.map Prod.fst ++ [name] := by
  induction entries with
  | nil => simp [put]
  | cons entry rest ih =>
    simp only [put]
    by_cases h : entry.1 = name
    · simp [h]
    · have hne : (entry.1 == name) = false := by simpa using h
      have hne' : name ≠ entry.1 := fun e => h e.symm
      simp only [hne, Bool.false_eq_true, if_false, List.map_cons, ih, List.mem_cons, hne',
        false_or]
      split <;> simp

end Entries

end DocQuery
