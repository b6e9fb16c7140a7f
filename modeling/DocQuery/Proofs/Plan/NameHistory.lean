import DocQuery.Plan.Aliases
import DocQuery.Proofs.Entries

/-!
# What the table of names remembers

Expressions are named one after the other.  An expression may be named twice, a name may
be given twice, and one text may be an expression and a name.  The two directions of the
table are overwritten independently, so each answers by the last naming in which a text
has the role that is asked for.

* `Aliases.aliasOf?_ofList_eq_some_iff` — the name that an expression was given last
* `Aliases.get?_fieldOf_ofList_eq_some_iff` — the expression that a name was given to last
* `Aliases.Clashes`, `Aliases.isAmbiguous_ofList_iff` — when a text has two readings
* `Aliases.resolve_ofList_eq_ok_iff`, `Aliases.resolve_ofList_eq_error_iff` — what a text
  stands for
* `names_answered_by_last_naming` — all answers of a table

### What is load-bearing

A table is two maps that are filled from one list of pairs, the second one with the pairs
turned round.  So one lemma on what a map holds after its entries were stored says what
both hold.
-/

namespace DocQuery

open Entries

namespace Aliases

variable {pairs : List (String × String)} {text label field : String}

/-! ### The two directions -/

/-- From expressions to names the pairs are stored one by one. -/
theorem aliasOf_ofList (pairs : List (String × String)) :
    (ofList pairs).aliasOf = pairs.foldl (fun held pair => put pair.1 pair.2 held) [] :=
  (List.foldl_hom Aliases.aliasOf fun _ _ => rfl).symm

/-- From names to expressions the pairs are turned round first. -/
theorem fieldOf_ofList (pairs : List (String × String)) :
    (ofList pairs).fieldOf =
      (pairs.map Prod.swap).foldl (fun held pair => put pair.1 pair.2 held) [] := by
  rw [List.foldl_map]
  exact (List.foldl_hom Aliases.fieldOf fun _ _ => rfl).symm

/-- An expression has the name that it was given last. -/
theorem aliasOf?_ofList_eq_some_iff :
    (ofList pairs).aliasOf? text = some label ↔ IsLast pairs text label := by
  rw [aliasOf?, aliasOf_ofList, get?_foldl_put_eq_some_iff]

/-- A name goes back to the expression that it was given to last. -/
theorem get?_fieldOf_ofList_eq_some_iff :
    (ofList pairs).fieldOf.get? text = some field ↔
      IsLast (pairs.map Prod.swap) text field := by
  rw [fieldOf_ofList, get?_foldl_put_eq_some_iff]

theorem map_fst_swap (pairs : List (String × String)) :
    (pairs.map Prod.swap).map Prod.fst = pairs.map Prod.snd := by
  rw [List.map_map]
  rfl

/-- A text that is no name goes back to nothing. -/
theorem get?_fieldOf_ofList_eq_none_iff :
    (ofList pairs).fieldOf.get? text = none ↔ text ∉ pairs.map Prod.snd := by
  rw [← map_fst_swap, ← exists_isLast_iff, Option.eq_none_iff_forall_ne_some]
  simp only [ne_eq, get?_fieldOf_ofList_eq_some_iff, not_exists]

/-! ### What a text stands for -/

/-- **A text with two readings**: an expression with a name and the name of an expression,
where the two differ. -/
def Clashes (pairs : List (String × String)) (text : String) : Prop :=
  ∃ label field, IsLast pairs text label ∧ IsLast (pairs.map Prod.swap) text field ∧
    label ≠ field

theorem isAmbiguous_ofList_iff :
    (ofList pairs).isAmbiguous text = true ↔ Clashes pairs text := by
  have hiff : Clashes pairs text ↔
    ∃ label field, (ofList pairs).aliasOf.get? text = some label ∧
      (ofList pairs).fieldOf.get? text = some field ∧ label ≠ field := by
    refine exists_congr fun label => exists_congr fun field => ?_
    rw [get?_fieldOf_ofList_eq_some_iff, ← aliasOf?_ofList_eq_some_iff, aliasOf?]
  rw [hiff, isAmbiguous]
  cases (ofList pairs).aliasOf.get? text <;> cases (ofList pairs).fieldOf.get? text <;> simp

/-- A text with two readings is a fault, and nothing else is. -/
theorem resolve_ofList_eq_error_iff {fault : Fault} :
    (ofList pairs).resolve text = .error fault ↔
      fault = .ambiguousField text ∧ Clashes pairs text := by
  rw [← isAmbiguous_ofList_iff, resolve]
  split
  · rename_i h
    simp [h, eq_comm]
  · rename_i h
    simp [h]

/-- Any other text stands for the expression that it was given to last as a name, or for
itself. -/
theorem resolve_ofList_eq_ok_iff :
    (ofList pairs).resolve text = .ok field ↔ ¬ Clashes pairs text ∧
      (IsLast (pairs.map Prod.swap) text field ∨ text ∉ pairs.map Prod.snd ∧
        field = text) := by
  rw [← isAmbiguous_ofList_iff, resolve, ← get?_fieldOf_ofList_eq_some_iff,
    ← get?_fieldOf_ofList_eq_none_iff]
  split
  · rename_i h
    simp [h]
  · rename_i h
    cases (ofList pairs).fieldOf.get? text <;> simp [h, eq_comm]

/-- If no name is given twice, a name goes back to its own expression or is a fault. -/
theorem resolve_ofList_of_mem (hnames : (pairs.map Prod.snd).Nodup) {pair : String × String}
    (hpair : pair ∈ pairs) :
    (ofList pairs).resolve pair.2 = .ok pair.1 ∨
      (ofList pairs).resolve pair.2 = .error (.ambiguousField pair.2) := by
  by_cases hclash : Clashes pairs pair.2
  · exact .inr (resolve_ofList_eq_error_iff.mpr ⟨rfl, hclash⟩)
  · have hlast : IsLast (pairs.map Prod.swap) pair.2 pair.1 := by
      refine isLast_of_mem ?_ (List.mem_map.mpr ⟨pair, hpair, rfl⟩)
      rwa [map_fst_swap]
    exact .inl (resolve_ofList_eq_ok_iff.mpr ⟨hclash, .inl hlast⟩)

end Aliases

/-- **A table of names answers by the last naming.**  Whatever pairs of an expression and
a name are inserted, an expression has the name of the last pair that it begins.  A text
is a fault exactly if it begins a pair and ends a pair, and the last such pairs go on to
different texts; any other text stands for the expression of the last pair that it ends,
or for itself if there is none.  So if no two pairs end alike, a name stands for the
expression of its own pair or is a fault. -/
theorem names_answered_by_last_naming (pairs : List (String × String)) (text : String) :
    (∀ label, (Aliases.ofList pairs).aliasOf? text = some label ↔ IsLast pairs text label) ∧
    (∀ fault, (Aliases.ofList pairs).resolve text = .error fault ↔
      fault = .ambiguousField text ∧ Aliases.Clashes pairs text) ∧
    (∀ field, (Aliases.ofList pairs).resolve text = .ok field ↔ ¬ Aliases.Clashes pairs text ∧
      (IsLast (pairs.map Prod.swap) text field ∨ text ∉ pairs.map Prod.snd ∧ field = text)) ∧
    ((pairs.map Prod.snd).Nodup → ∀ pair ∈ pairs,
      (Aliases.ofList pairs).resolve pair.2 = .ok pair.1 ∨
        (Aliases.ofList pairs).resolve pair.2 = .error (.ambiguousField pair.2)) :=
  ⟨fun _ => Aliases.aliasOf?_ofList_eq_some_iff, fun _ => Aliases.resolve_ofList_eq_error_iff,
    fun _ => Aliases.resolve_ofList_eq_ok_iff,
    fun hnames _ hpair => Aliases.resolve_ofList_of_mem hnames hpair⟩

/-- A chain of namings: each name but the last one is named in turn. -/
def chainedNames : List (String × String) :=
  [("a", "b"), ("b", "c")]

/-- The name in the middle of a chain is a fault, and the last one goes back one step. -/
theorem names_answered_by_last_naming_chain :
    (chainedNames.map Prod.snd).Nodup ∧
    (Aliases.ofList chainedNames).resolve "b" = .error (.ambiguousField "b") ∧
    (Aliases.ofList chainedNames).resolve "c" = .ok "b" := by
  have hnames : (chainedNames.map Prod.snd).Nodup := by decide
  obtain ⟨-, hfault, -, -⟩ := names_answered_by_last_naming chainedNames "b"
  obtain ⟨-, -, hok, hown⟩ := names_answered_by_last_naming chainedNames "c"
  refine ⟨hnames, (hfault _).mpr ⟨rfl, "c", "a", by decide, by decide, by decide⟩, ?_⟩
  rcases hown hnames ("b", "c") (by decide) with h | h
  · exact h
  · cases h

end DocQuery
