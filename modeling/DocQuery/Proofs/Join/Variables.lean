import DocQuery.Join.Binding
import DocQuery.Proofs.Document.Storing
import DocQuery.Proofs.Predicate.Comparison
import DocQuery.Proofs.Sql.Parts
import Mathlib.Data.List.Forall2
import Mathlib.Data.List.Induction

/-!
# The variables of a join

Inside a join, columns of other sources are read through variables.  The name of a
variable is made from the path of its column: letters lose their case and dots become
underscores.  Paths that differ in nothing else have one variable, and a variable is bound
once.

* `Binding.IsOuter`, `Binding.outerPath` — the columns that are read through variables,
  and the paths that name these
* `Binding.get?_bound` — a variable is bound to the last column that has it
* `Binding.LeadsBack` — what stands for a column inside a join leads back to that column
* `Binding.outer_columns_restored_iff` — the variables lead back to all columns exactly if
  no two of the columns share a variable

### What is load-bearing

`Binding.bind` replaces columns one by one and stores a path for each outer column, in the
same order.  Storing replaces, so a variable keeps the last path.
-/

namespace DocQuery

open Sql

/-- A column whose table and name do not begin with a dollar sign. -/
structure Sql.Column.IsPlain (c : Column) : Prop where
  table : ∀ table ∈ c.table, Text.isDollar table = false
  name : Text.isDollar c.name = false

namespace Binding

variable {label base : String}

/-! ### Outer columns -/

/-- A column of another source than the joined one. -/
def IsOuter (label : String) (c : Column) : Prop :=
  c.quoted = false ∧ c.table ≠ some label

/-- The path that an outer column goes by: columns without table are those of the base
source. -/
def outerPath (base : String) (c : Column) : String :=
  c.table.getD base ++ "." ++ c.name

theorem variableOf?_of_isOuter {c : Column} (h : IsOuter label c) :
    variableOf? label base c = some (variableName (outerPath base c)) := by
  have hnot : (c.quoted || c.belongsTo label) = false := by
    simp [Column.belongsTo, h.1, h.2]
  rw [variableOf?, hnot, outerPath, Column.fullName]
  cases c.table <;> rfl

theorem variableOf?_of_not_isOuter {c : Column} (h : ¬ IsOuter label c) :
    variableOf? label base c = none := by
  have hown : (c.quoted || c.belongsTo label) = true := by
    simpa [IsOuter, Column.belongsTo, or_iff_not_imp_left] using h
  rw [variableOf?, hown]
  rfl

theorem variableOf?_eq_some_iff {c : Column} {v : String} :
    variableOf? label base c = some v ↔
      IsOuter label c ∧ variableName (outerPath base c) = v := by
  by_cases h : IsOuter label c
  · rw [variableOf?_of_isOuter h, Option.some.injEq, and_iff_right h]
  · rw [variableOf?_of_not_isOuter h]
    exact ⟨fun hnone => absurd hnone (by simp), fun houter => absurd houter.1 h⟩

theorem column_of_isOuter {c : Column} (h : IsOuter label c) :
    column label base c = .bare ("$$" ++ variableName (outerPath base c)) := by
  rw [column, variableOf?_of_isOuter h]

/-- A column that keeps its name is no variable. -/
theorem name_column_of_not_isOuter {c : Column} (h : ¬ IsOuter label c) :
    (column label base c).name = c.name := by
  rw [column, variableOf?_of_not_isOuter h]
  cases c.quoted <;> rfl

/-- **Where columns are plain, exactly the outer columns become variables.** -/
theorem name_column_eq_iff {c : Column} (hc : c.IsPlain) {v : String} :
    (column label base c).name = "$$" ++ v ↔ variableOf? label base c = some v := by
  rw [variableOf?_eq_some_iff]
  by_cases h : IsOuter label c
  · rw [column_of_isOuter h, and_iff_right h]
    exact String.append_right_inj "$$"
  · rw [name_column_of_not_isOuter h]
    refine ⟨fun hname => ?_, fun houter => absurd houter.1 h⟩
    have hdollar : Text.isDollar c.name = true := by
      rw [hname, Text.isDollar, String.toList_append]; rfl
    exact absurd (hc.name.symm.trans hdollar) Bool.false_ne_true

/-! ### What variables are bound to -/

/-- **Step.**  Binding a column binds its variable, and the others keep their values. -/
theorem get?_bindColumn (bound : Document) (c : Column) (v : String) :
    (bindColumn label base bound c).get? v =
      if variableOf? label base c = some v then some (.string ("$" ++ c.fullName))
      else bound.get? v := by
  rw [bindColumn]
  cases hvariable : variableOf? label base c with
  | none => simp
  | some name =>
    by_cases h : v = name
    · simp [h]
    · simp [Document.get?_insert_of_ne _ _ h, Ne.symm h]

/-- The last of some columns that has a variable. -/
def lastOf? (label base : String) (columns : List Column) (v : String) : Option Column :=
  (columns.filter fun c => variableOf? label base c = some v).getLast?

/-- **Run.**  A variable is bound to the last column that has it. -/
theorem get?_foldl_bindColumn (columns : List Column) (v : String) :
    (columns.foldl (bindColumn label base) .empty).get? v =
      (lastOf? label base columns v).map fun c => .string ("$" ++ c.fullName) := by
  induction columns using List.reverseRecOn with
  | nil => rfl
  | append_singleton columns c ih =>
    rw [List.foldl_append, List.foldl_cons, List.foldl_nil, get?_bindColumn, ih, lastOf?,
      lastOf?, List.filter_append]
    by_cases h : variableOf? label base c = some v
    · simp [h]
    · simp [h]

theorem get?_bound (e : Expr) (v : String) :
    (bind label base e).bound.get? v =
      (lastOf? label base e.columns v).map fun c => .string ("$" ++ c.fullName) :=
  get?_foldl_bindColumn e.columns v

theorem columns_condition (e : Expr) :
    (bind label base e).condition.columns = e.columns.map (column label base) :=
  Expr.columns_mapColumns _ e

theorem mem_of_lastOf? {columns : List Column} {v : String} {c : Column}
    (h : lastOf? label base columns v = some c) :
    c ∈ columns ∧ variableOf? label base c = some v := by
  simpa using List.mem_filter.mp (List.mem_of_getLast? h)

theorem exists_lastOf? {columns : List Column} {v : String} {c : Column} (hc : c ∈ columns)
    (hv : variableOf? label base c = some v) :
    ∃ last, lastOf? label base columns v = some last := by
  have hmem : c ∈ columns.filter fun c => variableOf? label base c = some v :=
    List.mem_filter.mpr ⟨hc, by simpa using hv⟩
  exact ⟨_, List.getLast?_eq_getLast_of_ne_nil (List.ne_nil_of_mem hmem)⟩

/-- **Exactly the variables of the columns are bound.** -/
theorem mem_keys_bound_iff (e : Expr) (v : String) :
    v ∈ (bind label base e).bound.keys ↔
      ∃ c ∈ e.columns, variableOf? label base c = some v := by
  rw [Document.mem_keys_iff, get?_bound, Option.isSome_map, Option.isSome_iff_exists]
  constructor
  · rintro ⟨c, hlast⟩
    exact ⟨c, mem_of_lastOf? hlast⟩
  · rintro ⟨c, hc, hv⟩
    exact exists_lastOf? hc hv

/-! ### Back to the columns of a condition -/

/-- What stands for a column inside a join leads back to the column: a variable is bound
to its path, a column of the join has lost its qualifier only, and a quoted column is left
alone. -/
inductive LeadsBack (label : String) (bound : Document) : Column → Column → Prop
  | outer {c : Column} (v : String) (houter : IsOuter label c)
      (hbound : bound.get? v = some (.string ("$" ++ c.fullName))) :
      LeadsBack label bound c (.bare ("$$" ++ v))
  | own {c : Column} (hquoted : c.quoted = false) (hown : c.table = some label) :
      LeadsBack label bound c { c with table := none }
  | quoted {c : Column} (hquoted : c.quoted = true) : LeadsBack label bound c c

theorem leadsBack_column_iff {bound : Document} {c : Column} :
    LeadsBack label bound c (column label base c) ↔ (IsOuter label c →
      bound.get? (variableName (outerPath base c)) = some (.string ("$" ++ c.fullName))) := by
  constructor
  · intro h houter
    generalize hinside : column label base c = inside at h
    cases h with
    | outer v _ hbound =>
      rw [column_of_isOuter houter] at hinside
      rwa [(String.append_right_inj "$$").mp (congrArg Column.name hinside)]
    | own _ hown => exact absurd hown houter.2
    | quoted hquoted => exact absurd (houter.1.symm.trans hquoted) Bool.false_ne_true
  · intro h
    by_cases houter : IsOuter label c
    · rw [column_of_isOuter houter]
      exact .outer _ houter (h houter)
    · have hkept : column label base c = if c.quoted then c
          else { c with table := none } := by
        rw [column, variableOf?_of_not_isOuter houter]
      rw [hkept]
      split
      · exact .quoted ‹_›
      · rename_i hquoted
        rw [Bool.not_eq_true] at hquoted
        refine .own hquoted ?_
        by_contra hown
        exact houter ⟨hquoted, hown⟩

/-- **The variable of an outer column leads back to it exactly if it is bound to a column
with the same path.** -/
theorem leadsBack_bound_iff {e : Expr} {c : Column} (hc : c ∈ e.columns) :
    LeadsBack label (bind label base e).bound c (column label base c) ↔ (IsOuter label c →
      ∀ last, lastOf? label base e.columns (variableName (outerPath base c)) = some last →
        last.fullName = c.fullName) := by
  rw [leadsBack_column_iff]
  refine imp_congr_right fun houter => ?_
  obtain ⟨last, hlast⟩ := exists_lastOf? hc (variableOf?_of_isOuter houter)
  rw [get?_bound, hlast]
  constructor
  · intro h last' hlast'
    cases hlast'
    simp only [Option.map_some, Option.some.injEq, Value.string.injEq] at h
    exact (String.append_right_inj "$").mp h
  · intro h
    rw [Option.map_some, h last rfl]

/-- **What the variables of a join are worth.**  In a condition with plain columns, the
variables that are read are the ones that are bound.  A variable is bound to the last of
the columns that have it.  So everything inside the join leads back to the column that
stood in its place, exactly if outer columns whose paths agree up to case and to dots and
underscores have the same full name. -/
theorem outer_columns_restored_iff (label base : String) (e : Expr)
    (hplain : ∀ c ∈ e.columns, c.IsPlain) :
    (∀ inside ∈ (bind label base e).condition.columns, ∀ v, inside.name = "$$" ++ v →
      v ∈ (bind label base e).bound.keys) ∧
    (∀ v ∈ (bind label base e).bound.keys,
      ∃ inside ∈ (bind label base e).condition.columns, inside = .bare ("$$" ++ v)) ∧
    (∀ v, (bind label base e).bound.get? v =
      (e.columns.filter fun c => variableOf? label base c = some v).getLast?.map
        fun c => .string ("$" ++ c.fullName)) ∧
    (List.Forall₂ (LeadsBack label (bind label base e).bound) e.columns
        (bind label base e).condition.columns ↔
      ∀ c ∈ e.columns, ∀ c' ∈ e.columns, IsOuter label c → IsOuter label c' →
        variableName (outerPath base c) = variableName (outerPath base c') →
        c.fullName = c'.fullName) := by
  refine ⟨?_, ?_, get?_bound e, ?_⟩
  · rw [columns_condition]
    intro inside hinside v hname
    obtain ⟨c, hc, rfl⟩ := List.mem_map.mp hinside
    exact (mem_keys_bound_iff e v).mpr ⟨c, hc, (name_column_eq_iff (hplain c hc)).mp hname⟩
  · rw [columns_condition]
    intro v hv
    obtain ⟨c, hc, hvariable⟩ := (mem_keys_bound_iff e v).mp hv
    obtain ⟨houter, rfl⟩ := variableOf?_eq_some_iff.mp hvariable
    exact ⟨_, List.mem_map_of_mem hc, column_of_isOuter houter⟩
  · rw [columns_condition, List.forall₂_map_right_iff, List.forall₂_same]
    constructor
    · intro h c hc c' hc' houter houter' hsame
      -- both are read through one variable, which leads back to the last column that has
      -- it
      obtain ⟨last, hlast⟩ := exists_lastOf? hc (variableOf?_of_isOuter houter)
      have hback := (leadsBack_bound_iff hc).mp (h c hc) houter last hlast
      have hback' := (leadsBack_bound_iff hc').mp (h c' hc') houter' last (hsame ▸ hlast)
      exact hback.symm.trans hback'
    · intro h c hc
      refine (leadsBack_bound_iff hc).mpr fun houter last hlast => ?_
      obtain ⟨hmem, hvariable⟩ := mem_of_lastOf? hlast
      obtain ⟨houter', hsame⟩ := variableOf?_eq_some_iff.mp hvariable
      exact h last hmem c hc houter' houter hsame

/-- `u.home_city = o.city and u.home.city = o.town`. -/
def cityCondition : Expr :=
  .and (.compare .eq (.column (.qualified "u" "home_city")) (.column (.qualified "o" "city")))
    (.compare .eq (.column (.qualified "u" "home.city")) (.column (.qualified "o" "town")))

theorem variableName_cityCondition :
    variableName "u.home_city" = "u_home_city" ∧
      variableName "u.home.city" = "u_home_city" := by
  decide +kernel

/-- Two columns of `u` share a variable, which leads back to the second one only. -/
theorem outer_columns_restored_iff_city :
    (∀ c ∈ cityCondition.columns, c.IsPlain) ∧
    (bind "o" "u" cityCondition).bound.get? "u_home_city" = some (.string "$u.home.city") ∧
    ¬ List.Forall₂ (LeadsBack "o" (bind "o" "u" cityCondition).bound) cityCondition.columns
      (bind "o" "u" cityCondition).condition.columns := by
  have hplain : ∀ c ∈ cityCondition.columns, c.IsPlain := by
    intro c hc
    simp only [cityCondition, Expr.columns, List.cons_append, List.nil_append, List.mem_cons,
      List.not_mem_nil, or_false] at hc
    rcases hc with rfl | rfl | rfl | rfl <;>
      exact ⟨by simp [Column.qualified]; decide, by decide⟩
  have hunderscore : variableOf? "o" "u" (.qualified "u" "home_city") = some "u_home_city" :=
    variableOf?_eq_some_iff.mpr ⟨⟨rfl, by decide⟩, variableName_cityCondition.1⟩
  have hdot : variableOf? "o" "u" (.qualified "u" "home.city") = some "u_home_city" :=
    variableOf?_eq_some_iff.mpr ⟨⟨rfl, by decide⟩, variableName_cityCondition.2⟩
  have hown : ∀ name, variableOf? "o" "u" (.qualified "o" name) = none := fun _ => rfl
  obtain ⟨-, -, hbound, hback⟩ := outer_columns_restored_iff "o" "u" cityCondition hplain
  refine ⟨hplain, ?_, fun h => ?_⟩
  · have hreaders : (cityCondition.columns.filter fun c => variableOf? "o" "u" c =
      some "u_home_city") =
        [.qualified "u" "home_city", .qualified "u" "home.city"] := by
      simp [cityCondition, Expr.columns, hunderscore, hdot, hown]
    rw [hbound, hreaders]
    rfl
  · have hsame :=
      hback.mp h (.qualified "u" "home_city") (by simp [cityCondition, Expr.columns])
      (.qualified "u" "home.city") (by simp [cityCondition, Expr.columns]) ⟨rfl, by decide⟩
      ⟨rfl, by decide⟩ (variableName_cityCondition.1.trans variableName_cityCondition.2.symm)
    exact absurd hsame (by decide)

end Binding

end DocQuery
