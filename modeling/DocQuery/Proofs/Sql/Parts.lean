import DocQuery.Sql.Columns
import Mathlib.Data.List.Basic
import Mathlib.Logic.Relation

/-!
# The parts of an expression

Expressions hold expressions, alone or in lists.  Statements that do not care where a part
stands go through the list of the parts.

* `Expr.children` — the expressions that an expression is made of; nested queries are not
  taken apart
* `Expr.induction_on_children` — what holds of an expression if it holds of its parts
  holds of all
* `Expr.Within` — an expression occurs in another, at any depth
* `Expr.columns_subset_of_within` — an expression reads the columns of all that occurs in it
* `Expr.columns_mapColumns` — replacing columns replaces them one by one
* `Expr.exists_of_within_mapColumns` — what occurs after columns are replaced occurred before
-/

namespace DocQuery.Sql.Expr

/-- The expressions that an expression is made of, from left to right. -/
def children : Expr → List Expr
  | .call _ _ args => args
  | .signed _ e | .isNull _ e | .not e => [e]
  | .arithmetic _ l r | .compare _ l r | .like _ l r | .and l r | .or l r => [l, r]
  | .inList _ e items => e :: items
  | .between _ e low high => [e, low, high]
  | _ => []

theorem sizeOf_lt_of_mem_children {e x : Expr} (h : x ∈ e.children) :
    sizeOf x < sizeOf e := by
  cases e <;> simp only [children, List.mem_cons, List.not_mem_nil, or_false] at h
  case call name distinct args =>
    have hlt := List.sizeOf_lt_of_mem h
    simp only [call.sizeOf_spec]
    omega
  case inList negated e items =>
    rcases h with rfl | h
    · simp only [inList.sizeOf_spec]; omega
    · have hlt := List.sizeOf_lt_of_mem h
      simp only [inList.sizeOf_spec]
      omega
  case between negated e low high =>
    rcases h with rfl | rfl | rfl <;> simp only [between.sizeOf_spec] <;> omega
  case signed | isNull | not => subst h; simp
  case arithmetic | compare | like | and | or =>
    simp only [arithmetic.sizeOf_spec, compare.sizeOf_spec, like.sizeOf_spec, and.sizeOf_spec,
      or.sizeOf_spec]
    rcases h with rfl | rfl <;> omega

/-- **Induction over parts.** -/
theorem induction_on_children {motive : Expr → Prop}
    (step : ∀ e : Expr, (∀ x ∈ e.children, motive x) → motive e) (e : Expr) : motive e :=
  step e fun x hx =>
    have := sizeOf_lt_of_mem_children hx
    induction_on_children step x
termination_by sizeOf e

/-- An expression that is no column reads what its parts read, in their order. -/
theorem columns_eq_flatMap {e : Expr} (h : ∀ c, e ≠ .column c) :
    e.columns = e.children.flatMap columns := by
  cases e
  case column c => exact absurd rfl (h c)
  all_goals simp [columns, children]

theorem columns_subset_of_mem_children {e x : Expr} (h : x ∈ e.children) :
    x.columns ⊆ e.columns := by
  have hcolumn : ∀ c, e ≠ .column c := by
    rintro c rfl
    exact absurd h List.not_mem_nil
  rw [columns_eq_flatMap hcolumn]
  exact fun c hc => List.mem_flatMap.mpr ⟨x, h, hc⟩

/-- An expression occurs in another: as the whole, as a part, as a part of a part, and so
on. -/
def Within : Expr → Expr → Prop :=
  Relation.ReflTransGen fun x e => x ∈ e.children

/-- **An expression reads the columns of all that occurs in it.** -/
theorem columns_subset_of_within {x e : Expr} (h : x.Within e) : x.columns ⊆ e.columns := by
  induction h with
  | refl => exact List.Subset.refl _
  | tail _ hpart ih => exact List.Subset.trans ih (columns_subset_of_mem_children hpart)

/-- What occurs in an expression is the whole or occurs in a part. -/
theorem within_iff {x e : Expr} :
    x.Within e ↔ x = e ∨ ∃ part ∈ e.children, x.Within part := by
  constructor
  · intro h
    rcases Relation.ReflTransGen.cases_tail h with rfl | ⟨part, hwithin, hpart⟩
    · exact .inl rfl
    · exact .inr ⟨part, hpart, hwithin⟩
  · rintro (rfl | ⟨part, hpart, hwithin⟩)
    · exact .refl
    · exact hwithin.tail hpart

/-- The columns of an expression are those that occur in it. -/
theorem within_column_iff {c : Column} {e : Expr} : (column c).Within e ↔ c ∈ e.columns := by
  constructor
  · intro h
    exact columns_subset_of_within h (by simp [columns])
  · intro h
    induction e using induction_on_children with
    | step e ih =>
      by_cases hcolumn : ∃ c', e = .column c'
      · obtain ⟨c', rfl⟩ := hcolumn
        rw [columns, List.mem_singleton] at h
        exact h ▸ .refl
      · rw [columns_eq_flatMap fun c' h => hcolumn ⟨c', h⟩, List.mem_flatMap] at h
        obtain ⟨x, hx, hc⟩ := h
        exact within_iff.mpr (.inr ⟨x, hx, ih x hx hc⟩)

/-! ### Replacing columns -/

theorem children_mapColumns (f : Column → Column) (e : Expr) :
    (e.mapColumns f).children = e.children.map (mapColumns f) := by
  cases e <;> simp [mapColumns, children]

/-- **Columns are replaced one by one.** -/
theorem columns_mapColumns (f : Column → Column) (e : Expr) :
    (e.mapColumns f).columns = e.columns.map f := by
  induction e using induction_on_children with
  | step e ih =>
    by_cases hcolumn : ∃ c, e = .column c
    · obtain ⟨c, rfl⟩ := hcolumn
      simp [mapColumns, columns]
    · have hmapped : ∀ c, e.mapColumns f ≠ .column c := by
        intro c h
        cases e <;> simp [mapColumns] at h
        exact hcolumn ⟨_, rfl⟩
      rw [columns_eq_flatMap hmapped, columns_eq_flatMap fun c h => hcolumn ⟨c, h⟩,
        children_mapColumns, List.flatMap_map, List.map_flatMap]
      exact List.flatMap_congr ih

/-- What occurs after columns are replaced occurred before. -/
theorem exists_of_within_mapColumns {f : Column → Column} {x e : Expr}
    (h : x.Within (e.mapColumns f)) : ∃ y : Expr, y.Within e ∧ x = y.mapColumns f := by
  induction e using induction_on_children generalizing x with
  | step e ih =>
    rcases within_iff.mp h with rfl | ⟨part, hpart, hwithin⟩
    · exact ⟨e, .refl, rfl⟩
    · rw [children_mapColumns, List.mem_map] at hpart
      obtain ⟨child, hchild, rfl⟩ := hpart
      obtain ⟨y, hy, rfl⟩ := ih child hchild hwithin
      exact ⟨y, within_iff.mpr (.inr ⟨child, hchild, hy⟩), rfl⟩

end DocQuery.Sql.Expr
