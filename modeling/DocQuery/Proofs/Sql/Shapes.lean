import DocQuery.Plan.Strip
import DocQuery.Proofs.Sql.Parts
import Mathlib.Data.List.Forall2

/-!
# Replacing columns leaves the shape

Columns are listed by one traversal of an expression and replaced by another.  The two
agree if they come past the same columns in the same order and if the second one touches
nothing else.

* `Expr.SameShape` — two expressions that are alike but for their columns
* `Expr.SameShape.columns_or_parts` — they are two columns, or their parts have the same
  shapes
* `Expr.SameShape.length_columns` — expressions of the same shape read equally many columns
* `Expr.sameShape_mapColumns` — replacing columns leaves the shape
* `Expr.SameShape.eq_mapColumns` — an expression is known from its shape and its columns
* `Expr.strip_strip`, `Expr.belongsTo_of_mem_columns_strip` — a qualifier that is stripped
  is gone
* `columns_replaced_where_listed` — the two traversals agree

### What is load-bearing

A column that neither of the two traversals came past would not show in
`Expr.columns_mapColumns`.  It would show in `Expr.SameShape.eq_mapColumns`: two
expressions that differ in this column only would have one shape and the same columns.
-/

namespace DocQuery.Sql

/-! ### Shapes -/

/-- **Two expressions that are alike but for their columns**: the same operators,
constants, flags, names of functions and wildcards in the same places, and the same nested
queries. -/
inductive Expr.SameShape : Expr → Expr → Prop
  | column (c c' : Column) : SameShape (.column c) (.column c')
  | literal (value : Literal) : SameShape (.literal value) (.literal value)
  | call (name : String) (distinct : Bool) {args args' : List Expr}
      (hargs : List.Forall₂ SameShape args args') :
      SameShape (.call name distinct args) (.call name distinct args')
  | wildcard : SameShape .wildcard .wildcard
  | qualifiedWildcard (table : String) : SameShape (.qualifiedWildcard table)
    (.qualifiedWildcard table)
  | signed (negative : Bool) {e e' : Expr} (h : SameShape e e') :
      SameShape (.signed negative e) (.signed negative e')
  | arithmetic (op : Arithmetic) {l l' r r' : Expr} (hl : SameShape l l')
    (hr : SameShape r r') :
      SameShape (.arithmetic op l r) (.arithmetic op l' r')
  | compare (op : Comparison) {l l' r r' : Expr} (hl : SameShape l l') (hr : SameShape r r') :
      SameShape (.compare op l r) (.compare op l' r')
  | like (negated : Bool) {e e' p p' : Expr} (he : SameShape e e') (hp : SameShape p p') :
      SameShape (.like negated e p) (.like negated e' p')
  | isNull (negated : Bool) {e e' : Expr} (h : SameShape e e') :
      SameShape (.isNull negated e) (.isNull negated e')
  | inList (negated : Bool) {e e' : Expr} {items items' : List Expr} (he : SameShape e e')
      (hitems : List.Forall₂ SameShape items items') :
      SameShape (.inList negated e items) (.inList negated e' items')
  | between (negated : Bool) {e e' low low' high high' : Expr} (he : SameShape e e')
      (hlow : SameShape low low') (hhigh : SameShape high high') :
      SameShape (.between negated e low high) (.between negated e' low' high')
  | and {l l' r r' : Expr} (hl : SameShape l l') (hr : SameShape r r') :
      SameShape (.and l r) (.and l' r')
  | or {l l' r r' : Expr} (hl : SameShape l l')
    (hr : SameShape r r') : SameShape (.or l r) (.or l' r')
  | not {e e' : Expr} (h : SameShape e e') : SameShape (.not e) (.not e')
  | subquery (query : Query) : SameShape (.subquery query) (.subquery query)

namespace Expr

/-- Two expressions that are no columns and whose parts have the same shapes.  What they
are besides their parts is the same, so the second one is the first one with its columns
replaced if its parts are. -/
structure SameParts (e e' : Expr) : Prop where
  noColumn : ∀ c, e ≠ .column c
  noColumn' : ∀ c, e' ≠ .column c
  parts : List.Forall₂ SameShape e.children e'.children
  eq_mapColumns_of_children : ∀ f : Column → Column,
    e'.children = e.children.map (mapColumns f) → e' = e.mapColumns f

namespace SameShape

variable {e e' : Expr} {es es' : List Expr}

/-- **Expressions of the same shape are two columns or have parts of the same shapes.** -/
theorem columns_or_parts (h : e.SameShape e') :
    (∃ c c', e = .column c ∧ e' = .column c') ∨ e.SameParts e' := by
  cases h with
  | column c c' => exact .inl ⟨c, c', rfl, rfl⟩
  | call _ _ hargs => exact .inr ⟨by simp, by simp, hargs, by simp [children, mapColumns]⟩
  | inList _ he hitems =>
    exact .inr ⟨by simp, by simp, .cons he hitems, by simp [children, mapColumns]⟩
  | between _ he hlow hhigh =>
    have hparts := List.Forall₂.cons he (.cons hlow (.cons hhigh .nil))
    exact .inr ⟨by simp, by simp, hparts, by simp [children, mapColumns]⟩
  | signed _ h | isNull _ h | not h =>
    exact .inr ⟨by simp, by simp, .cons h .nil, by simp [children, mapColumns]⟩
  | arithmetic _ hl hr | compare _ hl hr | like _ hl hr | and hl hr | or hl hr =>
    exact .inr ⟨by simp, by simp, .cons hl (.cons hr .nil), by simp [children, mapColumns]⟩
  | literal | wildcard | qualifiedWildcard | subquery =>
    exact .inr ⟨by simp, by simp, .nil, fun _ _ => rfl⟩

theorem length_flatMap_columns (h : List.Forall₂ SameShape es es')
    (heach : ∀ x ∈ es, ∀ x', x.SameShape x' → x.columns.length = x'.columns.length) :
    (es.flatMap columns).length = (es'.flatMap columns).length := by
  induction h with
  | nil => rfl
  | cons hshape _ ih =>
    rw [List.flatMap_cons, List.flatMap_cons, List.length_append, List.length_append,
      heach _ List.mem_cons_self _ hshape, ih fun x hx => heach x (List.mem_cons_of_mem _ hx)]

/-- Expressions of the same shape read equally many columns. -/
theorem length_columns (h : e.SameShape e') : e.columns.length = e'.columns.length := by
  induction e using induction_on_children generalizing e' with
  | step e ih =>
    rcases h.columns_or_parts with ⟨c, c', rfl, rfl⟩ | hparts
    · rw [columns, columns, List.length_singleton, List.length_singleton]
    · rw [columns_eq_flatMap hparts.noColumn, columns_eq_flatMap hparts.noColumn']
      exact length_flatMap_columns hparts.parts fun x hx _ hshape => ih x hx hshape

/-- Expressions side by side are known from their shapes and their columns if each of them
is. -/
theorem eq_map_mapColumns {f : Column → Column} (h : List.Forall₂ SameShape es es')
    (heach : ∀ x ∈ es, ∀ x', x.SameShape x' → x'.columns = x.columns.map f →
      x' = x.mapColumns f)
    (hcolumns : es'.flatMap columns = (es.flatMap columns).map f) :
    es' = es.map (mapColumns f) := by
  induction h with
  | nil => rfl
  | @cons x x' _ _ hshape _ ih =>
    rw [List.flatMap_cons, List.flatMap_cons, List.map_append] at hcolumns
    -- the columns of the first expression end in the same place on both sides
    have hlength : x'.columns.length = (x.columns.map f).length := by
      rw [List.length_map, hshape.length_columns]
    obtain ⟨hfirst, hrest⟩ := List.append_inj hcolumns hlength
    rw [List.map_cons, heach x List.mem_cons_self x' hshape hfirst,
      ih (fun y hy => heach y (List.mem_cons_of_mem x hy)) hrest]

/-- **An expression is known from its shape and its columns**: it is the one that comes of
replacing the columns in any expression of this shape. -/
theorem eq_mapColumns {f : Column → Column} (h : e.SameShape e')
    (hcolumns : e'.columns = e.columns.map f) : e' = e.mapColumns f := by
  induction e using induction_on_children generalizing e' with
  | step e ih =>
    rcases h.columns_or_parts with ⟨c, c', rfl, rfl⟩ | hparts
    · rw [columns, columns, List.map_singleton, List.singleton_inj] at hcolumns
      rw [hcolumns, mapColumns]
    · rw [columns_eq_flatMap hparts.noColumn, columns_eq_flatMap hparts.noColumn'] at hcolumns
      refine hparts.eq_mapColumns_of_children f (eq_map_mapColumns hparts.parts ?_ hcolumns)
      exact fun x hx _ hshape hsame => ih x hx hshape hsame

end SameShape

/-! ### Replacing and stripping -/

/-- **Replacing columns leaves the shape.** -/
theorem sameShape_mapColumns (f : Column → Column) (e : Expr) :
    e.SameShape (e.mapColumns f) := by
  induction e using induction_on_children with
  | step e ih =>
    have hall : ∀ es : List Expr, (∀ x ∈ es, x ∈ e.children) →
        List.Forall₂ SameShape es (es.map (mapColumns f)) := by
      intro es hes
      rw [List.forall₂_map_right_iff, List.forall₂_same]
      exact fun x hx => ih x (hes x hx)
    cases e with
    | column c => exact .column c (f c)
    | literal value => exact .literal value
    | call name distinct args =>
      rw [mapColumns, mapColumnsOfAll_eq_map]
      exact .call name distinct (hall args fun _ hx => hx)
    | wildcard => exact .wildcard
    | qualifiedWildcard table => exact .qualifiedWildcard table
    | signed negative e => exact .signed negative (ih e (by simp [children]))
    | arithmetic op l r =>
      exact .arithmetic op (ih l (by simp [children])) (ih r (by simp [children]))
    | compare op l r =>
      exact .compare op (ih l (by simp [children])) (ih r (by simp [children]))
    | like negated e p =>
      exact .like negated (ih e (by simp [children])) (ih p (by simp [children]))
    | isNull negated e => exact .isNull negated (ih e (by simp [children]))
    | inList negated e items =>
      rw [mapColumns, mapColumnsOfAll_eq_map]
      exact .inList negated (ih e (by simp [children]))
        (hall items fun _ hx => List.mem_cons_of_mem e hx)
    | between negated e low high =>
      exact .between negated (ih e (by simp [children])) (ih low (by simp [children]))
        (ih high (by simp [children]))
    | and l r => exact .and (ih l (by simp [children])) (ih r (by simp [children]))
    | or l r => exact .or (ih l (by simp [children])) (ih r (by simp [children]))
    | not e => exact .not (ih e (by simp [children]))
    | subquery query => exact .subquery query

/-- Replacing columns twice is replacing them once. -/
theorem mapColumns_mapColumns (f g : Column → Column) (e : Expr) :
    (e.mapColumns f).mapColumns g = e.mapColumns (g ∘ f) := by
  induction e using induction_on_children with
  | step e ih => cases e <;> simp_all [mapColumns, children]

end Expr

theorem Column.belongsTo_strip (label : String) (c : Column) :
    (c.strip label).belongsTo label = false := by
  rw [Column.strip]
  split
  · rfl
  · rename_i h
    exact Bool.eq_false_iff.mpr h

theorem Column.strip_strip (label : String) (c : Column) :
    (c.strip label).strip label = c.strip label := by
  rw [Column.strip, Column.belongsTo_strip, if_neg Bool.false_ne_true]

namespace Expr

variable {label : String} {e : Expr}

/-- A column of an expression does not belong to an alias that was stripped. -/
theorem belongsTo_of_mem_columns_strip {c : Column} (h : c ∈ (e.strip label).columns) :
    c.belongsTo label = false := by
  rw [strip, columns_mapColumns, List.mem_map] at h
  obtain ⟨before, -, rfl⟩ := h
  exact Column.belongsTo_strip label before

/-- An alias is stripped at once. -/
theorem strip_strip (label : String) (e : Expr) :
    (e.strip label).strip label = e.strip label := by
  have htwice : Column.strip label ∘ Column.strip label = Column.strip label :=
    funext (Column.strip_strip label)
  rw [strip, strip, mapColumns_mapColumns, htwice]

end Expr

/-- **Columns are replaced where they are listed.**  Replacing the columns of an
expression by a function changes nothing but the columns: the shape is left, and the
columns that are listed afterwards are the images of those that were listed before, in the
same order.  There is no other expression of this shape with these columns.  So an alias
is stripped at once, and no column that is listed afterwards belongs to it. -/
theorem columns_replaced_where_listed (e : Expr) :
    (∀ f : Column → Column,
      e.SameShape (e.mapColumns f) ∧ (e.mapColumns f).columns = e.columns.map f ∧
        ∀ e', e.SameShape e' → e'.columns = e.columns.map f → e' = e.mapColumns f) ∧
      ∀ label, (e.strip label).strip label = e.strip label ∧
        ∀ c ∈ (e.strip label).columns, c.belongsTo label = false := by
  constructor
  · exact fun f =>
      ⟨e.sameShape_mapColumns f, e.columns_mapColumns f, fun _ =>
        Expr.SameShape.eq_mapColumns⟩
  · exact fun label => ⟨e.strip_strip label, fun _ => Expr.belongsTo_of_mem_columns_strip⟩

/-- `key = o.user_id AND status IN ('a', o.code)`. -/
def ownedTest (key : Column) : Expr :=
  .and (.compare .eq (.column key) (.column (.qualified "o" "user_id")))
    (.inList false (.column (.bare "status")) [.literal (.string "a"),
      .column (.qualified "o" "code")])

/-- Of two expressions that differ in one column, the one is the other stripped of its
alias. -/
theorem columns_replaced_where_listed_owned :
    (ownedTest (.qualified "u" "id")).SameShape (ownedTest (.bare "id")) ∧
      (ownedTest (.bare "id")).columns =
        (ownedTest (.qualified "u" "id")).columns.map (Column.strip "u") ∧
      ownedTest (.bare "id") = (ownedTest (.qualified "u" "id")).strip "u" ∧
      .bare "id" ∈ ((ownedTest (.qualified "u" "id")).strip "u").columns ∧
      (Column.bare "id").belongsTo "u" = false := by
  have hshape : (ownedTest (.qualified "u" "id")).SameShape (ownedTest (.bare "id")) :=
    .and (.compare .eq (.column _ _) (.column _ _))
      (.inList false (.column _ _) (.cons (.literal _) (.cons (.column _ _) .nil)))
  have hcolumns : (ownedTest (.bare "id")).columns =
      (ownedTest (.qualified "u" "id")).columns.map (Column.strip "u") := by decide
  have hmem : .bare "id" ∈ ((ownedTest (.qualified "u" "id")).strip "u").columns := by decide
  obtain ⟨hreplaced, hstripped⟩ :=
    columns_replaced_where_listed (ownedTest (.qualified "u" "id"))
  exact ⟨hshape, hcolumns, (hreplaced (Column.strip "u")).2.2 _ hshape hcolumns, hmem,
    (hstripped "u").2 _ hmem⟩

end DocQuery.Sql
