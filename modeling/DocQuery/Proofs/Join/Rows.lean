import DocQuery.Proofs.Join.Placement

/-!
# Rows of joined sources

What a statement with joins means, on lists of rows: a row of the base source is extended
by one partner for each join, in the order of the joins.

* `RowLogic` — when an expression is true of given column values; `RowLogic.ofConjuncts`
  makes one
* `JoinedRow` — a base row with the partners that joins have supplied so far
* `Scope.accepts` — whether an expression is true of a joined row
* `JoinInputs` — the contents of the joined tables and the conditions of the joins
* `Scope.matched`, `Scope.joinRow`, `Scope.joinRows` — the partners of a row, one join on
  one row, and all joins on all rows

### The two design decisions

**Truth is a parameter.**  Nothing is said about values, comparison or null.  A `RowLogic`
only has to read an expression through the columns that `Expr.columns` lists for it, and
to take a conjunction apart; logics with two or three truth values both do.

**A column is read from its owner.**  `Scope.columnOwner` names the source of a column,
and `JoinedRow.source` gives the row of that source: the base row, or the partner that the
join has supplied, which is none for a join that found nothing.
-/

namespace DocQuery

open Sql

/-- When expressions are true.  An expression is read through the columns that it lists,
and a conjunction is true if both sides are. -/
structure RowLogic (R V : Type) where
  /-- The value of a column in a row of its source; there is no row where a join found no
  partner. -/
  read : Option R → Column → V
  /-- Whether an expression is true where columns have these values. -/
  holds : Expr → (Column → V) → Bool
  holds_congr : ∀ (e : Expr) {f g : Column → V}, (∀ c ∈ e.columns, f c = g c) →
    holds e f = holds e g
  holds_and : ∀ (l r : Expr) (f : Column → V), holds (.and l r) f = (holds l f && holds r f)

/-- The columns of a conjunct are columns of the expression. -/
theorem mem_columns_of_mem_conjuncts {e a : Expr} (ha : a ∈ e.conjuncts) {c : Column}
    (hc : c ∈ a.columns) : c ∈ e.columns := by
  fun_induction Expr.conjuncts e with
  | case1 l r ihl ihr =>
    rw [Expr.columns, List.mem_append]
    rcases List.mem_append.mp ha with hl | hr
    · exact .inl (ihl hl)
    · exact .inr (ihr hr)
  | case2 e _ => exact List.mem_singleton.mp ha ▸ hc

/-- **The logic of an interpretation of conjuncts.**  Every way to decide an expression
from the list of the values of its columns is a logic; conjunctions are taken apart first. -/
def RowLogic.ofConjuncts {R V : Type} (read : Option R → Column → V)
    (decideOn : Expr → List V → Bool) : RowLogic R V where
  read := read
  holds e f := e.conjuncts.all fun a => decideOn a (a.columns.map f)
  holds_congr := by
    intro e f g hsame
    have hconjunct : ∀ a ∈ e.conjuncts, a.columns.map f = a.columns.map g := fun a ha =>
      List.map_congr_left fun c hc => hsame c (mem_columns_of_mem_conjuncts ha hc)
    refine Bool.eq_iff_iff.mpr ?_
    simp only [List.all_eq_true]
    exact forall₂_congr fun a ha => by rw [hconjunct a ha]
  holds_and := by
    intro l r f
    rw [Expr.conjuncts, List.all_append]

/-- A row of the base source and the partners that joins have supplied for it, by alias. -/
structure JoinedRow (R : Type) where
  base : R
  partners : Entries (Option R)

/-- The contents of the joined tables and the conditions of the joins, by alias.  A
condition sees the row so far and a candidate. -/
structure JoinInputs (R : Type) where
  rows : String → List R
  condition : String → JoinedRow R → R → Bool

namespace JoinedRow

variable {R : Type}

/-- A row of the base source before any join. -/
def ofBase (r : R) : JoinedRow R := ⟨r, []⟩

/-- The row with the partner of one more join. -/
def extend (row : JoinedRow R) (label : String) (partner : Option R) : JoinedRow R :=
  ⟨row.base, row.partners.put label partner⟩

/-- The partner that the join with an alias has supplied. -/
def partner (row : JoinedRow R) (label : String) : Option R :=
  (row.partners.get? label).join

/-- The row of a source; the base row stands in for several sources. -/
def source (row : JoinedRow R) : Owner → Option R
  | .joined label => row.partner label
  | _ => some row.base

@[simp] theorem base_extend (row : JoinedRow R) (label : String) (partner : Option R) :
    (row.extend label partner).base = row.base := rfl

@[simp] theorem source_base (row : JoinedRow R) : row.source .base = some row.base := rfl

theorem partner_extend_of_ne (row : JoinedRow R) {label other : String} (hne : other ≠ label)
    (p : Option R) : (row.extend label p).partner other = row.partner other := by
  simp [partner, extend, Entries.get?_put, hne]

/-- A join changes the row of no source but its own. -/
theorem source_extend_of_ne (row : JoinedRow R) {label : String} {o : Owner}
    (hne : o ≠ .joined label) (p : Option R) :
    (row.extend label p).source o = row.source o := by
  cases o with
  | base => rfl
  | several => rfl
  | joined other => exact row.partner_extend_of_ne (fun h => hne (congrArg _ h)) p

end JoinedRow

namespace Scope

variable {R V : Type} (scope : Scope) (logic : RowLogic R V) (inputs : JoinInputs R)

/-- Whether an expression is true of a joined row, every column being read from its owner. -/
def accepts (row : JoinedRow R) (e : Expr) : Bool :=
  logic.holds e fun c => logic.read (row.source (scope.columnOwner c)) c

/-- Whether several expressions are true of a joined row. -/
def acceptsAll (es : List Expr) (row : JoinedRow R) : Bool :=
  es.all (scope.accepts logic row)

/-- The row extended by each candidate of a join that satisfies the condition of the join
and the expressions that run inside it. -/
def matched (inside : List Expr) (row : JoinedRow R) (label : String) : List (JoinedRow R) :=
  (((inputs.rows label).filter (inputs.condition label row)).map fun r =>
    row.extend label (some r)).filter (scope.acceptsAll logic inside)

/-- **One join on one row.**  If no candidate is left, a left join keeps the row without a
partner and any other join drops it. -/
def joinRow (inside : String → List Expr) (row : JoinedRow R) (j : JoinedSource) :
    List (JoinedRow R) :=
  if j.kind = .left ∧
    (scope.matched logic inputs (inside j.source.label) row j.source.label).isEmpty
  then [row.extend j.source.label none]
  else scope.matched logic inputs (inside j.source.label) row j.source.label

/-- **All joins on all rows**, in order. -/
def joinRows (inside : String → List Expr) (joins : List JoinedSource)
    (rows : List (JoinedRow R)) :
    List (JoinedRow R) :=
  joins.foldl (fun rows j => rows.flatMap fun row => scope.joinRow logic inputs inside
    row j) rows

theorem acceptsAll_nil : scope.acceptsAll logic [] = fun _ => true := rfl

@[simp] theorem joinRows_nil (inside : String → List Expr) (rows : List (JoinedRow R)) :
    scope.joinRows logic inputs inside [] rows = rows := rfl

theorem joinRows_cons (inside : String → List Expr) (j : JoinedSource)
    (rest : List JoinedSource) (rows : List (JoinedRow R)) :
    scope.joinRows logic inputs inside (j :: rest) rows =
      scope.joinRows logic inputs inside rest
        (rows.flatMap fun row => scope.joinRow logic inputs inside row j) := rfl

/-! ### Truth on rows -/

/-- A conjunction is true of a row if all its parts are. -/
theorem accepts_eq_all_conjuncts (row : JoinedRow R) (e : Expr) :
    scope.accepts logic row e = e.conjuncts.all (scope.accepts logic row) := by
  fun_induction Expr.conjuncts e with
  | case1 l r ihl ihr =>
    rw [List.all_append, ← ihl, ← ihr]
    exact logic.holds_and l r _
  | case2 e _ => simp

/-- The conjunction of expressions is true of a row if all of them are. -/
theorem accepts_conjunction? {es : List Expr} {e : Expr} (he : conjunction? es = some e)
    (row : JoinedRow R) : scope.accepts logic row e = scope.acceptsAll logic es row := by
  -- the conjunction leans to the left, so the induction runs over the operands still to
  -- come
  have hfold : ∀ (rest : List Expr) (first : Expr),
      scope.accepts logic row (rest.foldl .and first) =
        (scope.accepts logic row first && rest.all (scope.accepts logic row)) := by
    intro rest
    induction rest with
    | nil => intro first; simp
    | cons next rest ih =>
      intro first
      have hand : scope.accepts logic row (.and first next) =
          (scope.accepts logic row first && scope.accepts logic row next) :=
            logic.holds_and _ _ _
      rw [List.foldl_cons, ih, hand, List.all_cons, Bool.and_assoc]
  cases es with
  | nil => simp [conjunction?] at he
  | cons first rest =>
    obtain rfl : rest.foldl .and first = e := by simpa [conjunction?] using he
    exact hfold rest first

/-- **An expression that is owned by one source is decided by the row of that source.** -/
theorem accepts_congr {e : Expr} {o : Owner} (howner : scope.owner e = o)
    (hone : o ≠ .several) {row row' : JoinedRow R} (hsource : row.source o = row'.source o) :
    scope.accepts logic row e = scope.accepts logic row' e := by
  refine logic.holds_congr e fun c hc => ?_
  rw [columnOwner_of_owner howner hone c hc, hsource]

/-! ### What a join leaves alone -/

/-- **The partner of a join does not matter to expressions that another source owns.** -/
theorem acceptsAll_extend {es : List Expr} {o : Owner} (howner : ∀ e ∈ es, scope.owner e = o)
    (hone : o ≠ .several) {label : String} (hne : o ≠ .joined label) (row : JoinedRow R)
    (partner : Option R) :
    scope.acceptsAll logic es (row.extend label partner) = scope.acceptsAll logic es row := by
  have hsame : ∀ e ∈ es,
      scope.accepts logic (row.extend label partner) e = scope.accepts logic row e :=
    fun e he =>
      scope.accepts_congr logic (howner e he) hone (row.source_extend_of_ne hne partner)
  refine Bool.eq_iff_iff.mpr ?_
  simp only [acceptsAll, List.all_eq_true]
  exact forall₂_congr fun e he => by rw [hsame e he]

/-- The rows that a join makes of a row extend it by the partner of that join. -/
theorem exists_extend_of_mem_joinRow {inside : String → List Expr} {row row' : JoinedRow R}
    {j : JoinedSource} (hmem : row' ∈ scope.joinRow logic inputs inside row j) :
    ∃ partner, row' = row.extend j.source.label partner := by
  unfold joinRow at hmem
  split at hmem
  · exact ⟨none, List.mem_singleton.mp hmem⟩
  · obtain ⟨r, -, hr⟩ := List.mem_map.mp (List.mem_filter.mp hmem).1
    exact ⟨some r, hr.symm⟩

/-- **Step.**  A test that the partner of a join does not change can be made before that
join. -/
theorem filter_flatMap_joinRow {inside : String → List Expr} {j : JoinedSource}
    {test : JoinedRow R → Bool}
    (hstable : ∀ row partner, test (row.extend j.source.label partner) = test row)
    (rows : List (JoinedRow R)) :
    (rows.flatMap fun row => scope.joinRow logic inputs inside row j).filter test =
      (rows.filter test).flatMap fun row => scope.joinRow logic inputs inside row j := by
  induction rows with
  | nil => rfl
  | cons row rest ih =>
    have hrow : ∀ row' ∈ scope.joinRow logic inputs inside row j, test row' = test row := by
      intro row' hmem
      obtain ⟨partner, rfl⟩ := scope.exists_extend_of_mem_joinRow logic inputs hmem
      exact hstable row partner
    rw [List.flatMap_cons, List.filter_append, ih, List.filter_cons]
    cases htest : test row with
    | true =>
      rw [List.filter_eq_self.mpr fun row' hmem => (hrow row' hmem).trans htest]
      rfl
    | false =>
      rw [List.filter_eq_nil_iff.mpr fun row' hmem => by rw [hrow row' hmem, htest]; decide]
      rfl

/-- **Run.**  A test that the partners of the joins do not change can be made before all
of them. -/
theorem filter_joinRows {inside : String → List Expr} {joins : List JoinedSource}
    {test : JoinedRow R → Bool}
    (hstable : ∀ j ∈ joins, ∀ row partner,
      test (row.extend j.source.label partner) = test row)
    (rows : List (JoinedRow R)) :
    (scope.joinRows logic inputs inside joins rows).filter test =
      scope.joinRows logic inputs inside joins (rows.filter test) := by
  induction joins generalizing rows with
  | nil => rfl
  | cons j rest ih =>
    rw [joinRows_cons, joinRows_cons, ih fun i hi => hstable i (List.mem_cons_of_mem j hi),
      scope.filter_flatMap_joinRow logic inputs (hstable j List.mem_cons_self)]

end Scope

end DocQuery
