import DocQuery.Convert
import DocQuery.Proofs.Pipeline.Shape
import Mathlib.Data.List.Forall2

/-!
# The base qualifier is optional

A column of the base source may be written with the alias of that source or without it.
Two statements that differ only in this, for any of their columns, have the same plan and
so become the same command, or fail with the same fault.

* `Sql.Source.baseAlias` — the name by which columns refer to a base source
* `Sql.Column.Requalified`, `Sql.Expr.Requalified`, … — some columns have been given the
  base qualifier
* `Sql.Expr.Requalified.strip_eq` — stripping the qualifier leaves no difference
* `Plan.ofSelect_eq_of_requalified` — selections that differ in base qualifiers have one plan
* `base_qualifier_irrelevant` — so have statements, and one command

### What is load-bearing

**Every clause is stripped.**  A plan holds no expression as it was written: the clauses
are stripped where the plan is put together (`Plan.ofClauses`).  The conditions of joins
are kept as written while sources are resolved, so the scopes of the two statements differ
until then, and agree only after stripping (`Scope.strip`).

**One alias.**  Columns are stripped of the alias that the resolved base source goes by,
which is the written one, or else the name of the table that a query among the sources
reads in the end (`Plan.label_of_resolve`).
-/

namespace DocQuery

open Sql

namespace Sql

/-! ### The alias of a base source -/

mutual

/-- The table that a query reads in the end. -/
def Query.baseTable : Query → String
  | .plain s => s.baseTable
  | .parenthesized q => q.baseTable
  | .setOperation (.plain s :: _) _ => s.baseTable
  | .setOperation _ _ => ""

/-- The table that a selection reads in the end. -/
def Select.baseTable : Select → String
  | ⟨_, _, source, _, _, _, _, _, _, _⟩ => source.baseTable

/-- The table that a source reads in the end. -/
def Source.baseTable : Source → String
  | .table name _ => name
  | .subquery q _ => q.baseTable

end

/-- The name by which columns refer to a base source: the written alias, else the table's
name. -/
def Source.baseAlias (s : Source) : String :=
  s.alias?.getD s.baseTable

/-! ### Qualifying some columns -/

/-- A column as it was, or a column without table and quotes that has been given the table
`base`. -/
inductive Column.Requalified (base : String) (c : Column) : Column → Prop where
  | same : Requalified base c c
  | qualified (hquoted : c.quoted = false) (htable : c.table = none) :
      Requalified base c { c with table := some base }

mutual

/-- An expression in which some columns have been given the table `base`.  Nested queries,
and all else that holds no columns, stay as they are. -/
inductive Expr.Requalified (base : String) : Expr → Expr → Prop where
  | same (e : Expr) : Expr.Requalified base e e
  | column {c c' : Column}
    (h : c.Requalified base c') : Expr.Requalified base (.column c) (.column c')
  | call (name : String) (distinct : Bool) {args args' : List Expr}
      (h : AllRequalified base args args') :
      Expr.Requalified base (.call name distinct args) (.call name distinct args')
  | signed (negative : Bool) {e e' : Expr} (h : Expr.Requalified base e e') :
      Expr.Requalified base (.signed negative e) (.signed negative e')
  | arithmetic (op : Arithmetic) {l l' r r' : Expr} (hl : Expr.Requalified base l l')
      (hr : Expr.Requalified base r r') : Expr.Requalified base (.arithmetic op l r)
        (.arithmetic op l' r')
  | compare (op : Comparison) {l l' r r' : Expr} (hl : Expr.Requalified base l l')
      (hr : Expr.Requalified base r r') : Expr.Requalified base (.compare op l r)
        (.compare op l' r')
  | like (negated : Bool) {e e' p p' : Expr} (he : Expr.Requalified base e e')
      (hp : Expr.Requalified base p p') : Expr.Requalified base (.like negated e p)
        (.like negated e' p')
  | isNull (negated : Bool) {e e' : Expr} (h : Expr.Requalified base e e') :
      Expr.Requalified base (.isNull negated e) (.isNull negated e')
  | inList (negated : Bool) {e e' : Expr} {items items' : List Expr}
    (he : Expr.Requalified base e e')
      (hitems : AllRequalified base items items') :
      Expr.Requalified base (.inList negated e items) (.inList negated e' items')
  | between (negated : Bool) {e e' low low' high high' : Expr}
    (he : Expr.Requalified base e e')
      (hlow : Expr.Requalified base low low') (hhigh : Expr.Requalified base high high') :
      Expr.Requalified base (.between negated e low high) (.between negated e' low' high')
  | and {l l' r r' : Expr} (hl : Expr.Requalified base l l')
    (hr : Expr.Requalified base r r') :
      Expr.Requalified base (.and l r) (.and l' r')
  | or {l l' r r' : Expr} (hl : Expr.Requalified base l l')
    (hr : Expr.Requalified base r r') :
      Expr.Requalified base (.or l r) (.or l' r')
  | not {e e' : Expr}
    (h : Expr.Requalified base e e') : Expr.Requalified base (.not e) (.not e')

/-- Expressions in which some columns have been given the table `base`. -/
inductive AllRequalified (base : String) : List Expr → List Expr → Prop where
  | nil : AllRequalified base [] []
  | cons {e e' : Expr} {rest rest' : List Expr} (he : Expr.Requalified base e e')
      (hrest : AllRequalified base rest rest') : AllRequalified base (e :: rest) (e' :: rest')

end

/-- A selected item in which some columns have been given the table `base`. -/
def SelectItem.Requalified (base : String) (item item' : SelectItem) : Prop :=
  item.expr.Requalified base item'.expr ∧ item.label = item'.label

/-- An ordering item in which some columns have been given the table `base`. -/
def OrderItem.Requalified (base : String) (item item' : OrderItem) : Prop :=
  item.expr.Requalified base item'.expr ∧ item.ascending = item'.ascending

/-- A join in whose condition some columns have been given the table `base`. -/
structure Join.Requalified (base : String) (j j' : Join) : Prop where
  kind : j.kind = j'.kind
  right : j.right = j'.right
  condition : Option.Rel (Expr.Requalified base) j.condition j'.condition

/-- **A selection in which some columns have been given the table `base`**, in any of its
clauses. -/
structure Select.Requalified (base : String) (s s' : Select) : Prop where
  distinct : s.distinct = s'.distinct
  items : List.Forall₂ (SelectItem.Requalified base) s.items s'.items
  source : s.source = s'.source
  joins : List.Forall₂ (Join.Requalified base) s.joins s'.joins
  filter : Option.Rel (Expr.Requalified base) s.filter s'.filter
  groupBy : List.Forall₂ (Expr.Requalified base) s.groupBy s'.groupBy
  having : Option.Rel (Expr.Requalified base) s.having s'.having
  orderBy : List.Forall₂ (OrderItem.Requalified base) s.orderBy s'.orderBy
  limit : s.limit = s'.limit
  offset : s.offset = s'.offset

/-- **A statement in which some columns have been given the base qualifier**: columns
anywhere in a selection, and in the filter of a deletion or of an update. -/
inductive Statement.Requalified : Statement → Statement → Prop where
  | select {s s' : Select} (h : s.Requalified s.source.baseAlias s') :
      Requalified (.select (.plain s)) (.select (.plain s'))
  | delete (d : Delete) {filter : Option Expr}
      (h : Option.Rel (Expr.Requalified d.source.baseAlias) d.filter filter) :
      Requalified (.delete d) (.delete { d with filter := filter })
  | update (u : Update) {filter : Option Expr}
      (h : Option.Rel (Expr.Requalified u.table.baseAlias) u.filter filter) :
      Requalified (.update u) (.update { u with filter := filter })

/-! ### Stripping leaves no difference -/

section Strip

variable {base : String}

/-- Stripping takes away the qualifier that a column has been given, and no other column
has lost one. -/
theorem Column.Requalified.strip_eq {c c' : Column} (h : c.Requalified base c') :
    c.strip base = c'.strip base := by
  cases h with
  | same => rfl
  | qualified hquoted htable =>
    obtain ⟨table, name, quoted⟩ := c
    subst htable
    simp [Column.strip, Column.belongsTo]

mutual

/-- **Stripping leaves no difference.**  One case for each constructor; the qualified
column is the only one in which the two expressions differ by themselves. -/
theorem Expr.Requalified.strip_eq {e e' : Expr} (h : e.Requalified base e') :
    e.strip base = e'.strip base := by
  cases h with
  | same => rfl
  | column h => exact congrArg Expr.column h.strip_eq
  | call name distinct h => exact congrArg (Expr.call name distinct) h.strip_eq
  | signed negative h => exact congrArg (Expr.signed negative) h.strip_eq
  | arithmetic op hl hr => exact congrArg₂ (Expr.arithmetic op) hl.strip_eq hr.strip_eq
  | compare op hl hr => exact congrArg₂ (Expr.compare op) hl.strip_eq hr.strip_eq
  | like negated he hp => exact congrArg₂ (Expr.like negated) he.strip_eq hp.strip_eq
  | isNull negated h => exact congrArg (Expr.isNull negated) h.strip_eq
  | inList negated he hitems =>
    exact congrArg₂ (Expr.inList negated) he.strip_eq hitems.strip_eq
  | between negated he hlow hhigh =>
    have hparts :=
      congr (congrArg₂ (Expr.between negated) he.strip_eq hlow.strip_eq) hhigh.strip_eq
    exact hparts
  | and hl hr => exact congrArg₂ Expr.and hl.strip_eq hr.strip_eq
  | or hl hr => exact congrArg₂ Expr.or hl.strip_eq hr.strip_eq
  | not h => exact congrArg Expr.not h.strip_eq

theorem AllRequalified.strip_eq {es es' : List Expr} (h : AllRequalified base es es') :
    mapColumnsOfAll (Column.strip base) es = mapColumnsOfAll (Column.strip base) es' := by
  cases h with
  | nil => rfl
  | cons he hrest => exact congrArg₂ List.cons he.strip_eq hrest.strip_eq

end

/-- Related lists have the same image under a function that does not see the relation. -/
theorem map_eq_of_forall₂ {α β : Type} {R : α → α → Prop} {f : α → β} {xs ys : List α}
    (h : List.Forall₂ R xs ys) (hf : ∀ a b, R a b → f a = f b) : xs.map f = ys.map f := by
  induction h with
  | nil => rfl
  | cons hab _ ih => rw [List.map_cons, List.map_cons, hf _ _ hab, ih]

theorem map_strip_eq_of_rel {x y : Option Expr} (h : Option.Rel (Expr.Requalified base) x y) :
    x.map (Expr.strip base) = y.map (Expr.strip base) := by
  cases h with
  | some h => exact congrArg some h.strip_eq
  | none => rfl

theorem SelectItem.Requalified.strip_eq {item item' : SelectItem}
    (h : item.Requalified base item') : item.strip base = item'.strip base :=
  congrArg₂ SelectItem.mk h.1.strip_eq h.2

theorem OrderItem.Requalified.strip_eq {item item' : OrderItem}
    (h : item.Requalified base item') : item.strip base = item'.strip base :=
  congrArg₂ OrderItem.mk h.1.strip_eq h.2

end Strip

end Sql

/-! ### The plans of selections -/

/-- A scope whose conditions have lost the qualifier `base`. -/
def Scope.strip (base : String) (s : Scope) : Scope :=
  ⟨s.base, s.joined.map fun j => { j with condition := j.condition.map (Expr.strip base) }⟩

namespace Plan

variable {types : FieldTypes}

mutual

/-- A plan works on the table that its query reads in the end. -/
theorem collectionName_of_ofQuery {depth : Nat} {p : Plan} :
    (q : Query) → ofQuery types depth q = .ok p → p.collectionName = q.baseTable
  | .plain s, h => by
    rw [ofQuery] at h
    exact collectionName_of_ofSelect s h
  | .parenthesized q, h => by
    rw [ofQuery] at h
    exact collectionName_of_ofQuery q h
  | .setOperation (.plain s :: _) _, h => by
    rw [ofQuery] at h
    exact collectionName_of_ofSelect s h
  | .setOperation [] _, h => by
    rw [ofQuery] at h
    · cases h
    · simp
  | .setOperation (.parenthesized _ :: _) _, h => by
    rw [ofQuery] at h
    · cases h
    · simp
  | .setOperation (.setOperation _ _ :: _) _, h => by
    rw [ofQuery] at h
    · cases h
    · simp

theorem collectionName_of_ofSelect {depth : Nat} {p : Plan} :
    (s : Select) → ofSelect types depth s = .ok p → p.collectionName = s.baseTable
  | ⟨distinct, items, source, joins, filter, groupBy, having, orderBy, limit, offset⟩, h => by
    obtain ⟨base, scope, hbase, hscope, h⟩ := exists_scope_of_ofSelect h
    obtain ⟨_, -, h⟩ := Outcome.bind_eq_ok.mp h
    obtain ⟨_, -, h⟩ := Outcome.bind_eq_ok.mp h
    have hown : scope.base = base := (scope_of_resolveJoins hscope).1
    rw [← Outcome.pure_eq_ok.mp h, collectionName, hown, Select.baseTable]
    obtain ⟨label, origin⟩ := base
    rw [Scope.collectionName]
    exact collectionName_of_resolve source hbase

/-- A source reads the table that it is written with, or that its query reads in the end. -/
theorem collectionName_of_resolve {depth : Nat} {base : NamedSource} :
    (source : Source) → resolve types depth source = .ok base →
      base.origin.collectionName = source.baseTable
  | .table name label, h => by
    rw [resolve] at h
    cases h
    rfl
  | .subquery q label, h => by
    rw [resolve] at h
    split at h
    · cases h
    · obtain ⟨p, hp, h⟩ := Outcome.bind_eq_ok.mp h
      cases Outcome.pure_eq_ok.mp h
      exact collectionName_of_ofQuery q hp

end

variable {depth : Nat}

/-- **A resolved source goes by its base alias.** -/
theorem label_of_resolve {source : Source} {base : NamedSource}
    (h : resolve types depth source = .ok base) : base.label = source.baseAlias := by
  have hname := collectionName_of_resolve source h
  have hlabel : base.label = source.alias?.getD base.origin.collectionName := by
    cases source with
    | table name label =>
      rw [resolve] at h
      cases h
      rfl
    | subquery q label =>
      rw [resolve] at h
      split at h
      · cases h
      · obtain ⟨p, -, h⟩ := Outcome.bind_eq_ok.mp h
        cases Outcome.pure_eq_ok.mp h
        rfl
  rw [hlabel, hname, Source.baseAlias]

/-- Joins that differ in qualifiers are resolved to scopes that agree after stripping, or
fail with the same fault. -/
theorem resolveJoins_map_strip {base : String} {joins joins' : List Join}
    {scope scope' : Scope} (h : List.Forall₂ (Join.Requalified base) joins joins')
    (hscope : scope.strip base = scope'.strip base) :
    (resolveJoins types depth scope joins).map (Scope.strip base) =
      (resolveJoins types depth scope' joins').map (Scope.strip base) := by
  induction h generalizing scope scope' with
  | nil =>
    rw [resolveJoins, resolveJoins]
    exact congrArg Except.ok hscope
  | @cons j j' rest rest' hj hrest ih =>
    obtain ⟨kind, right, condition⟩ := j
    obtain ⟨kind', right', condition'⟩ := j'
    obtain ⟨rfl, rfl, hcondition⟩ := hj
    rw [resolveJoins, resolveJoins]
    cases hkind : Scope.checkKind kind with
    | error fault => rfl
    | ok =>
      cases hsource : resolve types depth right with
      | error fault => rfl
      | ok source =>
        -- both scopes grow by a source whose condition is stripped to the same expression
        simp only [Scope.join, hkind]
        refine ih ?_
        simp only [Scope.strip, Scope.mk.injEq] at hscope ⊢
        refine ⟨hscope.1, ?_⟩
        rw [List.map_append, List.map_append, hscope.2]
        simp only [List.map_cons, List.map_nil, map_strip_eq_of_rel hcondition]

/-- The plan of a selection depends on its clauses only as they are after stripping. -/
theorem ofClauses_eq_of_requalified {scope scope' : Scope} {s s' : Select}
    (h : s.Requalified scope.base.label s')
    (hscope : scope.strip scope.base.label = scope'.strip scope.base.label) :
    ofClauses types scope s = ofClauses types scope' s' := by
  simp only [Scope.strip, Scope.mk.injEq] at hscope
  obtain ⟨hbase, hjoined⟩ := hscope
  have hitems := map_eq_of_forall₂ h.items fun _ _ => SelectItem.Requalified.strip_eq
  have hgroup : s.groupBy.map (fun e => (e.strip scope.base.label).stringValue) =
      s'.groupBy.map fun e => (e.strip scope.base.label).stringValue :=
    map_eq_of_forall₂ h.groupBy fun _ _ he => congrArg Expr.stringValue he.strip_eq
  have horder := map_eq_of_forall₂ h.orderBy fun _ _ => OrderItem.Requalified.strip_eq
  have hempty : s.groupBy.isEmpty = s'.groupBy.isEmpty := by
    rw [Bool.eq_iff_iff, List.isEmpty_iff_length_eq_zero, List.isEmpty_iff_length_eq_zero,
      h.groupBy.length_eq]
  simp only [ofClauses]
  rw [← hbase, hitems, hgroup, horder, hempty, hjoined, map_strip_eq_of_rel h.filter,
    map_strip_eq_of_rel h.having, h.distinct, h.limit, h.offset]

/-- **Selections that differ in base qualifiers have one plan**, or fail with the same
fault. -/
theorem ofSelect_eq_of_requalified {s s' : Select} (h : s.Requalified s.source.baseAlias s') :
    ofSelect types depth s = ofSelect types depth s' := by
  have hsplit (s : Select) : ofSelect types depth s = (do
      let base ← resolve types depth s.source
      let scope ← resolveJoins types depth (.ofBase base) s.joins
      ofClauses types scope s) := by
    obtain ⟨distinct, items, source, joins, filter, groupBy, having, orderBy, limit,
        offset⟩ := s
    rw [ofSelect]
  rw [hsplit, hsplit, ← h.source]
  cases hbase : resolve types depth s.source with
  | error fault => rfl
  | ok base =>
    rw [← label_of_resolve hbase] at h
    have hjoins :=
      @resolveJoins_map_strip types depth base.label _ _ (.ofBase base) (.ofBase base)
      h.joins rfl
    show (resolveJoins types depth (.ofBase base) s.joins >>=
      fun scope => ofClauses types scope s) =
      (resolveJoins types depth (.ofBase base) s'.joins >>= fun scope =>
        ofClauses types scope s')
    cases hscope : resolveJoins types depth (.ofBase base) s.joins with
    | error fault =>
      rw [hscope] at hjoins
      cases hscope' : resolveJoins types depth (.ofBase base) s'.joins with
      | error fault' => rw [hscope'] at hjoins; cases hjoins; rfl
      | ok scope' => rw [hscope'] at hjoins; cases hjoins
    | ok scope =>
      rw [hscope] at hjoins
      cases hscope' : resolveJoins types depth (.ofBase base) s'.joins with
      | error fault => rw [hscope'] at hjoins; cases hjoins
      | ok scope' =>
        rw [hscope'] at hjoins
        have hown : scope.base = base := (scope_of_resolveJoins hscope).1
        rw [← hown] at h hjoins
        exact ofClauses_eq_of_requalified h (Except.ok.inj hjoins)

/-- Writing statements that differ in the qualifiers of their filter have one plan. -/
theorem ofSource_eq_of_rel {source : NamedSource} {filter filter' : Option Expr}
    (h : Option.Rel (Expr.Requalified source.label) filter filter') (limit : Int)
    (action : Action) :
    ofSource types source filter limit action =
      ofSource types source filter' limit action := by
  rw [ofSource, ofSource, map_strip_eq_of_rel h]

end Plan

/-- **The base qualifier is optional.**  A statement in which any of the unquoted columns
without table have been given the base alias has the same plan and becomes the same
command, or fails with the same fault, under all settings. -/
theorem base_qualifier_irrelevant (settings : Settings) {s s' : Statement}
    (h : s.Requalified s') :
    Plan.ofStatement settings.types s = Plan.ofStatement settings.types s' ∧
      settings.commandOfStatement s = settings.commandOfStatement s' := by
  have hplan : Plan.ofStatement settings.types s = Plan.ofStatement settings.types s' := by
    cases h with
    | select h =>
      rw [Plan.ofStatement, Plan.ofStatement, Plan.ofQuery, Plan.ofQuery]
      exact Plan.ofSelect_eq_of_requalified h
    | @delete d filter h =>
      have htargets : Plan.deletesOne { d with filter := filter } = Plan.deletesOne d := rfl
      simp only [Plan.ofStatement, Plan.ofDelete, htargets]
      cases hsource : Plan.resolve settings.types 0 d.source with
      | error fault => rfl
      | ok source =>
        rw [← Plan.label_of_resolve hsource] at h
        simp only [Except.bind, bind, Plan.ofSource_eq_of_rel h]
    | update u h =>
      obtain ⟨table, assignments, filter, limit⟩ := u
      cases table with
      | subquery q label => rfl
      | table name label =>
        have hrel : Option.Rel (Expr.Requalified
          (NamedSource.of label (.collection name)).label)
            filter _ := h
        simp only [Plan.ofStatement, Plan.ofUpdate, Plan.ofSource_eq_of_rel hrel]
  refine ⟨hplan, ?_⟩
  rw [Settings.commandOfStatement, Settings.commandOfStatement, hplan]

/-- The statement `SELECT city, count(*) AS n FROM users AS u LEFT JOIN orders AS o ON
o.owner = id WHERE NOT age > 18 GROUP BY city ORDER BY city`, with its own columns given. -/
def adultsPerCity (selected joined filtered grouped ordered : Column) : Statement :=
  .select (.plain {
    distinct := false
    items := [⟨.column selected, none⟩, ⟨.call "count" false [.wildcard], some "n"⟩]
    source := .table "users" (some "u")
    joins := [⟨.left, .table "orders" (some "o"),
      some (.compare .eq (.column (.qualified "o" "owner")) (.column joined))⟩]
    filter := some (.not (.compare .gt (.column filtered) (.literal (.int 18))))
    groupBy := [.column grouped]
    having := none
    orderBy := [⟨.column ordered, true⟩]
    limit := none
    offset := none })

/-- The qualifier is written in the join, in the filter and in the order, and left out
elsewhere. -/
theorem base_qualifier_irrelevant_adults :
    (adultsPerCity (.bare "city") (.bare "id") (.bare "age") (.bare "city")
      (.bare "city")).Requalified
      (adultsPerCity (.bare "city") (.qualified "u" "id") (.qualified "u" "age")
        (.bare "city")
        (.qualified "u" "city")) ∧
    Plan.ofStatement {}
        (adultsPerCity (.bare "city") (.bare "id") (.bare "age") (.bare "city")
          (.bare "city")) =
      Plan.ofStatement {} (adultsPerCity (.bare "city") (.qualified "u" "id")
        (.qualified "u" "age")
        (.bare "city") (.qualified "u" "city")) ∧
    Settings.commandOfStatement {}
        (adultsPerCity (.bare "city") (.bare "id") (.bare "age") (.bare "city")
          (.bare "city")) =
      Settings.commandOfStatement {} (adultsPerCity (.bare "city") (.qualified "u" "id")
        (.qualified "u" "age") (.bare "city") (.qualified "u" "city")) := by
  have hcolumn (name : String) : Expr.Requalified "u" (.column (.bare name))
      (.column (.qualified "u" name)) := .column (.qualified rfl rfl)
  have hrelated : (adultsPerCity (.bare "city") (.bare "id") (.bare "age") (.bare "city")
      (.bare "city")).Requalified (adultsPerCity (.bare "city") (.qualified "u" "id")
        (.qualified "u" "age") (.bare "city") (.qualified "u" "city")) := by
    refine .select ⟨rfl, ?_, rfl, ?_, ?_, ?_, .none, ?_, rfl, rfl⟩
    · exact .cons ⟨.same _, rfl⟩ (.cons ⟨.same _, rfl⟩ .nil)
    · exact .cons ⟨rfl, rfl, .some (.compare .eq (.same _) (hcolumn "id"))⟩ .nil
    · exact .some (.not (.compare .gt (hcolumn "age") (.same _)))
    · exact .cons (.same _) .nil
    · exact .cons ⟨hcolumn "city", rfl⟩ .nil
  exact ⟨hrelated, base_qualifier_irrelevant {} hrelated⟩

end DocQuery
