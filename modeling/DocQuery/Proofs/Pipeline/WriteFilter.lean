import DocQuery.Convert
import DocQuery.Proofs.Pipeline.Steps
import DocQuery.Proofs.Predicate.Emptiness

/-!
# The filter of a statement that changes or removes rows

A command that changes or removes documents works on those that its filter accepts, and
the empty filter accepts all of them.  `write_filter_eq_empty_iff` says when a condition
that was written in the statement is lost in this way.

* `Statement.writeCondition?` — the condition of an update or a deletion
* `Operation.writeFilter?` — the filter of the command that it becomes
* `Plan.writes_of_ofStatement` — the plan of such a statement has one source, and its
  filter is the condition without the base qualifier

### What is load-bearing

The condition of an update or a deletion is compiled as a whole: there are no joins that a
part of it could move into.  So only the topmost operator decides, and
`Filter.compile_eq_empty_iff` says that this operator is a negation.
-/

namespace DocQuery

open Sql

/-- The condition of a statement that changes or removes rows. -/
def Sql.Statement.writeCondition? : Statement → Option Expr
  | .update u => u.filter
  | .delete d => d.filter
  | _ => none

/-- The filter of a command that changes or removes documents. -/
def Operation.writeFilter? : Operation → Option Document
  | .remove filter => some filter
  | .updateMany filter _ => some filter
  | _ => none

/-- Whether an action changes or removes rows. -/
def Action.isWrite : Action → Bool
  | .update _ | .delete => true
  | _ => false

/-- **The plan of a write** has one source, and its filter is the condition of the
statement without the base qualifier. -/
theorem Plan.writes_of_ofStatement {types : FieldTypes} {s : Statement} {w : Expr} {p : Plan}
    (hw : s.writeCondition? = some w) (hp : Plan.ofStatement types s = .ok p) :
    p.scope.joined = [] ∧ p.filter = some (w.strip p.scope.base.label) ∧
      p.action.isWrite := by
  have hsource : ∀ {source : NamedSource} {filter : Option Expr} {limit : Int}
    {action : Action},
      filter = some w → action.isWrite → ofSource types source filter limit action = p →
      p.scope.joined = [] ∧ p.filter = some (w.strip p.scope.base.label) ∧
        p.action.isWrite := by
    rintro source filter limit action rfl haction rfl
    exact ⟨rfl, rfl, haction⟩
  cases s with
  | select q => cases hw
  | insert i => cases hw
  | update u =>
    simp only [Plan.ofStatement, Plan.ofUpdate] at hp
    split at hp
    · cases hp
    · split at hp
      · cases hp
      · obtain ⟨limit, -, hp⟩ := Outcome.bind_eq_ok.mp hp
        exact hsource hw rfl (Outcome.pure_eq_ok.mp hp)
  | delete d =>
    simp only [Plan.ofStatement, Plan.ofDelete] at hp
    split at hp
    · cases hp
    · obtain ⟨source, -, hp⟩ := Outcome.bind_eq_ok.mp hp
      obtain ⟨limit, -, hp⟩ := Outcome.bind_eq_ok.mp hp
      exact hsource hw rfl (Outcome.pure_eq_ok.mp hp)

/-- The operation of a write carries the filter of its draft. -/
theorem Draft.writeFilter?_operation {p : Plan} (haction : p.action.isWrite) (d : Draft)
    (options : Document) : (d.operation p options).writeFilter? = some d.filter := by
  unfold Draft.operation
  cases hact : p.action with
  | select s => simp [hact, Action.isWrite] at haction
  | insert columns rows => simp [hact, Action.isWrite] at haction
  | update assignments => rfl
  | delete => rfl

/-- Dropping the qualifier of columns keeps negations, and adds none. -/
theorem Sql.Expr.strip_eq_not_iff (base : String) (w y : Expr) :
    w.strip base = .not y ↔ ∃ x, w = .not x ∧ x.strip base = y := by
  cases w <;> simp [Expr.strip, Expr.mapColumns]

/-- **When a write loses its condition.**  A statement that changes or removes rows under
a condition becomes a command with the empty filter exactly if the condition is a negation
whose operand is neither a field nor a comparison whose own filter starts with an
operator. -/
theorem write_filter_eq_empty_iff (settings : Settings) {s : Statement} {w : Expr}
    {c : Command} (hw : s.writeCondition? = some w)
    (h : settings.commandOfStatement s = .ok c) :
    ∃ p f, Plan.ofStatement settings.types s = .ok p ∧ c.operation.writeFilter? = some f ∧
      (f = .empty ↔
        ∃ x, w = .not x ∧
          ¬ Filter.HasNegation p.filterContext (x.strip p.scope.base.label)) := by
  obtain ⟨p, hp, h⟩ := Outcome.bind_eq_ok.mp h
  obtain ⟨-, -, h⟩ := Outcome.bind_eq_ok.mp h
  obtain ⟨d, hd, h⟩ := Outcome.bind_eq_ok.mp h
  cases Outcome.pure_eq_ok.mp h
  obtain ⟨hjoined, hfilter, haction⟩ := Plan.writes_of_ofStatement hw hp
  have hearly : p.earlyFilter = some (w.strip p.scope.base.label) := by
    simp [Plan.earlyFilter, hjoined, hfilter]
  -- without joins the whole condition runs early
  have hcompile := Plan.compile_earlyFilter hd
  rw [hearly] at hcompile
  refine ⟨p, d.filter, hp, Draft.writeFilter?_operation haction d _, ?_⟩
  rw [Filter.compile_eq_empty_iff hcompile]
  constructor
  · rintro ⟨y, hy, hnone⟩
    obtain ⟨x, hx, rfl⟩ := (Expr.strip_eq_not_iff _ w y).mp hy
    exact ⟨x, hx, hnone⟩
  · rintro ⟨x, hx, hnone⟩
    exact ⟨_, (Expr.strip_eq_not_iff _ w _).mpr ⟨x, hx, rfl⟩, hnone⟩

/-! ### Deletions under a negated comparison -/

/-- The condition `NOT age op 3`. -/
def notAge (op : Comparison) : Expr :=
  .not (.compare op (.column (.bare "age")) (.literal (.int 3)))

/-- The statement `DELETE FROM t WHERE NOT age op 3`. -/
def deleteNotAge (op : Comparison) : Statement :=
  .delete ⟨[], .table "t" none, some (notAge op), none⟩

/-- The filter that `NOT age > 3` becomes. -/
def notAboveFilter : Document :=
  .single "age" (.document (.single "$not" (.document (.single "$gt" (.int 3)))))

/-- `NOT age > 3` has a negated form, so the deletion keeps its filter. -/
theorem write_filter_eq_empty_iff_greater :
    (deleteNotAge .gt).writeCondition? = some (notAge .gt) ∧
    Settings.commandOfStatement {} (deleteNotAge .gt) = .ok ⟨"t", .remove notAboveFilter⟩ ∧
    ∃ p f, Plan.ofStatement {} (deleteNotAge .gt) = .ok p ∧
      (Operation.remove notAboveFilter).writeFilter? = some f ∧
      (f = .empty ↔ ∃ x, notAge .gt = .not x ∧
        ¬ Filter.HasNegation p.filterContext (x.strip p.scope.base.label)) :=
  ⟨rfl, rfl, write_filter_eq_empty_iff {} (s := deleteNotAge .gt)
    (c := ⟨"t", .remove notAboveFilter⟩) rfl rfl⟩

/-- **A deletion under a condition can remove everything.**  An equality is compiled
without an operator, so `NOT age = 3` has no negated form and leaves the empty filter. -/
theorem delete_not_equal_removes_all :
    (deleteNotAge .eq).writeCondition? = some (notAge .eq) ∧
    Settings.commandOfStatement {} (deleteNotAge .eq) = .ok ⟨"t", .remove .empty⟩ :=
  ⟨rfl, rfl⟩

end DocQuery
