import DocQuery.Pipeline.Step
import DocQuery.Proofs.Outcome

/-!
# Filters on groups and the table of names

A filter on groups reads the table of names in two ways: it looks up the name of a column,
and it looks up the name of a call that is written in it.  Two tables that answer these
questions alike give the same filter, and the same order of groups.

* `Sql.Expr.calls` — the calls that are written in an expression
* `Aliases.Alike` — two tables that answer alike, for some calls
* `Filter.compile_groups_congr` — alike tables give the same filter on groups
* `orderField_congr` — alike tables give the same field to order by

### What is load-bearing

Calls are looked up where they stand, inside other calls and on both sides of tests.  The
induction therefore carries the calls of each part, and hands the part of a test to
`comparison` and the other tests together with its compiled sides.
-/

namespace DocQuery

open Sql

namespace Sql

mutual

/-- The calls that are written in an expression, also inside other calls. -/
def Expr.calls : Expr → List Call
  | .call name distinct args => ⟨name, distinct, args⟩ :: callsIn args
  | .signed _ e => e.calls
  | .arithmetic _ l r => l.calls ++ r.calls
  | .compare _ l r => l.calls ++ r.calls
  | .like _ e p => e.calls ++ p.calls
  | .isNull _ e => e.calls
  | .inList _ e items => e.calls ++ callsIn items
  | .between _ e low high => e.calls ++ low.calls ++ high.calls
  | .and l r => l.calls ++ r.calls
  | .or l r => l.calls ++ r.calls
  | .not e => e.calls
  | _ => []

/-- The calls that are written in a list of expressions. -/
def callsIn : List Expr → List Call
  | [] => []
  | e :: rest => e.calls ++ callsIn rest

end

end Sql

/-- **Two tables answer alike** for all names and for some calls. -/
structure Aliases.Alike (a b : Aliases) (calls : List Call) : Prop where
  aliasOf? : ∀ name, a.aliasOf? name = b.aliasOf? name
  resolve : ∀ name, a.resolve name = b.resolve name
  aliasOfCall? : ∀ c ∈ calls, a.aliasOfCall? c.display = b.aliasOfCall? c.display

namespace Aliases.Alike

variable {a b : Aliases} {calls calls' : List Call}

/-- Tables that answer alike for some calls do so for fewer. -/
theorem mono (h : a.Alike b calls) (hsub : calls' ⊆ calls) : a.Alike b calls' :=
  ⟨h.aliasOf?, h.resolve, fun c hc => h.aliasOfCall? c (hsub hc)⟩

theorem left (h : a.Alike b (calls ++ calls')) : a.Alike b calls :=
  h.mono (List.subset_append_left _ _)

theorem right (h : a.Alike b (calls ++ calls')) : a.Alike b calls' :=
  h.mono (List.subset_append_right _ _)

end Aliases.Alike

namespace Filter

variable {types : FieldTypes} {a b : Aliases} {calls : List Call}

/-! ### Names and calls -/

/-- Columns go by the same names. -/
theorem fieldName_congr (h : a.Alike b calls) :
    (Context.groups types a).fieldName = (Context.groups types b).fieldName := by
  funext c
  show ((a.aliasOf? c.fullName).getD c.fullName) = (b.aliasOf? c.fullName).getD c.fullName
  rw [h.aliasOf?]

theorem columnReference_congr (h : a.Alike b calls) :
    columnReference (.groups types a) = columnReference (.groups types b) := by
  funext c
  rw [columnReference, columnReference, fieldName_congr h]

/-- Constants and columns have the same values. -/
theorem value_congr (h : a.Alike b calls) :
    (Context.groups types a).value = (Context.groups types b).value := by
  have haliased : Operand.aliased (some a) = Operand.aliased (some b) := by
    funext name
    show (a.aliasOf? name).getD name = (b.aliasOf? name).getD name
    rw [h.aliasOf?]
  have hsigned (type : FieldType) (negative : Bool) (e : Expr) :
      Operand.signedValue type (some a) negative e =
        Operand.signedValue type (some b) negative e := by
    induction negative, e using Operand.signedValue.induct with
    | case1 negative minus e ih => rw [Operand.signedValue, Operand.signedValue, ih]
    | case2 negative l => rw [Operand.signedValue, Operand.signedValue]
    | case3 negative c =>
      rw [Operand.signedValue, Operand.signedValue, Operand.ofColumn, Operand.ofColumn,
        haliased]
    | case4 negative e hsigned hliteral hcolumn =>
      rw [Operand.signedValue, Operand.signedValue] <;> assumption
  funext counterpart e
  exact hsigned _ _ _

/-- A call that is looked up alike has the same value, if its parameters do. -/
theorem callWith_congr {c : Call} (h : a.Alike b calls) (hc : c ∈ calls)
    (parameters : Except Fault (List Value)) :
    callWith (.groups types a) c parameters = callWith (.groups types b) c parameters := by
  simp only [callWith, Context.groups, h.aliasOfCall? c hc]

/-- Parameters of calls have the same values. -/
theorem parameter_congr :
    (∀ e : Expr, a.Alike b e.calls →
      parameter (.groups types a) e = parameter (.groups types b) e) ∧
    ∀ args : List Expr, a.Alike b (callsIn args) →
      parameters (.groups types a) args = parameters (.groups types b) args := by
  refine parameter.mutual_induct _ _ ?_ ?_ ?_ ?_ ?_ ?_ ?_
  · intro c _ h
    rw [parameter, parameter, value_congr h, columnReference_congr h]
  · intro c _ h
    rw [parameter, parameter, value_congr h, columnReference_congr h]
  · intro name distinct args ih h
    rw [Expr.calls] at h
    have hargs : a.Alike b (callsIn args) := h.mono (List.subset_cons_self _ _)
    rw [parameter, parameter, callWith_congr h List.mem_cons_self, ih hargs]
  · intro e hcolumn hcall h
    rw [parameter, parameter, value_congr h] <;> assumption
  · intro h
    rw [parameters, parameters]
  · intro rest ih h
    rw [callsIn] at h
    rw [parameters, parameters, ih h.right]
  · intro e rest hwildcard ihe ihrest h
    rw [callsIn] at h
    rw [parameters, parameters, ihe h.left, ihrest h.right] <;> assumption

/-- A call has the same value. -/
theorem callValue_congr {name : String} {distinct : Bool} {args : List Expr}
    (h : a.Alike b (Expr.call name distinct args).calls) :
    callValue (.groups types a) ⟨name, distinct, args⟩ =
      callValue (.groups types b) ⟨name, distinct, args⟩ := by
  rw [Expr.calls] at h
  have hargs : a.Alike b (callsIn args) := h.mono (List.subset_cons_self _ _)
  rw [callValue, callValue, callWith_congr h List.mem_cons_self, parameter_congr.2 args hargs]

/-! ### Tests -/

/-- A side of a test has the same value. -/
theorem operand_congr {e : Expr} (h : a.Alike b e.calls) (inner : Except Fault Value) :
    operand (.groups types a) e inner = operand (.groups types b) e inner := by
  unfold operand
  split
  · exact callValue_congr h
  · rw [columnReference_congr h]
  · rfl

theorem plainComparison_congr (op : Comparison) {l r : Expr} (hl : a.Alike b l.calls)
    (hr : a.Alike b r.calls) (leftNode rightNode : Except Fault Value) :
    plainComparison (.groups types a) op l r leftNode rightNode =
      plainComparison (.groups types b) op l r leftNode rightNode := by
  unfold plainComparison
  simp only [operand_congr hl, operand_congr hr, fieldName_congr hl, value_congr hl,
    columnReference_congr hl]
  rfl

theorem comparison_congr (op : Comparison) {l r : Expr} (hl : a.Alike b l.calls)
    (hr : a.Alike b r.calls) (leftNode rightNode : Except Fault Value) :
    comparison (.groups types a) op l r leftNode rightNode =
      comparison (.groups types b) op l r leftNode rightNode := by
  simp only [comparison, plainComparison_congr op hl hr]

theorem likeTest_congr (h : a.Alike b calls) (negated : Bool) (e p : Expr) :
    likeTest (.groups types a) negated e p = likeTest (.groups types b) negated e p := by
  unfold likeTest
  rw [fieldName_congr h]

theorem nullTest_congr {e : Expr} (h : a.Alike b e.calls) (negated : Bool) :
    nullTest (.groups types a) negated e = nullTest (.groups types b) negated e := by
  unfold nullTest
  split
  · rw [callValue_congr h]
  · rw [fieldName_congr h]

theorem membership_congr {e : Expr} (h : a.Alike b e.calls) (negated : Bool)
    (items : List Expr) (targetNode : Except Fault Value)
    (values : Except Fault (List Value)) :
    membership (.groups types a) negated e items targetNode values =
      membership (.groups types b) negated e items targetNode values := by
  simp only [membership, operand_congr h, fieldName_congr h]
  cases e with
  | call name distinct args =>
    simp only [callValue_congr h]
  | _ => rfl

theorem negation_congr (h : a.Alike b calls) (e : Expr) (inner : Except Fault Value) :
    negation (.groups types a) e inner = negation (.groups types b) e inner := by
  unfold negation
  rw [fieldName_congr h]

theorem standalone_congr {name : String} {distinct : Bool} {args : List Expr}
    (h : a.Alike b (Expr.call name distinct args).calls) :
    standalone (.groups types a) ⟨name, distinct, args⟩ =
      standalone (.groups types b) ⟨name, distinct, args⟩ := by
  rw [standalone, standalone, callValue_congr h]

/-! ### Filters -/

/-- Expressions inside a filter have the same values. -/
theorem node_congr :
    (∀ (counterpart : Option Expr) (e : Expr), a.Alike b e.calls →
      node (.groups types a) counterpart e = node (.groups types b) counterpart e) ∧
    ∀ (target : Expr) (items : List Expr), a.Alike b (callsIn items) →
      nodes (.groups types a) target items = nodes (.groups types b) target items := by
  refine node.mutual_induct _ _ ?_ ?_ ?_ ?_ ?_ ?_ ?_ ?_ ?_ ?_ ?_ ?_ ?_ ?_ ?_
  · intro counterpart op l r ihl ihr h
    rw [Expr.calls] at h
    rw [node, node, ihl h.left, ihr h.right, comparison_congr op h.left h.right]
  · intro counterpart negated e p h
    rw [node, node, likeTest_congr h]
  · intro counterpart negated e h
    rw [Expr.calls] at h
    rw [node, node, nullTest_congr h]
  · intro counterpart negated e items ihe ihitems h
    rw [Expr.calls] at h
    rw [node, node, ihe h.left, ihitems h.right, membership_congr h.left]
  · intro counterpart complement e low high ihe ihlow ihe' ihhigh h
    rw [Expr.calls] at h
    have he := h.left.left
    rw [node, node, ihe he, ihlow h.left.right, ihe' he, ihhigh h.right,
      comparison_congr .ge he h.left.right, comparison_congr .le he h.right]
  · intro counterpart l r ihl ihr h
    rw [Expr.calls] at h
    rw [node, node, ihl h.left, ihr h.right]
  · intro counterpart l r ihl ihr h
    rw [Expr.calls] at h
    rw [node, node, ihl h.left, ihr h.right]
  · intro counterpart e ih h
    rw [Expr.calls] at h
    rw [node, node, ih h, negation_congr h]
  · intro counterpart name distinct args h
    rw [node, node, standalone_congr h]
  · intro counterpart c _ h
    rw [node, node, fieldName_congr h, value_congr h]
  · intro counterpart c _ h
    rw [node, node, fieldName_congr h, value_congr h]
  · intro counterpart query h
    rw [node, node]
  · intro counterpart e
    intros
    rw [node, node, value_congr] <;> assumption
  · intro target h
    rw [nodes, nodes]
  · intro target e rest ihe ihrest h
    rw [callsIn] at h
    rw [nodes, nodes, ihe h.left, ihrest h.right]

/-- **Tables that answer alike give the same filter on groups.** -/
theorem compile_groups_congr {e : Expr} (h : a.Alike b e.calls) :
    compile (.groups types a) e = compile (.groups types b) e := by
  rw [compile, compile, node_congr.1 none e h]

end Filter

/-! ### Orders of groups -/

/-- **Tables that answer alike give the same field to order by.** -/
theorem orderField_congr {s s' : Selection} (hgroupBy : s.groupBy = s'.groupBy) {e : Expr}
    (h : s.aliases.Alike s'.aliases e.calls) : orderField s e = orderField s' e := by
  unfold orderField
  split
  · rename_i name distinct args
    rw [Expr.calls] at h
    dsimp only
    rw [h.aliasOfCall? _ List.mem_cons_self]
  · rw [h.resolve, hgroupBy]

/-- Tables that answer alike give the same order. -/
theorem sortDocument_congr {s s' : Selection} (hgroupBy : s.groupBy = s'.groupBy)
    (horderBy : s.orderBy = s'.orderBy)
    (h : ∀ item ∈ s.orderBy, s.aliases.Alike s'.aliases item.expr.calls) :
    sortDocument s = sortDocument s' := by
  rw [sortDocument, sortDocument, ← horderBy]
  congr 1
  refine Outcome.mapM_eq_of_map_eq (List.map_congr_left ?_)
  intro item hitem
  rw [orderField_congr hgroupBy (h item hitem)]

end DocQuery
