import DocQuery.Proofs.Predicate.Joined

/-!
# Filters of conditions are trees of tests

The filter of a condition is a tree of `$and` and `$or` documents.  The filters of the
tests are its leaves, in their order, and none is lost, repeated or regrouped in a way
that matters.

* `Connective`, `FilterTree` — the two operators, and filters joined by them
* `FilterTree.document`, `FilterTree.leaves`, `FilterTree.truthAt` — what a tree is
  written as, what it is made of, and its truth
* `FilterTree.join` — two trees joined in the way of `Filter.conjoin`
* `Filter.exists_tree_of_compile` — the tree of a condition
* `Filter.compile_condition` — success, faults, leaves and truth of a condition

### What is load-bearing

**Positions.**  Two tests of a condition may be equal, so truth is given to the positions
of the tests and not to the tests.  The leaves are numbered from left to right on both
sides.

**Runs.**  A run is continued by adding to the parts of the tree on its left.  That tree
has the operator of the run at its root, which the induction carries along
(`FilterTree.IsRoot`).
-/

namespace DocQuery

open Sql

/-- The truth of a condition whose tests are numbered from left to right, the first one by
`start`. -/
def Sql.Expr.truthAt (truth : Nat → Bool) : Nat → Expr → Bool
  | start, .and l r => l.truthAt truth start && r.truthAt truth (start + l.tests.length)
  | start, .or l r => l.truthAt truth start || r.truthAt truth (start + l.tests.length)
  | start, _ => truth start

/-- An operator that joins filters. -/
inductive Connective where
  | all
  | any

namespace Connective

/-- How an operator is written. -/
def operator : Connective → String
  | .all => "$and"
  | .any => "$or"

/-- The truth of joined filters. -/
def combine : Connective → List Bool → Bool
  | .all, truths => truths.all id
  | .any, truths => truths.any id

/-- Joining in two steps is the same as in one. -/
theorem combine_append (op : Connective) (truths : List Bool) (last : Bool) :
    op.combine (truths ++ [last]) = op.combine [op.combine truths, last] := by
  cases op <;> simp [combine]

end Connective

/-- Filters joined by operators. -/
inductive FilterTree where
  | leaf (filter : Document)
  | node (op : Connective) (parts : List FilterTree)

namespace FilterTree

mutual

/-- The document that a tree is written as. -/
def document : FilterTree → Document
  | .leaf filter => filter
  | .node op parts => .single op.operator (.array (documents parts))

/-- The documents that several trees are written as. -/
def documents : List FilterTree → List Value
  | [] => []
  | t :: rest => .document t.document :: documents rest

end

mutual

/-- The filters that a tree joins, from left to right. -/
def leaves : FilterTree → List Document
  | .leaf filter => [filter]
  | .node _ parts => leavesOfAll parts

/-- The filters that several trees join. -/
def leavesOfAll : List FilterTree → List Document
  | [] => []
  | t :: rest => t.leaves ++ leavesOfAll rest

end

mutual

/-- The truth of a tree whose leaves are numbered from left to right, the first one by
`start`. -/
def truthAt (truth : Nat → Bool) : Nat → FilterTree → Bool
  | start, .leaf _ => truth start
  | start, .node op parts => op.combine (truthsAt truth start parts)

/-- The truths of several trees. -/
def truthsAt (truth : Nat → Bool) : Nat → List FilterTree → List Bool
  | _, [] => []
  | start, t :: rest => t.truthAt truth start :: truthsAt truth (start + t.leaves.length) rest

end

@[simp] theorem documents_eq_map (trees : List FilterTree) :
    documents trees = trees.map fun t => .document t.document := by
  induction trees with
  | nil => rfl
  | cons t rest ih => rw [documents, ih, List.map_cons]

@[simp] theorem leavesOfAll_eq_flatMap (trees : List FilterTree) :
    leavesOfAll trees = trees.flatMap leaves := by
  induction trees with
  | nil => rfl
  | cons t rest ih => rw [leavesOfAll, ih, List.flatMap_cons]

/-- A tree that comes last is numbered behind the leaves of the others. -/
theorem truthsAt_concat (truth : Nat → Bool) (start : Nat) (trees : List FilterTree)
    (last : FilterTree) :
    truthsAt truth start (trees ++ [last]) = truthsAt truth start trees ++
      [last.truthAt truth (start + (trees.flatMap leaves).length)] := by
  induction trees generalizing start with
  | nil => rfl
  | cons t rest ih =>
    rw [List.cons_append, truthsAt, ih, truthsAt, List.flatMap_cons, List.length_append,
      Nat.add_assoc, List.cons_append]

/-! ### Two trees -/

/-- Whether an operator stands at the root of a tree. -/
def IsRoot (op : Connective) (t : FilterTree) : Prop :=
  ∃ parts, t = .node op parts

/-- The trees that a tree joins at its root. -/
def parts : FilterTree → List FilterTree
  | .leaf _ => []
  | .node _ parts => parts

/-- Two trees joined by an operator; a run that is continued takes the parts of the left
one over. -/
def join (op : Connective) (continues : Bool) (l r : FilterTree) : FilterTree :=
  .node op ((if continues then l.parts else [l]) ++ [r])

section Join

variable {op : Connective} {continues : Bool} {l : FilterTree}

theorem isRoot_join (r : FilterTree) : IsRoot op (join op continues l r) :=
  ⟨_, rfl⟩

variable (r : FilterTree) (hl : continues = true → IsRoot op l)
include hl

/-- Joined trees are written as joined filters. -/
theorem document_join :
    (join op continues l r).document =
      Filter.conjoin op.operator continues l.document r.document := by
  cases continues with
  | false => rfl
  | true =>
    obtain ⟨parts, rfl⟩ := hl rfl
    simp [join, FilterTree.parts, document, Filter.conjoin]

/-- No leaf is lost, and their order stays. -/
theorem leaves_join : (join op continues l r).leaves = l.leaves ++ r.leaves := by
  cases continues with
  | false => simp [join, leaves]
  | true =>
    obtain ⟨parts, rfl⟩ := hl rfl
    simp [join, FilterTree.parts, leaves]

/-- The operator joins the truths of the two sides. -/
theorem truthAt_join (truth : Nat → Bool) (start : Nat) :
    (join op continues l r).truthAt truth start =
      op.combine [l.truthAt truth start, r.truthAt truth (start + l.leaves.length)] := by
  cases continues with
  | false => rfl
  | true =>
    obtain ⟨parts, rfl⟩ := hl rfl
    show op.combine (truthsAt truth start (parts ++ [r])) =
      op.combine [op.combine (truthsAt truth start parts), r.truthAt truth _]
    rw [truthsAt_concat, Connective.combine_append, leaves, leavesOfAll_eq_flatMap]

end Join

end FilterTree

namespace Filter

open FilterTree

/-! ### The tree of a condition -/

/-- **A tree is the filter of a condition**: it is written as that filter, its leaves are
the filters of the tests, and it is true whenever the condition is. -/
structure IsTreeOf (ctx : Context) (e : Expr) (filter : Document) (t : FilterTree) :
    Prop where
  document : t.document = filter
  leaves : t.leaves.map .ok = e.tests.map (compile ctx)
  truth : ∀ truth start, t.truthAt truth start = e.truthAt truth start

section Step

variable {ctx : Context} (op : Connective) {continues : Bool} {l r e : Expr}
  {left right : Document} {tl tr : FilterTree}

/-- **Step.**  Two trees are joined like the sides of a condition. -/
theorem IsTreeOf.join (hl : IsTreeOf ctx l left tl) (hr : IsTreeOf ctx r right tr)
    (hroot : continues = true → IsRoot op tl) (htests : e.tests = l.tests ++ r.tests)
    (htruth : ∀ truth start, e.truthAt truth start =
      op.combine [l.truthAt truth start, r.truthAt truth (start + l.tests.length)]) :
    IsTreeOf ctx e (conjoin op.operator continues left right) (.join op continues tl tr) where
  document := by rw [document_join tr hroot, hl.document, hr.document]
  leaves := by
    rw [leaves_join tr hroot, List.map_append, hl.leaves, hr.leaves, htests, List.map_append]
  truth := by
    intro truth start
    have hlength : tl.leaves.length = l.tests.length := by
      simpa using congrArg List.length hl.leaves
    rw [truthAt_join tr hroot, htruth, hl.truth, hr.truth, hlength]

end Step

/-- **Run.**  The filter of a condition is a tree over the filters of its tests.  The
induction is on the condition, and carries along which operator stands at the root of a
run. -/
theorem exists_tree_of_compile {ctx : Context} {e : Expr} {filter : Document}
    (h : compile ctx e = .ok filter) :
    ∃ t, IsTreeOf ctx e filter t ∧ (isAndRun e = true → IsRoot .all t) ∧
      (isOrRun e = true → IsRoot .any t) := by
  fun_induction Expr.tests e generalizing filter with
  | case1 l r ihl ihr =>
    rw [compile_and] at h
    obtain ⟨left, hleft, h⟩ := Outcome.bind_eq_ok.mp h
    obtain ⟨right, hright, h⟩ := Outcome.bind_eq_ok.mp h
    obtain ⟨tl, htl, hroot, -⟩ := ihl hleft
    obtain ⟨tr, htr, -⟩ := ihr hright
    rw [← Outcome.pure_eq_ok.mp h]
    refine ⟨_, htl.join .all htr ?_ ?_ ?_, fun _ => isRoot_join tr, fun hrun => ?_⟩
    · exact fun hcontinues => hroot (Bool.and_eq_true_iff.mp hcontinues).1
    · rw [Expr.tests]
    · intro truth start
      simp [Expr.truthAt, Connective.combine]
    · exact absurd hrun (by simp [isOrRun])
  | case2 l r ihl ihr =>
    rw [compile_or] at h
    obtain ⟨left, hleft, h⟩ := Outcome.bind_eq_ok.mp h
    obtain ⟨right, hright, h⟩ := Outcome.bind_eq_ok.mp h
    obtain ⟨tl, htl, -, hroot⟩ := ihl hleft
    obtain ⟨tr, htr, -⟩ := ihr hright
    rw [← Outcome.pure_eq_ok.mp h]
    refine ⟨_, htl.join .any htr ?_ ?_ ?_, fun hrun => ?_, fun _ => isRoot_join tr⟩
    · exact fun hcontinues => hroot (Bool.and_eq_true_iff.mp hcontinues).1
    · rw [Expr.tests]
    · intro truth start
      simp [Expr.truthAt, Connective.combine]
    · exact absurd hrun (by simp [isAndRun])
  | case3 e hand hor =>
    -- a test is a leaf, and no run
    refine ⟨.leaf filter, ⟨rfl, ?_, ?_⟩, ?_, ?_⟩
    · rw [Expr.tests]
      · simp [leaves, h]
      all_goals assumption
    · intro truth start
      rw [Expr.truthAt]
      · rfl
      all_goals assumption
    · intro hrun
      unfold isAndRun at hrun
      split at hrun
      · exact absurd rfl (hand _ _)
      · cases hrun
    · intro hrun
      unfold isOrRun at hrun
      split at hrun
      · exact absurd rfl (hor _ _)
      · cases hrun

/-- **A condition is compiled test by test.**  It is compiled if all of its tests are, and
else its fault is that of the first test with one.  Its filter is a tree over the filters
of the tests in their order, and for all truths of the tests it is true exactly if the
condition is. -/
theorem compile_condition (ctx : Context) (e : Expr) :
    ((∃ filter, compile ctx e = .ok filter) ↔
      ∀ x ∈ e.tests, ∃ filter, compile ctx x = .ok filter) ∧
    (∀ fault, compile ctx e = .error fault ↔
      ∃ before x after, e.tests = before ++ x :: after ∧
        (∀ y ∈ before, ∃ filter, compile ctx y = .ok filter) ∧ compile ctx x = .error fault) ∧
    (∀ filter, compile ctx e = .ok filter → ∃ t : FilterTree, t.document = filter ∧
      t.leaves.map .ok = e.tests.map (compile ctx) ∧
        ∀ truth, t.truthAt truth 0 = e.truthAt truth 0) := by
  refine ⟨?_, ?_, ?_⟩
  · rw [← Outcome.fault?_eq_none_iff, fault?_compile, List.findSome?_eq_none_iff]
    exact forall₂_congr fun x _ => Outcome.fault?_eq_none_iff
  · intro fault
    rw [← Outcome.fault?_eq_some_iff, fault?_compile, List.findSome?_eq_some_iff]
    constructor
    · rintro ⟨before, x, after, htests, hx, hbefore⟩
      exact ⟨before, x, after, htests, fun y hy =>
        Outcome.fault?_eq_none_iff.mp (hbefore y hy), Outcome.fault?_eq_some_iff.mp hx⟩
    · rintro ⟨before, x, after, htests, hbefore, hx⟩
      exact ⟨before, x, after, htests, Outcome.fault?_eq_some_iff.mpr hx,
        fun y hy => Outcome.fault?_eq_none_iff.mpr (hbefore y hy)⟩
  · intro filter h
    obtain ⟨t, ht, -⟩ := exists_tree_of_compile h
    exact ⟨t, ht.document, ht.leaves, fun truth => ht.truth truth 0⟩

end Filter

end DocQuery
