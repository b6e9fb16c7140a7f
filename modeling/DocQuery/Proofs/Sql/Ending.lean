import DocQuery.Proofs.Scan.Ending
import DocQuery.Proofs.Sql.FollowingQuery

/-!
# Reading ends

The parsers for expressions and queries call each other through parentheses.  They are
bounded by a depth, and the loops inside them by budgets.  Both bounds are as large as the
text is long, and neither is ever used up.

* `Nested.AgreeBelow` — the parsers inside parentheses agree on the texts below a length
* `agreeBelow_nestedAt` — depths that exceed the length of the text make no difference
* `nested_determined` — the parsers without bound are the only ones that call themselves
  inside parentheses

### What is load-bearing

What is handed down is called behind a parenthesis or a keyword, so levels that agree
below `n` inside the parentheses agree below `n + 1` (`AgreeBelow.behind_consumeChar`).
That is all the induction on the length needs.
-/

set_option synthInstance.maxSize 600

namespace DocQuery.Sql.Grammar

open Scan Text

variable {n : Nat}

/-- The parsers for what stands inside parentheses agree on all texts of fewer than `n`
characters. -/
class Nested.AgreeBelow (n : Nat) (l r : Nested) : Prop where
  expr : Scan.AgreeBelow n l.expr r.expr
  query : Scan.AgreeBelow n l.query r.query

attribute [instance] Nested.AgreeBelow.expr Nested.AgreeBelow.query

/-! ### Expressions -/

section Expressions

variable (l r : Nested) [l.AgreeBelow n r] [r.Shrinking]

instance (name : String) : AgreeBelow (n + 1) (callArgs l name) (callArgs r name) := by
  unfold callArgs
  exact .behind (length_lt_of_expectChar (by decide)) fun _ => inferInstance

instance : AgreeBelow n (parenthesis l) (parenthesis r) := by
  unfold parenthesis
  infer_instance

instance (mark : List Char) (word : String) (c : Char) :
    AgreeBelow (n + 1) (afterWord l mark word c) (afterWord r mark word c) := by
  unfold afterWord
  split <;> infer_instance

instance (mark : List Char) (word : String) :
    AgreeBelow (n + 1) (wordExpr l mark word) (wordExpr r mark word) := by
  rw [wordExpr_eq, wordExpr_eq]
  infer_instance

/-- Inside a parenthesis the text is shorter by the opening one. -/
instance : AgreeBelow (n + 1) (primary l) (primary r) := by
  rw [primary_eq, primary_eq]
  refine @AgreeBelow.bind _ _ _ _ _ _ _ _ _ fun _ => ⟨fun {cs} hcs => ?_⟩
  rw [run_bind_ok run_get, run_bind_ok run_get]
  by_cases hopen : front cs = '('
  · rw [hopen]
    exact run_advance_bind_congr (by rw [hopen]; decide) hcs inferInstance
  · unfold primaryAt
    split
    case h_2 => exact absurd ‹_› hopen
    case h_7 =>
      split
      · rfl
      · refine run_bind_congr fun word left hrun => ?_
        cases word with
        | none => rfl
        | some word =>
          exact AgreeBelow.run_eq (Nat.lt_of_le_of_lt (Shrinks.length_le hrun) hcs)
    all_goals rfl

instance AgreeBelow.signedPrimary (budget : Nat) :
    AgreeBelow (n + 1) (signedPrimary l budget) (signedPrimary r budget) := by
  induction budget with
  | zero => exact inferInstanceAs (AgreeBelow _ (primary l) (primary r))
  | succ budget ih =>
    unfold Grammar.signedPrimary
    refine @AgreeBelow.bind _ _ _ _ _ _ _ _ _ fun _ =>
      @AgreeBelow.bind _ _ _ _ _ _ _ _ _ fun c => ?_
    split <;> infer_instance

instance : AgreeBelow (n + 1) (unary l) (unary r) := by
  unfold unary
  infer_instance

instance (accepts : Arithmetic → Bool) (p q : Parser Expr) [AgreeBelow n p q] [Shrinks q]
    (left : Expr) :
    AgreeBelow n (arithmeticStep accepts p left) (arithmeticStep accepts q left) := by
  unfold arithmeticStep
  refine @AgreeBelow.bind _ _ _ _ _ _ _ _ _ fun _ =>
    @AgreeBelow.bind _ _ _ _ _ _ _ _ _ fun c => ?_
  split <;> infer_instance

instance : AgreeBelow (n + 1) (product l) (product r) := by
  unfold product
  infer_instance

instance : AgreeBelow (n + 1) (sum l) (sum r) := by
  unfold sum
  infer_instance

instance : AgreeBelow (n + 1) (members l) (members r) := by
  unfold members
  exact .behind (length_lt_of_expectChar (by decide)) fun _ => inferInstance

instance (negated : Bool) (operand : Expr) :
    AgreeBelow (n + 1) (bounds l negated operand) (bounds r negated operand) := by
  unfold bounds
  infer_instance

instance AgreeBelow.firstKeyword {α : Type} (body body' : Keyword → Parser α)
    (other : Parser α) (ks : List Keyword) [∀ k, AgreeBelow n (body k) (body' k)] :
    AgreeBelow n (firstKeyword body other ks) (firstKeyword body' other ks) := by
  induction ks with
  | nil => exact .refl _
  | cons k ks ih =>
    unfold Grammar.firstKeyword
    infer_instance

instance (left : Expr) (k : Keyword) :
    AgreeBelow (n + 1) (testBody l left k) (testBody r left k) := by
  unfold testBody
  split <;> infer_instance

instance (left : Expr) (op : Option Comparison) :
    AgreeBelow (n + 1) (testAfter l left op) (testAfter r left op) := by
  cases op <;> unfold testAfter <;> infer_instance

instance : AgreeBelow (n + 1) (predicate l) (predicate r) := by
  rw [predicate_eq, predicate_eq]
  infer_instance

instance AgreeBelow.negated (budget : Nat) :
    AgreeBelow (n + 1) (negated l budget) (negated r budget) := by
  induction budget with
  | zero => exact inferInstanceAs (AgreeBelow _ (predicate l) (predicate r))
  | succ budget ih =>
    unfold Grammar.negated
    infer_instance

instance : AgreeBelow (n + 1) (negation l) (negation r) := by
  unfold negation
  infer_instance

instance (k : Keyword) (join : Expr → Expr → Expr) (p q : Parser Expr) [AgreeBelow n p q]
    [Shrinks q] (left : Expr) :
    AgreeBelow n (logicalStep k join p left) (logicalStep k join q left) := by
  unfold logicalStep
  infer_instance

instance : AgreeBelow (n + 1) (conjunction l) (conjunction r) := by
  unfold conjunction
  infer_instance

instance : AgreeBelow (n + 1) (disjunction l) (disjunction r) := by
  unfold disjunction
  infer_instance

end Expressions

/-! ### Queries -/

section Queries

variable (l r : Nested) [l.AgreeBelow n r] [r.Shrinking]

instance : AgreeBelow n (selectItem l) (selectItem r) := by
  unfold selectItem
  infer_instance

instance : AgreeBelow n (orderItem l) (orderItem r) := by
  unfold orderItem
  infer_instance

instance : AgreeBelow n (source l) (source r) := by
  unfold source
  infer_instance

instance {α : Type} (k : Keyword) (p q : Parser α) [AgreeBelow n p q] [Shrinks q] :
    AgreeBelow n (after k p) (after k q) := by
  unfold after
  infer_instance

instance : AgreeBelow n (join? l) (join? r) := by
  unfold join?
  refine @AgreeBelow.bind _ _ _ _ _ _ _ _ _ fun kind => ?_
  cases kind <;> infer_instance

instance (distinct : Bool) (items : List SelectItem) (source : Source) :
    AgreeBelow n (clauses l distinct items source) (clauses r distinct items source) := by
  unfold clauses
  infer_instance

/-- Behind the first keyword the text is shorter. -/
instance : AgreeBelow (n + 1) (select l) (select r) := by
  rw [select_eq, select_eq]
  exact .behind length_lt_of_expect fun _ => inferInstance

instance : AgreeBelow (n + 1) (branch l) (branch r) := by
  unfold branch
  exact .behind_consumeChar (by decide)
    (inferInstanceAs (AgreeBelow n (l.query >>= _) (r.query >>= _)))
    (inferInstanceAs (AgreeBelow (n + 1) (select l >>= _) (select r >>= _)))

instance : AgreeBelow (n + 1) (furtherBranch l) (furtherBranch r) := by
  unfold furtherBranch
  refine @AgreeBelow.bind _ _ _ _ _ _ _ _ _ fun op => ?_
  cases op <;> infer_instance

instance : AgreeBelow (n + 1) (query l) (query r) := by
  unfold query
  infer_instance

end Queries

/-! ### Parentheses -/

/-- **Depths that exceed the length of the text make no difference.** -/
theorem agreeBelow_nestedAt {depth depth' : Nat} (h : n ≤ depth) (h' : n ≤ depth') :
    (nestedAt depth).AgreeBelow n (nestedAt depth') := by
  induction n generalizing depth depth' with
  | zero => exact ⟨.zero _ _, .zero _ _⟩
  | succ n ih =>
    obtain ⟨depth, rfl⟩ := Nat.exists_eq_add_of_lt h
    obtain ⟨depth', rfl⟩ := Nat.exists_eq_add_of_lt h'
    have := ih (Nat.le_add_right n depth) (Nat.le_add_right n depth')
    exact ⟨inferInstanceAs (AgreeBelow _ (disjunction _) (disjunction _)),
      inferInstanceAs (AgreeBelow _ (query _) (query _))⟩

/-- A parser freed of the bound on the depth is the one of every depth that is large
enough. -/
theorem agreeBelow_anyDepth {α : Type} {p : Nested → Parser α}
    (hp : ∀ {n} {l r : Nested} [l.AgreeBelow n r] [r.Shrinking],
      AgreeBelow (n + 1) (p l) (p r))
    (depth : Nat) : AgreeBelow (depth + 1) (anyDepth p) (p (nestedAt depth)) := by
  refine ⟨fun {cs} hcs => ?_⟩
  have hdepth : (nestedAt (cs.length + 1)).AgreeBelow cs.length (nestedAt depth) :=
    agreeBelow_nestedAt (Nat.le_succ _) (Nat.le_of_lt_succ hcs)
  rw [anyDepth, run_bind_ok run_get]
  exact hp.run_eq (Nat.lt_succ_self _)

/-- The parsers without bound agree with those of every depth, up to that length. -/
theorem agreeBelow_parsers (depth : Nat) :
    Nested.AgreeBelow depth ⟨parseExpr, parseQuery⟩ (nestedAt depth) := by
  cases depth with
  | zero => exact ⟨.zero _ _, .zero _ _⟩
  | succ depth =>
    exact ⟨agreeBelow_anyDepth inferInstance depth, agreeBelow_anyDepth inferInstance depth⟩

/-- **The parsers for expressions and queries are the only ones that call themselves inside
parentheses.** -/
theorem nested_determined (nested : Nested) :
    (nested.expr = disjunction nested ∧ nested.query = query nested) ↔
      nested = ⟨parseExpr, parseQuery⟩ := by
  constructor
  · rintro ⟨hexpr, hquery⟩
    have hnested : ∀ depth, nested.AgreeBelow depth (nestedAt depth) := by
      intro depth
      induction depth with
      | zero => exact ⟨.zero _ _, .zero _ _⟩
      | succ depth ih =>
        refine ⟨?_, ?_⟩
        · rw [hexpr]
          exact inferInstanceAs (AgreeBelow _ (disjunction _) (disjunction _))
        · rw [hquery]
          exact inferInstanceAs (AgreeBelow _ (query _) (query _))
    have hsame : nested.expr = parseExpr ∧ nested.query = parseQuery :=
      ⟨eq_of_agreeBelow fun n => (hnested n).expr.trans (agreeBelow_parsers n).expr.symm,
        eq_of_agreeBelow fun n => (hnested n).query.trans (agreeBelow_parsers n).query.symm⟩
    obtain ⟨expr, query⟩ := nested
    rw [Nested.mk.injEq]
    exact hsame
  · rintro rfl
    have hparsers := agreeBelow_parsers
    refine ⟨eq_of_agreeBelow fun n => ?_, eq_of_agreeBelow fun n => ?_⟩
    · have hstep : AgreeBelow (n + 1) (disjunction ⟨parseExpr, parseQuery⟩)
        (disjunction (nestedAt n)) := inferInstance
      exact ((agreeBelow_parsers (n + 1)).expr.trans hstep.symm).mono (Nat.le_succ n)
    · have hstep : AgreeBelow (n + 1) (query ⟨parseExpr, parseQuery⟩) (query (nestedAt n)) :=
        inferInstance
      exact ((agreeBelow_parsers (n + 1)).query.trans hstep.symm).mono (Nat.le_succ n)

/-! ### Loops of the grammar -/

/-- One round of reading a path. -/
def pathRound (mark : List Char) (table : String) (again : List String → Parser Expr)
    (parts : List String) : Parser Expr := do
  if (← current) != '.' then
    return .column (.qualified table (String.intercalate "." parts))
  advance 1
  if (← current) == '*' then
    advance 1
    if parts.isEmpty then return .qualifiedWildcard table
    failAt mark .invalidWildcard
  let part ← name
  again (parts ++ [part])

theorem columnPath_determined (mark : List Char) (table : String) :
    Determines (pathRound mark table)
      (fun parts => do columnPath mark table (← get).length parts) := by
  refine Contracts.determines (columnPath mark table) (fun hagree parts => ?_) (fun _ => rfl)
    fun _ => .of_run_nil rfl
  refine ⟨fun {cs} hcs => run_bind_congr fun c left hrun => ?_⟩
  cases hrun
  by_cases hdot : front cs = '.'
  · rw [if_neg (by simpa using hdot), if_neg (by simpa using hdot)]
    exact run_advance_bind_congr (by rw [hdot]; decide) hcs inferInstance
  · rw [if_pos (by simpa using hdot), if_pos (by simpa using hdot)]

/-- One round of reading signs. -/
def signRound (nested : Nested) (again : Unit → Parser Expr) (_ : Unit) : Parser Expr := do
  skipBlanks
  match ← current with
  | '-' =>
    advance 1
    return .signed true (← again ())
  | '+' =>
    advance 1
    return .signed false (← again ())
  | _ => primary nested

theorem unary_determined (nested : Nested) :
    Determines (signRound nested) (fun _ => unary nested) := by
  refine Contracts.determines (fun budget _ => signedPrimary nested budget)
    (fun hagree _ => ?_)
    (fun _ => rfl) fun _ => .of_run_nil rfl
  refine @AgreeBelow.bind _ _ _ _ _ _ _ _ _ fun _ =>
    ⟨fun {cs} hcs => run_bind_congr fun c left hrun => ?_⟩
  cases hrun
  split
  · exact run_advance_bind_congr (by rw [‹front cs = '-'›]; decide) hcs inferInstance
  · exact run_advance_bind_congr (by rw [‹front cs = '+'›]; decide) hcs inferInstance
  · rfl

/-- One round of reading negations. -/
def negationRound (nested : Nested) (again : Unit → Parser Expr) (_ : Unit) :
    Parser Expr := do
  if ← consume .not then
    return .not (← again ())
  predicate nested

theorem negation_determined (nested : Nested) :
    Determines (negationRound nested) (fun _ => negation nested) := by
  refine Contracts.determines (fun budget _ => negated nested budget) (fun hagree _ => ?_)
    (fun _ => rfl) fun _ => .of_run_nil ?_
  · exact .behind_consume inferInstance (.refl _)
  · rw [negationRound, run_bind_ok (run_consume_nil .not), if_neg Bool.false_ne_true]
    rfl

/-- **Every recursion of the parsers ends.**  Each of them, written without a depth or a
budget, has exactly one solution, and this is the parser. -/
structure RecursionsEnd : Prop where
  parentheses : ∀ nested : Nested,
    (nested.expr = disjunction nested ∧ nested.query = query nested) ↔
    nested = ⟨parseExpr, parseQuery⟩
  signs : ∀ nested : Nested, Determines (signRound nested) (fun _ => unary nested)
  factors : ∀ (nested : Nested) [nested.Shrinking],
    Determines (extendRound (arithmeticStep (!·.isAdditive) (unary nested)))
      (fun e =>
        do extendWhile (arithmeticStep (!·.isAdditive) (unary nested)) (← get).length e)
  terms : ∀ (nested : Nested) [nested.Shrinking],
    Determines (extendRound (arithmeticStep (·.isAdditive) (product nested)))
      (fun e =>
        do extendWhile (arithmeticStep (·.isAdditive) (product nested)) (← get).length e)
  negations : ∀ nested : Nested, Determines (negationRound nested) (fun _ => negation nested)
  conjuncts : ∀ (nested : Nested) [nested.Shrinking],
    Determines (extendRound (logicalStep .and .and (negation nested)))
      (fun e => do extendWhile (logicalStep .and .and (negation nested)) (← get).length e)
  disjuncts : ∀ (nested : Nested) [nested.Shrinking],
    Determines (extendRound (logicalStep .or .or (conjunction nested)))
      (fun e => do extendWhile (logicalStep .or .or (conjunction nested)) (← get).length e)
  paths : ∀ (mark : List Char) (table : String), Determines (pathRound mark table)
    (fun parts => do columnPath mark table (← get).length parts)
  joins : ∀ (nested : Nested) [nested.Shrinking], Determines (manyRound (join? nested))
    (fun _ => do many (join? nested) (← get).length)
  branches : ∀ (nested : Nested) [nested.Shrinking],
    Determines (manyRound (furtherBranch nested))
    (fun _ => do many (furtherBranch nested) (← get).length)
  items : ∀ {α : Type} (item : Parser α) [Shrinks item], Determines (itemRound item)
    (fun _ => do moreItems item (← get).length)
  names : Determines nameRound (fun _ => do moreNames (← get).length)
  semicolons : Determines semicolonRound (fun _ => do skipSemicolons (← get).length)

theorem recursionsEnd : RecursionsEnd where
  parentheses := nested_determined
  signs := unary_determined
  factors _ _ := extendWhile_determined _
  terms _ _ := extendWhile_determined _
  negations := negation_determined
  conjuncts _ _ := extendWhile_determined _
  disjuncts _ _ := extendWhile_determined _
  paths := columnPath_determined
  joins _ _ := many_determined _
  branches _ _ := many_determined _
  items item _ := moreItems_determined item
  names := moreNames_determined
  semicolons := skipSemicolons_determined

end DocQuery.Sql.Grammar
