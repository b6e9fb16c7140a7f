import DocQuery.Proofs.Scan.Shrinking
import DocQuery.Proofs.Sql.Predicates
import DocQuery.Sql.Grammar.Query

/-!
# Expressions and queries are read forward

Every parser of the grammar only moves forward, given that the parsers for what stands
inside parentheses do.  Those are handed down from depth to depth, and at depth zero they
read nothing.

* `Nested.Shrinking` — the parsers for what stands inside parentheses only move forward
* `wordExpr_eq`, `select_eq` — two parsers, cut where one part hands over to the next
* `shrinking_nestedAt` — the parsers of every depth only move forward
* `Advances` — each further operand, join or branch takes up at least its keyword

### What is load-bearing

That a parser shrinks is found by searching through the way it is written, and the search
looks at every continuation.  The parsers with many of them are cut into parts first.
-/

set_option synthInstance.maxSize 600

namespace DocQuery.Sql.Grammar

open Scan Text

/-- The parsers for what stands inside parentheses only move forward. -/
class Nested.Shrinking (nested : Nested) : Prop where
  expr : Shrinks nested.expr
  query : Shrinks nested.query

attribute [instance] Nested.Shrinking.expr Nested.Shrinking.query

/-! ### Literals and operators -/

instance : Shrinks stringLiteral := by
  unfold stringLiteral
  infer_instance

instance : Shrinks fractionPart := by
  unfold fractionPart
  infer_instance

instance : Shrinks exponentPart := by
  unfold exponentPart
  infer_instance

instance : Shrinks numberLiteral := by
  unfold numberLiteral
  refine .bind inferInstance fun _ => .bind inferInstance fun mark =>
    .bind inferInstance fun whole =>
    .bind inferInstance fun fraction => .bind inferInstance fun exponent => ?_
  dsimp only
  split
  · infer_instance
  · split <;> infer_instance

instance (timestamp : Bool) : Shrinks (datedLiteral timestamp) := by
  unfold datedLiteral
  refine .bind inferInstance fun _ => .bind inferInstance fun mark =>
    .bind inferInstance fun text => ?_
  dsimp only
  split <;> split <;> infer_instance

instance : Shrinks comparison := by
  unfold comparison
  refine .bind inferInstance fun _ => .bind inferInstance fun mark => ?_
  dsimp only
  split <;> infer_instance

/-! ### Expressions -/

/-- What a bare word stands for: a constant, or what comes behind it decides. -/
theorem wordExpr_eq (nested : Nested) (mark : List Char) (word : String) :
    wordExpr nested mark word =
      if sameWord word "TRUE" then pure (.literal (.bool true))
      else if sameWord word "FALSE" then pure (.literal (.bool false))
      else if sameWord word "NULL" then pure (.literal .null)
      else if isReserved word then failAt mark (.unexpectedKeyword (upper word))
      else (do
        skipBlanks
        afterWord nested mark word (← current)) := by
  unfold wordExpr
  cases isReserved word <;> rfl

section Expressions

variable (nested : Nested) [nested.Shrinking]

instance (name : String) : Shrinks (callArgs nested name) := by
  unfold callArgs
  infer_instance

instance : Shrinks (parenthesis nested) := by
  unfold parenthesis
  infer_instance

instance Shrinks.columnPath (mark : List Char) (table : String) (budget : Nat)
    (parts : List String) : Shrinks (columnPath mark table budget parts) := by
  induction budget generalizing parts with
  | zero => exact inferInstanceAs (Shrinks (pure _))
  | succ budget ih =>
    unfold Grammar.columnPath
    dsimp only
    infer_instance

instance (mark : List Char) (word : String) (c : Char) :
    Shrinks (afterWord nested mark word c) := by
  unfold afterWord
  split <;> infer_instance

instance (mark : List Char) (word : String) : Shrinks (wordExpr nested mark word) := by
  rw [wordExpr_eq]
  infer_instance

instance : Shrinks (primary nested) := by
  unfold primary
  refine .bind inferInstance fun _ => .bind inferInstance fun mark => ?_
  split
  all_goals try infer_instance
  split
  · infer_instance
  · refine .bind inferInstance fun word => ?_
    cases word <;> infer_instance

instance Shrinks.signedPrimary (budget : Nat) : Shrinks (signedPrimary nested budget) := by
  induction budget with
  | zero => exact inferInstanceAs (Shrinks (primary nested))
  | succ budget ih =>
    unfold Grammar.signedPrimary
    refine .bind inferInstance fun _ => .bind inferInstance fun c => ?_
    split <;> infer_instance

instance : Shrinks (unary nested) := by
  unfold unary
  infer_instance

instance (accepts : Arithmetic → Bool) (operand : Parser Expr) [Shrinks operand]
    (left : Expr) : Shrinks (arithmeticStep accepts operand left) := by
  unfold arithmeticStep
  refine .bind inferInstance fun _ => .bind inferInstance fun c => ?_
  split <;> infer_instance

instance : Shrinks (product nested) := by
  unfold product
  infer_instance

instance : Shrinks (sum nested) := by
  unfold sum
  infer_instance

instance : Shrinks (members nested) := by
  unfold members
  infer_instance

instance (negated : Bool) (operand : Expr) : Shrinks (bounds nested negated operand) := by
  unfold bounds
  infer_instance

instance Shrinks.firstKeyword {α : Type} (body : Keyword → Parser α) (other : Parser α)
    (ks : List Keyword) [∀ k, Shrinks (body k)] [Shrinks other] :
    Shrinks (firstKeyword body other ks) := by
  induction ks with
  | nil => exact inferInstanceAs (Shrinks other)
  | cons k ks ih =>
    unfold Grammar.firstKeyword
    infer_instance

instance (left : Expr) (k : Keyword) : Shrinks (testBody nested left k) := by
  unfold testBody
  split <;> infer_instance

instance (left : Expr) (op : Option Comparison) : Shrinks (testAfter nested left op) := by
  cases op <;> unfold testAfter <;> infer_instance

instance : Shrinks (predicate nested) := by
  rw [predicate_eq]
  infer_instance

instance Shrinks.negated (budget : Nat) : Shrinks (negated nested budget) := by
  induction budget with
  | zero => exact inferInstanceAs (Shrinks (predicate nested))
  | succ budget ih =>
    unfold Grammar.negated
    infer_instance

instance : Shrinks (negation nested) := by
  unfold negation
  infer_instance

instance (k : Keyword) (join : Expr → Expr → Expr) (operand : Parser Expr) [Shrinks operand]
    (left : Expr) : Shrinks (logicalStep k join operand left) := by
  unfold logicalStep
  infer_instance

instance : Shrinks (conjunction nested) := by
  unfold conjunction
  infer_instance

instance : Shrinks (disjunction nested) := by
  unfold disjunction
  infer_instance

end Expressions

/-! ### Queries -/

/-- The keyword before the selected items: whether only different rows are asked for. -/
def quantifier : Parser Bool := do
  let distinct ← consume .distinct
  if !distinct then discard (consume .all)
  return distinct

/-- There is no second source behind a comma. -/
def singleSource : Parser Unit := do
  skipBlanks
  if (← current) == ',' then
    let mark ← get
    advance 1
    failAt mark .multipleTables

/-- The clauses of a selection behind its source. -/
def clauses (nested : Nested) (distinct : Bool) (items : List SelectItem) (source : Source) :
    Parser Select := do
  let joins ← many (join? nested) (← get).length
  let filter ← after .whereKw nested.expr
  let groupBy ← after .groupBy (commaList nested.expr)
  let having ← after .having nested.expr
  let orderBy ← after .orderBy (commaList (orderItem nested))
  let page ← paging
  return {
    distinct, items, source, joins, filter, groupBy := groupBy.getD [], having
    orderBy := orderBy.getD [], limit := page.1, offset := page.2 }

/-- A selection is its items, its source and its clauses. -/
theorem select_eq (nested : Nested) : select nested = (do
    expect .select
    let distinct ← quantifier
    let items ← commaList (selectItem nested)
    expect .fromKw
    let source ← source nested
    singleSource
    clauses nested distinct items source) := by
  have hquantifier : ∀ {α : Type} (k : Bool → Parser α), (quantifier >>= k) = (do
      let distinct ← consume .distinct
      if !distinct then
        discard (consume .all)
        k distinct
      else k distinct) := by
    intro α k
    rw [quantifier, bind_assoc]
    refine bind_congr fun distinct => ?_
    cases distinct <;> simp
  have hsingle : ∀ {α : Type} (k : Parser α), (singleSource >>= fun _ => k) = (do
      skipBlanks
      if (← current) == ',' then
        let mark ← get
        advance 1
        failAt mark .multipleTables
        k
      else k) := by
    intro α k
    simp only [singleSource, bind_assoc]
    refine bind_congr fun _ => bind_congr fun c => ?_
    split <;> simp
  rw [select]
  simp only [hquantifier, hsingle]
  refine bind_congr fun _ => bind_congr fun distinct => ?_
  cases distinct <;> rfl

instance : Shrinks paging := by
  unfold paging
  refine .bind inferInstance fun page => ?_
  dsimp only
  infer_instance

instance : Shrinks table := by
  unfold table
  infer_instance

instance Shrinks.oneOf {α : Type} (choices : List (Keyword × α)) :
    Shrinks (oneOf choices) := by
  induction choices with
  | nil => exact inferInstanceAs (Shrinks (pure none))
  | cons choice others ih =>
    unfold Grammar.oneOf
    infer_instance

instance {α : Type} (k : Keyword) (p : Parser α) [Shrinks p] : Shrinks (after k p) := by
  unfold after
  infer_instance

instance : Shrinks setOperator := by
  unfold setOperator
  infer_instance

instance : Shrinks quantifier := by
  unfold quantifier
  infer_instance

instance : Shrinks singleSource := by
  unfold singleSource
  infer_instance

section Queries

variable (nested : Nested) [nested.Shrinking]

instance : Shrinks (selectItem nested) := by
  unfold selectItem
  infer_instance

instance : Shrinks (orderItem nested) := by
  unfold orderItem
  infer_instance

instance : Shrinks (source nested) := by
  unfold source
  infer_instance

instance : Shrinks (join? nested) := by
  unfold join?
  refine .bind inferInstance fun kind => ?_
  cases kind <;> infer_instance

instance (distinct : Bool) (items : List SelectItem) (source : Source) :
    Shrinks (clauses nested distinct items source) := by
  unfold clauses
  infer_instance

instance : Shrinks (select nested) := by
  rw [select_eq]
  infer_instance

instance : Shrinks (branch nested) := by
  unfold branch
  infer_instance

instance : Shrinks (furtherBranch nested) := by
  unfold furtherBranch
  refine .bind inferInstance fun op => ?_
  cases op <;> infer_instance

instance : Shrinks (query nested) := by
  unfold query
  refine .bind inferInstance fun first => .bind inferInstance fun mark =>
    .bind inferInstance fun others => ?_
  cases others <;> infer_instance

end Queries

/-- **The parsers of every depth only move forward.** -/
instance shrinking_nestedAt (depth : Nat) : (nestedAt depth).Shrinking := by
  induction depth with
  | zero => exact ⟨inferInstanceAs (Shrinks (do failAt (← get) .unexpectedEnd)),
      inferInstanceAs (Shrinks (do failAt (← get) .unexpectedEnd))⟩
  | succ depth ih => exact ⟨inferInstanceAs (Shrinks (disjunction (nestedAt depth))),
      inferInstanceAs (Shrinks (query (nestedAt depth)))⟩

/-! ### Steps of loops read something -/

instance (accepts : Arithmetic → Bool) (operand : Parser Expr) [Shrinks operand]
    (left : Expr) : Advances (arithmeticStep accepts operand left) where
  run_nil := rfl
  length_lt {cs e behind} h := by
    rw [arithmeticStep, run_bind_ok run_skipBlanks, run_bind_ok run_current] at h
    cases hop : Arithmetic.ofChar? (front (dropBlanks cs)) with
    | none =>
      rw [hop] at h
      cases h
    | some op =>
      simp only [hop] at h
      split at h
      · rw [run_bind_ok (run_advance 1)] at h
        obtain ⟨right, middle, hright, h⟩ := exists_of_run_bind h
        cases h
        -- the operator is a character, as it is not what stands for the end
        cases hcs : dropBlanks cs with
        | nil =>
          rw [hcs] at hop
          cases hop
        | cons c after =>
          rw [hcs] at hright
          have hread := Shrinks.length_le hright
          have hskipped := length_dropBlanks_le cs
          rw [hcs, List.length_cons] at hskipped
          exact Nat.lt_of_le_of_lt hread hskipped
      · cases h

instance (k : Keyword) (join : Expr → Expr → Expr) (operand : Parser Expr) [Shrinks operand]
    (left : Expr) : Advances (logicalStep k join operand left) where
  run_nil := run_bind_ok (run_consume_nil k)
  length_lt h := by
    obtain ⟨found, middle, hfound, h⟩ := exists_of_run_bind h
    cases found with
    | false => cases h
    | true =>
      obtain ⟨right, last, hright, h⟩ := exists_of_run_bind h
      cases h
      exact Nat.lt_of_le_of_lt (Shrinks.length_le hright) (length_lt_of_consume hfound)

instance Advances.oneOf {α : Type} (choices : List (Keyword × α)) :
    Advances (oneOf choices) where
  run_nil := by
    induction choices with
    | nil => rfl
    | cons choice others ih =>
      exact (run_bind_ok (run_consume_nil choice.1)).trans ih
  length_lt {cs a left} h := by
    induction choices generalizing cs with
    | nil => cases h
    | cons choice others ih =>
      obtain ⟨found, middle, hfound, h⟩ := exists_of_run_bind h
      cases found with
      | false => exact Nat.lt_of_lt_of_le (ih h) (Shrinks.length_le hfound)
      | true =>
        cases h
        exact length_lt_of_consume hfound

instance : Advances setOperator where
  run_nil := by
    rw [setOperator, run_bind_ok (run_consume_nil .union), if_neg Bool.false_ne_true]
    exact Advances.run_nil
  length_lt h := by
    obtain ⟨found, middle, hfound, h⟩ := exists_of_run_bind h
    cases found with
    | false =>
      rw [if_neg Bool.false_ne_true] at h
      exact Nat.lt_of_lt_of_le (Advances.length_lt h) (Shrinks.length_le hfound)
    | true =>
      rw [if_pos rfl] at h
      exact Nat.lt_of_le_of_lt (Shrinks.length_le h) (length_lt_of_consume hfound)

/-- What follows a found item only moves forward. -/
theorem Advances.bind {α β : Type} {p : Parser (Option α)} [Advances p]
    {f : Option α → Parser (Option β)}
    (hnone : f none = pure none) [∀ a, Shrinks (f (some a))] : Advances (p >>= f) where
  run_nil := by
    rw [run_bind_ok Advances.run_nil, hnone]
    rfl
  length_lt h := by
    obtain ⟨found, middle, hfound, h⟩ := exists_of_run_bind h
    cases found with
    | none =>
      rw [hnone] at h
      cases h
    | some a => exact Nat.lt_of_le_of_lt (Shrinks.length_le h) (Advances.length_lt hfound)

instance (nested : Nested) [nested.Shrinking] : Advances (join? nested) := by
  unfold join?
  exact Advances.bind rfl

instance (nested : Nested) [nested.Shrinking] : Advances (furtherBranch nested) := by
  unfold furtherBranch
  exact Advances.bind rfl

end DocQuery.Sql.Grammar
