import DocQuery.Proofs.Sql.FollowingQuery
import DocQuery.Proofs.Sql.RoundTrip

/-!
# Chains of one operator

Texts of operands with one logical operator between them, and no parentheses around them,
are read as the chain of the operands, which leans to the left.

* `operand_of_joined` — a level that gives no chain has read a single operand
* `ReadsUpTo` — a text is read up to where another one begins
* `run_extendWhile_further` — the loop over the operands of a chain
* `run_parseExpr_chain_and`, `run_parseExpr_chain_or` — chains are read

### What is load-bearing

An operand is only known by what is read from its own text.  In a chain another text
follows, and the operand must not go on with it (`readsUpTo_negation`): the keyword of the
chain belongs to no test, and what stands before it has ended.
-/

namespace DocQuery.Sql

open Scan Text

namespace Grammar

variable {nested : Nested} {k : Keyword} {join : Expr → Expr → Expr} {operand : Parser Expr}
  {e : Expr} {text cs left rest : List Char} {n : Nat}

/-! ### Levels that give no chain -/

/-- A step that finds an operand gives a chain. -/
theorem isLogical_of_logicalStep (hjoin : ∀ l r, (join l r).isLogical = true) {a next : Expr}
    (h : (logicalStep k join operand a).run cs = .ok (some next, left)) :
    next.isLogical = true := by
  obtain ⟨found, middle, -, h⟩ := exists_of_run_bind h
  cases found with
  | false => cases h
  | true =>
    obtain ⟨right, last, -, h⟩ := exists_of_run_bind h
    cases h
    exact hjoin a right

/-- A loop that begins with a chain ends with one. -/
theorem isLogical_of_extendWhile (hjoin : ∀ l r, (join l r).isLogical = true) {budget : Nat}
    {a : Expr} (ha : a.isLogical = true)
    (h : (extendWhile (logicalStep k join operand) budget a).run cs = .ok (e, left)) :
    e.isLogical = true := by
  induction budget generalizing a cs with
  | zero =>
    cases h
    exact ha
  | succ budget ih =>
    obtain ⟨found, middle, hstep, h⟩ := exists_of_run_bind h
    cases found with
    | none =>
      cases h
      exact ha
    | some next => exact ih (isLogical_of_logicalStep hjoin hstep) h

/-- **A level that gives no chain has read a single operand**, and nothing but blanks
behind it. -/
theorem operand_of_joined (hjoin : ∀ l r, (join l r).isLogical = true)
    (h : (joined k join operand).run cs = .ok (e, left)) (he : e.isLogical = false) :
    ∃ middle, operand.run cs = .ok (e, middle) ∧ dropBlanks left = dropBlanks middle := by
  obtain ⟨first, middle, hfirst, h⟩ := exists_of_run_bind h
  rw [run_bind_ok run_get] at h
  cases hbudget : middle.length with
  | zero =>
    rw [hbudget] at h
    cases h
    exact ⟨left, hfirst, rfl⟩
  | succ budget =>
    rw [hbudget] at h
    obtain ⟨found, last, hstep, h⟩ := exists_of_run_bind h
    cases found with
    | some next =>
      have hlogical := isLogical_of_extendWhile hjoin (isLogical_of_logicalStep hjoin hstep) h
      rw [he] at hlogical
      cases hlogical
    | none =>
      cases h
      refine ⟨middle, hfirst, ?_⟩
      obtain ⟨found, behind, hfound, hstep⟩ := exists_of_run_bind hstep
      cases found with
      | true =>
        obtain ⟨_, _, -, hstep⟩ := exists_of_run_bind hstep
        cases hstep
      | false =>
        cases hstep
        rcases run_consume_cases hfound with ⟨htrue, -⟩ | ⟨-, -, hleft⟩
        · cases htrue
        · rw [hleft, dropBlanks_dropBlanks]

/-! ### Operands of a chain -/

/-- **A text is read up to where `rest` begins**, whatever blanks there are in front of
either, if there are fewer than `n` characters. -/
def ReadsUpTo (n : Nat) (p : Parser Expr) (text : List Char) (e : Expr)
    (rest : List Char) : Prop :=
  ∀ cs, dropBlanks cs = dropBlanks (text ++ rest) → cs.length < n →
    ∃ left, p.run cs = .ok (e, left) ∧ dropBlanks left = dropBlanks rest

/-- The texts of further operands, each behind the keyword. -/
def furtherText (k : Keyword) (texts : List (List Char)) : List Char :=
  texts.flatMap fun text => ' ' :: (k.text.toList ++ ' ' :: text)

theorem furtherText_cons (k : Keyword) (text : List Char) (texts : List (List Char)) :
    furtherText k (text :: texts) =
      ' ' :: (k.text.toList ++ ' ' :: (text ++ furtherText k texts)) := by
  simp [furtherText]

/-- Where an operand of a chain ends, the keyword of the chain begins, or there is nothing. -/
theorem dropBlanks_furtherText (k : Keyword) (texts : List (List Char)) :
    dropBlanks (furtherText k texts) = [] ∨
      ∃ more, dropBlanks (furtherText k texts) = k.text.toList ++ ' ' :: more := by
  cases texts with
  | nil => exact .inl rfl
  | cons text texts =>
    refine .inr ⟨text ++ furtherText k texts, ?_⟩
    rw [furtherText_cons, dropBlanks_space, dropBlanks_keyword]

theorem leadingWord_keyword_space (k : Keyword) (more : List Char) :
    (leadingWord (k.text.toList ++ ' ' :: more)).map Char.toUpper = k.head :=
  leadingWord_keyword k (by rw [front_cons]; decide)

theorem match?_furtherText {other : Keyword} (hother : k.head ≠ other.head)
    (texts : List (List Char)) :
    other.word.match? (dropBlanks (furtherText k texts)) = none := by
  rcases dropBlanks_furtherText k texts with hnil | ⟨more, hmore⟩
  · rw [hnil]
    exact keyword_match?_nil other
  · rw [hmore]
    refine keyword_match?_eq_none ?_
    rw [leadingWord_keyword_space]
    exact hother

/-- What is read before a chain goes on does not reach into it. -/
theorem cut_furtherText (hk : k ∈ [Keyword.and, .or]) (texts : List (List Char)) :
    Cut (dropBlanks (furtherText k texts)) := by
  rcases dropBlanks_furtherText k texts with hnil | ⟨more, hmore⟩
  · rw [hnil]
    exact cut_nil
  · rw [hmore]
    refine ⟨dropBlanks_keyword k _, front_keyword_notMem k _ (by decide),
      fun later hlater => ?_⟩
    have hwords : ∀ k ∈ [Keyword.and, .or], ∀ later ∈ laterWords,
        k.head ≠ later.toList := by decide
    rw [leadingWord_keyword_space]
    exact hwords k hk later hlater

theorem testEnd_furtherText (hk : k ∈ [Keyword.and, .or]) (texts : List (List Char)) :
    TestEnd (dropBlanks (furtherText k texts)) := by
  have hheads : ∀ k ∈ [Keyword.and, .or], ∀ test ∈ testKeywords,
      k.head ≠ test.head := by decide
  exact fun test htest => match?_furtherText (hheads k hk test htest) texts

/-- **An operand of a chain is read up to where the chain goes on.** -/
theorem readsUpTo_negation (h : parseExpr.run text = .ok (e, [])) (he : e.isLogical = false)
    (hk : k ∈ [Keyword.and, .or]) (texts : List (List Char)) :
    ReadsUpTo (n + 1) (negation (nestedAt n)) text e (furtherText k texts) := by
  rw [parseExpr, anyDepth, run_bind_ok run_get] at h
  obtain ⟨behind, hconjunction, hbehind⟩ := operand_of_joined (fun _ _ => rfl) h he
  obtain ⟨middle, hnegation, hmiddle⟩ := operand_of_joined (fun _ _ => rfl) hconjunction he
  have hblank : dropBlanks middle = [] := (hbehind.trans hmiddle).symm
  intro cs hcs hlength
  have hend : furtherText k texts = [] ∨
      isDelimiter (front (furtherText k texts)) = true := by
    cases texts with
    | nil => exact .inl rfl
    | cons next texts =>
      rw [furtherText_cons]
      exact .inr (by decide : isDelimiter ' ' = true)
  have hahead : Ahead (dropBlanks (furtherText k texts)) text cs :=
    (Respaced.append_end text rfl hend).ahead.congr hcs.symm
  have hfollows : FollowsAt False (Ahead (dropBlanks (furtherText k texts)))
      (negation (nestedAt (text.length + 1))) (negation (nestedAt n)) text cs :=
    follows_negation (cut_furtherText hk texts) (.inr (testEnd_furtherText hk texts))
      (following_nestedAt (cut_furtherText hk texts) (text.length + 1) n) text cs
        hahead hlength
  obtain ⟨left, hrun, hleft⟩ := (hfollows e middle hnegation).resolve_left fun hno => hno.1
  refine ⟨left, hrun, ?_⟩
  cases hleft with
  | ended _ hds => exact hds
  | same hsame =>
    rw [hblank] at hsame
    cases hsame

/-- A conjunction of one operand, before a chain of disjunctions goes on. -/
theorem readsUpTo_conjunction (h : parseExpr.run text = .ok (e, []))
    (he : e.isLogical = false) (texts : List (List Char)) :
    ReadsUpTo (n + 1) (conjunction (nestedAt n)) text e (furtherText .or texts) := by
  intro cs hcs hlength
  obtain ⟨left, hrun, hleft⟩ := readsUpTo_negation h he (by decide) texts cs hcs hlength
  have hand : Keyword.and.word.match? (dropBlanks left) = none := by
    rw [hleft]
    exact match?_furtherText (by decide) texts
  have hstep : (logicalStep .and .and (negation (nestedAt n)) e).run left =
      .ok (none, dropBlanks left) := by
    rw [logicalStep, run_bind_ok (run_consume_of_none hand)]
    rfl
  rw [conjunction, run_bind_ok hrun, run_bind_ok run_get]
  cases left.length with
  | zero => exact ⟨left, rfl, hleft⟩
  | succ budget =>
    refine ⟨dropBlanks left, ?_, by rw [dropBlanks_dropBlanks, hleft]⟩
    rw [extendWhile, run_bind_ok hstep]
    rfl

/-! ### Reading a chain -/

/-- An operand with its text: all of the text is read as the operand, which is no chain
itself. -/
structure IsOperandText (text : List Char) (e : Expr) : Prop where
  read : parseExpr.run text = .ok (e, [])
  isLogical_eq : e.isLogical = false

section Chain

variable [Shrinks operand] {operands : List (List Char × Expr)}

/-- **The loop over the further operands of a chain** takes up all of them.  The induction
is on the operands; each is behind its keyword, so the budget lasts. -/
theorem run_extendWhile_further {first : Expr} {budget : Nat}
    (hread : ∀ o ∈ operands, ∀ texts, ReadsUpTo n operand o.1 o.2 (furtherText k texts))
    (hcs : dropBlanks cs = dropBlanks (furtherText k (operands.map Prod.fst)))
    (hlength : cs.length < n) (hbudget : cs.length ≤ budget) :
    (extendWhile (logicalStep k join operand) budget first).run cs =
      .ok ((operands.map Prod.snd).foldl join first, []) := by
  induction operands generalizing first budget cs with
  | nil =>
    have hblank : dropBlanks cs = [] := hcs
    cases budget with
    | zero =>
      rw [List.length_eq_zero_iff.mp (Nat.le_zero.mp hbudget)]
      rfl
    | succ budget =>
      have hnone : k.word.match? (dropBlanks cs) = none := by rw [hblank, keyword_match?_nil]
      rw [extendWhile, logicalStep, bind_assoc,
        run_bind_ok (run_consume_of_none hnone), hblank]
      rfl
  | cons o others ih =>
    rw [List.map_cons, furtherText_cons, dropBlanks_space, dropBlanks_keyword] at hcs
    have hmatch : k.word.match? (dropBlanks cs) =
        some (' ' :: (o.1 ++ furtherText k (others.map Prod.fst))) := by
      rw [hcs]
      exact keyword_match?_text k (keyword_allows_space k _)
    have hshorter := length_lt_of_consume (run_consume_of_match hmatch)
    obtain ⟨left, hrun, hleft⟩ := hread o List.mem_cons_self (others.map Prod.fst)
      (' ' :: (o.1 ++ furtherText k (others.map Prod.fst))) (dropBlanks_space _) (by omega)
    have hlast := Shrinks.length_le hrun
    obtain ⟨budget, rfl⟩ : ∃ more, budget = more + 1 := ⟨budget - 1, by omega⟩
    have hstep : (logicalStep k join operand first).run cs =
        .ok (some (join first o.2), left) := by
      rw [logicalStep, run_bind_ok (run_consume_of_match hmatch), if_pos rfl,
        run_bind_ok hrun]
      rfl
    rw [extendWhile, run_bind_ok hstep]
    exact ih (fun o ho => hread o (List.mem_cons_of_mem _ ho)) hleft (by omega) (by omega)

/-- A level reads a chain of its own operator to the end. -/
theorem run_joined_chain {first : List Char × Expr}
    (hread : ∀ o ∈ first :: operands, ∀ texts,
      ReadsUpTo n operand o.1 o.2 (furtherText k texts))
    (hlength : (first.1 ++ furtherText k (operands.map Prod.fst)).length < n) :
    (joined k join operand).run (first.1 ++ furtherText k (operands.map Prod.fst)) =
      .ok ((operands.map Prod.snd).foldl join first.2, []) := by
  obtain ⟨left, hrun, hleft⟩ := hread first List.mem_cons_self _ _ rfl hlength
  have hshorter := Shrinks.length_le hrun
  rw [joined, run_bind_ok hrun, run_bind_ok run_get]
  exact run_extendWhile_further (fun o ho => hread o (List.mem_cons_of_mem _ ho)) hleft
    (by omega)
    (Nat.le_refl _)

end Chain

end Grammar

open Grammar

section ParseChain

variable (first : List Char × Expr) (operands : List (List Char × Expr))

/-- **A chain of conjunctions is read.** -/
theorem run_parseExpr_chain_and (h : ∀ o ∈ first :: operands, IsOperandText o.1 o.2) :
    parseExpr.run (first.1 ++ furtherText .and (operands.map Prod.fst)) =
      .ok ((operands.map Prod.snd).foldl .and first.2, []) := by
  have hread : ∀ n, ∀ o ∈ first :: operands, ∀ texts,
    ReadsUpTo (n + 1) (negation (nestedAt n))
      o.1 o.2 (furtherText .and texts) :=
    fun n o ho texts =>
      readsUpTo_negation (h o ho).read (h o ho).isLogical_eq (by decide) texts
  rw [parseExpr, anyDepth, run_bind_ok run_get, disjunction]
  exact run_bind_ok (run_joined_chain (hread _) (Nat.lt_succ_of_lt (Nat.lt_succ_self _)))

/-- **A chain of disjunctions is read.** -/
theorem run_parseExpr_chain_or (h : ∀ o ∈ first :: operands, IsOperandText o.1 o.2) :
    parseExpr.run (first.1 ++ furtherText .or (operands.map Prod.fst)) =
      .ok ((operands.map Prod.snd).foldl .or first.2, []) := by
  have hread : ∀ n, ∀ o ∈ first :: operands, ∀ texts,
    ReadsUpTo (n + 1) (conjunction (nestedAt n))
      o.1 o.2 (furtherText .or texts) :=
    fun n o ho texts => readsUpTo_conjunction (h o ho).read (h o ho).isLogical_eq texts
  rw [parseExpr, anyDepth, run_bind_ok run_get]
  exact run_joined_chain (hread _) (Nat.lt_succ_of_lt (Nat.lt_succ_self _))

end ParseChain

end DocQuery.Sql
