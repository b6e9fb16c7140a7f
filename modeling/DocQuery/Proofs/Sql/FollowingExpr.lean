import DocQuery.Proofs.Scan.Following
import DocQuery.Proofs.Sql.Shrinking

/-!
# Expressions in respaced texts

An expression that is read from a text is read from every text that differs from it in its
blanks, also if that text goes on behind its end.

* `followsAt_numberLiteral`, `follows_comparison`, … — literals and operators
* `ExprEnd`, `TestEnd` — what may follow an expression, and a test in it
* `Nested.Following` — the parsers inside parentheses
* `follows_primary`, `follows_sum`, `follows_predicate`, `follows_disjunction` — the levels

### What is load-bearing

**Where the first text ends.**  An expression may be followed by anything that does not
begin with a keyword of a test, with `AND` or with `OR`.  A query may be followed by
nothing, as each of its clauses could begin in `rest`.  Inside parentheses neither
matters, so the parsers that are handed down are followed there without a condition.
-/

namespace DocQuery.Sql.Grammar

open Scan Text

variable {inside : Prop} {n : Nat} {rest cs ds : List Char}

/-! ### Literals -/

theorem peekAt_succ_cons (k : Nat) (c : Char) (cs : List Char) :
    peekAt (k + 1) (c :: cs) = peekAt k cs := by
  simp [peekAt]

theorem peekAt_zero (cs : List Char) : peekAt 0 cs = front cs := by
  cases cs <;> rfl

theorem followsAt_stringLiteral (hrest : Cut rest)
    (h : Respaced rest ('\'' :: cs) ('\'' :: ds)) :
    FollowsAt inside (Ahead rest) stringLiteral stringLiteral ('\'' :: cs) ('\'' :: ds) := by
  refine .step (run_bind_ok run_skipBlanks) (run_bind_ok run_skipBlanks) ?_
  exact (followsAt_quoted hrest (by decide) h).bind fun text left left' _ _ hleft =>
    .of_run rfl rfl hleft.ahead

/-- The digits behind a point. -/
theorem followsAt_fractionPart (hrest : Cut rest) (h : Respaced rest cs ds) :
    FollowsAt inside (Respaced rest) fractionPart fractionPart cs ds := by
  refine .step (run_bind_ok run_current) (run_bind_ok run_current) ?_
  refine .step (run_bind_ok (run_peek 1)) (run_bind_ok (run_peek 1)) ?_
  by_cases hcs : front cs = '.'
  · obtain ⟨cs, ds, rfl, rfl, hbehind⟩ :=
      h.exists_tails hrest (not_isIdle_of_mark (by decide)) (by decide) hcs
    rw [peekAt_succ_cons, peekAt_succ_cons, peekAt_zero, peekAt_zero, front_cons, front_cons,
      hbehind.isDigit_front hrest]
    split
    · refine .step (run_bind_ok (run_advance 1)) (run_bind_ok (run_advance 1)) ?_
      exact (followsAt_takeChars hrest (fun _ => isNameChar_of_isDigit) hbehind).bind
        fun digits left left' _ _ hleft => .of_run rfl rfl hleft
    · exact .of_run rfl rfl h
  · have hds : front ds ≠ '.' :=
      mt (h.front_eq_iff hrest (not_isIdle_of_mark (by decide))).mpr hcs
    rw [if_neg (by simp [hcs]), if_neg (by simp [hds])]
    exact .of_run rfl rfl h

/-- Whether a text goes on like an exponent behind its mark. -/
def startsExponent (cs : List Char) : Bool :=
  (front cs).isDigit || ((front cs == '+' || front cs == '-') && (peekAt 1 cs).isDigit)

/-- An exponent begins on both sides, and with the same character, or on none. -/
theorem startsExponent_cases (hrest : Cut rest) (h : Respaced rest cs ds) :
    startsExponent cs = false ∧ startsExponent ds = false ∨
      startsExponent cs = true ∧ startsExponent ds = true ∧
        ∃ c cs' ds', cs = c :: cs' ∧ ds = c :: ds' ∧ Respaced rest cs' ds' := by
  by_cases hdigit : (front cs).isDigit = true
  · have hname := isNameChar_of_isDigit hdigit
    obtain ⟨cs', ds', hcs, hds, hbehind⟩ :=
      h.exists_tails hrest (not_isIdle_of_name hname) (isMark_of_isNameChar hname) rfl
    refine .inr ⟨?_, ?_, _, cs', ds', hcs, hds, hbehind⟩
    · rw [startsExponent, hdigit, Bool.true_or]
    · rw [startsExponent, ← h.isDigit_front hrest, hdigit, Bool.true_or]
  · have hdigit' : (front ds).isDigit = false := by
      rw [← h.isDigit_front hrest]
      exact Bool.eq_false_iff.mpr hdigit
    rw [Bool.not_eq_true] at hdigit
    by_cases hsign : front cs = '+' ∨ front cs = '-'
    · -- a sign, and behind it a digit on both sides or on none
      have hmark : ¬ IsIdle (front cs) ∧ isMark (front cs) = true := by
        rcases hsign with hc | hc <;> rw [hc] <;>
          exact ⟨not_isIdle_of_mark (by decide), by decide⟩
      obtain ⟨cs', ds', hcs, hds, hbehind⟩ := h.exists_tails hrest hmark.1 hmark.2 rfl
      have hsame : startsExponent cs = startsExponent ds := by
        rw [hcs] at hdigit hsign ⊢
        rw [hds] at hdigit' ⊢
        simp only [startsExponent, front_cons, peekAt_succ_cons, peekAt_zero,
          hbehind.isDigit_front hrest]
      cases hstart : startsExponent cs with
      | false => exact .inl ⟨rfl, hsame ▸ hstart⟩
      | true => exact .inr ⟨rfl, hsame ▸ hstart, _, cs', ds', hcs, hds, hbehind⟩
    · obtain ⟨hplus, hminus⟩ := not_or.mp hsign
      have hplus' : front ds ≠ '+' :=
        mt (h.front_eq_iff hrest (not_isIdle_of_mark (by decide))).mpr hplus
      have hminus' : front ds ≠ '-' :=
        mt (h.front_eq_iff hrest (not_isIdle_of_mark (by decide))).mpr hminus
      exact .inl ⟨by simp [startsExponent, hdigit, hplus, hminus],
        by simp [startsExponent, hdigit', hplus', hminus']⟩

/-- The exponent behind its mark. -/
theorem followsAt_exponentPart (hrest : Cut rest) (h : Respaced rest cs ds) :
    FollowsAt inside (Respaced rest) exponentPart exponentPart cs ds := by
  refine .step (run_bind_ok run_current) (run_bind_ok run_current) ?_
  refine .step (run_bind_ok (run_peek 1)) (run_bind_ok (run_peek 1)) ?_
  refine .step (run_bind_ok (run_peek 2)) (run_bind_ok (run_peek 2)) ?_
  by_cases hcs : front cs = 'e' ∨ front cs = 'E'
  · have hname : isNameChar (front cs) = true := by
      rcases hcs with hc | hc <;> rw [hc] <;> decide
    obtain ⟨cs', ds', hleft, hright, hbehind⟩ :=
      h.exists_tails hrest (not_isIdle_of_name hname) (isMark_of_isNameChar hname) rfl
    have hmark : (front cs == 'e' || front cs == 'E') = true := by simpa using hcs
    generalize front cs = e at hleft hright hmark
    subst hleft hright
    simp only [front_cons, peekAt_succ_cons, peekAt_zero, hmark, Bool.true_and]
    change FollowsAt inside (Respaced rest) (if startsExponent cs' then _ else _)
      (if startsExponent ds' then _ else _) _ _
    rcases startsExponent_cases hrest hbehind with ⟨hno, hno'⟩ |
      ⟨hyes, hyes', c, cs'', ds'', rfl, rfl, hlast⟩
    · rw [hno, hno']
      exact .of_run rfl rfl h
    · rw [hyes, hyes', if_pos rfl, if_pos rfl]
      refine .step (run_bind_ok (run_advance 2)) (run_bind_ok (run_advance 2)) ?_
      exact (followsAt_takeChars hrest (fun _ => isNameChar_of_isDigit) hlast).bind
        fun digits left left' _ _ hleft => .of_run rfl rfl hleft
  · obtain ⟨hlower, hupper⟩ := not_or.mp hcs
    have hlower' : front ds ≠ 'e' :=
      mt (h.front_eq_iff hrest (not_isIdle_of_name (by decide))).mpr hlower
    have hupper' : front ds ≠ 'E' :=
      mt (h.front_eq_iff hrest (not_isIdle_of_name (by decide))).mpr hupper
    rw [if_neg (by simp [hlower, hupper]), if_neg (by simp [hlower', hupper'])]
    exact .of_run rfl rfl h

/-- **Numbers are followed.**  A number that ends in the first text does not go on in
`rest`. -/
theorem followsAt_numberLiteral (hrest : Cut rest) {c : Char} (hc : isBlank c = false)
    (h : Respaced rest (c :: cs) (c :: ds)) :
    FollowsAt inside (Ahead rest) numberLiteral numberLiteral (c :: cs) (c :: ds) := by
  refine .step (run_bind_ok run_skipBlanks) (run_bind_ok run_skipBlanks) ?_
  rw [dropBlanks_cons hc, dropBlanks_cons hc]
  refine .step (run_bind_ok run_get) (run_bind_ok run_get) ?_
  refine (followsAt_takeChars hrest (fun _ => isNameChar_of_isDigit) h).bind_live
    fun whole left left' _ _ hleft => ?_
  refine (followsAt_fractionPart hrest hleft).bind_live fun fraction left left' _ _ hleft =>
    ?_
  refine (followsAt_exponentPart hrest hleft).bind_live fun exponent left left' _ _ hleft =>
    ?_
  dsimp only
  split
  · exact .of_run rfl rfl hleft.ahead
  · split
    · exact .of_run rfl rfl hleft.ahead
    · exact .failAt _ _

/-- Dates and timestamps are followed. -/
theorem followsAt_datedLiteral (hrest : Cut rest) (timestamp : Bool)
    (h : Respaced rest ('\'' :: cs) ('\'' :: ds)) :
    FollowsAt inside (Ahead rest) (datedLiteral timestamp) (datedLiteral timestamp)
      ('\'' :: cs) ('\'' :: ds) := by
  refine .step (run_bind_ok run_skipBlanks) (run_bind_ok run_skipBlanks) ?_
  refine .step (run_bind_ok run_get) (run_bind_ok run_get) ?_
  refine (followsAt_quoted hrest (by decide) h).bind_live fun text left left' _ _ hleft => ?_
  dsimp only
  split <;> split
  · exact .of_run rfl rfl hleft.ahead
  · exact .failAt _ _
  · exact .of_run rfl rfl hleft.ahead
  · exact .failAt _ _

/-! ### Operators -/

/-- The comparison that two characters begin, with its number of characters; two equal
signs are none. -/
def symbolAt (c d : Char) : Option (Option Comparison × Nat) :=
  if c = '=' then if d = '=' then none else some (some .eq, 1)
  else if c = '<' then
    if d = '>' then some (some .ne, 2) else if d = '=' then some (some .le, 2)
    else some (some .lt, 1)
  else if c = '>' then if d = '=' then some (some .ge, 2) else some (some .gt, 1)
  else if c = '!' ∧ d = '=' then some (some .ne, 2)
  else some (none, 0)

theorem comparison_eq : comparison = (do
    skipBlanks
    let mark ← get
    match symbolAt (front mark) (peekAt 1 mark) with
    | none => do
      advance 2
      failAt mark .doubleEquals
    | some (op, width) => do
      advance width
      return op) := by
  unfold comparison
  refine bind_congr fun _ => bind_congr fun mark => ?_
  dsimp only
  generalize front mark = c
  generalize peekAt 1 mark = d
  split
  case h_9 hequal hless hgreater _ _ hbang _ _ =>
    rw [symbolAt, if_neg hequal, if_neg hless, if_neg hgreater, if_neg fun h => hbang h.1 h.2]
    rfl
  all_goals simp_all [symbolAt]

/-- The second character matters only if it belongs to the operator. -/
theorem symbolAt_of_idle {d d' : Char} (c : Char) (hd : IsIdle d) (hd' : IsIdle d') :
    symbolAt c d = symbolAt c d' := by
  have hne : ∀ {d}, IsIdle d → d ≠ '=' ∧ d ≠ '>' := fun hd =>
    ⟨fun h => not_isIdle_of_mark (by decide) (h ▸ hd), fun h =>
      not_isIdle_of_mark (by decide) (h ▸ hd)⟩
  simp [symbolAt, hne hd, hne hd']

/-- An operator is made of operator signs. -/
theorem symbolAt_width {c d : Char} {op : Option Comparison} {width : Nat}
    (h : symbolAt c d = some (op, width)) :
    width = 0 ∨ width = 1 ∧ c ∈ ['=', '<', '>', '!'] ∨
      width = 2 ∧ c ∈ ['=', '<', '>', '!'] ∧ d ∈ ['=', '>'] := by
  unfold symbolAt at h
  repeat' split at h
  all_goals cases h
  all_goals simp_all

theorem symbolAt_of_notMem {c : Char} (h : c ∉ ['=', '<', '>', '!']) (d : Char) :
    symbolAt c d = some (none, 0) := by
  simp only [List.mem_cons, List.not_mem_nil, not_or, or_false] at h
  simp [symbolAt, h]

/-- **Comparisons are followed.** -/
theorem follows_comparison (hrest : Cut rest) :
    Follows inside n (Ahead rest) (Ahead rest) comparison comparison := by
  rw [comparison_eq]
  refine follows_skipBlanks ?_ fun c cs ds hc h _ => ?_
  · refine .step (run_bind_ok run_get) (run_bind_ok run_get) ?_
    rw [symbolAt_of_notMem (by decide), symbolAt_of_notMem (hrest.notMem (by decide))]
    exact .of_run rfl rfl (.ended rfl hrest.start)
  · refine .step (run_bind_ok run_get) (run_bind_ok run_get) ?_
    rw [front_cons, front_cons, peekAt_succ_cons, peekAt_succ_cons, peekAt_zero, peekAt_zero]
    by_cases hmem : c ∈ ['=', '<', '>', '!']
    · have hquote : isQuote c = false := by
        simp only [List.mem_cons, List.not_mem_nil, or_false] at hmem
        rcases hmem with rfl | rfl | rfl | rfl <;> decide
      have hbehind := h.tail hc hquote
      have hsame : symbolAt c (front ds) = symbolAt c (front cs) := by
        rcases hbehind.front_cases hrest with hfront | ⟨hcs, hds⟩
        · rw [hfront]
        · exact symbolAt_of_idle c hds hcs
      rw [hsame]
      cases hsymbol : symbolAt c (front cs) with
      | none =>
        intro _ _ hrun
        cases hrun
      | some found =>
        obtain ⟨op, width⟩ := found
        rcases symbolAt_width hsymbol with rfl | ⟨rfl, -⟩ | ⟨rfl, -, hnext⟩
        · exact .of_run rfl rfl h.ahead
        · exact .of_run rfl rfl hbehind.ahead
        · have hmark : ¬ IsIdle (front cs) ∧ isMark (front cs) = true := by
            simp only [List.mem_cons, List.not_mem_nil, or_false] at hnext
            rcases hnext with hd | hd <;> rw [hd] <;>
              exact ⟨not_isIdle_of_mark (by decide), by decide⟩
          obtain ⟨cs', ds', hcs, hds, hlast⟩ := hbehind.exists_tails hrest hmark.1 hmark.2 rfl
          generalize front cs = d at hcs hds
          subst hcs hds
          exact .of_run rfl rfl hlast.ahead
    · rw [symbolAt_of_notMem hmem, symbolAt_of_notMem hmem]
      exact .of_run rfl rfl h.ahead

/-- Only operator signs stand for an operation. -/
theorem mem_openingMarks_of_arithmetic {c : Char} {op : Arithmetic}
    (h : Arithmetic.ofChar? c = some op) : c ∈ openingMarks ∧ isQuote c = false := by
  unfold Arithmetic.ofChar? at h
  split at h
  case h_6 => cases h
  all_goals decide

/-- One more operand. -/
theorem follows_arithmeticStep (hrest : Cut rest) {accepts : Arithmetic → Bool}
    {p q : Parser Expr} [Shrinks p] [Shrinks q]
    (hp : Follows inside n (Ahead rest) (Ahead rest) p q) (left : Expr) :
    Follows inside n (Ahead rest) (Ahead rest) (arithmeticStep accepts p left)
      (arithmeticStep accepts q left) := by
  refine follows_skipBlanks ?_ fun c cs ds hc h hlength => ?_
  · refine .step (run_bind_ok run_current) (run_bind_ok run_current) ?_
    have hnone : Arithmetic.ofChar? (front rest) = none :=
      Option.eq_none_iff_forall_ne_some.mpr fun op hop =>
        hrest.mark (mem_openingMarks_of_arithmetic hop).1
    rw [hnone]
    exact .of_run rfl rfl (.ended rfl hrest.start)
  · refine .step (run_bind_ok run_current) (run_bind_ok run_current) ?_
    rw [front_cons, front_cons]
    cases hop : Arithmetic.ofChar? c with
    | none => exact .of_run rfl rfl h.ahead
    | some op =>
      dsimp only
      split
      · have hquote := (mem_openingMarks_of_arithmetic hop).2
        refine .step (run_bind_ok (run_advance 1)) (run_bind_ok (run_advance 1)) ?_
        have hshorter : ds.length < n := Nat.lt_of_succ_lt hlength
        refine (hp cs ds (h.tail hc hquote).ahead hshorter).bind fun right last last' _ _
          hlast => ?_
        exact .of_run rfl rfl hlast
      · exact .of_run rfl rfl h.ahead

/-! ### What stands inside parentheses -/

/-- The keywords by which an expression goes on. -/
def continuing : List Keyword :=
  .and :: .or :: testKeywords

/-- **What an expression may be followed by**: no keyword by which it would go on. -/
def ExprEnd (rest : List Char) : Prop :=
  ∀ k ∈ continuing, k.word.match? rest = none

theorem exprEnd_nil : ExprEnd [] :=
  fun k _ => keyword_match?_nil k

/-- **What a test may be followed by**: no keyword by which it would go on. -/
def TestEnd (rest : List Char) : Prop :=
  ∀ k ∈ testKeywords, k.word.match? rest = none

theorem ExprEnd.testEnd (h : ExprEnd rest) : TestEnd rest :=
  fun k hk => h k (List.mem_cons_of_mem _ (List.mem_cons_of_mem _ hk))

/-- **The parsers for what stands inside parentheses follow each other**, on texts of
fewer than `n` characters. -/
structure Nested.Following (rest : List Char) (n : Nat) (l r : Nested) : Prop where
  expr : ∀ {inside}, inside ∨ ExprEnd rest →
    Follows inside n (Ahead rest) (Ahead rest) l.expr r.expr
  query : ∀ {inside}, inside ∨ rest = [] →
    Follows inside n (Ahead rest) (Ahead rest) l.query r.query

/-! ### Expressions -/

section Expressions

variable {l r : Nested} [l.Shrinking] [r.Shrinking]

instance : Hungry (primary l) where
  fails a left hcs hrun := by
    rw [primary, run_bind_ok run_skipBlanks, hcs] at hrun
    cases hrun

instance Hungry.signedPrimary (budget : Nat) : Hungry (signedPrimary l budget) := by
  induction budget with
  | zero => exact inferInstanceAs (Hungry (primary l))
  | succ budget ih =>
    unfold Grammar.signedPrimary
    refine @hungry_bind_right _ _ _ _ _ fun _ => @hungry_bind_right _ _ _ _ _ fun c => ?_
    split <;> infer_instance

instance : Hungry (unary l) := by
  unfold unary
  infer_instance

instance : Hungry (product l) := by
  unfold product
  infer_instance

instance : Hungry (sum l) := by
  unfold sum
  infer_instance

instance : Hungry (predicate l) := by
  rw [predicate_eq]
  infer_instance

instance Hungry.negated (budget : Nat) : Hungry (negated l budget) := by
  induction budget with
  | zero => exact inferInstanceAs (Hungry (predicate l))
  | succ budget ih =>
    unfold Grammar.negated
    infer_instance

instance : Hungry (negation l) := by
  unfold negation
  infer_instance

/-- Behind an opening parenthesis. -/
theorem follows_open {α : Type} {S : List Char → List Char → Prop} {p q : Parser α}
    [Shrinks p] (hp : Follows inside n (Ahead rest) S p q) :
    Follows inside (n + 1) (Ahead rest) S (do expectChar '('; p) (do expectChar '('; q) :=
  (follows_expectChar (by decide)).ahead.bind_lt (length_lt_of_expectChar (by decide))
    fun _ => hp

/-- Up to a closing parenthesis. -/
theorem follows_closed {α β : Type} {p q : Parser α} [Shrinks q] (f : α → β)
    (hp : Follows True n (Ahead rest) (Ahead rest) p q) :
    Follows inside n (Ahead rest) (Ahead rest) (do let a ← p; expectChar ')'; pure (f a))
      (do let a ← q; expectChar ')'; pure (f a)) :=
  hp.bind_closed fun a => (follows_expectChar (by decide)).bind fun _ =>
    (follows_pure (f a)).mono (fun _ _ => id) fun _ _ => Respaced.ahead

/-- **Arguments of a call are followed** up to the closing parenthesis. -/
theorem follows_callArgs (hrest : Cut rest) (hnested : Nested.Following rest n l r)
    (name : String) :
    Follows inside (n + 1) (Ahead rest) (Ahead rest) (callArgs l name) (callArgs r name) := by
  refine follows_open (follows_consumeChar_bind (by decide) fun found => ?_)
  cases found with
  | true => exact follows_pure _
  | false =>
    refine (follows_consume hrest (.inl trivial)).bind_closed fun distinct => ?_
    exact follows_closed _ ((hnested.expr (.inl trivial)).commaList (.inl trivial))

/-- What stands inside a parenthesis is followed up to the closing one. -/
theorem follows_parenthesis (hrest : Cut rest) (hnested : Nested.Following rest n l r) :
    Follows inside n (Ahead rest) (Ahead rest) (parenthesis l) (parenthesis r) := by
  refine (follows_check hrest (.inl trivial)).bind_closed fun found => ?_
  cases found with
  | true => exact follows_closed _ (hnested.query (.inl trivial))
  | false => exact follows_closed _ (hnested.expr (.inl trivial))

/-- The right side of a membership test is followed up to the closing parenthesis. -/
theorem follows_members (hrest : Cut rest) (hnested : Nested.Following rest n l r) :
    Follows inside (n + 1) (Ahead rest) (Ahead rest) (members l) (members r) := by
  refine follows_open ((follows_check hrest (.inl trivial)).bind_closed fun found => ?_)
  cases found with
  | true => exact follows_closed _ (hnested.query (.inl trivial))
  | false =>
    refine follows_consumeChar_bind (by decide) fun found => ?_
    cases found with
    | true => exact follows_pure _
    | false => exact follows_closed _ ((hnested.expr (.inl trivial)).commaList (.inl trivial))

/-- Where no dot follows, the path ends. -/
theorem run_columnPath_of_ne {mark : List Char} {table : String} (h : front cs ≠ '.')
    (budget : Nat) (parts : List String) : (columnPath mark table budget parts).run cs =
      .ok (.column (.qualified table (String.intercalate "." parts)), cs) := by
  cases budget with
  | zero => rfl
  | succ budget =>
    rw [columnPath, run_bind_ok run_current, if_pos (by simpa using h)]
    rfl

/-- **The path of a column is followed.**  The induction is on the budget of the first run. -/
theorem followsAt_columnPath (hrest : Cut rest) {mark mark' : List Char} {table : String}
    {budget budget' : Nat} {parts : List String} (h : Respaced rest cs ds)
    (hbudget : cs.length ≤ budget) (hbudget' : ds.length ≤ budget') :
    FollowsAt inside (Ahead rest) (columnPath mark table budget parts)
      (columnPath mark' table budget' parts) cs ds := by
  induction hm : cs.length using Nat.strongRecOn generalizing budget budget' parts cs ds with
  | ind m ih =>
    by_cases hcs : front cs = '.'
    · obtain ⟨cs, ds, rfl, rfl, hbehind⟩ :=
        h.exists_tails hrest (not_isIdle_of_mark (by decide)) (by decide) hcs
      rw [List.length_cons] at hbudget hbudget' hm
      obtain ⟨budget, rfl⟩ : ∃ more, budget = more + 1 := ⟨budget - 1, by omega⟩
      obtain ⟨budget', rfl⟩ : ∃ more, budget' = more + 1 := ⟨budget' - 1, by omega⟩
      refine .step (run_bind_ok run_current) (run_bind_ok run_current) ?_
      refine .step (run_bind_ok (run_advance 1)) (run_bind_ok (run_advance 1)) ?_
      refine .step (run_bind_ok run_current) (run_bind_ok run_current) ?_
      dsimp only [List.drop_succ_cons, List.drop_zero]
      by_cases hstar : front cs = '*'
      · obtain ⟨cs, ds, rfl, rfl, hlast⟩ :=
          hbehind.exists_tails hrest (not_isIdle_of_mark (by decide)) (by decide) hstar
        refine .step (run_bind_ok (run_advance 1)) (run_bind_ok (run_advance 1)) ?_
        split
        · exact .of_run rfl rfl hlast.ahead
        · intro _ _ hrun
          cases hrun
      · have hstar' : front ds ≠ '*' :=
          mt (hbehind.front_eq_iff hrest (not_isIdle_of_mark (by decide))).mpr hstar
        rw [if_neg (by simpa using hstar), if_neg (by simpa using hstar')]
        refine (follows_name hrest cs ds hbehind.ahead (Nat.lt_succ_self _)).bind
          fun part left left' hpart hpart' hleft => ?_
        have hshorter := Shrinks.length_le hpart
        have hshorter' := Shrinks.length_le hpart'
        exact ih left.length (by omega) hleft (by omega) (by omega) rfl
    · have hds : front ds ≠ '.' :=
        mt (h.front_eq_iff hrest (not_isIdle_of_mark (by decide))).mpr hcs
      exact .of_run (run_columnPath_of_ne hcs _ _) (run_columnPath_of_ne hds _ _) h.ahead

/-- How a word goes on is decided by the character behind it. -/
theorem follows_wordExpr (hrest : Cut rest) (hnested : Nested.Following rest n l r)
    (mark mark' : List Char) (word : String) :
    Follows inside (n + 1) (Ahead rest) (Ahead rest) (wordExpr l mark word)
      (wordExpr r mark' word) := by
  rw [wordExpr_eq, wordExpr_eq]
  split
  · exact follows_pure _
  split
  · exact follows_pure _
  split
  · exact follows_pure _
  split
  · exact follows_failAt _ _
  refine follows_skipBlanks ?_ fun c cs ds hc h hlength => ?_
  · refine .step (run_bind_ok run_current) (run_bind_ok run_current) ?_
    exact .of_run (run_afterWord_bare (by decide))
      (run_afterWord_bare (hrest.notMem (by decide)))
      (.ended rfl hrest.start)
  · refine .step (run_bind_ok run_current) (run_bind_ok run_current) ?_
    by_cases hmem : c ∈ ['\'', '(', '.']
    · simp only [List.mem_cons, List.not_mem_nil, or_false] at hmem
      rcases hmem with rfl | rfl | rfl
      · change FollowsAt inside (Ahead rest) (if _ then _ else if _ then _ else _)
          (if _ then _ else if _ then _ else _) _ _
        split
        · exact (followsAt_datedLiteral hrest false h).bind fun d left left' _ _ hleft =>
            .of_run rfl rfl hleft
        · split
          · exact (followsAt_datedLiteral hrest true h).bind fun t left left' _ _ hleft =>
              .of_run rfl rfl hleft
          · exact .of_run rfl rfl h.ahead
      · exact (follows_callArgs hrest hnested word _ _ h.ahead hlength).bind
          fun call left left' _ _ hleft => .of_run rfl rfl hleft
      · refine .step (run_bind_ok run_get) (run_bind_ok run_get) ?_
        exact followsAt_columnPath hrest h (Nat.le_refl _) (Nat.le_refl _)
    · exact .of_run (run_afterWord_bare hmem) (run_afterWord_bare hmem) h.ahead

/-- How an operand goes on, by its first character. -/
def primaryAt (nested : Nested) (mark : List Char) : Char → Parser Expr
  | '\x00' => failAt mark .unexpectedEnd
  | '(' => do
    advance 1
    parenthesis nested
  | '\'' => do return .literal (← stringLiteral)
  | '"' => do return .column (.ofQuoted (← name))
  | '\x60' => do return .column (.ofQuoted (← name))
  | '*' => do
    advance 1
    return .wildcard
  | c => do
    if c.isDigit || (c == '.' && (peekAt 1 mark).isDigit) then
      return .literal (← numberLiteral)
    match ← identifier with
    | some word => wordExpr nested mark word
    | none => failAt mark .invalidExpression

theorem primary_eq (nested : Nested) : primary nested = (do
    skipBlanks
    let mark ← get
    primaryAt nested mark (front mark)) := rfl

/-- **Operands are followed.** -/
theorem follows_primary (hrest : Cut rest) (hnested : Nested.Following rest n l r) :
    Follows inside (n + 1) (Ahead rest) (Ahead rest) (primary l) (primary r) := by
  rw [primary_eq, primary_eq]
  refine follows_skipBlanks ?_ fun c cs ds hc h hlength => ?_
  · exact .failAt _ _
  · refine .step (run_bind_ok run_get) (run_bind_ok run_get) ?_
    rw [front_cons, front_cons]
    have hshorter : ds.length < n := Nat.lt_of_succ_lt_succ hlength
    have hname : FollowsAt inside (Ahead rest) name name (c :: cs) (c :: ds) :=
      (follows_name hrest _ _ h.ahead hlength).mono fun _ _ => Respaced.ahead
    unfold primaryAt
    split
    · exact .failAt _ _
    · refine .step (run_bind_ok (run_advance 1)) (run_bind_ok (run_advance 1)) ?_
      exact follows_parenthesis hrest hnested cs ds (h.tail hc (by decide)).ahead hshorter
    · exact (followsAt_stringLiteral hrest h).bind fun s left left' _ _ hleft =>
        .of_run rfl rfl hleft
    · exact hname.bind fun s left left' _ _ hleft => .of_run rfl rfl hleft
    · exact hname.bind fun s left left' _ _ hleft => .of_run rfl rfl hleft
    · exact .of_run rfl rfl (h.tail hc (by decide)).ahead
    · -- a point begins a number if a digit follows, on both sides
      have hdigit : (c == '.' && (peekAt 1 (c :: cs)).isDigit) =
          (c == '.' && (peekAt 1 (c :: ds)).isDigit) := by
        by_cases hpoint : c = '.'
        · subst hpoint
          rw [peekAt_succ_cons, peekAt_succ_cons, peekAt_zero, peekAt_zero,
            (h.tail hc (by decide)).isDigit_front hrest]
        · rw [beq_eq_false_iff_ne.mpr hpoint, Bool.false_and, Bool.false_and]
      rw [hdigit]
      split
      · exact (followsAt_numberLiteral hrest hc h).bind fun x left left' _ _ hleft =>
          .of_run rfl rfl hleft
      · refine (followsAt_identifier hrest hc h).bind_live fun word left left' _ hrun hleft =>
          ?_
        cases word with
        | none => exact .failAt _ _
        | some word =>
          exact follows_wordExpr hrest hnested _ _ word left left' hleft.ahead
            (Nat.lt_of_le_of_lt (Shrinks.length_le hrun) hlength)

/-- Signs are read off both sides.  The induction is on the budget of the first run. -/
theorem followsAt_signedPrimary (hrest : Cut rest) (hnested : Nested.Following rest n l r)
    {budget budget' : Nat} (h : Ahead rest cs ds) (hlength : ds.length < n + 1)
    (hbudget : cs.length ≤ budget) (hbudget' : ds.length ≤ budget') :
    FollowsAt inside (Ahead rest) (signedPrimary l budget)
      (signedPrimary r budget') cs ds := by
  induction budget generalizing budget' cs ds with
  | zero =>
    rw [List.length_eq_zero_iff.mp (Nat.le_zero.mp hbudget)]
    exact .hungry rfl
  | succ budget ih =>
    cases h with
    | ended hcs => exact .hungry hcs
    | @same c cs' ds' hcs hds h =>
      have hcs_le := length_dropBlanks_le cs
      have hds_le := length_dropBlanks_le ds
      rw [hcs, List.length_cons] at hcs_le
      rw [hds, List.length_cons] at hds_le
      obtain ⟨budget', rfl⟩ : ∃ more, budget' = more + 1 := ⟨budget' - 1, by omega⟩
      refine .step (run_bind_ok run_skipBlanks) (run_bind_ok run_skipBlanks) ?_
      refine .step (run_bind_ok run_current) (run_bind_ok run_current) ?_
      rw [hcs, hds, front_cons, front_cons]
      have hc := isBlank_of_dropBlanks hcs
      have hsign : isQuote c = false → FollowsAt inside (Ahead rest) (signedPrimary l budget)
          (signedPrimary r budget') cs' ds' := fun hquote =>
        ih (h.tail hc hquote).ahead (by omega) (by omega) (by omega)
      split
      · refine .step (run_bind_ok (run_advance 1)) (run_bind_ok (run_advance 1)) ?_
        exact (hsign (by decide)).bind fun e left left' _ _ hleft => .of_run rfl rfl hleft
      · refine .step (run_bind_ok (run_advance 1)) (run_bind_ok (run_advance 1)) ?_
        exact (hsign (by decide)).bind fun e left left' _ _ hleft => .of_run rfl rfl hleft
      · exact follows_primary hrest hnested _ _ h.ahead (by rw [List.length_cons]; omega)

theorem follows_unary (hrest : Cut rest) (hnested : Nested.Following rest n l r) :
    Follows inside (n + 1) (Ahead rest) (Ahead rest) (unary l) (unary r) :=
  follows_get fun _ _ h hlength =>
    followsAt_signedPrimary hrest hnested h hlength (Nat.le_refl _) (Nat.le_refl _)

theorem follows_product (hrest : Cut rest) (hnested : Nested.Following rest n l r) :
    Follows inside (n + 1) (Ahead rest) (Ahead rest) (product l) (product r) :=
  (follows_unary hrest hnested).extendWhile
    (follows_arithmeticStep hrest (follows_unary hrest hnested))

/-- **Sums are followed.** -/
theorem follows_sum (hrest : Cut rest) (hnested : Nested.Following rest n l r) :
    Follows inside (n + 1) (Ahead rest) (Ahead rest) (sum l) (sum r) :=
  (follows_product hrest hnested).extendWhile
    (follows_arithmeticStep hrest (follows_product hrest hnested))

theorem follows_bounds (hrest : Cut rest) (hnested : Nested.Following rest n l r)
    (negated : Bool) (operand : Expr) :
    Follows inside (n + 1) (Ahead rest) (Ahead rest) (bounds l negated operand)
      (bounds r negated operand) := by
  refine (follows_sum hrest hnested).bind fun low => ?_
  refine (follows_expect hrest .and).ahead.bind fun _ => ?_
  exact (follows_sum hrest hnested).bind fun high => follows_pure _

/-- The first keyword that comes next is the same on both sides. -/
theorem follows_firstKeyword {α : Type} (hrest : Cut rest) {ks : List Keyword}
    {body body' : Keyword → Parser α} {other other' : Parser α} [∀ k, Shrinks (body k)]
    [Shrinks other] (hks : inside ∨ ∀ k ∈ ks, k.word.match? rest = none)
    (hbody : ∀ k, Follows inside n (Ahead rest) (Ahead rest) (body k) (body' k))
    (hother : Follows inside n (Ahead rest) (Ahead rest) other other') :
    Follows inside n (Ahead rest) (Ahead rest) (firstKeyword body other ks)
      (firstKeyword body' other' ks) := by
  induction ks with
  | nil => exact hother
  | cons k ks ih =>
    refine (follows_consume hrest (hks.imp_right fun h => h k List.mem_cons_self)).bind
      fun found => ?_
    cases found with
    | true => exact hbody k
    | false => exact ih (hks.imp_right fun h k' hk' => h k' (List.mem_cons_of_mem k hk'))

/-- The right side of a test is followed. -/
theorem follows_testBody (hrest : Cut rest) (hnested : Nested.Following rest n l r)
    (left : Expr) (k : Keyword) :
    Follows inside (n + 1) (Ahead rest) (Ahead rest) (testBody l left k)
      (testBody r left k) := by
  unfold testBody
  split
  · exact (follows_sum hrest hnested).bind fun pattern => follows_pure _
  · exact (follows_sum hrest hnested).bind fun pattern => follows_pure _
  · exact follows_pure _
  · exact follows_pure _
  · exact (follows_members hrest hnested).bind fun items => follows_pure _
  · exact (follows_members hrest hnested).bind fun items => follows_pure _
  · exact follows_bounds hrest hnested true left
  · exact follows_bounds hrest hnested false left
  · exact follows_pure _

/-- **Tests are followed.** -/
theorem follows_predicate (hrest : Cut rest) (hend : inside ∨ TestEnd rest)
    (hnested : Nested.Following rest n l r) :
    Follows inside (n + 1) (Ahead rest) (Ahead rest) (predicate l) (predicate r) := by
  rw [predicate_eq, predicate_eq]
  refine (follows_sum hrest hnested).bind fun left =>
    (follows_comparison hrest).bind fun op => ?_
  cases op with
  | some op => exact (follows_sum hrest hnested).bind fun right => follows_pure _
  | none =>
    exact follows_firstKeyword hrest hend (follows_testBody hrest hnested left)
      (follows_pure left)

/-- Negations are read off both sides.  The induction is on the budget of the first run. -/
theorem followsAt_negated (hrest : Cut rest) (hend : inside ∨ TestEnd rest)
    (hnested : Nested.Following rest n l r) {budget budget' : Nat} (h : Ahead rest cs ds)
    (hlength : ds.length < n + 1) (hbudget : cs.length ≤ budget)
    (hbudget' : ds.length ≤ budget') :
    FollowsAt inside (Ahead rest) (negated l budget) (negated r budget') cs ds := by
  induction budget generalizing budget' cs ds with
  | zero =>
    rw [List.length_eq_zero_iff.mp (Nat.le_zero.mp hbudget)]
    exact .hungry rfl
  | succ budget ih =>
    cases h with
    | ended hcs => exact .hungry hcs
    | same hcs hds h =>
      have hds_le := length_dropBlanks_le ds
      rw [hds, List.length_cons] at hds_le
      obtain ⟨budget', rfl⟩ : ∃ more, budget' = more + 1 := ⟨budget' - 1, by omega⟩
      refine (followsAt_consume hrest .not hcs hds h).bind_live
        fun found left left' hfound hfound' hleft => ?_
      cases found with
      | true =>
        have hshorter := length_lt_of_consume hfound
        have hshorter' := length_lt_of_consume hfound'
        exact (ih hleft (by omega) (by omega) (by omega)).bind fun e last last' _ _ hlast =>
          .of_run rfl rfl hlast
      | false =>
        have hshorter' := Shrinks.length_le hfound'
        exact follows_predicate hrest hend hnested left left' hleft (by omega)

theorem follows_negation (hrest : Cut rest) (hend : inside ∨ TestEnd rest)
    (hnested : Nested.Following rest n l r) :
    Follows inside (n + 1) (Ahead rest) (Ahead rest) (negation l) (negation r) :=
  follows_get fun _ _ h hlength =>
    followsAt_negated hrest hend hnested h hlength (Nat.le_refl _) (Nat.le_refl _)

/-- One more operand behind a keyword. -/
theorem follows_logicalStep (hrest : Cut rest) {k : Keyword} {join : Expr → Expr → Expr}
    {p q : Parser Expr} [Shrinks p] [Shrinks q] (hk : inside ∨ k.word.match? rest = none)
    (hp : Follows inside n (Ahead rest) (Ahead rest) p q) (left : Expr) :
    Follows inside n (Ahead rest) (Ahead rest) (logicalStep k join p left)
      (logicalStep k join q left) := by
  refine (follows_consume hrest hk).bind fun found => ?_
  cases found with
  | true => exact hp.bind fun right => follows_pure _
  | false => exact follows_pure none

theorem follows_conjunction (hrest : Cut rest) (hend : inside ∨ ExprEnd rest)
    (hnested : Nested.Following rest n l r) :
    Follows inside (n + 1) (Ahead rest) (Ahead rest) (conjunction l) (conjunction r) :=
  have hnegation := follows_negation hrest (hend.imp_right ExprEnd.testEnd) hnested
  hnegation.extendWhile (follows_logicalStep hrest (hend.imp_right fun h =>
    h .and (by decide))
    hnegation)

/-- **Expressions are followed.** -/
theorem follows_disjunction (hrest : Cut rest) (hend : inside ∨ ExprEnd rest)
    (hnested : Nested.Following rest n l r) :
    Follows inside (n + 1) (Ahead rest) (Ahead rest) (disjunction l) (disjunction r) :=
  (follows_conjunction hrest hend hnested).extendWhile (follows_logicalStep hrest
    (hend.imp_right fun h => h .or (by decide)) (follows_conjunction hrest hend hnested))

end Expressions

end DocQuery.Sql.Grammar
