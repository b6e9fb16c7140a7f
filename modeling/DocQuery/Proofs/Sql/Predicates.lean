import DocQuery.Proofs.Sql.Operands

/-!
# Reading tests back

A test is an operand alone or compared with others.  Its text is read back as the test, as
long as what follows begins with none of the words that go on with a test.

* `Expr.IsTest` — the tests
* `FormulaEnd` — what may follow a test or a formula
* `firstKeyword`, `predicate_eq` — the keywords of tests are tried in a fixed order
* `reads_test` — a test is read as a predicate

### What is load-bearing

**The order of keywords.**  The keywords are tried from the first to the last, so the text
of a test must not begin with an earlier one (`pairwise_testKeywords`).  This is where
`NOT LIKE` and `NOT IN`, or `IS NULL` and `IS NOT NULL`, could be taken for one another.
-/

namespace DocQuery.Sql

open Scan Text

/-- An operand, alone or tested against others. -/
inductive Expr.IsTest : Expr → Prop where
  | operand {e : Expr} (he : e.IsOperand) : IsTest e
  | compare (op : Comparison) {l r : Expr} (hl : l.IsOperand) (hr : r.IsOperand) :
      IsTest (.compare op l r)
  | like (negated : Bool) {e p : Expr} (he : e.IsOperand) (hp : p.IsOperand) :
      IsTest (.like negated e p)
  | isNull (negated : Bool) {e : Expr} (he : e.IsOperand) : IsTest (.isNull negated e)
  | inList (negated : Bool) {e : Expr} {items : List Expr} (he : e.IsOperand)
      (hitems : ∀ item ∈ items, item.IsOperand) : IsTest (.inList negated e items)
  | between (negated : Bool) {e low high : Expr} (he : e.IsOperand) (hlow : low.IsOperand)
      (hhigh : high.IsOperand) : IsTest (.between negated e low high)

/-! ### Texts of tests -/

/-- The keyword of a test or of its negation. -/
def polarity (negated : Bool) (yes no : Keyword) : Keyword :=
  if negated then no else yes

section Texts

variable (negated : Bool) (e : Expr)

theorem text_compare (op : Comparison) (l r : Expr) :
    (Expr.compare op l r).text = l.text ++ ' ' :: (op.symbol.toList ++ ' ' :: r.text) := by
  simp [Expr.text, Expr.display]

theorem text_like (p : Expr) : (Expr.like negated e p).text =
    e.text ++ ' ' :: ((polarity negated .like .notLike).text.toList ++ ' ' :: p.text) := by
  cases negated <;> simp [Expr.text, Expr.display, negationWord, polarity, Keyword.text]

theorem text_isNull : (Expr.isNull negated e).text =
    e.text ++ ' ' :: ((polarity negated .isNull .isNotNull).text.toList ++ []) := by
  cases negated <;> simp [Expr.text, Expr.display, negationWord, polarity, Keyword.text]

theorem text_inList (items : List Expr) : (Expr.inList negated e items).text =
    e.text ++ ' ' :: ((polarity negated .inKw .notIn).text.toList ++
      ' ' :: '(' :: (commaText (items.map Expr.text) ++ [')'])) := by
  rw [Expr.text, Expr.display, displayAll_eq_map]
  simp only [String.toList_append, toList_intercalate_display]
  cases negated <;> simp [Expr.text, negationWord, polarity, Keyword.text]

theorem text_between (low high : Expr) : (Expr.between negated e low high).text =
    e.text ++ ' ' :: ((polarity negated .between .notBetween).text.toList ++
      ' ' :: (low.text ++ ' ' :: (Keyword.and.text.toList ++ ' ' :: high.text))) := by
  cases negated <;> simp [Expr.text, Expr.display, negationWord, polarity, Keyword.text]

end Texts

/-- **A test begins as its first operand does.** -/
theorem Expr.IsTest.starts {e : Expr} (h : e.IsTest) : Starts openingKeywords e.text := by
  cases h with
  | operand he => exact he.starts
  | compare op hl =>
    rw [text_compare]
    exact hl.starts.append (by decide) _
  | like negated he =>
    rw [text_like]
    exact he.starts.append (by decide) _
  | isNull negated he =>
    rw [text_isNull]
    exact he.starts.append (by decide) _
  | inList negated he =>
    rw [text_inList]
    exact he.starts.append (by decide) _
  | between negated he =>
    rw [text_between]
    exact he.starts.append (by decide) _

namespace Grammar

/-! ### What follows a test -/

/-- The keywords that go on with a test, in the order in which they are tried. -/
def testKeywords : List Keyword :=
  [.notLike, .like, .isNotNull, .isNull, .notIn, .inKw, .notBetween, .between]

/-- What may follow a formula: nothing that belongs to its last operand, no comparison and
none of the keywords `avoid`. -/
structure FormulaEnd (avoid : List Keyword) (rest : List Char) :
    Prop extends OperandEnd rest where
  delimited : ∀ k : Keyword, k.word.allows rest = true
  comparison : front (dropBlanks rest) ∉ ['=', '<', '>', '!']
  words : ∀ k ∈ avoid, (leadingWord (dropBlanks rest)).map Char.toUpper ≠ k.head

namespace FormulaEnd

variable {avoid : List Keyword} {rest : List Char}

theorem match?_eq_none (h : FormulaEnd avoid rest) {k : Keyword} (hk : k ∈ avoid) :
    k.word.match? (dropBlanks rest) = none :=
  keyword_match?_eq_none (h.words k hk)

theorem mono (h : FormulaEnd avoid rest) {others : List Keyword} (hsub : others ⊆ avoid) :
    FormulaEnd others rest :=
  ⟨h.toOperandEnd, h.delimited, h.comparison, fun k hk => h.words k (hsub hk)⟩

end FormulaEnd

/-- A formula ends with the text. -/
theorem formulaEnd_nil (avoid : List Keyword) : FormulaEnd avoid [] :=
  ⟨⟨by decide, by decide⟩, keyword_allows_nil, by decide,
    fun k _ => (keyword_head_ne_nil k).symm⟩

/-- A formula ends before a comma and before a closing parenthesis. -/
theorem ItemEnd.formulaEnd {rest : List Char} (h : ItemEnd rest) (avoid : List Keyword) :
    FormulaEnd avoid rest := by
  have hend := h.operandEnd
  obtain ⟨c, more, rfl, hc⟩ := h
  obtain ⟨hblank, hdelimiter, hcomparison⟩ :
      isBlank c = false ∧ isDelimiter c = true ∧ c ∉ ['=', '<', '>', '!'] := by
    rcases hc with rfl | rfl <;> decide
  refine ⟨hend, fun k => (keyword_allows_cons k c more).trans hdelimiter, ?_, fun k _ => ?_⟩
  · rwa [dropBlanks_cons hblank]
  · have hname : isNameChar c = false := hend.name
    have hempty : leadingWord (c :: more) = [] := by simp [leadingWord, hname]
    rw [dropBlanks_cons hblank, hempty]
    exact (keyword_head_ne_nil k).symm

theorem front_keyword_notMem (k : Keyword) (after : List Char) {marks : List Char}
    (hmarks : marks.any isNameChar = false) : front (k.text.toList ++ after) ∉ marks := by
  obtain ⟨c, more, hcons, hc⟩ := exists_keyword_text k
  rw [hcons]
  exact notMem_of_isNameChar hc hmarks

/-- An operand ends before a keyword. -/
theorem operandEnd_keyword (k : Keyword) (after : List Char) :
    OperandEnd (' ' :: (k.text.toList ++ after)) := by
  refine ⟨(by decide : isNameChar ' ' = false), ?_⟩
  rw [dropBlanks_space, dropBlanks_keyword]
  exact front_keyword_notMem k after (by decide)

/-- A formula ends before a keyword, unless it begins as one that goes on with the formula. -/
theorem formulaEnd_keyword {avoid : List Keyword} {k : Keyword}
    (hk : ∀ other ∈ avoid, k.head ≠ other.head) (more : List Char) :
    FormulaEnd avoid (' ' :: (k.text.toList ++ ' ' :: more)) := by
  refine ⟨operandEnd_keyword k _, fun other => keyword_allows_space other _, ?_,
    fun other hother => ?_⟩
  · rw [dropBlanks_space, dropBlanks_keyword]
    exact front_keyword_notMem k _ (by decide)
  · have hspace : isNameChar (front (' ' :: more)) = false :=
      (by decide : isNameChar ' ' = false)
    rw [dropBlanks_space, dropBlanks_keyword, leadingWord_keyword k hspace]
    exact hk other hother

/-! ### Comparisons -/

theorem run_comparison_symbol (op : Comparison) {cs more : List Char}
    (hcs : dropBlanks cs = op.symbol.toList ++ ' ' :: more) :
    comparison.run cs = .ok (some op, ' ' :: more) := by
  rw [comparison, run_bind_ok run_skipBlanks, run_bind_ok run_get, hcs]
  cases op <;> rfl

theorem run_comparison_none {cs : List Char}
    (h : front (dropBlanks cs) ∉ ['=', '<', '>', '!']) :
    comparison.run cs = .ok (none, dropBlanks cs) := by
  rw [comparison, run_bind_ok run_skipBlanks, run_bind_ok run_get]
  split
  case h_9 => rfl
  all_goals
    rw [show front (dropBlanks cs) = _ from ‹_›] at h
    exact absurd h (by decide)

/-! ### The order of keywords -/

section FirstKeyword

variable {α : Type} {body : Keyword → Parser α} {other : Parser α} {ks : List Keyword}
  {cs after rest : List Char}

/-- Goes on with the first of some keywords that comes next, or else in another way. -/
def firstKeyword (body : Keyword → Parser α) (other : Parser α) : List Keyword → Parser α
  | [] => other
  | k :: ks => do if ← consume k then body k else firstKeyword body other ks

/-- A keyword is not taken for another that is tried before it. -/
def IsTriedBefore (earlier k : Keyword) : Prop :=
  ∀ after, earlier.word.match? (k.text.toList ++ after) = none

theorem run_firstKeyword_of_mem (hks : ks.Pairwise IsTriedBefore) {k : Keyword} (hk : k ∈ ks)
    (hafter : k.word.allows after = true) (hcs : dropBlanks cs = k.text.toList ++ after) :
    (firstKeyword body other ks).run cs = (body k).run after := by
  induction ks generalizing cs with
  | nil => cases hk
  | cons first ks ih =>
    obtain ⟨hfirst, hks⟩ := List.pairwise_cons.mp hks
    rcases List.mem_cons.mp hk with rfl | hk
    · have hmatch := hcs ▸ keyword_match?_text k hafter
      rw [firstKeyword, run_bind_ok (run_consume_of_match hmatch), if_pos rfl]
    · have hnone : first.word.match? (dropBlanks cs) = none := hcs ▸ hfirst k hk after
      rw [firstKeyword, run_bind_ok (run_consume_of_none hnone), if_neg Bool.false_ne_true]
      exact ih hks hk (by rw [dropBlanks_dropBlanks, hcs])

theorem run_firstKeyword_of_none (hcs : Leaves rest cs)
    (hnone : ∀ k ∈ ks, k.word.match? (dropBlanks rest) = none) :
    ∃ left, (firstKeyword body other ks).run cs = other.run left ∧ Leaves rest left := by
  induction ks generalizing cs with
  | nil => exact ⟨cs, rfl, hcs⟩
  | cons first ks ih =>
    have hfirst : first.word.match? (dropBlanks cs) = none := by
      rw [hcs.dropBlanks_eq]
      exact hnone first List.mem_cons_self
    obtain ⟨left, hrun, hleft⟩ := ih hcs.dropBlanks fun k hk =>
      hnone k (List.mem_cons_of_mem first hk)
    refine ⟨left, ?_, hleft⟩
    rw [firstKeyword, run_bind_ok (run_consume_of_none hfirst),
      if_neg Bool.false_ne_true, hrun]

end FirstKeyword

/-- **No keyword of a test is taken for an earlier one.** -/
theorem pairwise_testKeywords : testKeywords.Pairwise IsTriedBefore := by
  simp only [testKeywords, List.pairwise_cons, List.forall_mem_cons, List.not_mem_nil,
    false_imp_iff, implies_true, and_true, List.Pairwise.nil]
  and_intros <;> exact fun _ => rfl

variable {nested : Nested} {n : Nat} {l r e : Expr} {rest : List Char}

/-- How a test goes on behind its first operand and its keyword. -/
def testBody (nested : Nested) (left : Expr) : Keyword → Parser Expr
  | .notLike => do return .like true left (← sum nested)
  | .like => do return .like false left (← sum nested)
  | .isNotNull => return .isNull true left
  | .isNull => return .isNull false left
  | .notIn => do return .inList true left (← members nested)
  | .inKw => do return .inList false left (← members nested)
  | .notBetween => bounds nested true left
  | .between => bounds nested false left
  | _ => return left

/-- How a test goes on behind its first operand. -/
def testAfter (nested : Nested) (left : Expr) : Option Comparison → Parser Expr
  | some op => do return .compare op left (← sum nested)
  | none => firstKeyword (testBody nested left) (return left) testKeywords

/-- A predicate is an operand with a comparison or with the first keyword that comes next. -/
theorem predicate_eq (nested : Nested) :
    predicate nested = (do testAfter nested (← sum nested) (← comparison)) := rfl

theorem reads_predicate_of_sum {text : List Char} (h : Reads (sum nested) text e rest)
    (hrest : FormulaEnd testKeywords rest) : Reads (predicate nested) text e rest := by
  intro cs hcs
  obtain ⟨left, hrun, hleft⟩ := h cs hcs
  have hnone : comparison.run left = .ok (none, dropBlanks left) :=
    run_comparison_none (by rw [hleft.dropBlanks_eq]; exact hrest.comparison)
  obtain ⟨left', hrun', hleft'⟩ := @run_firstKeyword_of_none _ (testBody nested e) (pure e)
    testKeywords _ _ hleft.dropBlanks fun k hk => hrest.match?_eq_none hk
  refine ⟨left', ?_, hleft'⟩
  rw [predicate_eq, run_bind_ok hrun, run_bind_ok hnone]
  exact hrun'

theorem reads_predicate_of_comparison (hnested : ReadsOperands nested n) (op : Comparison)
    (hl : l.IsOperand) (hr : r.IsOperand) (hlength : (Expr.compare op l r).text.length ≤ n)
    (hrest : OperandEnd rest) :
    Reads (predicate nested) (Expr.compare op l r).text (.compare op l r) rest := by
  intro cs hcs
  rw [text_compare] at hcs hlength
  simp only [List.length_append, List.length_cons] at hlength
  have hend : OperandEnd (' ' :: (op.symbol.toList ++ ' ' :: (r.text ++ rest))) := by
    cases op <;> exact operandEnd_space (by decide) (by decide) _
  obtain ⟨left, hrun, hleft⟩ := reads_sum hnested hl (by omega) hend cs (by simpa using hcs)
  have hop : dropBlanks left = op.symbol.toList ++ ' ' :: (r.text ++ rest) := by
    rw [hleft.dropBlanks_eq, dropBlanks_space]
    cases op <;> exact dropBlanks_cons (by decide) _
  obtain ⟨left', hrun', hleft'⟩ := reads_sum hnested hr (by omega) hrest _
    (hr.starts.dropBlanks_space_append rest)
  refine ⟨left', ?_, hleft'⟩
  rw [predicate_eq, run_bind_ok hrun, run_bind_ok (run_comparison_symbol op hop)]
  exact run_bind_ok hrun'

theorem reads_predicate_of_keyword (hnested : ReadsOperands nested n) (hl : l.IsOperand)
    {k : Keyword} (hk : k ∈ testKeywords) {body : List Char}
    (hlength : (l.text ++ ' ' :: (k.text.toList ++ body)).length ≤ n)
    (hbody : k.word.allows (body ++ rest) = true) {left : List Char}
    (hrun : (testBody nested l k).run (body ++ rest) = .ok (e, left))
    (hleft : Leaves rest left) :
    Reads (predicate nested) (l.text ++ ' ' :: (k.text.toList ++ body)) e rest := by
  intro cs hcs
  rw [List.length_append] at hlength
  obtain ⟨middle, hsum, hmiddle⟩ := reads_sum hnested hl (by omega)
    (operandEnd_keyword k (body ++ rest)) cs (by simpa using hcs)
  have hword : dropBlanks middle = k.text.toList ++ (body ++ rest) := by
    rw [hmiddle.dropBlanks_eq, dropBlanks_space, dropBlanks_keyword]
  have hnone : comparison.run middle = .ok (none, dropBlanks middle) := by
    refine run_comparison_none ?_
    rw [hword]
    exact front_keyword_notMem k _ (by decide)
  refine ⟨left, ?_, hleft⟩
  rw [predicate_eq, run_bind_ok hsum, run_bind_ok hnone]
  exact (run_firstKeyword_of_mem pairwise_testKeywords hk hbody
    (by simpa using hword)).trans hrun

/-! ### The right sides of tests -/

/-- The expressions of a list are read from the opening to the closing parenthesis. -/
theorem run_members (hnested : ReadsOperands nested n) {items : List Expr}
    (hitems : ∀ item ∈ items, item.IsOperand)
    (hlength : (commaText (items.map Expr.text)).length < n) {cs : List Char}
    (hcs : dropBlanks cs = '(' :: (commaText (items.map Expr.text) ++ ')' :: rest)) :
    (members nested).run cs = .ok (items, rest) := by
  rw [members, run_bind_ok (run_expectChar hcs)]
  by_cases hne : items = []
  · subst hne
    have hclose : dropBlanks (commaText (List.map Expr.text []) ++ ')' :: rest) =
        ')' :: rest :=
      dropBlanks_cons (by decide) rest
    rw [run_bind_ok run_check, hclose]
    exact run_bind_ok (run_consumeChar_of_front (dropBlanks_cons (by decide) rest))
  · have hstarts : Starts openingKeywords (commaText (items.map Expr.text)) :=
      starts_commaText (by simpa using hne) (by simpa using fun e he => (hitems e he).starts)
    have hopen : dropBlanks (commaText (items.map Expr.text) ++ ')' :: rest) =
        commaText (items.map Expr.text) ++ ')' :: rest := hstarts.dropBlanks_append _
    have hnone : Keyword.select.word.match? (commaText (items.map Expr.text) ++ ')' ::
        rest) = none :=
      hstarts.match?_eq_none (')' :: rest) (by decide : isNameChar ')' = false) (by decide)
    have hclose : front (dropBlanks (commaText (items.map Expr.text) ++ ')' :: rest)) ≠
        ')' := by
      rw [hopen]
      exact hstarts.front_ne _
    obtain ⟨left, hread, hleft⟩ := reads_operands hnested hne hitems hlength rest _ hopen
    have hend : dropBlanks left = ')' :: rest := by
      rw [hleft.dropBlanks_eq, dropBlanks_cons (by decide)]
    rw [run_bind_ok run_check, hopen, hnone, Option.isSome_none, if_neg Bool.false_ne_true,
      run_bind_ok (run_consumeChar_of_ne hclose), if_neg Bool.false_ne_true, hopen,
      run_bind_ok hread, run_bind_ok (run_expectChar hend)]
    rfl

/-- The bounds of a range are read up to the end of the upper one. -/
theorem reads_bounds (hnested : ReadsOperands nested n) (negated : Bool) {low high : Expr}
    (hlow : low.IsOperand) (hhigh : high.IsOperand)
    (hlength : (low.text ++ ' ' :: (Keyword.and.text.toList ++ ' ' :: high.text)).length ≤ n)
    (hrest : OperandEnd rest) :
    Reads (bounds nested negated l) (low.text ++ ' ' ::
      (Keyword.and.text.toList ++ ' ' :: high.text))
      (.between negated l low high) rest := by
  intro cs hcs
  simp only [List.length_append, List.length_cons] at hlength
  obtain ⟨left, hrun, hleft⟩ := reads_sum hnested hlow (by omega)
    (operandEnd_keyword .and (' ' :: (high.text ++ rest))) cs (by simpa using hcs)
  have hand : Keyword.and.word.match? (dropBlanks left) =
      some (' ' :: (high.text ++ rest)) := by
    rw [hleft.dropBlanks_eq, dropBlanks_space, dropBlanks_keyword]
    exact keyword_match?_text .and (keyword_allows_space _ _)
  obtain ⟨left', hrun', hleft'⟩ := reads_sum hnested hhigh (by omega) hrest _
    (hhigh.starts.dropBlanks_space_append rest)
  refine ⟨left', ?_, hleft'⟩
  rw [bounds, run_bind_ok hrun, run_bind_ok (run_expect hand), run_bind_ok hrun']
  rfl

/-- **A test is read back.** -/
theorem reads_test (hnested : ReadsOperands nested n) (he : e.IsTest)
    (hlength : e.text.length ≤ n) (hrest : FormulaEnd testKeywords rest) :
    Reads (predicate nested) e.text e rest := by
  cases he with
  | operand he =>
    exact reads_predicate_of_sum (reads_sum hnested he hlength hrest.toOperandEnd) hrest
  | compare op hl hr =>
    exact reads_predicate_of_comparison hnested op hl hr hlength hrest.toOperandEnd
  | like negated he hp =>
    rw [text_like] at hlength ⊢
    have hshorter := hlength
    simp only [List.length_append, List.length_cons] at hshorter
    obtain ⟨left, hrun, hleft⟩ := reads_sum hnested hp (by omega) hrest.toOperandEnd _
      (hp.starts.dropBlanks_space_append rest)
    cases negated <;> exact reads_predicate_of_keyword hnested he (by decide) hlength
      (keyword_allows_space _ _) (run_bind_ok hrun) hleft
  | isNull negated he =>
    rw [text_isNull] at hlength ⊢
    cases negated <;> exact reads_predicate_of_keyword hnested he (by decide) hlength
      (hrest.delimited _) rfl (.inl rfl)
  | @inList negated e items he hitems =>
    rw [text_inList] at hlength ⊢
    have hshorter := hlength
    simp only [List.length_append, List.length_cons] at hshorter
    have hopen : dropBlanks (' ' :: '(' ::
      (commaText (items.map Expr.text) ++ [')']) ++ rest) =
        '(' :: (commaText (items.map Expr.text) ++ ')' :: rest) :=
      (dropBlanks_space _).trans ((dropBlanks_cons (by decide) _).trans (by simp))
    have hrun := run_members hnested hitems (by omega) hopen
    cases negated <;> exact reads_predicate_of_keyword hnested he (by decide) hlength
      (keyword_allows_space _ _) (run_bind_ok hrun) (.inl rfl)
  | between negated he hlow hhigh =>
    rw [text_between] at hlength ⊢
    have hshorter := hlength
    rw [List.length_append, List.length_cons, List.length_append, List.length_cons]
      at hshorter
    obtain ⟨left, hrun, hleft⟩ := reads_bounds hnested negated hlow hhigh (by omega)
      hrest.toOperandEnd _ ((hlow.starts.append (by decide) _).dropBlanks_space_append rest)
    cases negated <;> exact reads_predicate_of_keyword hnested he (by decide) hlength
      (keyword_allows_space _ _) hrun hleft

end Grammar

end DocQuery.Sql
