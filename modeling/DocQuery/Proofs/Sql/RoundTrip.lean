import DocQuery.Proofs.Sql.Predicates
import DocQuery.Scan.Cursor
import DocQuery.Sql.Grammar.Query

/-!
# Formulas are read back

Formulas are built from tests by conjunction, disjunction and negation.  They are written
with as few parentheses as possible, and still are read back as the same tree.

* `Expr.IsFormula` — the formulas
* `groupText` — the text of a part, in parentheses if it needs them
* `Extends` — a loop that joins operands by a keyword has come to a result
* `reads_negation`, `reads_conjunction`, `reads_disjunction` — the levels of the grammar
* `readsFormulas_nestedAt` — the depth of parentheses that is allowed for is enough
* `formula_read_back` — every formula is read back from its text

### What is load-bearing

**Left sides.**  The grammar joins from left to right, so the left side of a conjunction
is not read to its end: it is what the loop has come to when it meets the next `AND`.
`Extends` says just this, and the inductions over formulas are about it.

**Depth.**  An expression in parentheses is shorter than the text around it.  So parsers
for a depth of `n` read all formulas with less than `n` characters.
-/

namespace DocQuery.Sql

open Scan Text

/-- Tests joined by conjunction, disjunction and negation in any way. -/
inductive Expr.IsFormula : Expr → Prop where
  | test {e : Expr} (he : e.IsTest) : IsFormula e
  | and {l r : Expr} (hl : IsFormula l) (hr : IsFormula r) : IsFormula (.and l r)
  | or {l r : Expr} (hl : IsFormula l) (hr : IsFormula r) : IsFormula (.or l r)
  | not {e : Expr} (he : IsFormula e) : IsFormula (.not e)

theorem Expr.IsOperand.isLogical_eq {e : Expr} (h : e.IsOperand) : e.isLogical = false := by
  cases h <;> rfl

theorem Expr.IsTest.isLogical_eq {e : Expr} (h : e.IsTest) : e.isLogical = false := by
  cases h with
  | operand he => exact he.isLogical_eq
  | _ => rfl

theorem Expr.isOr_eq_false {e : Expr} (h : e.isLogical = false) : e.isOr = false := by
  cases e <;> first | rfl | cases h

/-! ### Texts of formulas -/

/-- The text of a part of a formula, in parentheses if they are needed. -/
def groupText (needed : Bool) (e : Expr) : List Char :=
  if needed then '(' :: (e.text ++ [')']) else e.text

theorem toList_grouped (needed : Bool) (e : Expr) :
    (grouped needed e.display).toList = groupText needed e := by
  cases needed <;> simp [grouped, groupText, Expr.text]

/-- A keyword between two texts. -/
def joinText (k : Keyword) (l r : List Char) : List Char :=
  l ++ ' ' :: (k.text.toList ++ ' ' :: r)

theorem text_and (l r : Expr) :
    (Expr.and l r).text = joinText .and (groupText l.isOr l) (groupText r.isLogical r) := by
  rw [Expr.text, Expr.display, joinText, ← toList_grouped, ← toList_grouped]
  simp [Keyword.text]

theorem text_or (l r : Expr) :
    (Expr.or l r).text = joinText .or l.text (groupText r.isOr r) := by
  rw [Expr.text, Expr.display, joinText, ← toList_grouped]
  simp [Keyword.text, Expr.text]

theorem text_not (e : Expr) :
    (Expr.not e).text = Keyword.not.text.toList ++ ' ' :: groupText e.isLogical e := by
  rw [Expr.text, Expr.display, ← toList_grouped]
  simp [Keyword.text]

theorem starts_groupText {avoid : List Keyword} {e : Expr} (h : Starts avoid e.text)
    (needed : Bool) : Starts avoid (groupText needed e) := by
  cases needed with
  | false => exact h
  | true => exact starts_mark avoid (by decide) (by decide) (by decide) _

/-- A formula begins with no query. -/
theorem Expr.IsFormula.starts {e : Expr} (h : e.IsFormula) : Starts [.select] e.text := by
  induction h with
  | test he => exact he.starts.mono (by decide)
  | @and l _ _ _ ihl =>
    rw [text_and]
    exact (starts_groupText ihl l.isOr).append (by decide) _
  | or _ _ ihl =>
    rw [text_or]
    exact ihl.append (by decide) _
  | not =>
    rw [text_not]
    have hword : Starts [.select] Keyword.not.text.toList :=
      starts_word (by decide) (List.all_eq_true.mp (by decide)) (by decide)
    exact hword.append (by decide) _

namespace Grammar

variable {nested : Nested} {n : Nat} {e : Expr} {rest : List Char}

/-! ### Joining by a keyword -/

section Extends

variable {k : Keyword} {join : Expr → Expr → Expr} {operand : Parser Expr} {text : List Char}

/-- Operands joined by a keyword from left to right. -/
def joined (k : Keyword) (join : Expr → Expr → Expr) (operand : Parser Expr) :
    Parser Expr := do
  let first ← operand
  extendWhile (logicalStep k join operand) (← get).length first

/-- **The loop comes to a result.**  Wherever the text comes next, reading operands joined
by a keyword comes to the result `e` with `rest` before it, and goes on from there. -/
def Extends (k : Keyword) (join : Expr → Expr → Expr) (operand : Parser Expr)
    (text : List Char) (e : Expr) (rest : List Char) : Prop :=
  ∀ cs, dropBlanks cs = text ++ rest → ∃ budget left,
    (joined k join operand).run cs =
      (extendWhile (logicalStep k join operand) budget e).run left ∧
      Leaves rest left ∧ left.length ≤ budget

theorem Extends.of_reads (h : Reads operand text e rest) :
    Extends k join operand text e rest := by
  intro cs hcs
  obtain ⟨left, hrun, hleft⟩ := h cs hcs
  refine ⟨left.length, left, ?_, hleft, Nat.le_refl _⟩
  rw [joined, run_bind_ok hrun, run_bind_ok run_get]

/-- One more operand behind the keyword. -/
theorem Extends.step {l r : Expr} {rtext : List Char}
    (h : Extends k join operand text l (' ' :: (k.text.toList ++ ' ' :: (rtext ++ rest))))
    (hr : Reads operand rtext r rest)
    (hstart : dropBlanks (' ' :: (rtext ++ rest)) = rtext ++ rest) :
    Extends k join operand (joinText k text rtext) (join l r) rest := by
  intro cs hcs
  obtain ⟨budget, left, hrun, hleft, hbudget⟩ := h cs (by simpa [joinText] using hcs)
  have hword : dropBlanks left = k.text.toList ++ ' ' :: (rtext ++ rest) := by
    rw [hleft.dropBlanks_eq, dropBlanks_space, dropBlanks_keyword]
  have hmatch : k.word.match? (dropBlanks left) = some (' ' :: (rtext ++ rest)) := by
    rw [hword]
    exact keyword_match?_text k (keyword_allows_space k _)
  obtain ⟨left', hrun', hleft'⟩ := hr _ hstart
  have hshorter : left'.length + 1 ≤ budget := by
    have hlength := length_dropBlanks_le left
    have hrest := hleft'.length_le
    rw [hword] at hlength
    simp only [List.length_append, List.length_cons] at hlength
    omega
  obtain ⟨budget, rfl⟩ : ∃ m, budget = m + 1 := ⟨budget - 1, by omega⟩
  have hstep : (logicalStep k join operand l).run left = .ok (some (join l r), left') := by
    rw [logicalStep, run_bind_ok (run_consume_of_match hmatch), if_pos rfl, run_bind_ok hrun']
    rfl
  refine ⟨budget, left', ?_, hleft', by omega⟩
  rw [hrun, extendWhile, run_bind_ok hstep]

/-- The loop ends where the keyword does not come next. -/
theorem Extends.reads (h : Extends k join operand text e rest)
    (hk : k.word.match? (dropBlanks rest) = none) :
    Reads (joined k join operand) text e rest := by
  intro cs hcs
  obtain ⟨budget, left, hrun, hleft, -⟩ := h cs hcs
  have hstep : (logicalStep k join operand e).run left = .ok (none, dropBlanks left) := by
    rw [logicalStep, run_bind_ok (run_consume_of_none (hleft.dropBlanks_eq ▸ hk))]
    rfl
  rw [hrun]
  exact hleft.extendWhile hstep budget

end Extends

/-! ### The levels of the grammar -/

/-- The parsers for what stands inside parentheses read the formulas with less than `n`
characters. -/
def ReadsFormulas (nested : Nested) (n : Nat) : Prop :=
  ∀ e : Expr, e.IsFormula → e.text.length < n → ∀ rest, ItemEnd rest →
    Reads nested.expr e.text e rest

theorem ReadsFormulas.readsOperands (h : ReadsFormulas nested n) : ReadsOperands nested n :=
  fun e he => h e (.test (.operand he))

/-- A formula in parentheses is read as a predicate. -/
theorem reads_predicate_grouped (hnested : ReadsFormulas nested n) (he : e.IsFormula)
    (hlength : (groupText true e).length ≤ n) (hrest : FormulaEnd testKeywords rest) :
    Reads (predicate nested) (groupText true e) e rest := by
  have hshorter : e.text.length < n := by
    simp only [groupText, if_true, List.length_append, List.length_cons] at hlength
    omega
  exact reads_predicate_of_sum
    (reads_sum_parenthesis he.starts (hnested e he hshorter) hrest.toOperandEnd) hrest

/-- A predicate that does not begin with a negation is read as one without negations. -/
theorem reads_negated_of_predicate {text : List Char} (htext : Starts [.not] text)
    (hrest : FormulaEnd testKeywords rest) (h : Reads (predicate nested) text e rest)
    (budget : Nat) : Reads (negated nested budget) text e rest := by
  cases budget with
  | zero => exact h
  | succ budget =>
    intro cs hcs
    have hnone : Keyword.not.word.match? (dropBlanks cs) = none := by
      rw [hcs]
      exact htext.match?_eq_none rest hrest.name List.mem_cons_self
    rw [negated, run_bind_ok (run_consume_of_none hnone), if_neg Bool.false_ne_true]
    exact h (dropBlanks cs) (by rw [dropBlanks_dropBlanks, hcs])

/-- **Negations are read back.**  The induction is on the formula; only a negation has
another part that is read at this level. -/
theorem reads_negated (hnested : ReadsFormulas nested n) (he : e.IsFormula)
    (hlength : (groupText e.isLogical e).length ≤ n) (hrest : FormulaEnd testKeywords rest)
    {budget : Nat} (hbudget : (groupText e.isLogical e).length ≤ budget) :
    Reads (negated nested budget) (groupText e.isLogical e) e rest := by
  have hopen {f : Expr} : Starts [.not] (groupText true f) :=
    starts_mark _ (by decide) (by decide) (by decide) _
  induction he generalizing budget with
  | test he =>
    rw [he.isLogical_eq] at hlength ⊢
    exact reads_negated_of_predicate (he.starts.mono (by decide)) hrest
      (reads_test hnested.readsOperands he hlength hrest) budget
  | and hl hr =>
    exact reads_negated_of_predicate hopen hrest
      (reads_predicate_grouped hnested (.and hl hr) hlength hrest) budget
  | or hl hr =>
    exact reads_negated_of_predicate hopen hrest
      (reads_predicate_grouped hnested (.or hl hr) hlength hrest) budget
  | @not e he ih =>
    change (Expr.not e).text.length ≤ n at hlength
    change (Expr.not e).text.length ≤ budget at hbudget
    change Reads (negated nested budget) (Expr.not e).text (.not e) rest
    rw [text_not] at hlength hbudget ⊢
    simp only [List.length_append, List.length_cons] at hlength hbudget
    obtain ⟨budget, rfl⟩ : ∃ m, budget = m + 1 := ⟨budget - 1, by omega⟩
    intro cs hcs
    have hmatch : Keyword.not.word.match? (dropBlanks cs) =
        some (' ' :: (groupText e.isLogical e ++ rest)) := by
      rw [hcs, List.append_assoc]
      exact keyword_match?_text .not (keyword_allows_space .not _)
    have hshorter : (groupText e.isLogical e).length ≤ budget := by omega
    obtain ⟨left, hrun, hleft⟩ := ih (by omega) hshorter _
      ((starts_groupText he.starts e.isLogical).dropBlanks_space_append rest)
    refine ⟨left, ?_, hleft⟩
    rw [negated, run_bind_ok (run_consume_of_match hmatch), if_pos rfl, run_bind_ok hrun]
    rfl

theorem reads_negation (hnested : ReadsFormulas nested n) (he : e.IsFormula)
    (hlength : (groupText e.isLogical e).length ≤ n) (hrest : FormulaEnd testKeywords rest) :
    Reads (negation nested) (groupText e.isLogical e) e rest := by
  intro cs hcs
  have hbudget : (groupText e.isLogical e).length ≤ cs.length := by
    have := length_dropBlanks_le cs
    rw [hcs, List.length_append] at this
    omega
  rw [negation, run_bind_ok run_get]
  exact reads_negated hnested he hlength hrest hbudget cs hcs

/-- **Conjunctions are read back**, as far as the loop has come. -/
theorem extends_conjunction (hnested : ReadsFormulas nested n) (he : e.IsFormula)
    (hlength : (groupText e.isOr e).length ≤ n) (hrest : FormulaEnd testKeywords rest) :
    Extends .and .and (negation nested) (groupText e.isOr e) e rest := by
  induction he generalizing rest with
  | @test e he =>
    have hsame : groupText e.isOr e = groupText e.isLogical e := by
      rw [Expr.isOr_eq_false he.isLogical_eq, he.isLogical_eq]
    rw [hsame] at hlength ⊢
    exact .of_reads (reads_negation hnested (.test he) hlength hrest)
  | @and l r hl hr ihl =>
    change (Expr.and l r).text.length ≤ n at hlength
    change Extends .and .and (negation nested) (Expr.and l r).text (.and l r) rest
    rw [text_and] at hlength ⊢
    simp only [joinText, List.length_append, List.length_cons] at hlength
    exact (ihl (by omega) (formulaEnd_keyword (by decide) _)).step
      (reads_negation hnested hr (by omega) hrest)
      ((starts_groupText hr.starts r.isLogical).dropBlanks_space_append rest)
  | or hl hr => exact .of_reads (reads_negation hnested (.or hl hr) hlength hrest)
  | not he => exact .of_reads (reads_negation hnested (.not he) hlength hrest)

theorem reads_conjunction (hnested : ReadsFormulas nested n) (he : e.IsFormula)
    (hlength : (groupText e.isOr e).length ≤ n)
    (hrest : FormulaEnd (.and :: testKeywords) rest) :
    Reads (conjunction nested) (groupText e.isOr e) e rest :=
  (extends_conjunction hnested he hlength (hrest.mono (List.subset_cons_self _ _))).reads
    (hrest.match?_eq_none List.mem_cons_self)

/-- **Disjunctions are read back**, as far as the loop has come. -/
theorem extends_disjunction (hnested : ReadsFormulas nested n) (he : e.IsFormula)
    (hlength : e.text.length ≤ n) (hrest : FormulaEnd (.and :: testKeywords) rest) :
    Extends .or .or (conjunction nested) e.text e rest := by
  induction he generalizing rest with
  | @test e he =>
    have hsame : e.text = groupText e.isOr e := by
      rw [Expr.isOr_eq_false he.isLogical_eq]
      rfl
    rw [hsame] at hlength ⊢
    exact .of_reads (reads_conjunction hnested (.test he) hlength hrest)
  | and hl hr => exact .of_reads (reads_conjunction hnested (.and hl hr) hlength hrest)
  | @or l r hl hr ihl =>
    rw [text_or] at hlength ⊢
    simp only [joinText, List.length_append, List.length_cons] at hlength
    exact (ihl (by omega) (formulaEnd_keyword (by decide) _)).step
      (reads_conjunction hnested hr (by omega) hrest)
      ((starts_groupText hr.starts r.isOr).dropBlanks_space_append rest)
  | not he => exact .of_reads (reads_conjunction hnested (.not he) hlength hrest)

theorem reads_disjunction (hnested : ReadsFormulas nested n) (he : e.IsFormula)
    (hlength : e.text.length ≤ n) (hrest : FormulaEnd (.or :: .and :: testKeywords) rest) :
    Reads (disjunction nested) e.text e rest :=
  (extends_disjunction hnested he hlength (hrest.mono (List.subset_cons_self _ _))).reads
    (hrest.match?_eq_none List.mem_cons_self)

/-- A sum with nothing behind it is read as an expression. -/
theorem reads_disjunction_of_sum {text : List Char} {e : Expr} (htext : Starts [.not] text)
    (h : Reads (sum nested) text e rest)
    (hrest : FormulaEnd (.or :: .and :: testKeywords) rest) :
    Reads (disjunction nested) text e rest := by
  have hand : FormulaEnd (.and :: testKeywords) rest := hrest.mono (List.subset_cons_self _ _)
  have htest : FormulaEnd testKeywords rest := hand.mono (List.subset_cons_self _ _)
  have hnegation : Reads (negation nested) text e rest := by
    intro cs hcs
    rw [negation, run_bind_ok run_get]
    exact reads_negated_of_predicate htext htest (reads_predicate_of_sum h htest)
      cs.length cs hcs
  have hconjunction : Reads (conjunction nested) text e rest :=
    (Extends.of_reads hnegation).reads (hand.match?_eq_none List.mem_cons_self)
  exact (Extends.of_reads hconjunction).reads (hrest.match?_eq_none List.mem_cons_self)

/-- **Parsers for a depth of `n` read all formulas with less than `n` characters.** -/
theorem readsFormulas_nestedAt (n : Nat) : ReadsFormulas (nestedAt n) n := by
  induction n with
  | zero => exact fun e _ hlength => absurd hlength (Nat.not_lt_zero _)
  | succ n ih =>
    intro e he hlength rest hrest
    exact reads_disjunction ih he (Nat.le_of_lt_succ hlength) (hrest.formulaEnd _)

end Grammar

/-- What is read as an expression at the depth of the text is read up to the end of the
text. -/
theorem run_parseExpr_of_reads {text : List Char} {e : Expr} (hstart : dropBlanks text = text)
    (h : Reads (Grammar.disjunction (Grammar.nestedAt (text.length + 1))) text e []) :
    parseExpr.run text = .ok (e, []) := by
  obtain ⟨left, hrun, hleft⟩ := h text (by rwa [List.append_nil])
  have hempty : left = [] := by rcases hleft with rfl | rfl <;> rfl
  rw [parseExpr, Grammar.anyDepth, run_bind_ok run_get, ← hempty]
  exact hrun

/-- What is read as a sum, and is all of the text, is the expression that is read. -/
theorem run_parseExpr_of_sum {text : List Char} {e : Expr} (hstarts : Starts [.not] text)
    (h : ∀ nested, Reads (Grammar.sum nested) text e []) : parseExpr.run text = .ok (e, []) :=
  run_parseExpr_of_reads (by simpa using hstarts.dropBlanks_append [])
    (Grammar.reads_disjunction_of_sum hstarts (h _) (Grammar.formulaEnd_nil _))

/-- A formula is read up to the end of its text. -/
theorem run_parseExpr_text {e : Expr} (he : e.IsFormula) :
    parseExpr.run e.text = .ok (e, []) :=
  run_parseExpr_of_reads (by simpa using he.starts.dropBlanks_append [])
    (Grammar.reads_disjunction (Grammar.readsFormulas_nestedAt (e.text.length + 1)) he
      (Nat.le_succ _)
      (Grammar.formulaEnd_nil _))

/-- **Every formula is read back from its text.**  The parser gives the very same tree,
and stands at the end of the text. -/
theorem formula_read_back {e : Expr} (he : e.IsFormula) :
    (Cursor.ofString e.display).run parseExpr = (.ok e, ⟨e.display.toList, []⟩) := by
  have hparse : parseExpr.run e.display.toList = .ok (e, []) := run_parseExpr_text he
  rw [Cursor.run, Cursor.ofString]
  simp only [hparse]

/-- The formula with the text `NOT (t.b.c <> 'it''s' OR x IS NOT NULL) AND (COUNT(DISTINCT
y) NOT IN (-5, NULL) OR NOT f())`. -/
def groupedFormula : Expr :=
  .and
    (.not (.or
      (.compare .ne (.column (.qualified "t" (String.intercalate "." ["b", "c"])))
        (.literal (.string "it''s")))
      (.isNull true (.column (.bare "x")))))
    (.or
      (.inList true (.call "COUNT" true [.column (.bare "y")])
        [.signed true (.literal (.int 5)), .literal .null])
      (.not (.call "f" false [])))

theorem isFormula_groupedFormula : groupedFormula.IsFormula := by
  have hword : ∀ word ∈ ["t", "x", "y", "COUNT", "f"], IsLeadingWord word := by decide
  have hpath : ∀ part ∈ ["b", "c"], IsIdentifier part := by decide
  have hraw : EvenRuns '\'' "it''s".toList :=
    (((evenRuns_nil '\'').cons (by decide : 's' ≠ '\'')).double.cons
      (by decide : 't' ≠ '\'')).cons (by decide : 'i' ≠ '\'')
  have hcall : (Expr.call "COUNT" true [.column (.bare "y")]).IsOperand :=
    .call (hword _ (by decide)) (by simpa using .bare (hword _ (by decide))) (by simp)
  have hitems : ∀ item ∈ [Expr.signed true (.literal (.int 5)), .literal .null],
      item.IsOperand := by
    simpa using ⟨.signed true (.int (by decide) (by decide)), .null⟩
  refine .and (.not (.or (.test ?_) (.test ?_))) (.or (.test ?_) (.not (.test ?_)))
  · exact .compare .ne (.qualified (hword _ (by decide)) (by simp) hpath) (.string hraw)
  · exact .isNull true (.bare (hword _ (by decide)))
  · exact .inList true hcall hitems
  · exact .operand (.call (hword _ (by decide)) (by simp) (by simp))

theorem formula_read_back_grouped : groupedFormula.IsFormula ∧
    (Cursor.ofString groupedFormula.display).run parseExpr =
      (.ok groupedFormula, ⟨groupedFormula.display.toList, []⟩) :=
  ⟨isFormula_groupedFormula, formula_read_back isFormula_groupedFormula⟩

end DocQuery.Sql
