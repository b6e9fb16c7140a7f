import DocQuery.Proofs.Sql.FollowingQuery
import DocQuery.Proofs.Sql.RoundTrip

/-!
# Parentheses

A text that is read as an expression is read as the same expression inside any number of
parentheses.

* `match?_select_of_disjunction` — no expression begins with `SELECT`
* `run_parenthesis_of_expr` — what is read on its own is read up to a closing parenthesis
* `run_parseExpr_pair` — one pair of parentheses
* `parentheses_leave_no_trace` — any number of pairs

### What is load-bearing

Behind an opening parenthesis the word `SELECT` makes a query of what follows, and nothing
else is treated differently there.  It is reserved, so no expression can begin with it;
this is not visible in the levels of the grammar, which only fail when the word has come
down to the tightest of them.
-/

namespace DocQuery.Sql

open Scan Text

namespace Grammar

variable {nested : Nested} {e : Expr} {text cs left : List Char}

/-- Where no name begins, no keyword matches. -/
theorem keyword_match?_of_front (h : isNameChar (front cs) = false) (k : Keyword) :
    k.word.match? cs = none := by
  have hempty : leadingWord cs = [] := by
    cases cs with
    | nil => rfl
    | cons c cs => exact List.takeWhile_cons_of_neg (by simpa using h)
  refine keyword_match?_eq_none ?_
  rw [hempty]
  exact (keyword_head_ne_nil k).symm

/-! ### No expression begins with SELECT -/

/-- The word at the front of a text that begins with `SELECT`. -/
theorem leadingWord_of_select {after : List Char}
    (h : Keyword.select.word.match? cs = some after) :
    (leadingWord cs).map Char.toUpper = Keyword.select.head := by
  by_contra hne
  rw [keyword_match?_eq_none hne] at h
  cases h

/-- A text whose first word is `SELECT` begins with a name that is this word. -/
theorem exists_name_of_select (h : (leadingWord cs).map Char.toUpper = Keyword.select.head) :
    ∃ word rest, IsIdentifier word ∧ sameWord "SELECT" word = true ∧
      isNameChar (front rest) = false ∧ cs = word.toList ++ rest := by
  have htoList : (String.ofList (leadingWord cs)).toList = leadingWord cs :=
    String.toList_ofList
  refine ⟨String.ofList (leadingWord cs), cs.dropWhile isNameChar, ⟨?_, ?_, ?_⟩, ?_,
    isNameChar_front_dropWhile cs, ?_⟩
  · rw [htoList]
    intro hnil
    rw [hnil] at h
    exact absurd h (by decide)
  · rw [htoList]
    cases hword : leadingWord cs with
    | nil => decide
    | cons c more =>
      rw [hword] at h
      have hupper : c.toUpper = 'S' := (List.cons.inj h).1
      have hdigit : c.isDigit = c.toUpper.isDigit :=
        toUpper_cases (P := fun c upper => c.isDigit =
          upper.isDigit) (fun _ => rfl) (by decide) c
      rw [front_cons, hdigit, hupper]
      decide
  · rw [htoList]
    exact fun c hc => isNameChar_of_mem_leadingWord hc
  · exact sameWord_of_toUpper (by rw [htoList, h]; decide)
  · rw [htoList]
    exact List.takeWhile_append_dropWhile.symm

/-- The word `SELECT` stands for no expression. -/
theorem run_wordExpr_select {mark : List Char} {word : String}
    (h : sameWord "SELECT" word = true) :
    (wordExpr nested mark word).run cs ≠ .ok (e, left) := by
  have hlower : "SELECT".toList.map Char.toLower = word.toList.map Char.toLower :=
    beq_iff_eq.mp h
  have hconstant : ∀ constant ∈ ["TRUE", "FALSE", "NULL"],
      sameWord word constant = false := by
    intro constant hmem
    rw [sameWord, ← hlower]
    revert constant
    decide
  have hreserved : isReserved word = true := List.any_eq_true.mpr ⟨"SELECT", by decide, h⟩
  rw [wordExpr_eq, hconstant "TRUE" (by decide), hconstant "FALSE" (by decide),
    hconstant "NULL" (by decide), hreserved]
  intro hrun
  cases hrun

/-- No primary begins with `SELECT`. -/
theorem match?_select_of_primary (h : (primary nested).run cs = .ok (e, left)) :
    Keyword.select.word.match? (dropBlanks cs) = none := by
  cases hmatch : Keyword.select.word.match? (dropBlanks cs) with
  | none => rfl
  | some after =>
    obtain ⟨word, rest, hword, hsame, hrest, hcs⟩ :=
      exists_name_of_select (leadingWord_of_select hmatch)
    rw [run_primary_word hword hrest hcs] at h
    exact absurd h (run_wordExpr_select hsame)

/-- Where a sign is written there is no word. -/
theorem match?_select_of_signedPrimary {budget : Nat}
    (h : (signedPrimary nested budget).run cs = .ok (e, left)) :
    Keyword.select.word.match? (dropBlanks cs) = none := by
  cases budget with
  | zero => exact match?_select_of_primary h
  | succ budget =>
    rw [signedPrimary, run_bind_ok run_skipBlanks, run_bind_ok run_current] at h
    split at h
    case h_3 => simpa using match?_select_of_primary h
    all_goals
      rename_i hfront
      exact keyword_match?_of_front (by rw [hfront]; decide) _

theorem match?_select_of_sum (h : (sum nested).run cs = .ok (e, left)) :
    Keyword.select.word.match? (dropBlanks cs) = none := by
  obtain ⟨_, _, hproduct, -⟩ := exists_of_run_bind h
  obtain ⟨_, _, hunary, -⟩ := exists_of_run_bind hproduct
  rw [unary, run_bind_ok run_get] at hunary
  exact match?_select_of_signedPrimary hunary

/-- Where a negation is written there is another word. -/
theorem match?_select_of_negated {budget : Nat}
    (h : (negated nested budget).run cs = .ok (e, left)) :
    Keyword.select.word.match? (dropBlanks cs) = none := by
  have hpredicate : ∀ {cs}, (predicate nested).run cs = .ok (e, left) →
      Keyword.select.word.match? (dropBlanks cs) = none := by
    intro cs hrun
    obtain ⟨_, _, hsum, -⟩ := exists_of_run_bind hrun
    exact match?_select_of_sum hsum
  cases budget with
  | zero => exact hpredicate h
  | succ budget =>
    cases hmatch : Keyword.select.word.match? (dropBlanks cs) with
    | none => rfl
    | some after =>
      have hnot : Keyword.not.word.match? (dropBlanks cs) = none :=
        keyword_match?_eq_none (by rw [leadingWord_of_select hmatch]; decide)
      rw [negated, run_bind_ok (run_consume_of_none hnot), if_neg Bool.false_ne_true] at h
      have hnone := hpredicate h
      rw [dropBlanks_dropBlanks, hmatch] at hnone
      cases hnone

/-- **No expression begins with `SELECT`.** -/
theorem match?_select_of_disjunction (h : (disjunction nested).run cs = .ok (e, left)) :
    Keyword.select.word.match? (dropBlanks cs) = none := by
  obtain ⟨_, _, hconjunction, -⟩ := exists_of_run_bind h
  obtain ⟨_, _, hnegation, -⟩ := exists_of_run_bind hconjunction
  rw [negation, run_bind_ok run_get] at hnegation
  exact match?_select_of_negated hnegation

/-! ### Inside a pair of parentheses -/

theorem cut_close : Cut [')'] where
  start := by decide
  mark := by decide
  word := by decide

theorem exprEnd_close : ExprEnd [')'] :=
  fun k _ => keyword_match?_of_front (by decide) k

/-- A text that does not begin with a keyword does not begin with it before a closing
parenthesis. -/
theorem run_check_close {k : Keyword} (h : k.word.match? (dropBlanks text) = none) :
    (check k).run (text ++ [')']) = .ok (false, dropBlanks (text ++ [')'])) := by
  have hspaced : Respaced [')'] text (text ++ [')']) :=
    .append_end text (by decide) (.inr (by decide))
  have hcheck : (check k).run text = .ok (false, dropBlanks text) := by
    rw [run_check, h, Option.isSome_none]
  have hfollows : FollowsAt False (Ahead [')']) (check k) (check k) text (text ++ [')']) :=
    follows_check cut_close (.inr (keyword_match?_of_front (by decide) k)) _ _ hspaced.ahead
      (Nat.lt_succ_self _)
  obtain ⟨left, hrun, -⟩ :=
    (hfollows false (dropBlanks text) hcheck).resolve_left fun hno => hno.1
  rw [run_check, Except.ok.injEq, Prod.mk.injEq] at hrun
  rw [run_check, hrun.1]

/-- **What is read on its own is read up to a closing parenthesis**, if there is depth
enough for the longer text. -/
theorem run_parenthesis_of_expr {depth n : Nat}
    (h : (disjunction (nestedAt depth)).run text = .ok (e, [])) (hn : text.length + 1 < n) :
    (parenthesis (nestedAt n)).run (text ++ [')']) = .ok (e, []) := by
  have hspaced : Respaced [')'] text (text ++ [')']) :=
    .append_end text (by decide) (.inr (by decide))
  have hahead : Ahead [')'] text (dropBlanks (text ++ [')'])) :=
    hspaced.ahead.congr (dropBlanks_dropBlanks _).symm
  have hlength : (dropBlanks (text ++ [')'])).length < n :=
    Nat.lt_of_le_of_lt (length_dropBlanks_le _) (by simpa using hn)
  have hfollows : FollowsAt False (Ahead [')']) (nestedAt (depth + 1)).expr
    (nestedAt n).expr text
      (dropBlanks (text ++ [')'])) :=
    (following_nestedAt cut_close (depth + 1) n).expr (.inr exprEnd_close) _ _ hahead hlength
  obtain ⟨left, hrun, hleft⟩ := (hfollows e [] h).resolve_left fun hno => hno.1
  have hclose : dropBlanks left = [')'] := by
    cases hleft with
    | ended _ hds => exact hds
    | same hcs => cases hcs
  rw [parenthesis, run_bind_ok (run_check_close (match?_select_of_disjunction h)),
    if_neg Bool.false_ne_true, run_bind_ok hrun, run_bind_ok (run_expectChar hclose)]
  rfl

/-- A pair of parentheses and what stands inside it is a primary. -/
theorem reads_primary_pair (h : (parenthesis nested).run (text ++ [')']) = .ok (e, [])) :
    Reads (primary nested) ('(' :: (text ++ [')'])) e [] := by
  intro cs hcs
  refine ⟨[], ?_, .inl rfl⟩
  rw [primary, run_bind_ok run_skipBlanks, run_bind_ok run_get, hcs, List.append_nil]
  exact (run_bind_ok (run_advance 1)).trans h

end Grammar

/-! ### Pairs of parentheses -/

/-- **One pair of parentheses**: the same expression is read, up to the end of the longer
text. -/
theorem run_parseExpr_pair {text : List Char} {e : Expr}
    (h : parseExpr.run text = .ok (e, [])) :
    parseExpr.run ('(' :: (text ++ [')'])) = .ok (e, []) := by
  rw [parseExpr, Grammar.anyDepth, run_bind_ok run_get] at h
  have hdepth : text.length + 1 < ('(' :: (text ++ [')'])).length + 1 := by simp
  have hprimary := Grammar.reads_primary_pair (Grammar.run_parenthesis_of_expr h hdepth)
  have hsum := Grammar.reads_sum_of_signedPrimary
    (fun budget _ => Grammar.reads_signedPrimary_of_primary hprimary (by simp) budget)
    (Grammar.formulaEnd_nil []).toOperandEnd
  have hstarts : Starts [.not] ('(' :: (text ++ [')'])) :=
    starts_mark _ (by decide) (by decide) (by decide) _
  exact run_parseExpr_of_reads (dropBlanks_cons (by decide) _)
    (Grammar.reads_disjunction_of_sum hstarts hsum (Grammar.formulaEnd_nil _))

/-- A text inside a number of pairs of parentheses. -/
def enclosed (pairs : Nat) (s : String) : String :=
  String.ofList (List.replicate pairs '(' ++ s.toList ++ List.replicate pairs ')')

/-- One more pair is put around the others. -/
theorem toList_enclosed_succ (pairs : Nat) (s : String) :
    (enclosed (pairs + 1) s).toList = '(' :: ((enclosed pairs s).toList ++ [')']) := by
  rw [enclosed, enclosed, String.toList_ofList, String.toList_ofList, List.replicate_succ,
    List.replicate_succ']
  simp only [List.cons_append, List.append_assoc]

theorem run_parseExpr_enclosed {s : String} {e : Expr}
    (h : parseExpr.run s.toList = .ok (e, [])) (pairs : Nat) :
    parseExpr.run (enclosed pairs s).toList = .ok (e, []) := by
  induction pairs with
  | zero => simpa [enclosed] using h
  | succ pairs ih =>
    rw [toList_enclosed_succ]
    exact run_parseExpr_pair ih

/-- A parser that reads all of a text, seen from a cursor. -/
theorem run_ofString_eq_ok_iff {α : Type} {p : Parser α} {s : String} {a : α} :
    (Cursor.ofString s).run p = (.ok a, ⟨s.toList, []⟩) ↔ p.run s.toList = .ok (a, []) := by
  rw [Cursor.run, Cursor.ofString]
  cases p.run s.toList with
  | ok result =>
    obtain ⟨b, left⟩ := result
    simp
  | error fault => simp

/-- **Parentheses leave no trace.**  A text that is read to its end as an expression is
read to its end as the same expression inside any number of pairs of parentheses. -/
theorem parentheses_leave_no_trace {s : String} {e : Expr}
    (h : (Cursor.ofString s).run parseExpr = (.ok e, ⟨s.toList, []⟩)) (pairs : Nat) :
    (Cursor.ofString (enclosed pairs s)).run parseExpr =
      (.ok e, ⟨(enclosed pairs s).toList, []⟩) := by
  rw [run_ofString_eq_ok_iff] at h ⊢
  exact run_parseExpr_enclosed h pairs

theorem parentheses_leave_no_trace_grouped :
    (Cursor.ofString groupedFormula.display).run parseExpr =
      (.ok groupedFormula, ⟨groupedFormula.display.toList, []⟩) ∧
    (Cursor.ofString (enclosed 3 groupedFormula.display)).run parseExpr =
      (.ok groupedFormula, ⟨(enclosed 3 groupedFormula.display).toList, []⟩) := by
  have h : (Cursor.ofString groupedFormula.display).run parseExpr =
      (.ok groupedFormula, ⟨groupedFormula.display.toList, []⟩) :=
    run_ofString_eq_ok_iff.mpr (run_parseExpr_text isFormula_groupedFormula)
  exact ⟨h, parentheses_leave_no_trace h 3⟩

end DocQuery.Sql
