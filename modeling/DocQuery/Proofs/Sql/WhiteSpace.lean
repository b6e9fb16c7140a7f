import DocQuery.Proofs.Sql.FollowingQuery
import DocQuery.Sql.Grammar.Statement

/-!
# White space in statements

A statement depends on the white space of its text only through its presence.  Any white
space outside of quotes may be replaced by any other white space, and the statement stays
the same.

* `follows_parseInsert`, `follows_parseUpdate`, `follows_parseDelete` — the writing statements
* `follows_parseStatement` — every statement, up to the end of the text
* `whiteSpace_replaced_same_statement` — white space that is replaced

### What is load-bearing

A statement reaches to the end of its text, and neither of the two texts goes on behind
the other.  So `rest` is empty here, and every run is followed.
-/

namespace DocQuery.Sql

open Scan Text Grammar

variable {n : Nat}

/-! ### Parts of statements -/

section Parts

/-- At the end of a statement nothing else begins. -/
theorem live_end : False ∨ ([] : List Char) = [] :=
  .inr rfl

theorem follows_anyExpr : Follows False n (Ahead []) (Ahead []) parseExpr parseExpr :=
  follows_parseExpr cut_nil (.inr exprEnd_nil)

instance : Shrinks parseExpr :=
  inferInstanceAs (Shrinks (do disjunction (nestedAt ((← get).length + 1))))

instance : Shrinks row := by
  unfold row
  infer_instance

instance : Shrinks assignment := by
  unfold assignment
  refine .bind inferInstance fun mark => .bind inferInstance fun e => ?_
  split <;> infer_instance

/-- A mark that may be missing. -/
theorem follows_mark {c : Char} (hc : isMark c = true) :
    Follows False n (Ahead []) (Ahead []) (consumeChar c) (consumeChar c) :=
  follows_consumeChar hc (.inr (Ne.symm (isMark_iff.mp hc).1))

/-- Items between commas up to a closing parenthesis. -/
theorem follows_closedList {α : Type} {item : Parser α} [Shrinks item]
    (hitem : ∀ n, Follows False n (Ahead []) (Ahead []) item item) :
    Follows False n (Ahead []) (Ahead [])
      (do let items ← commaList item; expectChar ')'; pure items)
      (do let items ← commaList item; expectChar ')'; pure items) := by
  refine ((hitem n).commaList (.inr (by decide))).bind_live fun items m => ?_
  exact (follows_expectChar (by decide)).ahead.bind_live fun _ m => follows_pure items

theorem follows_row : Follows False n (Ahead []) (Ahead []) row row := by
  refine (follows_expectChar (by decide)).ahead.bind_live fun _ m => ?_
  refine (follows_mark (by decide)).bind_live fun found m => ?_
  cases found with
  | true => exact follows_pure []
  | false => exact follows_closedList fun n => follows_anyExpr

theorem follows_nameList : Follows False n (Ahead []) (Ahead []) nameList nameList := by
  refine (follows_mark (by decide)).bind_live fun found m => ?_
  cases found with
  | true => exact follows_closedList fun n => (follows_name cut_nil).ahead
  | false => exact follows_pure []

theorem follows_assignment : Follows False n (Ahead []) (Ahead []) assignment assignment := by
  refine follows_get fun cs ds h hlength => ?_
  refine (follows_anyExpr cs ds h hlength).bind_live fun e left left' _ _ hleft => ?_
  split
  · split
    · intro _ _ hrun
      cases hrun
    · exact .of_run rfl rfl hleft
  · exact .failAt _ _

/-- A keyword that has to be there. -/
theorem follows_expected (k : Keyword) :
    Follows False n (Ahead []) (Ahead []) (expect k) (expect k) :=
  (follows_expect cut_nil k).ahead

/-- Looking for a keyword. -/
theorem follows_looking (k : Keyword) :
    Follows False n (Ahead []) (Ahead []) (check k) (check k) :=
  follows_check cut_nil (match?_of_end live_end k)

/-- The condition of a statement. -/
theorem follows_condition : Follows False n (Ahead []) (Ahead []) (after .whereKw parseExpr)
    (after .whereKw parseExpr) :=
  follows_after cut_nil (selectEnd_of_end live_end) (by decide) (by decide) follows_anyExpr

end Parts

/-! ### Statements -/

theorem follows_parseInsert :
    Follows False n (Ahead []) (Ahead []) parseInsert parseInsert := by
  refine (follows_expected .insertInto).bind_live fun _ m => ?_
  refine (follows_dottedName cut_nil).ahead.bind_live fun table m => ?_
  refine follows_nameList.bind_live fun columns m => ?_
  refine (follows_expected .values).bind_live fun _ m => ?_
  exact (follows_row.commaList (.inr (by decide))).bind_live fun rows m => follows_pure _

theorem follows_parseUpdate :
    Follows False n (Ahead []) (Ahead []) parseUpdate parseUpdate := by
  refine (follows_expected .update).bind_live fun _ m => ?_
  refine (follows_table cut_nil (selectEnd_of_end live_end)).bind_live fun table m => ?_
  refine (follows_expected .setKw).bind_live fun _ m => ?_
  refine (follows_assignment.commaList (.inr (by decide))).bind_live fun assignments m => ?_
  refine follows_condition.bind_live fun filter m => ?_
  exact (follows_paging cut_nil live_end).bind_live fun page m => follows_pure _

/-- A deletion behind its targets. -/
def deleteFrom (targets : List String) : Parser Delete := do
  expect .fromKw
  let source ← table
  let filter ← after .whereKw parseExpr
  let (limit, _) ← paging
  return { targets, source, filter, limit }

theorem follows_deleteFrom (targets : List String) :
    Follows False n (Ahead []) (Ahead []) (deleteFrom targets) (deleteFrom targets) := by
  refine (follows_expected .fromKw).bind_live fun _ m => ?_
  refine (follows_table cut_nil (selectEnd_of_end live_end)).bind_live fun source m => ?_
  refine follows_condition.bind_live fun filter m => ?_
  exact (follows_paging cut_nil live_end).bind_live fun page m => follows_pure _

theorem follows_parseDelete :
    Follows False n (Ahead []) (Ahead []) parseDelete parseDelete := by
  refine (follows_expected .delete).bind_live fun _ m => ?_
  refine (follows_looking .fromKw).bind_live fun found m => ?_
  cases found with
  | true => exact follows_deleteFrom []
  | false =>
    exact ((follows_dottedName cut_nil).ahead.commaList (.inr (by decide))).bind_live
      fun targets m => follows_deleteFrom targets

/-- A statement that is no query is told by its first keyword. -/
def parseWriting : Parser Statement := do
  if ← check .insertInto then return .insert (← parseInsert)
  if ← check .update then return .update (← parseUpdate)
  if ← check .delete then return .delete (← parseDelete)
  let mark ← get
  discard (takeChars (!Text.isBlank ·))
  failAt mark .unsupportedStatement

theorem parseAnyStatement_eq : parseAnyStatement = (do
    if (← check .select) || (← current) == '(' then
      return .select (← parseQuery)
    parseWriting) := rfl

theorem follows_parseWriting :
    Follows False n (Ahead []) (Ahead []) parseWriting parseWriting := by
  refine (follows_looking .insertInto).bind_live fun found m => ?_
  cases found with
  | true => exact follows_parseInsert.bind_live fun insert m => follows_pure _
  | false =>
    refine (follows_looking .update).bind_live fun found m => ?_
    cases found with
    | true => exact follows_parseUpdate.bind_live fun update m => follows_pure _
    | false =>
      refine (follows_looking .delete).bind_live fun found m => ?_
      cases found with
      | true => exact follows_parseDelete.bind_live fun delete m => follows_pure _
      | false =>
        intro cs ds _ _ _ _ hrun
        cases hrun

theorem follows_parseAnyStatement :
    Follows False n (Ahead []) (Ahead []) parseAnyStatement parseAnyStatement := by
  rw [parseAnyStatement_eq]
  intro cs ds h hlength
  have hfront : front (dropBlanks cs) = front (dropBlanks ds) := by
    cases h with
    | ended hcs hds => rw [hcs, hds]
    | same hcs hds => rw [hcs, hds, front_cons, front_cons]
  refine (follows_looking .select cs ds h hlength).bind_live
    fun found left left' hleft hleft' hahead => ?_
  obtain rfl : left = dropBlanks cs := by
    cases hleft
    rfl
  obtain rfl : left' = dropBlanks ds := by
    cases hleft'
    rfl
  refine .step (run_bind_ok run_current) (run_bind_ok run_current) ?_
  rw [hfront]
  split
  · exact (follows_parseQuery cut_nil live_end _ _ hahead (Nat.lt_succ_self _)).bind_live
      fun query last last' _ _ hlast => .of_run rfl rfl hlast
  · exact follows_parseWriting _ _ hahead (Nat.lt_succ_self _)

/-- **Statements are followed.** -/
theorem follows_parseStatement :
    Follows False n (Ahead []) (Ahead []) parseStatement parseStatement := by
  refine follows_parseAnyStatement.bind_live fun statement m => ?_
  exact follows_endOfText.bind_live fun _ m => follows_pure statement

/-! ### Replacing white space -/

theorem ofString_eq_ok_iff {s : String} {statement : Statement} :
    Statement.ofString s = .ok statement ↔
      ∃ left, parseStatement.run s.toList = .ok (statement, left) := by
  rw [Statement.ofString, parseStart, Cursor.run, Cursor.ofString]
  cases parseStatement.run s.toList with
  | error fault => simp
  | ok result => simp [Prod.ext_iff]

/-- Texts that differ in their blanks are read as the same statement. -/
theorem ofString_of_respaced {s t : String} (h : Respaced [] s.toList t.toList)
    {statement : Statement} (hs : Statement.ofString s = .ok statement) :
    Statement.ofString t = .ok statement := by
  obtain ⟨left, hrun⟩ := ofString_eq_ok_iff.mp hs
  rcases follows_parseStatement s.toList t.toList h.ahead (Nat.lt_succ_self _) statement
    left hrun
    with ⟨hno, -⟩ | ⟨left', hrun', -⟩
  · exact hno.elim
  · exact ofString_eq_ok_iff.mpr ⟨left', hrun'⟩

/-- **White space matters only through its presence.**  White space that stands outside of
quotes may be replaced by any other white space: the text is read as a statement if the
other text is, and as the same one. -/
theorem whiteSpace_replaced_same_statement {before run run' after : String}
    (hbefore : openQuote before.toList = none) (hrun : IsBlankRun run.toList)
    (hrun' : IsBlankRun run'.toList) (statement : Statement) :
    Statement.ofString (before ++ run ++ after) = .ok statement ↔
      Statement.ofString (before ++ run' ++ after) = .ok statement := by
  have hreplace : ∀ {run run' : String}, IsBlankRun run.toList → IsBlankRun run'.toList →
      Respaced [] (before ++ run ++ after).toList (before ++ run' ++ after).toList := by
    intro run run' hrun hrun'
    simp only [String.toList_append, List.append_assoc]
    exact .replace hbefore hrun hrun'
  exact ⟨ofString_of_respaced (hreplace hrun hrun'),
    ofString_of_respaced (hreplace hrun' hrun)⟩

/-- The table, the columns and the numbers of values of an insertion. -/
def insertShape? : Except SyntaxError Statement → Option (String × List String × List Nat)
  | .ok (.insert i) => some (i.table, i.columns, i.rows.map List.length)
  | _ => none

/-- An insertion of one row without values is known from its shape. -/
theorem eq_of_insertShape? {result : Except SyntaxError Statement} {table : String}
    {columns : List String} (h : insertShape? result = some (table, columns, [0])) :
    result = .ok (.insert ⟨table, columns, [[]]⟩) := by
  unfold insertShape? at h
  split at h
  · next i =>
    obtain ⟨table, columns, rows⟩ := i
    simp only [Option.some.injEq, Prod.mk.injEq] at h
    obtain ⟨rfl, rfl, hrows⟩ := h
    obtain ⟨row, rest, rfl, hrow, hrest⟩ := List.map_eq_cons_iff.mp hrows
    cases List.map_eq_nil_iff.mp hrest
    cases List.length_eq_zero_iff.mp hrow
    rfl
  · cases h

/-- The space inside a keyword of two words becomes a line break and a tab. -/
theorem whiteSpace_replaced_same_statement_insert :
    Statement.ofString ("INSERT" ++ "\n\t" ++ "INTO t VALUES ()") =
      .ok (.insert ⟨"t", [], [[]]⟩) := by
  have hspace : Statement.ofString ("INSERT" ++ " " ++ "INTO t VALUES ()") =
      .ok (.insert ⟨"t", [], [[]]⟩) := eq_of_insertShape? (by decide +kernel)
  have hblank : ∀ {run : String}, run.toList ≠ [] → run.toList.all isBlank = true →
      IsBlankRun run.toList := fun hne hall => ⟨hne, List.all_eq_true.mp hall⟩
  exact (whiteSpace_replaced_same_statement (by decide) (hblank (by decide) (by decide))
    (hblank (by decide) (by decide)) _).mp hspace

end DocQuery.Sql
