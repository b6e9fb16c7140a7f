import DocQuery.Proofs.Scan.Locating
import DocQuery.Proofs.Sql.Ending
import DocQuery.Proofs.Sql.WhiteSpace

/-!
# Where statements and expressions fail

Every failure of the grammar lies in the text that was read, and an expression is never
read from nothing.

* `Nested.Locating` — the parsers for what stands inside parentheses fail behind every
  mark they are run behind
* `locating_nestedAt` — the parsers of every depth do
* `consumes_disjunction` — an expression takes up at least one character
* `parsers_end_inside_the_text` — reading ends, moves forward, and fails inside the text
-/

set_option synthInstance.maxSize 600

namespace DocQuery.Sql

open Scan Text

namespace Grammar

variable {mark : List Char}

/-- The parsers for what stands inside parentheses fail behind every mark they are run
behind. -/
class Nested.Locating (nested : Nested) : Prop where
  expr : ∀ mark, FailsBehind mark nested.expr
  query : ∀ mark, FailsBehind mark nested.query

attribute [instance] Nested.Locating.expr Nested.Locating.query

/-! ### Literals and operators -/

instance : FailsBehind mark stringLiteral := by
  unfold stringLiteral
  infer_instance

instance : FailsBehind mark fractionPart := by
  unfold fractionPart
  infer_instance

instance : FailsBehind mark exponentPart := by
  unfold exponentPart
  infer_instance

instance : FailsBehind mark numberLiteral := by
  unfold numberLiteral
  refine @FailsBehind.bind _ _ _ _ _ _ _ fun _ => @failsBehind_get _ _ _ fun start =>
    @FailsBehind.bind _ _ _ _ _ _ _ fun whole =>
      @FailsBehind.bind _ _ _ _ _ _ _ fun fraction =>
    @FailsBehind.bind _ _ _ _ _ _ _ fun exponent => ?_
  dsimp only
  split
  · infer_instance
  · split <;> infer_instance

instance (timestamp : Bool) : FailsBehind mark (datedLiteral timestamp) := by
  unfold datedLiteral
  refine @FailsBehind.bind _ _ _ _ _ _ _ fun _ => @failsBehind_get _ _ _ fun start =>
    @FailsBehind.bind _ _ _ _ _ _ _ fun text => ?_
  dsimp only
  split <;> split <;> infer_instance

instance : FailsBehind mark comparison := by
  unfold comparison
  refine @FailsBehind.bind _ _ _ _ _ _ _ fun _ => @failsBehind_get _ _ _ fun start => ?_
  dsimp only
  split <;> infer_instance

/-! ### Expressions -/

section Expressions

variable (nested : Nested) [nested.Shrinking] [nested.Locating]

instance (name : String) : FailsBehind mark (callArgs nested name) := by
  unfold callArgs
  infer_instance

instance : FailsBehind mark (parenthesis nested) := by
  unfold parenthesis
  infer_instance

instance FailsBehind.columnPath (table : String) (budget : Nat) (parts : List String) :
    FailsBehind mark (columnPath mark table budget parts) := by
  induction budget generalizing parts with
  | zero => exact inferInstanceAs (FailsBehind mark (pure _))
  | succ budget ih =>
    unfold Grammar.columnPath
    dsimp only
    infer_instance

/-- A path is faulty from its first name on. -/
instance (word : String) (c : Char) : FailsBehind mark (afterWord nested mark word c) := by
  unfold afterWord
  split
  case h_3 => exact @FailsBehind.bind _ _ _ _ _ _ _ fun _ => inferInstance
  all_goals infer_instance

instance (word : String) : FailsBehind mark (wordExpr nested mark word) := by
  rw [wordExpr_eq]
  infer_instance

instance : FailsBehind mark (primary nested) := by
  unfold primary
  refine @FailsBehind.bind _ _ _ _ _ _ _ fun _ => @failsBehind_get _ _ _ fun start => ?_
  split
  all_goals try infer_instance
  split
  · infer_instance
  · refine @FailsBehind.bind _ _ _ _ _ _ _ fun word => ?_
    cases word <;> infer_instance

instance FailsBehind.signedPrimary (budget : Nat) :
    FailsBehind mark (signedPrimary nested budget) := by
  induction budget with
  | zero => exact inferInstanceAs (FailsBehind mark (primary nested))
  | succ budget ih =>
    unfold Grammar.signedPrimary
    refine @FailsBehind.bind _ _ _ _ _ _ _ fun _ =>
      @FailsBehind.bind _ _ _ _ _ _ _ fun c => ?_
    split <;> infer_instance

instance : FailsBehind mark (unary nested) := by
  unfold unary
  infer_instance

instance (accepts : Arithmetic → Bool) (operand : Parser Expr) [Shrinks operand]
    [FailsBehind mark operand] (left : Expr) :
    FailsBehind mark (arithmeticStep accepts operand left) := by
  unfold arithmeticStep
  refine @FailsBehind.bind _ _ _ _ _ _ _ fun _ => @FailsBehind.bind _ _ _ _ _ _ _ fun c => ?_
  split <;> infer_instance

instance : FailsBehind mark (product nested) := by
  unfold product
  infer_instance

instance : FailsBehind mark (sum nested) := by
  unfold sum
  infer_instance

instance : FailsBehind mark (members nested) := by
  unfold members
  infer_instance

instance (negated : Bool) (operand : Expr) :
    FailsBehind mark (bounds nested negated operand) := by
  unfold bounds
  infer_instance

instance FailsBehind.firstKeyword {α : Type} (body : Keyword → Parser α) (other : Parser α)
    (ks : List Keyword) [∀ k, FailsBehind mark (body k)] [FailsBehind mark other] :
    FailsBehind mark (firstKeyword body other ks) := by
  induction ks with
  | nil => exact inferInstanceAs (FailsBehind mark other)
  | cons k ks ih =>
    unfold Grammar.firstKeyword
    infer_instance

instance (left : Expr) (k : Keyword) : FailsBehind mark (testBody nested left k) := by
  unfold testBody
  split <;> infer_instance

instance (left : Expr) (op : Option Comparison) :
    FailsBehind mark (testAfter nested left op) := by
  cases op <;> unfold testAfter <;> infer_instance

instance : FailsBehind mark (predicate nested) := by
  rw [predicate_eq]
  infer_instance

instance FailsBehind.negated (budget : Nat) : FailsBehind mark (negated nested budget) := by
  induction budget with
  | zero => exact inferInstanceAs (FailsBehind mark (predicate nested))
  | succ budget ih =>
    unfold Grammar.negated
    infer_instance

instance : FailsBehind mark (negation nested) := by
  unfold negation
  infer_instance

instance (k : Keyword) (join : Expr → Expr → Expr) (operand : Parser Expr) [Shrinks operand]
    [FailsBehind mark operand] (left : Expr) :
    FailsBehind mark (logicalStep k join operand left) := by
  unfold logicalStep
  infer_instance

instance : FailsBehind mark (conjunction nested) := by
  unfold conjunction
  infer_instance

instance : FailsBehind mark (disjunction nested) := by
  unfold disjunction
  infer_instance

end Expressions

/-! ### Queries -/

instance : FailsBehind mark paging := by
  unfold paging
  refine @FailsBehind.bind _ _ _ _ _ _ _ fun page => ?_
  dsimp only
  infer_instance

instance : FailsBehind mark table := by
  unfold table
  infer_instance

instance FailsBehind.oneOf {α : Type} (choices : List (Keyword × α)) :
    FailsBehind mark (oneOf choices) := by
  induction choices with
  | nil => exact inferInstanceAs (FailsBehind mark (pure none))
  | cons choice others ih =>
    unfold Grammar.oneOf
    infer_instance

instance {α : Type} (k : Keyword) (p : Parser α) [Shrinks p] [FailsBehind mark p] :
    FailsBehind mark (after k p) := by
  unfold after
  infer_instance

instance : FailsBehind mark setOperator := by
  unfold setOperator
  infer_instance

instance : FailsBehind mark quantifier := by
  unfold quantifier
  infer_instance

instance : FailsBehind mark singleSource := by
  unfold singleSource
  infer_instance

section Queries

variable (nested : Nested) [nested.Shrinking] [nested.Locating]

instance : FailsBehind mark (selectItem nested) := by
  unfold selectItem
  infer_instance

instance : FailsBehind mark (orderItem nested) := by
  unfold orderItem
  infer_instance

instance : FailsBehind mark (source nested) := by
  unfold source
  infer_instance

instance : FailsBehind mark (join? nested) := by
  unfold join?
  refine @FailsBehind.bind _ _ _ _ _ _ _ fun kind => ?_
  cases kind <;> infer_instance

instance (distinct : Bool) (items : List SelectItem) (source : Source) :
    FailsBehind mark (clauses nested distinct items source) := by
  unfold clauses
  infer_instance

instance : FailsBehind mark (select nested) := by
  rw [select_eq]
  infer_instance

instance : FailsBehind mark (branch nested) := by
  unfold branch
  infer_instance

instance : FailsBehind mark (furtherBranch nested) := by
  unfold furtherBranch
  refine @FailsBehind.bind _ _ _ _ _ _ _ fun op => ?_
  cases op <;> infer_instance

instance : FailsBehind mark (query nested) := by
  unfold query
  refine @FailsBehind.bind _ _ _ _ _ _ _ fun first => @FailsBehind.bind _ _ _ _ _ _ _ fun _ =>
    @FailsBehind.bind _ _ _ _ _ _ _ fun others => ?_
  cases others <;> infer_instance

end Queries

/-- **The parsers of every depth fail inside the text.** -/
instance locating_nestedAt (depth : Nat) : (nestedAt depth).Locating := by
  induction depth with
  | zero =>
    exact ⟨fun mark => inferInstanceAs (FailsBehind mark (do failAt (← get) .unexpectedEnd)),
      fun mark => inferInstanceAs (FailsBehind mark (do failAt (← get) .unexpectedEnd))⟩
  | succ depth ih =>
    exact ⟨fun mark => inferInstanceAs (FailsBehind mark (disjunction (nestedAt depth))),
      fun mark => inferInstanceAs (FailsBehind mark (query (nestedAt depth)))⟩

/-! ### An expression takes up something -/

/-- A number begins with a digit, or with a point and a digit. -/
theorem length_lt_of_numberLiteral {c : Char} {cs left : List Char} {x : Literal}
    (hc : (c.isDigit || (c == '.' && (peekAt 1 (c :: cs)).isDigit)) = true)
    (h : numberLiteral.run (c :: cs) = .ok (x, left)) : left.length < (c :: cs).length := by
  have hblank : isBlank c = false := by
    rcases Bool.or_eq_true_iff.mp hc with hdigit | hpoint
    · exact isBlank_of_isNameChar (isNameChar_of_isDigit hdigit)
    · rw [beq_iff_eq.mp (Bool.and_eq_true_iff.mp hpoint).1]
      decide
  rw [numberLiteral, run_bind_ok run_skipBlanks, dropBlanks_cons hblank, run_bind_ok run_get,
    run_bind_ok (run_takeChars Char.isDigit)] at h
  obtain ⟨fraction, middle, hfraction, h⟩ := exists_of_run_bind h
  obtain ⟨exponent, last, hexponent, h⟩ := exists_of_run_bind h
  have hmiddle : middle.length < (c :: cs).length := by
    cases hdigit : c.isDigit with
    | true =>
      rw [List.dropWhile_cons_of_pos hdigit] at hfraction
      exact Nat.lt_succ_of_le
        ((Shrinks.suffix hfraction).trans (List.dropWhile_suffix Char.isDigit)).length_le
    | false =>
      rw [hdigit, Bool.false_or] at hc
      obtain ⟨hpoint, -⟩ := Bool.and_eq_true_iff.mp hc
      rw [List.dropWhile_cons_of_neg (by rw [hdigit]; exact Bool.false_ne_true), fractionPart,
        run_bind_ok run_current, run_bind_ok (run_peek 1), front_cons, if_pos hc] at hfraction
      exact length_lt_of_advance (by rw [front_cons, beq_iff_eq.mp hpoint]; decide) hfraction
  have hleft : left = last := by
    dsimp only at h
    split at h
    · cases h
      rfl
    · split at h <;> cases h
      rfl
  rw [hleft]
  exact Nat.lt_of_le_of_lt (Shrinks.length_le hexponent) hmiddle

instance : Consumes stringLiteral := by
  unfold stringLiteral
  infer_instance

section Progress

variable (nested : Nested) [nested.Shrinking]

/-- **An operand takes up something.**  At the end of the text, and at a null character,
there is none. -/
instance : Consumes (primary nested) where
  length_lt {start e left} h := by
    rw [primary_eq, run_bind_ok run_skipBlanks, run_bind_ok run_get] at h
    refine Nat.lt_of_lt_of_le ?_ (length_dropBlanks_le start)
    generalize dropBlanks start = cs at h
    cases cs with
    | nil => cases h
    | cons c cs =>
      rw [front_cons] at h
      unfold primaryAt at h
      split at h
      · cases h
      · exact length_lt_of_advance (by decide : '(' ≠ '\x00') h
      iterate 3
        · obtain ⟨text, middle, hquoted, h⟩ := exists_of_run_bind h
          cases h
          exact Consumes.length_lt hquoted
      · exact length_lt_of_advance (by decide : '*' ≠ '\x00') h
      · split at h
        · rename_i hnumber
          obtain ⟨x, middle, hx, h⟩ := exists_of_run_bind h
          cases h
          exact length_lt_of_numberLiteral hnumber hx
        · obtain ⟨word, middle, hword, h⟩ := exists_of_run_bind h
          cases word with
          | none => cases h
          | some word =>
            exact Nat.lt_of_le_of_lt (Shrinks.length_le
              (p := wordExpr nested (c :: cs) word) h)
              (length_lt_of_identifier hword)

instance Consumes.signedPrimary (budget : Nat) : Consumes (signedPrimary nested budget) := by
  induction budget with
  | zero => exact inferInstanceAs (Consumes (primary nested))
  | succ budget ih =>
    unfold Grammar.signedPrimary
    refine @Consumes.bind_right _ _ _ _ _ fun _ => @Consumes.bind_right _ _ _ _ _ fun c => ?_
    split <;> infer_instance

instance : Consumes (unary nested) := by
  unfold unary
  infer_instance

instance : Consumes (product nested) := by
  unfold product
  infer_instance

instance : Consumes (sum nested) := by
  unfold sum
  infer_instance

instance : Consumes (predicate nested) := by
  rw [predicate_eq]
  infer_instance

instance Consumes.negated (budget : Nat) : Consumes (negated nested budget) := by
  induction budget with
  | zero => exact inferInstanceAs (Consumes (predicate nested))
  | succ budget ih =>
    unfold Grammar.negated
    infer_instance

instance : Consumes (negation nested) := by
  unfold negation
  infer_instance

instance : Consumes (conjunction nested) := by
  unfold conjunction
  infer_instance

instance consumes_disjunction : Consumes (disjunction nested) := by
  unfold disjunction
  infer_instance

end Progress

end Grammar

open Grammar

/-! ### Statements -/

section Statements

variable {mark : List Char}

instance : Consumes parseExpr :=
  inferInstanceAs (Consumes (do disjunction (nestedAt ((← get).length + 1))))

instance : FailsBehind mark parseExpr :=
  inferInstanceAs (FailsBehind mark (do disjunction (nestedAt ((← get).length + 1))))

instance : FailsBehind mark parseQuery :=
  inferInstanceAs (FailsBehind mark (do query (nestedAt ((← get).length + 1))))

instance : Shrinks parseQuery :=
  inferInstanceAs (Shrinks (do query (nestedAt ((← get).length + 1))))

instance : FailsBehind mark row := by
  unfold row
  infer_instance

instance : Shrinks nameList := by
  unfold nameList
  infer_instance

instance : FailsBehind mark nameList := by
  unfold nameList
  infer_instance

/-- What is no assignment is faulty from its start on. -/
instance : FailsBehind mark assignment := by
  unfold assignment
  refine @failsBehind_get _ _ _ fun start => @FailsBehind.bind _ _ _ _ _ _ _ fun e => ?_
  split <;> infer_instance

instance : Shrinks parseInsert := by
  unfold parseInsert
  infer_instance

instance : FailsBehind mark parseInsert := by
  unfold parseInsert
  infer_instance

instance : Shrinks parseUpdate := by
  unfold parseUpdate
  infer_instance

instance : FailsBehind mark parseUpdate := by
  unfold parseUpdate
  infer_instance

instance : Shrinks parseDelete := by
  unfold parseDelete
  infer_instance

instance : FailsBehind mark parseDelete := by
  unfold parseDelete
  infer_instance

instance : Shrinks parseWriting := by
  unfold parseWriting
  infer_instance

instance : FailsBehind mark parseWriting := by
  unfold parseWriting
  infer_instance

instance : Shrinks parseAnyStatement := by
  rw [parseAnyStatement_eq]
  infer_instance

instance : FailsBehind mark parseAnyStatement := by
  rw [parseAnyStatement_eq]
  infer_instance

instance : FailsBehind mark parseStatement := by
  unfold parseStatement
  infer_instance

end Statements

/-- A statement takes up all of its text. -/
theorem eq_nil_of_run_parseStatement {cs left : List Char} {statement : Statement}
    (h : parseStatement.run cs = .ok (statement, left)) : left = [] := by
  rw [parseStatement] at h
  obtain ⟨first, middle, -, h⟩ := exists_of_run_bind h
  obtain ⟨_, last, hend, h⟩ := exists_of_run_bind h
  cases h
  exact eq_nil_of_run_endOfText hend

/-- A statement that cannot be read fails inside its text. -/
theorem isWithin_of_ofString {s : String} {e : SyntaxError}
    (h : Statement.ofString s = .error e) : e.IsWithin s.toList 0 := by
  rw [Statement.ofString, parseStart, Cursor.run, Cursor.ofString] at h
  cases hrun : parseStatement.run s.toList with
  | ok result =>
    rw [hrun] at h
    cases h
  | error fault =>
    rw [hrun] at h
    cases h
    have hbehind : fault.Behind (s.toList.drop 0) :=
      FailsBehind.behind (List.suffix_refl _) hrun
    exact hbehind.locate (Nat.zero_le _)

/-- A statement that is read leaves nothing of its text. -/
theorem run_of_ofString {s : String} {statement : Statement}
    (h : Statement.ofString s = .ok statement) :
    (Cursor.ofString s).run parseStatement = (.ok statement, ⟨s.toList, []⟩) := by
  obtain ⟨left, hrun⟩ := ofString_eq_ok_iff.mp h
  rw [eq_nil_of_run_parseStatement hrun] at hrun
  rw [Cursor.run, Cursor.ofString]
  simp only [hrun]

/-- **Reading ends, moves forward, and fails inside the text.**  Every recursion of the
parsers ends.  An expression that is read from a position takes the cursor behind it, and
a failure lies between the position and the end of the text and shows what stands there.
A statement that is read takes up all of its text, and its failures lie in the text as
well. -/
theorem parsers_end_inside_the_text (s : String) :
    RecursionsEnd ∧
    (∀ position ≤ s.toList.length,
      EndsWithin s.toList position ((Cursor.mk s.toList (s.toList.drop position)).run
        parseExpr)) ∧
    (∀ fault, Statement.ofString s = .error fault → fault.IsWithin s.toList 0) ∧
    (∀ statement, Statement.ofString s = .ok statement →
      (Cursor.ofString s).run parseStatement = (.ok statement, ⟨s.toList, []⟩)) :=
  ⟨recursionsEnd, fun _ hposition => endsWithin_run _ hposition, fun _ =>
    isWithin_of_ofString, fun _ => run_of_ofString⟩

theorem parsers_end_inside_the_text_null :
    (Cursor.mk "x\x00".toList ("x\x00".toList.drop 1)).run parseExpr =
      (.error ⟨.unexpectedEnd, "\x00", 1, 1⟩, ⟨"x\x00".toList, ['\x00']⟩) ∧
    SyntaxError.IsWithin "x\x00".toList 1 ⟨.unexpectedEnd, "\x00", 1, 1⟩ := by
  have hrun : (Cursor.mk "x\x00".toList ("x\x00".toList.drop 1)).run parseExpr =
      (.error ⟨.unexpectedEnd, "\x00", 1, 1⟩, ⟨"x\x00".toList, ['\x00']⟩) := rfl
  have hends := (parsers_end_inside_the_text "x\x00").2.1 1 (by decide)
  rw [hrun] at hends
  exact ⟨hrun, hends⟩

end DocQuery.Sql
