import DocQuery.Proofs.Scan.Recovering
import DocQuery.Proofs.Sql.RoundTrip
import DocQuery.Proofs.Sql.WhiteSpace

/-!
# Clauses are read back

A selection is written clause by clause, and every clause is read back before those that
may follow it.  Its expressions may be any that are read back on their own.

* `Select.display` — the text of a selection
* `Expr.ReadsBack`, `Select.IsWritten` — the selections that are read back
* `Boundary`, `Expr.ReadsBack.recovers` — where an expression ends
* `recovers_condition`, `recovers_list` — clauses that may be missing
* `recovers_selectItem`, `recovers_source`, `recovers_joins`, `recovers_paging` — the parts

### What is load-bearing

**Where an expression ends.**  There are no tokens: what follows an expression is looked
at by every level of the grammar.  That none of them takes the next keyword for its own is
a property of first words (`Begins.boundary`): `ORDER` is not `OR`, and `INNER` is not
`IN`.  An expression that is read back up to the end of its text is then read back before
the keyword (`following_nestedAt`).

**Missing clauses.**  The keywords of the clauses that may still come are listed at every
place, and no clause that is looked for begins like one of them.
-/

namespace DocQuery.Sql

open Scan Text Grammar

/-! ### Texts -/

/-- A clause: its keyword, and its parts with commas between them.  Without parts it is
missing. -/
def clauseText (k : Keyword) (parts : List String) : String :=
  if parts.isEmpty then "" else " " ++ k.text ++ " " ++ String.intercalate ", " parts

/-- A selected expression with its alias. -/
def SelectItem.display (item : SelectItem) : String :=
  item.expr.display ++ clauseText .asKw item.label.toList

/-- The keyword of a direction. -/
def OrderItem.direction (item : OrderItem) : Keyword :=
  if item.ascending then .asc else .desc

/-- An expression to order by, with its direction. -/
def OrderItem.display (item : OrderItem) : String :=
  item.expr.display ++ " " ++ item.direction.text

/-- A source with its alias. -/
def Source.display : Source → String
  | .table name label => name ++ clauseText .asKw label.toList
  | .subquery _ label => "(SELECT ...)" ++ clauseText .asKw label.toList

/-- A further source with the condition for its rows. -/
def Join.display (j : Join) : String :=
  " " ++ j.kind.display ++ " " ++ j.right.display ++
    clauseText .onKw (j.condition.toList.map Expr.display)

/-- **The text of a selection.** -/
def Select.display (s : Select) : String :=
  "SELECT " ++ (if s.distinct then "DISTINCT " else "") ++
    String.intercalate ", " (s.items.map SelectItem.display) ++
    " FROM " ++ s.source.display ++ String.join (s.joins.map Join.display) ++
    clauseText .whereKw (s.filter.toList.map Expr.display) ++
    clauseText .groupBy (s.groupBy.map Expr.display) ++
    clauseText .having (s.having.toList.map Expr.display) ++
    clauseText .orderBy (s.orderBy.map OrderItem.display) ++
    clauseText .limit (s.limit.toList.map toString) ++
    clauseText .offset (s.offset.toList.map toString)

/-! ### The selections that are read back -/

/-- **An expression that is read back**: its text gives the very same expression, to its
end. -/
def Expr.ReadsBack (e : Expr) : Prop :=
  (Cursor.ofString e.display).run parseExpr = (.ok e, ⟨e.display.toList, []⟩)

/-- The first word of an expression, in upper case. -/
def Expr.firstWord (e : Expr) : List Char :=
  (leadingWord (dropBlanks e.text)).map Char.toUpper

/-- A wildcard, or an expression with an optional alias. -/
structure SelectItem.IsWritten (item : SelectItem) : Prop where
  expr : item.expr.ReadsBack
  wildcard : item.expr.isWildcard = true → item.label = none
  label : ∀ name ∈ item.label, IsIdentifier name

/-- A table with an optional alias. -/
inductive Source.IsWritten : Source → Prop
  | table {name : String} {label : Option String} (hname : IsIdentifier name)
      (hlabel : ∀ name ∈ label, IsIdentifier name) : IsWritten (.table name label)

structure Join.IsWritten (j : Join) : Prop where
  right : j.right.IsWritten
  condition : ∀ e ∈ j.condition, e.ReadsBack

/-- A number without sign that fits 64 bits. -/
structure IsCount (n : Int) : Prop where
  sign : 0 ≤ n
  fits : Decimal.fitsInt64 n = true

/-- **A selection that is written from its parts.**  Its expressions are read back on
their own, its names are identifiers, and its first word is not taken for the quantifier. -/
structure Select.IsWritten (s : Select) : Prop where
  nonempty : s.items ≠ []
  items : ∀ item ∈ s.items, item.IsWritten
  quantifier : s.distinct = false → ∀ item ∈ s.items.head?,
    item.expr.firstWord ≠ "DISTINCT".toList ∧ item.expr.firstWord ≠ "ALL".toList
  source : s.source.IsWritten
  joins : ∀ j ∈ s.joins, j.IsWritten
  filter : ∀ e ∈ s.filter, e.ReadsBack
  groupBy : ∀ e ∈ s.groupBy, e.ReadsBack
  having : ∀ e ∈ s.having, e.ReadsBack
  orderBy : ∀ item ∈ s.orderBy, item.expr.ReadsBack
  limit : ∀ n ∈ s.limit, IsCount n
  offset : ∀ n ∈ s.offset, IsCount n

/-! ### Where an expression ends -/

/-- The keywords of the clauses behind the selected items. -/
def clauseKeywords : List Keyword :=
  [.fromKw, .innerJoin, .leftJoin, .rightJoin, .fullJoin, .crossJoin, .onKw, .whereKw,
    .groupBy, .having, .orderBy, .limit, .offset]

/-- The keywords that may follow an expression. -/
def boundaryKeywords : List Keyword :=
  .asKw :: .asc :: .desc :: clauseKeywords

/-- **What an expression ends before.** -/
structure Boundary (rest : List Char) : Prop where
  apart : Apart rest
  cut : Cut (dropBlanks rest)
  exprEnd : ExprEnd (dropBlanks rest)

/-- **No keyword of a clause goes on with an expression.** -/
theorem boundary_of_begins {rest : List Char} (h : Begins boundaryKeywords rest) :
    Boundary rest where
  apart := h.apart
  cut := by
    refine ⟨dropBlanks_dropBlanks rest, h.front_notMem (by decide) (by decide),
      fun later hlater => ?_⟩
    have hlaterWord : later.toList ≠ [] := Ne.symm (cut_nil.word later hlater)
    rcases h.leadingWord_cases with hnil | ⟨k, hk, hword⟩
    · rw [hnil]
      exact Ne.symm hlaterWord
    · have hall : (boundaryKeywords.all fun k => laterWords.all fun later =>
          k.head != later.toList) = true := by decide
      rw [hword]
      exact bne_iff_ne.mp (List.all_eq_true.mp (List.all_eq_true.mp hall k hk) later hlater)
  exprEnd := by
    intro k hk
    have hall : (continuing.all fun k => boundaryKeywords.all fun other =>
        other.head != k.head) = true := by decide
    exact h.match?_eq_none (List.all_eq_true.mp hall k hk)

theorem boundary_comma (more : List Char) : Boundary (',' :: more) := by
  have hword : leadingWord (',' :: more) = [] := rfl
  have hstart : dropBlanks (',' :: more) = ',' :: more := dropBlanks_cons (by decide) more
  refine ⟨apart_comma more, ?_, ?_⟩ <;> rw [hstart]
  · refine ⟨hstart, (by decide : ',' ∉ openingMarks), fun later hlater => ?_⟩
    rw [hword]
    exact cut_nil.word later hlater
  · intro k _
    refine keyword_match?_eq_none ?_
    rw [hword]
    exact Ne.symm (keyword_head_ne_nil k)

namespace Expr.ReadsBack

variable {e : Expr} {rest : List Char} {n : Nat}

theorem run (h : e.ReadsBack) : parseExpr.run e.text = .ok (e, []) := by
  rw [ReadsBack, Cursor.run, Cursor.ofString] at h
  dsimp only at h
  rw [Expr.text]
  cases hrun : parseExpr.run e.display.toList with
  | error fault =>
    rw [hrun] at h
    cases h
  | ok result =>
    obtain ⟨a, left⟩ := result
    rw [hrun] at h
    cases h
    rfl

theorem of_run (h : parseExpr.run e.text = .ok (e, [])) : e.ReadsBack := by
  have hparse : parseExpr.run e.display.toList = .ok (e, []) := h
  rw [ReadsBack, Cursor.run, Cursor.ofString]
  simp only [hparse]

/-- **An expression that is read back on its own is read back before a boundary.** -/
theorem recovers (h : e.ReadsBack) (hrest : Boundary rest) :
    Recovers n (nestedAt n).expr e.text e rest := by
  intro cs hlength hcs
  have hahead : Ahead (dropBlanks rest) e.text cs :=
    (Respaced.append_end e.text rfl hrest.apart.isDelimiter).ahead.congr hcs.symm
  have hrun : (nestedAt (e.text.length + 1 + 1)).expr.run e.text = .ok (e, []) := by
    rw [nestedAt, ← h.run, parseExpr, anyDepth, run_bind_ok run_get]
  have hfollows : Follows False n (Ahead (dropBlanks rest)) (Ahead (dropBlanks rest))
      (nestedAt (e.text.length + 1 + 1)).expr (nestedAt n).expr :=
    (following_nestedAt hrest.cut _ n).expr (.inr hrest.exprEnd)
  rcases hfollows e.text cs hahead hlength e [] hrun with ⟨hno, -⟩ | ⟨left, hrun', hleft⟩
  · exact hno.elim
  · refine ⟨left, hrun', ?_⟩
    cases hleft with
    | ended _ hds => exact hds
    | same hcs => cases hcs

end Expr.ReadsBack

/-! ### Clauses -/

section Clauses

variable {k : Keyword} {ks : List Keyword} {rest : List Char} {n : Nat}

theorem toList_clauseText (k : Keyword) {parts : List String} (h : parts ≠ []) :
    (clauseText k parts).toList =
      ' ' :: k.text.toList ++ ' ' :: commaText (parts.map String.toList) := by
  rw [clauseText, if_neg (by simpa using h)]
  simp [commaText]

/-- A clause that may be missing, before others that may be missing. -/
theorem begins_clause (k : Keyword) (parts : List String) (h : Begins ks rest) :
    Begins (k :: ks) ((clauseText k parts).toList ++ rest) := by
  by_cases hparts : parts = []
  · subst hparts
    exact h.mono (List.subset_cons_self k ks)
  · refine .inr ⟨k, List.mem_cons_self, ' ' :: (commaText (parts.map String.toList) ++ rest),
      apart_space _, ?_⟩
    rw [toList_clauseText k hparts]
    simp

/-- What may follow an alias, or a source or item without one. -/
def AliasEnd (rest : List Char) : Prop :=
  Begins clauseKeywords rest ∨ ∃ more, rest = ',' :: more

theorem AliasEnd.apart (h : AliasEnd rest) : Apart rest := by
  rcases h with h | ⟨more, rfl⟩
  · exact h.apart
  · exact apart_comma more

theorem AliasEnd.boundary (h : AliasEnd rest) : Boundary rest := by
  rcases h with h | ⟨more, rfl⟩
  · exact boundary_of_begins (h.mono (by decide))
  · exact boundary_comma more

/-- **The keyword of a clause is no alias**, as its first word is reserved. -/
theorem AliasEnd.recovers_none (h : AliasEnd rest) : Recovers n aliasName [] none rest := by
  rcases h with h | ⟨more, rfl⟩
  · refine recovers_aliasName_none (h.match?_eq_none (by decide)) ?_ ?_
    · have hquote : front (dropBlanks rest) ∉ ['"', '\x60'] :=
        h.front_notMem (by decide) (by decide)
      simpa [isNameQuote] using hquote
    · rcases h.leadingWord_cases with hnil | ⟨k, hk, hword⟩
      · rw [hnil]
        exact .inl (by decide)
      · have hall : (clauseKeywords.all fun k => reservedWords.any fun known =>
            known.toList.map Char.toUpper == k.head) = true := by decide
        obtain ⟨known, hknown, hsame⟩ := List.any_eq_true.mp (List.all_eq_true.mp hall k hk)
        refine .inr (List.any_eq_true.mpr ⟨known, hknown, sameWord_of_toUpper ?_⟩)
        rw [String.toList_ofList, hword, beq_iff_eq.mp hsame]
  · have hstart : dropBlanks (',' :: more) = ',' :: more := dropBlanks_cons (by decide) more
    refine recovers_aliasName_none ?_ ?_ (.inl ?_) <;> rw [hstart]
    · exact keyword_match?_eq_none (Ne.symm (keyword_head_ne_nil .asKw))
    · exact (by decide : isNameQuote ',' = false)
    · exact (by decide : isNameChar ',' = false)

/-- An alias that may be missing. -/
theorem recovers_label {label : Option String} (hlabel : ∀ name ∈ label, IsIdentifier name)
    (hrest : AliasEnd rest) :
    Recovers n aliasName (clauseText .asKw label.toList).toList label rest := by
  cases label with
  | none => exact hrest.recovers_none
  | some name =>
    rw [Option.toList_some, toList_clauseText _ (List.cons_ne_nil name []),
      List.map_singleton, commaText_singleton]
    exact recovers_aliasName_some (hlabel name rfl) hrest.apart

/-- A clause that is there. -/
theorem recovers_after {α : Type} {p : Parser α} [Shrinks p] {a : α} {parts : List String}
    (hparts : parts ≠ []) (hp : Recovers n p (commaText (parts.map String.toList)) a rest) :
    Recovers n (after k p) (clauseText k parts).toList (some a) rest := by
  rw [toList_clauseText k hparts]
  refine (recovers_consume k (apart_space _)).bind ?_
  exact hp.space.bind_pure rfl

/-- A clause that is missing. -/
theorem recovers_after_none {α : Type} {p : Parser α} (h : Begins ks rest)
    (hk : ks.all (fun other => other.head != k.head) = true) :
    Recovers n (after k p) (clauseText k []).toList none rest :=
  (recovers_consume_none (h.match?_eq_none hk)).bind_pure rfl

/-- A clause with one expression, which may be missing. -/
theorem recovers_condition {condition : Option Expr}
    (hcondition : ∀ e ∈ condition, e.ReadsBack) (h : Begins ks rest)
    (hks : ks ⊆ boundaryKeywords) (hk : ks.all (fun other => other.head != k.head) = true) :
    Recovers n (after k (nestedAt n).expr)
      (clauseText k (condition.toList.map Expr.display)).toList condition rest := by
  cases condition with
  | none => exact recovers_after_none h hk
  | some e =>
    refine recovers_after (List.cons_ne_nil _ _) ?_
    rw [Option.toList_some, List.map_singleton, List.map_singleton, commaText_singleton]
    exact (hcondition e rfl).recovers (boundary_of_begins (h.mono hks))

end Clauses

/-! ### Items and sources -/

section Items

variable {rest : List Char} {n : Nat}

/-- An expression ends before its alias, if it has one. -/
theorem boundary_label (label : Option String) (hrest : AliasEnd rest) :
    Boundary ((clauseText .asKw label.toList).toList ++ rest) := by
  cases label with
  | none => exact hrest.boundary
  | some name =>
    refine boundary_of_begins (.inr ⟨.asKw, by decide, ' ' :: (name.toList ++ rest),
      apart_space _, ?_⟩)
    rw [Option.toList_some, toList_clauseText _ (List.cons_ne_nil name []),
      List.map_singleton, commaText_singleton]
    simp

theorem recovers_selectItem {item : SelectItem} (h : item.IsWritten) (hrest : AliasEnd rest) :
    Recovers n (selectItem (nestedAt n)) item.display.toList item rest := by
  obtain ⟨e, label⟩ := item
  rw [SelectItem.display, String.toList_append]
  refine (h.expr.recovers (boundary_label label hrest)).bind ?_
  dsimp only
  cases hwildcard : e.isWildcard with
  | true =>
    obtain rfl : label = none := h.wildcard hwildcard
    exact recovers_pure _
  | false => exact (recovers_label h.label hrest).bind_pure rfl

/-- An expression is read up to its direction, which is always written. -/
theorem recovers_orderItem {item : OrderItem} (h : item.expr.ReadsBack) (hrest : Apart rest) :
    Recovers n (orderItem (nestedAt n)) item.display.toList item rest := by
  obtain ⟨e, ascending⟩ := item
  have hbegins : ∀ k : Keyword, Begins [k] (' ' :: k.text.toList ++ rest) := fun k =>
    .inr ⟨k, List.mem_cons_self, rest, hrest, rfl⟩
  cases ascending with
  | true =>
    have htext : (OrderItem.mk e true).display.toList = e.text ++ ' ' ::
        Keyword.asc.text.toList := by
      simp [OrderItem.display, OrderItem.direction, Expr.text]
    have hasc := hbegins .asc
    rw [htext]
    refine (h.recovers (boundary_of_begins (hasc.mono (by decide)))).bind ?_
    refine Recovers.bind_missing (recovers_consume_none (hasc.match?_eq_none (by decide))) ?_
    exact (recovers_consume .asc hrest).discard.bind_pure rfl
  | false =>
    have htext : (OrderItem.mk e false).display.toList = e.text ++ ' ' ::
        Keyword.desc.text.toList := by
      simp [OrderItem.display, OrderItem.direction, Expr.text]
    rw [htext]
    refine (h.recovers (boundary_of_begins ((hbegins .desc).mono (by decide)))).bind ?_
    exact (recovers_consume .desc hrest).bind_pure rfl

theorem recovers_source {source : Source} (h : source.IsWritten) (hrest : AliasEnd rest) :
    Recovers n (Grammar.source (nestedAt n)) (' ' :: source.display.toList) source rest := by
  obtain @⟨name, label, hname, hlabel⟩ := h
  rw [Source.display, String.toList_append]
  have hopen : front (dropBlanks (' ' ::
    (name.toList ++ (clauseText .asKw label.toList).toList) ++
      rest)) ≠ '(' := by
    rw [List.cons_append, dropBlanks_space, List.append_assoc, hname.dropBlanks_append]
    intro hparen
    have hfront := (hname.front_append ((clauseText .asKw label.toList).toList ++ rest)).1
    rw [hparen] at hfront
    exact absurd hfront (by decide)
  refine Recovers.bind_missing (recovers_consumeChar_none hopen) ?_
  refine (recovers_dottedName hname (boundary_label label hrest).apart).bind ?_
  exact (recovers_label hlabel hrest).bind_pure rfl

/-- There is no second source. -/
theorem recovers_singleSource (hrest : front (dropBlanks rest) ≠ ',') :
    Recovers n singleSource [] () rest := by
  intro cs _ hcs
  rw [List.nil_append] at hcs
  refine ⟨dropBlanks rest, ?_, dropBlanks_dropBlanks rest⟩
  rw [singleSource, run_bind_ok run_skipBlanks, run_bind_ok run_current, hcs,
    if_neg (by simpa using hrest)]
  rfl

end Items

/-! ### Joins -/

/-- The keyword by which a join is written. -/
def JoinKind.keyword : JoinKind → Keyword
  | .inner => .innerJoin
  | .left => .leftJoin
  | .right => .rightJoin
  | .full => .fullJoin
  | .cross => .crossJoin

theorem JoinKind.display_eq (kind : JoinKind) : kind.display = kind.keyword.text := by
  cases kind <;> rfl

section Joins

variable {α : Type} {rest : List Char} {n : Nat}

/-- A keyword is found among others if none that is tried before it matches. -/
theorem recovers_oneOf {choices : List (Keyword × α)}
    (hchoices : choices.Pairwise fun x y => IsTriedBefore x.1 y.1) {k : Keyword} {a : α}
    (hk : (k, a) ∈ choices) (hrest : Apart rest) :
    Recovers n (oneOf choices) (' ' :: k.text.toList) (some a) rest := by
  induction choices with
  | nil => cases hk
  | cons first others ih =>
    obtain ⟨hfirst, hothers⟩ := List.pairwise_cons.mp hchoices
    rcases List.mem_cons.mp hk with rfl | hk
    · exact (recovers_consume k hrest).bind_pure rfl
    · have hnone : first.1.word.match? (dropBlanks (' ' :: k.text.toList ++ rest)) =
          none := by
        rw [List.cons_append, dropBlanks_space, dropBlanks_keyword]
        exact hfirst (k, a) hk rest
      refine Recovers.bind_missing (recovers_consume_none hnone) ?_
      exact ih hothers hk

theorem recovers_oneOf_none {choices : List (Keyword × α)}
    (h : ∀ choice ∈ choices, choice.1.word.match? (dropBlanks rest) = none) :
    Recovers n (oneOf choices) [] none rest := by
  induction choices with
  | nil => exact recovers_pure none
  | cons first others ih =>
    refine Recovers.bind_missing (recovers_consume_none (h first List.mem_cons_self)) ?_
    exact ih fun choice hchoice => h choice (List.mem_cons_of_mem first hchoice)

/-- No set operator comes at the end of the text. -/
theorem recovers_furtherBranch_none (depth : Nat) :
    Recovers n (furtherBranch (nestedAt depth)) [] none [] := by
  have hmatch : ∀ k : Keyword, k.word.match? (dropBlanks []) = none := keyword_match?_nil
  have hoperator : Recovers n setOperator [] none [] := by
    refine Recovers.bind_missing (recovers_consume_none (hmatch .union)) ?_
    exact recovers_oneOf_none fun choice _ => hmatch choice.1
  exact hoperator.bind_pure rfl

/-- **No join is taken for an earlier one.** -/
theorem pairwise_joinKeywords : joinKeywords.Pairwise fun x y => IsTriedBefore x.1 y.1 := by
  simp only [joinKeywords, List.pairwise_cons, List.forall_mem_cons, List.not_mem_nil,
    false_imp_iff, implies_true, and_true, List.Pairwise.nil]
  and_intros <;> exact fun _ => rfl

theorem keyword_mem_joinKeywords (kind : JoinKind) : (kind.keyword, kind) ∈ joinKeywords := by
  cases kind <;> decide

/-- The keywords of the clauses behind the joins. -/
def lastKeywords : List Keyword :=
  [.whereKw, .groupBy, .having, .orderBy, .limit, .offset]

/-- The keywords behind a source. -/
def sourceKeywords : List Keyword :=
  [.innerJoin, .leftJoin, .rightJoin, .fullJoin, .crossJoin] ++ lastKeywords

theorem toList_joinText (j : Join) :
    j.display.toList = ' ' :: j.kind.keyword.text.toList ++ (' ' :: j.right.display.toList ++
      (clauseText .onKw (j.condition.toList.map Expr.display)).toList) := by
  rw [Join.display, JoinKind.display_eq]
  simp

theorem keyword_mem_sourceKeywords (kind : JoinKind) : kind.keyword ∈ sourceKeywords := by
  cases kind <;> decide

theorem begins_join (j : Join) (rest : List Char) :
    Begins sourceKeywords (j.display.toList ++ rest) := by
  refine .inr ⟨j.kind.keyword, keyword_mem_sourceKeywords j.kind,
    ' ' :: (j.right.display.toList ++
    ((clauseText .onKw (j.condition.toList.map Expr.display)).toList ++ rest)),
      apart_space _, ?_⟩
  rw [toList_joinText]
  simp

theorem recovers_join {j : Join} (h : j.IsWritten) (hrest : Begins sourceKeywords rest) :
    Recovers n (join? (nestedAt n)) j.display.toList (some j) rest := by
  obtain ⟨kind, right, condition⟩ := j
  have hend : AliasEnd
      ((clauseText .onKw (condition.toList.map Expr.display)).toList ++ rest) :=
    .inl ((begins_clause .onKw _ hrest).mono (by decide))
  rw [toList_joinText]
  refine (recovers_oneOf pairwise_joinKeywords (keyword_mem_joinKeywords kind)
    (apart_space _)).bind ?_
  refine (recovers_source h.right hend).bind ?_
  exact (recovers_condition h.condition hrest (by decide) (by decide)).bind_pure rfl

/-- **The joins are read back**, and the first clause behind them is none. -/
theorem recovers_joins {joins : List Join} (h : ∀ j ∈ joins, j.IsWritten)
    (hrest : Begins lastKeywords rest) :
    Recovers n (do many (join? (nestedAt n)) (← get).length)
      (joins.flatMap fun j => j.display.toList) joins rest := by
  have hother : ∀ choice ∈ joinKeywords, choice.1.word.match? (dropBlanks rest) = none := by
    have hall : (joinKeywords.all fun choice => lastKeywords.all fun other =>
        other.head != choice.1.head) = true := by decide
    exact fun choice hchoice => hrest.match?_eq_none (List.all_eq_true.mp hall choice hchoice)
  have hnone : Recovers n (join? (nestedAt n)) [] none rest :=
    (recovers_oneOf_none hother).bind_pure rfl
  exact recovers_many (fun j hj _ => recovers_join (h j hj)) (fun j _ _ _ => begins_join j _)
    (hrest.mono (by decide)) hnone

end Joins

/-! ### Lists of expressions and bounds -/

section Lists

variable {α : Type} {k : Keyword} {ks : List Keyword} {rest : List Char} {n : Nat}

/-- A clause with several parts, which may be missing. -/
theorem recovers_list {item : Parser α} [Shrinks item] (display : α → String) {items : List α}
    (hitem : ∀ a ∈ items, ∀ rest, AliasEnd rest → Recovers n item (display a).toList a rest)
    (h : Begins ks rest) (hks : ks ⊆ clauseKeywords)
    (hk : ks.all (fun other => other.head != k.head) = true) :
    ∃ found, Recovers n (after k (commaList item))
        (clauseText k (items.map display)).toList found rest ∧
      found.getD [] = items := by
  by_cases hitems : items = []
  · subst hitems
    exact ⟨none, recovers_after_none h hk, rfl⟩
  · refine ⟨some items, recovers_after (by simpa using hitems) ?_, rfl⟩
    rw [List.map_map]
    have hcomma : front (dropBlanks rest) ∉ [','] := h.front_notMem (by decide) (by decide)
    exact Recovers.commaList hitems hitem (fun more => .inr ⟨more, rfl⟩) (.inl (h.mono hks))
      (by simpa using hcomma)

theorem toList_toString {value : Int} (h : 0 ≤ value) :
    (toString value).toList = Nat.toDigits 10 value.toNat := by
  obtain ⟨m, rfl⟩ := Int.eq_ofNat_of_zero_le h
  rw [Int.toNat_natCast]
  exact Nat.toList_repr

/-- The number of a bound. -/
theorem recovers_bound {value : Int} (h : IsCount value) (hrest : Apart rest) :
    Recovers n count (' ' :: (toString value).toList) value.toNat rest := by
  rw [toList_toString h.sign]
  exact recovers_count Nat.toDigits_ne_nil isDigit_of_mem_toDigits
    (readInt?_toDigits h.sign h.fits)
    hrest

/-- The text of a bound, which may be missing. -/
theorem toList_boundText (k : Keyword) (value : Int) :
    (clauseText k ((some value).toList.map toString)).toList =
      ' ' :: k.text.toList ++ ' ' :: (toString value).toList := by
  rw [Option.toList_some, List.map_singleton, toList_clauseText k (List.cons_ne_nil _ _),
    List.map_singleton, commaText_singleton]

theorem recovers_limit {limit : Option Int} (hlimit : ∀ value ∈ limit, IsCount value)
    (hrest : Begins [.offset] rest) :
    Recovers n limitClause (clauseText .limit (limit.toList.map toString)).toList (limit,
      none) rest := by
  cases limit with
  | none =>
    exact (recovers_consume_none (hrest.match?_eq_none (by decide))).bind_pure rfl
  | some value =>
    have hvalue : ((value.toNat : Nat) : Int) = value :=
      Int.toNat_of_nonneg (hlimit value rfl).sign
    have hcomma : front (dropBlanks rest) ∉ [','] :=
      hrest.front_notMem (by decide) (by decide)
    have hnumber := recovers_bound (n := n) (hlimit value rfl) hrest.apart
    rw [toList_boundText]
    refine (recovers_consume .limit (apart_space _)).bind (hnumber.bind_last ?_)
    exact (recovers_consumeChar_none (by simpa using hcomma)).bind_pure
      (congrArg (fun bound => pure (some bound, none)) hvalue)

/-- **Limit and offset are read back.** -/
theorem recovers_paging {limit offset : Option Int} (hlimit : ∀ value ∈ limit, IsCount value)
    (hoffset : ∀ value ∈ offset, IsCount value) :
    Recovers n paging ((clauseText .limit (limit.toList.map toString)).toList ++
      (clauseText .offset (offset.toList.map toString)).toList) (limit, offset) [] := by
  have hbegins : Begins [.offset]
      ((clauseText .offset (offset.toList.map toString)).toList ++ []) :=
    begins_clause .offset _ (.inl rfl)
  rw [paging_eq]
  refine (recovers_limit hlimit hbegins).bind ?_
  rw [Option.isSome_none, if_neg Bool.false_ne_true]
  cases offset with
  | none =>
    have hnone : Keyword.offset.word.match? (dropBlanks []) = none :=
      keyword_match?_nil .offset
    exact (recovers_consume_none hnone).bind_pure rfl
  | some value =>
    have hvalue : ((value.toNat : Nat) : Int) = value :=
      Int.toNat_of_nonneg (hoffset value rfl).sign
    have hnumber := recovers_bound (n := n) (hoffset value rfl) (.inl rfl)
    rw [toList_boundText]
    exact (recovers_consume .offset (apart_space _)).bind
      (hnumber.bind_pure (congrArg (fun bound => pure (limit, some bound)) hvalue))

end Lists

end DocQuery.Sql
