import DocQuery.Proofs.Sql.SelectText

/-!
# Selections are read back

A selection that is written from its parts is read back as those parts.

* `recovers_clauses`, `recovers_select`, `recovers_query` — from the clauses to the query
* `select_read_back` — the statement
* `Expr.IsFormula.readsBack`, `Expr.readsBack_qualifiedWildcard` — expressions that may be
  its parts

### What is load-bearing

**The first item.**  A quantifier is looked for before the items, so the first word behind
`SELECT` must not be one.  It is the first word of the first item, and ends with it
(`leadingWord_text`).
-/

namespace DocQuery.Sql

open Scan Text Grammar

/-! ### The selection -/

section Selection

variable {s : Select} {rest : List Char} {n : Nat}

/-- The clauses behind the source. -/
def Select.clausesText (s : Select) : List Char :=
  (s.joins.flatMap fun j => j.display.toList) ++
    ((clauseText .whereKw (s.filter.toList.map Expr.display)).toList ++
      ((clauseText .groupBy (s.groupBy.map Expr.display)).toList ++
        ((clauseText .having (s.having.toList.map Expr.display)).toList ++
          ((clauseText .orderBy (s.orderBy.map OrderItem.display)).toList ++
            ((clauseText .limit (s.limit.toList.map toString)).toList ++
              (clauseText .offset (s.offset.toList.map toString)).toList)))))

/-- **The clauses are read back.**  Each is read before those that may still come. -/
theorem recovers_clauses (h : s.IsWritten) :
    Begins sourceKeywords s.clausesText ∧
      Recovers n (clauses (nestedAt n) s.distinct s.items s.source) s.clausesText s [] := by
  have hoffset : Begins [.offset]
      (clauseText .offset (s.offset.toList.map toString)).toList := by
    simpa using begins_clause .offset (s.offset.toList.map toString) (.inl rfl : Begins [] [])
  have hlimit := begins_clause .limit (s.limit.toList.map toString) hoffset
  have horder := begins_clause .orderBy (s.orderBy.map OrderItem.display) hlimit
  have hhaving := begins_clause .having (s.having.toList.map Expr.display) horder
  have hgroup := begins_clause .groupBy (s.groupBy.map Expr.display) hhaving
  have hwhere := begins_clause .whereKw (s.filter.toList.map Expr.display) hgroup
  have hjoins : Begins sourceKeywords s.clausesText :=
    end_flatMap (fun j _ rest _ => begins_join j rest) (hwhere.mono (by decide))
  obtain ⟨groups, hgroups, hgroupBy⟩ := recovers_list Expr.display (k := .groupBy) (n := n)
    (fun e he rest hrest => (h.groupBy e he).recovers hrest.boundary) hhaving (by decide)
      (by decide)
  obtain ⟨orders, horders, horderBy⟩ :=
    recovers_list OrderItem.display (k := .orderBy) (n := n)
    (fun item hitem rest hrest => recovers_orderItem (h.orderBy item hitem)
      hrest.apart) hlimit
    (by decide) (by decide)
  refine ⟨hjoins, ?_⟩
  obtain ⟨distinct, items, source, joins, filter, groupBy, having, orderBy, limit,
      offset⟩ := s
  rw [clauses, ← bind_assoc]
  refine (recovers_joins h.joins hwhere).bind_end ?_
  refine (recovers_condition h.filter hgroup (by decide) (by decide)).bind_end ?_
  refine hgroups.bind_end ?_
  refine (recovers_condition h.having horder (by decide) (by decide)).bind_end ?_
  refine horders.bind_end ?_
  refine (recovers_paging h.limit h.offset).bind_pure ?_
  rw [hgroupBy, horderBy]

/-- The first word of an expression ends with the expression. -/
theorem leadingWord_text {e : Expr} (h : e.ReadsBack) (hrest : Apart rest) :
    (leadingWord (dropBlanks (e.text ++ rest))).map Char.toUpper = e.firstWord := by
  have hhungry : Hungry (disjunction (nestedAt (e.text.length + 1))) := by
    unfold disjunction conjunction
    infer_instance
  have hne : dropBlanks e.text ≠ [] := by
    intro hnil
    have hrun := h.run
    rw [parseExpr, anyDepth, run_bind_ok run_get] at hrun
    exact hhungry.fails _ _ hnil hrun
  have hskip : dropBlanks (e.text ++ rest) = dropBlanks e.text ++ rest := by
    rw [dropBlanks, List.dropWhile_append, if_neg (by rwa [List.isEmpty_iff])]
    rfl
  have hword : leadingWord (dropBlanks e.text ++ rest) = leadingWord (dropBlanks e.text) := by
    rw [leadingWord, List.takeWhile_append]
    split
    · rename_i hall
      rw [(takeWhile_eq_nil_of_front hrest.isNameChar).1, List.append_nil]
      exact ((List.takeWhile_prefix isNameChar).eq_of_length hall).symm
    · rfl
  rw [hskip, hword, Expr.firstWord]

/-- The quantifier is read back; without it the first item is not taken for one. -/
theorem recovers_quantifier {distinct : Bool}
    (hrest : distinct = false → ∀ k ∈ [Keyword.distinct, .all],
      k.word.match? (dropBlanks rest) = none)
    (hapart : Apart rest) :
    Recovers n quantifier (if distinct then ' ' ::
      Keyword.distinct.text.toList else []) distinct rest := by
  cases distinct with
  | true => exact (recovers_consume .distinct hapart).bind_pure rfl
  | false =>
    have hnone := hrest rfl
    refine (recovers_consume_none (hnone .distinct (by decide))).bind_missing ?_
    exact (recovers_consume_none (hnone .all (by decide))).discard.bind_pure rfl

/-- What follows the selected items. -/
def Select.fromText (s : Select) : List Char :=
  ' ' :: Keyword.fromKw.text.toList ++ (' ' :: s.source.display.toList ++ s.clausesText)

/-- The selected items with what follows them. -/
def Select.itemsText (s : Select) : List Char :=
  ' ' :: commaText (s.items.map fun item => item.display.toList) ++ s.fromText

theorem begins_fromText (s : Select) : Begins [.fromKw] s.fromText :=
  .inr ⟨.fromKw, List.mem_cons_self, _, apart_space _, rfl⟩

theorem toList_selectText (s : Select) :
    ' ' :: s.display.toList = ' ' :: Keyword.select.text.toList ++
      ((if s.distinct then ' ' :: Keyword.distinct.text.toList else []) ++ s.itemsText) := by
  have hitems : commaText (s.items.map fun item => item.display.toList) =
      (String.intercalate ", " (s.items.map SelectItem.display)).toList := by
    simp [commaText, Function.comp_def]
  have hjoins : (s.joins.flatMap fun j => j.display.toList) =
      (String.join (s.joins.map Join.display)).toList := by
    rw [String.toList_join, List.flatMap_map]
  have hselect : "SELECT " = Keyword.select.text ++ " " := by decide
  have hdistinct : "DISTINCT " = Keyword.distinct.text ++ " " := by decide
  have hfrom : " FROM " = " " ++ Keyword.fromKw.text ++ " " := by decide
  have hspace : " ".toList = [' '] := rfl
  rw [Select.itemsText, Select.fromText, hitems, Select.clausesText, hjoins]
  unfold Select.display
  rw [hselect, hdistinct, hfrom]
  cases s.distinct <;>
    simp only [String.toList_append, List.append_assoc, hspace, if_true, if_false,
      Bool.false_eq_true, String.toList_empty, List.nil_append, List.cons_append]

/-- The first selected item is not taken for the quantifier. -/
theorem match?_itemsText (h : s.IsWritten) (hdistinct : s.distinct = false) {k : Keyword}
    (hk : k ∈ [Keyword.distinct, .all]) : k.word.match? (dropBlanks s.itemsText) = none := by
  obtain ⟨first, others, hitems⟩ := List.exists_cons_of_ne_nil h.nonempty
  have hfirst : first ∈ s.items := hitems ▸ List.mem_cons_self
  have hwords := h.quantifier hdistinct first (hitems ▸ rfl)
  have hothers : AliasEnd ((others.flatMap fun item => ',' :: ' ' :: item.display.toList) ++
      s.fromText) :=
    end_flatMap (fun _ _ _ _ => .inr ⟨_, rfl⟩) (.inl ((begins_fromText s).mono (by decide)))
  have htext : s.itemsText = ' ' :: (first.expr.text ++
      ((clauseText .asKw first.label.toList).toList ++
        ((others.flatMap fun item => ',' :: ' ' :: item.display.toList) ++ s.fromText))) := by
    rw [Select.itemsText, hitems, commaText_map_cons, SelectItem.display,
      String.toList_append, Expr.text]
    simp only [List.append_assoc, List.cons_append]
  refine keyword_match?_eq_none ?_
  rw [htext, dropBlanks_space,
    leadingWord_text (h.items first hfirst).expr (boundary_label first.label hothers).apart]
  rcases List.mem_cons.mp hk with rfl | hk
  · exact hwords.1
  · obtain rfl := List.mem_singleton.mp hk
    exact hwords.2

theorem begins_selectText (s : Select) : Begins [.select] (' ' :: s.display.toList) := by
  have hquantifier : Apart ((if s.distinct then ' ' ::
    Keyword.distinct.text.toList else []) ++
      s.itemsText) := by
    cases s.distinct <;> exact apart_space _
  exact .inr ⟨.select, List.mem_cons_self, _, hquantifier, toList_selectText s⟩

/-- **The selection is read back**, part by part. -/
theorem recovers_select (h : s.IsWritten) :
    Recovers n (select (nestedAt n)) (' ' :: s.display.toList) s [] := by
  obtain ⟨hbegins, hclauses⟩ := recovers_clauses (n := n) h
  have hend : AliasEnd s.clausesText := .inl (hbegins.mono (by decide))
  have hcomma : front (dropBlanks s.clausesText) ∉ [','] :=
    hbegins.front_notMem (by decide) (by decide)
  have hfrom := begins_fromText s
  have hfromComma : front (dropBlanks s.fromText) ∉ [','] :=
    hfrom.front_notMem (by decide) (by decide)
  have hitems := Recovers.commaList h.nonempty
    (fun item hitem rest hrest => recovers_selectItem (n := n) (h.items item hitem) hrest)
    (fun more => .inr ⟨more, rfl⟩) (.inl (hfrom.mono (by decide))) (by simpa using hfromComma)
  have hquantifier : Apart ((if s.distinct then ' ' ::
    Keyword.distinct.text.toList else []) ++
      s.itemsText) := by
    cases s.distinct <;> exact apart_space _
  rw [toList_selectText, select_eq]
  refine (recovers_expect .select hquantifier).bind_end ?_
  refine (recovers_quantifier (fun hdistinct k => match?_itemsText h hdistinct)
    (apart_space _)).bind_end ?_
  refine hitems.space.bind_end ?_
  refine (recovers_expect .fromKw (apart_space _)).bind_end ?_
  refine (recovers_source h.source hend).bind_end ?_
  refine Recovers.bind_missing (recovers_singleSource ?_) hclauses
  rw [List.append_nil]
  simpa using hcomma

/-- A selection is a query without set operators. -/
theorem recovers_query (h : s.IsWritten) :
    Recovers n (query (nestedAt n)) (' ' :: s.display.toList) (.plain s) [] := by
  have hopen : front (dropBlanks (' ' :: s.display.toList ++ [])) ∉ ['('] := by
    rw [List.append_nil]
    exact (begins_selectText s).front_notMem (by decide) (by decide)
  have hbranch : Recovers n (branch (nestedAt n)) (' ' ::
      s.display.toList) (.plain s) [] := by
    refine Recovers.bind_missing (recovers_consumeChar_none (by simpa using hopen)) ?_
    exact (recovers_select h).bind_pure rfl
  rw [query]
  refine hbranch.bind_last ?_
  rw [← bind_assoc]
  exact (recovers_many_none (recovers_furtherBranch_none n)).bind_pure rfl

end Selection

/-- **Every selection that is written from its parts is read back as those parts.**  The
statement is a plain selection, with the very same items, source, joins and clauses. -/
theorem select_read_back {s : Select} (h : s.IsWritten) :
    Statement.ofString s.display = .ok (.select (.plain s)) := by
  have hselect : (Keyword.select.word.match? (dropBlanks s.display.toList)).isSome =
      true := by
    rcases begins_selectText s with hno | ⟨k, hk, after, hafter, htext⟩
    · cases hno
    · obtain rfl := List.mem_singleton.mp hk
      rw [← dropBlanks_space, htext, dropBlanks_space, dropBlanks_keyword,
        keyword_match?_text .select (hafter.allows .select)]
      rfl
  have hblank : dropBlanks (dropBlanks s.display.toList) =
      dropBlanks (' ' :: s.display.toList ++ []) := by
    rw [List.append_nil, dropBlanks_space, dropBlanks_dropBlanks]
  obtain ⟨left, hquery, hleft⟩ := recovers_query h _ (Nat.lt_succ_self _) hblank
  have hparse : parseQuery.run (dropBlanks s.display.toList) = .ok (.plain s, left) := by
    rw [parseQuery, anyDepth, run_bind_ok run_get, hquery]
  refine ofString_eq_ok_iff.mpr ⟨[], ?_⟩
  have hany : parseAnyStatement.run s.display.toList = .ok (.select (.plain s), left) := by
    rw [parseAnyStatement, run_bind_ok run_check, run_bind_ok run_current, hselect,
      Bool.true_or, if_pos rfl, run_bind_ok hparse]
    rfl
  rw [parseStatement, run_bind_ok hany, run_bind_ok (run_endOfText hleft)]
  rfl

/-! ### Expressions that are read back -/

/-- Formulas are read back. -/
theorem Expr.IsFormula.readsBack {e : Expr} (h : e.IsFormula) : e.ReadsBack :=
  .of_run (run_parseExpr_text h)

/-- An expression that is read at the tightest level is read at every level. -/
theorem Expr.ReadsBack.of_primary {e : Expr} (hstart : Starts openingKeywords e.text)
    (hsign : front e.text ∉ ['-', '+']) (h : ∀ nested, Reads (primary nested) e.text e []) :
    e.ReadsBack := by
  have hend : ∀ k : Keyword, k.word.match? (dropBlanks []) = none := keyword_match?_nil
  have hnot : Starts [.not] e.text := hstart.mono (by decide)
  have hsum : ∀ nested, Reads (sum nested) e.text e [] := fun nested =>
    reads_sum_of_signedPrimary (fun budget _ => reads_signedPrimary_of_primary (h nested)
      (by rwa [List.append_nil]) budget) ⟨by decide, by decide⟩
  have hnegation : ∀ nested, Reads (negation nested) e.text e [] := by
    intro nested cs hcs
    rw [negation, run_bind_ok run_get]
    exact reads_negated_of_predicate hnot (formulaEnd_nil _)
      (reads_predicate_of_sum (hsum nested) (formulaEnd_nil _)) cs.length cs hcs
  have hconjunction : ∀ nested, Reads (conjunction nested) e.text e [] := fun nested =>
    (Extends.of_reads (hnegation nested)).reads (hend .and)
  have hdisjunction : ∀ nested, Reads (disjunction nested) e.text e [] := fun nested =>
    (Extends.of_reads (hconjunction nested)).reads (hend .or)
  obtain ⟨left, hrun, hleft⟩ := hdisjunction (nestedAt (e.text.length + 1)) e.text
    (by simpa using hstart.dropBlanks_append [])
  have hempty : left = [] := by rcases hleft with rfl | rfl <;> rfl
  refine .of_run ?_
  rw [parseExpr, anyDepth, run_bind_ok run_get, hrun, hempty]

/-- The wildcard of a table is read back. -/
theorem Expr.readsBack_qualifiedWildcard {table : String} (h : IsLeadingWord table) :
    (Expr.qualifiedWildcard table).ReadsBack := by
  have htext : (Expr.qualifiedWildcard table).text = table.toList ++ ['.', '*'] := by
    simp [Expr.text, Expr.display]
  have hfront : front (table.toList ++ ['.', '*']) ∉ ['-', '+'] :=
    notMem_of_isNameChar (h.toIsIdentifier.front_append _).1 (by decide)
  refine .of_primary (htext ▸ h.starts.append (by decide) _) (htext ▸ hfront) ?_
  intro nested cs hcs
  refine ⟨[], ?_, .inl rfl⟩
  have hdot : isNameChar (front ['.', '*']) = false := by decide
  rw [htext, List.append_nil] at hcs
  rw [run_primary_word h.toIsIdentifier hdot hcs, run_wordExpr h]
  rfl

/-- The selection with the text `SELECT u.*, count(*) AS n FROM users AS u LEFT JOIN
orders AS o ON u.id = o.buyer WHERE NOT blocked OR age < 30 GROUP BY city HAVING count(*)
> 1 ORDER BY city DESC, n ASC LIMIT 10 OFFSET 5`. -/
def buyersSelect : Select where
  distinct := false
  items := [⟨.qualifiedWildcard "u", none⟩, ⟨.call "count" false [.wildcard], some "n"⟩]
  source := .table "users" (some "u")
  joins := [⟨.left, .table "orders" (some "o"),
    some (.compare .eq (.column (.qualified "u" (String.intercalate "." ["id"])))
      (.column (.qualified "o" (String.intercalate "." ["buyer"]))))⟩]
  filter := some (.or (.not (.column (.bare "blocked")))
    (.compare .lt (.column (.bare "age")) (.literal (.int 30))))
  groupBy := [.column (.bare "city")]
  having := some (.compare .gt (.call "count" false [.wildcard]) (.literal (.int 1)))
  orderBy := [⟨.column (.bare "city"), false⟩, ⟨.column (.bare "n"), true⟩]
  limit := some 10
  offset := some 5

theorem isWritten_buyersSelect : buyersSelect.IsWritten := by
  have hname : ∀ name ∈ ["u", "n", "users", "orders", "o", "id", "buyer"],
      IsIdentifier name := by
    decide
  have hword : ∀ word ∈ ["u", "o", "n", "count", "blocked", "age", "city"],
      IsLeadingWord word := by
    decide
  have hbound : ∀ n ∈ [(30 : Int), 1, 10, 5], 0 ≤ n ∧ Decimal.fitsInt64 n = true := by decide
  have hlabel : ∀ {label : String},
    label ∈ ["u", "n", "users", "orders", "o", "id", "buyer"] →
      ∀ name ∈ some label, IsIdentifier name := by
    intro label hmem name hsome
    rw [← Option.mem_some.mp hsome]
    exact hname label hmem
  have hnumber : ∀ {n : Int}, n ∈ [(30 : Int), 1, 10, 5] →
      (Expr.literal (.int n)).IsOperand :=
    fun hmem => .int (hbound _ hmem).1 (hbound _ hmem).2
  have hcolumn : ∀ {word : String},
    word ∈ ["u", "o", "n", "count", "blocked", "age", "city"] →
      (Expr.column (.bare word)).IsOperand := fun hmem => .bare (hword _ hmem)
  have hcount : (Expr.call "count" false [.wildcard]).IsOperand :=
    .call (hword _ (by decide)) (by simpa using .star) (by simp)
  have hpath : ∀ {table part : String}, IsLeadingWord table → IsIdentifier part →
      (Expr.column (.qualified table (String.intercalate "." [part]))).IsOperand :=
    fun htable hpart => .qualified htable (by simp) (by simpa using hpart)
  constructor
  case nonempty => exact List.cons_ne_nil _ _
  case items =>
    simp only [buyersSelect, List.forall_mem_cons, List.not_mem_nil, false_imp_iff,
      implies_true, and_true]
    exact ⟨⟨Expr.readsBack_qualifiedWildcard (hword _ (by decide)), fun _ => rfl, nofun⟩,
      ⟨(Expr.IsFormula.test (.operand hcount)).readsBack, nofun, hlabel (by decide)⟩⟩
  case quantifier =>
    intro _ item hitem
    obtain rfl := Option.mem_some.mp hitem
    have hfirst : Expr.firstWord (.qualifiedWildcard "u") = ['U'] := rfl
    rw [hfirst]
    exact ⟨by decide, by decide⟩
  case source => exact .table (hname _ (by decide)) (hlabel (by decide))
  case joins =>
    simp only [buyersSelect, List.mem_singleton, forall_eq]
    refine ⟨.table (hname _ (by decide)) (hlabel (by decide)), ?_⟩
    simp only [Option.mem_some, forall_eq']
    exact (Expr.IsFormula.test (.compare .eq
      (hpath (hword _ (by decide)) (hname _ (by decide)))
      (hpath (hword _ (by decide)) (hname _ (by decide))))).readsBack
  case filter =>
    simp only [buyersSelect, Option.mem_some, forall_eq']
    exact (Expr.IsFormula.or (.not (.test (.operand (hcolumn (by decide)))))
      (.test (.compare .lt (hcolumn (by decide)) (hnumber (by decide))))).readsBack
  case groupBy =>
    simp only [buyersSelect, List.mem_singleton, forall_eq]
    exact (Expr.IsFormula.test (.operand (hcolumn (by decide)))).readsBack
  case having =>
    simp only [buyersSelect, Option.mem_some, forall_eq']
    exact (Expr.IsFormula.test (.compare .gt hcount (hnumber (by decide)))).readsBack
  case orderBy =>
    simp only [buyersSelect, List.forall_mem_cons, List.not_mem_nil, false_imp_iff,
      implies_true, and_true]
    exact ⟨(Expr.IsFormula.test (.operand (hcolumn (by decide)))).readsBack,
      (Expr.IsFormula.test (.operand (hcolumn (by decide)))).readsBack⟩
  case limit =>
    simp only [buyersSelect, Option.mem_some, forall_eq']
    exact ⟨(hbound _ (by decide)).1, (hbound _ (by decide)).2⟩
  case offset =>
    simp only [buyersSelect, Option.mem_some, forall_eq']
    exact ⟨(hbound _ (by decide)).1, (hbound _ (by decide)).2⟩

theorem select_read_back_buyers :
    buyersSelect.IsWritten ∧
      Statement.ofString buyersSelect.display = .ok (.select (.plain buyersSelect)) :=
  ⟨isWritten_buyersSelect, select_read_back isWritten_buyersSelect⟩

end DocQuery.Sql
