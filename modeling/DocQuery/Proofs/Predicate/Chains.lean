import DocQuery.Proofs.Predicate.Trees
import DocQuery.Proofs.Sql.Chains
import DocQuery.Proofs.Sql.Parentheses

/-!
# Chains of one operator become one array

Operands with one logical operator between them are read as a chain that leans to the
left, and the filter of a chain holds the filters of all operands in one array.  No other
condition is flattened.

* `Connective.join`, `Connective.chain`, `Connective.IsChain` — conditions joined by an
  operator
* `Connective.isRun_iff_isChain` — runs are exactly the chains
* `Filter.Flattens`, `Filter.Flattens.step`, `Filter.compile_chain` — one more operand,
  and all of them
* `Filter.exists_items_of_compile_join` — the array of any condition
* `Filter.chain_becomes_one_array` — chains are read and flattened, and nothing else is
-/

namespace DocQuery

open Sql

/-! ### Chains -/

namespace Connective

/-- Two conditions joined by an operator. -/
def join : Connective → Expr → Expr → Expr
  | .all => .and
  | .any => .or

/-- The keyword between conditions. -/
def keyword : Connective → Scan.Keyword
  | .all => .and
  | .any => .or

/-- Operands joined one after the other, from left to right. -/
def chain (op : Connective) (first : Expr) (others : List Expr) : Expr :=
  others.foldl op.join first

/-- **A chain of one operator**: two or more operands, none of which is joined itself. -/
def IsChain (op : Connective) (e : Expr) : Prop :=
  ∃ first others, others ≠ [] ∧ (∀ c ∈ first :: others, c.isLogical = false) ∧
    e = op.chain first others

/-- Whether an expression is a run of the operator. -/
def isRun : Connective → Expr → Bool
  | .all => Filter.isAndRun
  | .any => Filter.isOrRun

variable (op : Connective)

theorem chain_concat (first : Expr) (others : List Expr) (last : Expr) :
    op.chain first (others ++ [last]) = op.join (op.chain first others) last := by
  rw [chain, List.foldl_append]
  rfl

theorem isLogical_join (l r : Expr) : (op.join l r).isLogical = true := by
  cases op <;> rfl

theorem isRun_join (l r : Expr) :
    op.isRun (op.join l r) = (!r.isLogical && (op.isRun l || !l.isLogical)) := by
  cases op with
  | all => rw [isRun, join, Filter.isAndRun]
  | any => rw [isRun, join, Filter.isOrRun]

/-- A run has two sides. -/
theorem exists_join_of_isRun {e : Expr} (h : op.isRun e = true) : ∃ l r, e = op.join l r := by
  cases op with
  | all =>
    cases e with
    | and l r => exact ⟨l, r, rfl⟩
    | _ => cases h
  | any =>
    cases e with
    | or l r => exact ⟨l, r, rfl⟩
    | _ => cases h

/-- A run that is joined with one more operand is a chain if the run is. -/
theorem isChain_join {l r : Expr} (hl : op.isRun l = true → op.IsChain l)
    (h : op.isRun (op.join l r) = true) : op.IsChain (op.join l r) := by
  rw [isRun_join, Bool.and_eq_true, Bool.or_eq_true, Bool.not_eq_true',
    Bool.not_eq_true'] at h
  obtain ⟨hr, hrun | hplain⟩ := h
  · obtain ⟨first, others, -, hplain, rfl⟩ := hl hrun
    refine ⟨first, others ++ [r], by simp, fun c hc =>
      ?_, (op.chain_concat first others r).symm⟩
    rw [← List.cons_append, List.mem_append, List.mem_singleton] at hc
    rcases hc with hc | rfl
    · exact hplain c hc
    · exact hr
  · refine ⟨l, [r], by simp, fun c hc => ?_, rfl⟩
    simp only [List.mem_cons, List.not_mem_nil, or_false] at hc
    rcases hc with rfl | rfl
    · exact hplain
    · exact hr

/-- Operands that are joined to an operand or to a run make a run. -/
theorem isRun_chain {first : Expr} {others : List Expr} (hne : others ≠ [])
    (hfirst : op.isRun first = true ∨ first.isLogical = false)
    (hothers : ∀ c ∈ others, c.isLogical = false) :
    op.isRun (op.chain first others) = true := by
  induction others generalizing first with
  | nil => exact absurd rfl hne
  | cons c rest ih =>
    have hjoin : op.isRun (op.join first c) = true := by
      rw [isRun_join, hothers c List.mem_cons_self]
      rcases hfirst with hrun | hplain
      · rw [hrun, Bool.true_or]
        rfl
      · rw [hplain, Bool.not_false, Bool.or_true]
        rfl
    cases rest with
    | nil => exact hjoin
    | cons c' rest =>
      exact ih (List.cons_ne_nil _ _) (.inl hjoin) fun d hd =>
        hothers d (List.mem_cons_of_mem c hd)

/-- **Runs are exactly the chains.** -/
theorem isRun_iff_isChain (e : Expr) : op.isRun e = true ↔ op.IsChain e := by
  constructor
  · intro h
    cases op with
    | all =>
      induction e using Filter.isAndRun.induct with
      | case1 l r ih => exact Connective.all.isChain_join ih h
      | case2 e hne =>
        rw [isRun, Filter.isAndRun] at h
        · cases h
        · exact hne
    | any =>
      induction e using Filter.isOrRun.induct with
      | case1 l r ih => exact Connective.any.isChain_join ih h
      | case2 e hne =>
        rw [isRun, Filter.isOrRun] at h
        · cases h
        · exact hne
  · rintro ⟨first, others, hne, hplain, rfl⟩
    exact op.isRun_chain hne (.inr (hplain first List.mem_cons_self))
      fun c hc => hplain c (List.mem_cons_of_mem first hc)

end Connective

namespace Filter

variable {ctx : Context} {op : Connective}

/-! ### The filter of a chain -/

/-- The filter of two joined conditions is made of their filters. -/
theorem compile_join (ctx : Context) (op : Connective) (l r : Expr) :
    compile ctx (op.join l r) = (do
      let left ← compile ctx l
      let right ← compile ctx r
      return conjoin op.operator (op.isRun l && !r.isLogical) left right) := by
  cases op with
  | all => exact compile_and ctx l r
  | any => exact compile_or ctx l r

/-- **The operands that have been read so far**: an operand and its filter, or a run whose
filter holds the filters of its operands. -/
inductive Flattens (ctx : Context) (op : Connective) (e : Expr) : List Document → Prop
  | operand {filter : Document} (he : e.isLogical = false) (h : compile ctx e = .ok filter) :
      Flattens ctx op e [filter]
  | run {filters : List Document} (he : op.isRun e = true)
      (h : compile ctx e = .ok (.single op.operator (.array (filters.map .document)))) :
      Flattens ctx op e filters

/-- **Step.**  One more operand adds its filter to the array. -/
theorem Flattens.step {e c : Expr} {filters : List Document} {filter : Document}
    (h : Flattens ctx op e filters) (hc : c.isLogical = false)
    (hfilter : compile ctx c = .ok filter) :
    op.isRun (op.join e c) = true ∧ compile ctx (op.join e c) =
      .ok (.single op.operator (.array ((filters ++ [filter]).map .document))) := by
  rw [op.isRun_join, compile_join, hfilter, hc]
  cases h with
  | operand he hcompile =>
    have hrun : op.isRun e = false := by
      refine Bool.eq_false_iff.mpr fun hrun => ?_
      obtain ⟨l, r, rfl⟩ := op.exists_join_of_isRun hrun
      rw [op.isLogical_join] at he
      cases he
    rw [hcompile, he, hrun]
    exact ⟨rfl, rfl⟩
  | run he hcompile =>
    rw [hcompile, he]
    refine ⟨rfl, ?_⟩
    show Except.ok (conjoin op.operator true _ filter) = _
    rw [conjoin, if_pos rfl, operands_single, List.map_append]
    rfl

/-- **Run.**  The filter of a chain holds the filters of its operands in their order. -/
theorem compile_chain {first : Expr} {others : List Expr} {filters added : List Document}
    (hne : others ≠ []) (hfirst : Flattens ctx op first filters)
    (hothers : ∀ c ∈ others, c.isLogical = false)
    (hadded : others.map (compile ctx) = added.map .ok) :
    compile ctx (op.chain first others) =
      .ok (.single op.operator (.array ((filters ++ added).map .document))) := by
  induction others generalizing first filters added with
  | nil => exact absurd rfl hne
  | cons c rest ih =>
    obtain ⟨filter, added, rfl, hfilter, hrest⟩ := List.map_eq_cons_iff.mp hadded.symm
    obtain ⟨hrun, hcompile⟩ := hfirst.step (hothers c List.mem_cons_self) hfilter.symm
    cases rest with
    | nil =>
      rw [List.map_nil, List.map_eq_nil_iff] at hrest
      rw [hrest]
      exact hcompile
    | cons c' rest =>
      rw [List.append_cons]
      exact ih (List.cons_ne_nil _ _) (.run hrun hcompile)
        (fun d hd => hothers d (List.mem_cons_of_mem c hd)) hrest.symm

/-! ### The filter of any condition -/

/-- The filter of a condition holds an array, which ends with the filter of the right side. -/
theorem exists_concat_of_compile_join {l r : Expr} {filter : Document}
    (h : compile ctx (op.join l r) = .ok filter) :
    ∃ before last, filter = .single op.operator (.array (before ++ [last])) := by
  rw [compile_join] at h
  obtain ⟨left, -, h⟩ := Outcome.bind_eq_ok.mp h
  obtain ⟨right, -, h⟩ := Outcome.bind_eq_ok.mp h
  exact ⟨_, _, (Outcome.pure_eq_ok.mp h).symm⟩

/-- **The array of a condition** holds the filters of its two sides, unless the condition
is a chain. -/
theorem exists_items_of_compile_join {l r : Expr} {filter : Document}
    (h : compile ctx (op.join l r) = .ok filter) :
    ∃ items, filter = .single op.operator (.array items) ∧ 2 ≤ items.length ∧
      (2 < items.length → op.IsChain (op.join l r)) ∧
      (¬ op.IsChain (op.join l r) → ∃ left right, compile ctx l = .ok left ∧
        compile ctx r = .ok right ∧ items = [.document left, .document right]) := by
  rw [compile_join] at h
  obtain ⟨left, hleft, h⟩ := Outcome.bind_eq_ok.mp h
  obtain ⟨right, hright, h⟩ := Outcome.bind_eq_ok.mp h
  rw [← Outcome.pure_eq_ok.mp h]
  cases hcontinues : op.isRun l && !r.isLogical with
  | false =>
    refine ⟨[.document left, .document right], rfl, Nat.le_refl 2, ?_, ?_⟩
    · exact fun hlong => absurd hlong (Nat.lt_irrefl 2)
    · exact fun _ => ⟨left, right, hleft, hright, rfl⟩
  | true =>
    obtain ⟨hrun, hplain⟩ := Bool.and_eq_true_iff.mp hcontinues
    have hchain : op.IsChain (op.join l r) := by
      rw [← op.isRun_iff_isChain, op.isRun_join, hplain, hrun]
      rfl
    -- the operands are taken over from the left side, which has at least one
    obtain ⟨l', r', rfl⟩ := op.exists_join_of_isRun hrun
    obtain ⟨before, last, rfl⟩ := exists_concat_of_compile_join hleft
    refine ⟨before ++ [last] ++ [.document right], ?_, by simp, fun _ => hchain,
      fun hno => absurd hchain hno⟩
    rw [conjoin, if_pos rfl, operands_single]

/-! ### From the text to the filter -/

/-- The texts of operands with the keyword of an operator between them. -/
def chainText (op : Connective) (texts : List String) : String :=
  String.intercalate (" " ++ op.keyword.text ++ " ") texts

theorem toList_chainText (op : Connective) (first : String) (others : List String) :
    (chainText op (first :: others)).toList =
      first.toList ++ Grammar.furtherText op.keyword (others.map String.toList) := by
  unfold chainText
  induction others generalizing first with
  | nil => simp [Grammar.furtherText]
  | cons next others ih =>
    rw [String.intercalate_cons_cons, String.toList_append, ih, List.map_cons,
      Grammar.furtherText_cons]
    simp

/-- The chain of an operator is read from the texts of its operands. -/
theorem run_parseExpr_chain (op : Connective) (first : List Char × Expr)
    (others : List (List Char × Expr))
    (h : ∀ o ∈ first :: others, Grammar.IsOperandText o.1 o.2) :
    parseExpr.run (first.1 ++ Grammar.furtherText op.keyword (others.map Prod.fst)) =
      .ok (op.chain first.2 (others.map Prod.snd), []) := by
  cases op with
  | all => exact run_parseExpr_chain_and first others h
  | any => exact run_parseExpr_chain_or first others h

theorem run_chainText {first : String × Expr} {others : List (String × Expr)}
    (h : ∀ o ∈ first :: others, Grammar.IsOperandText o.1.toList o.2) :
    parseExpr.run (chainText op ((first :: others).map Prod.fst)).toList =
      .ok (op.chain first.2 (others.map Prod.snd), []) := by
  have hothers : ∀ o ∈ (first.1.toList, first.2) :: others.map (Prod.map String.toList id),
      Grammar.IsOperandText o.1 o.2 := by
    intro o ho
    rcases List.mem_cons.mp ho with rfl | ho
    · exact h first List.mem_cons_self
    · obtain ⟨o, hmem, rfl⟩ := List.mem_map.mp ho
      exact h o (List.mem_cons_of_mem first hmem)
  have hchain := run_parseExpr_chain op _ _ hothers
  rw [List.map_map, List.map_map] at hchain
  rw [List.map_cons, toList_chainText, List.map_map]
  exact hchain

/-- **A chain of one operator becomes one flat array, and nothing else does.**  Operands
with one operator between them are read as their chain.  The filter of a chain holds the
filters of its operands, in their order.  The array of a condition has more than two
entries only if the condition is a chain, and holds the filters of its two sides if it is
none. -/
theorem chain_becomes_one_array (op : Connective) :
    (∀ (first : String × Expr) (others : List (String × Expr)),
      (∀ o ∈ first :: others, o.2.isLogical = false ∧
        (Scan.Cursor.ofString o.1).run parseExpr = (.ok o.2, ⟨o.1.toList, []⟩)) →
      (Scan.Cursor.ofString (chainText op ((first :: others).map Prod.fst))).run parseExpr =
        (.ok (op.chain first.2 (others.map Prod.snd)),
          ⟨(chainText op ((first :: others).map Prod.fst)).toList, []⟩)) ∧
    (∀ (ctx : Context) (first : Expr) (others : List Expr) (filters : List Document),
      others ≠ [] →
      (∀ c ∈ first :: others, c.isLogical = false) →
      (first :: others).map (compile ctx) = filters.map .ok →
      compile ctx (op.chain first others) =
        .ok (.single op.operator (.array (filters.map .document)))) ∧
    (∀ (ctx : Context) (l r : Expr) (filter : Document),
      compile ctx (op.join l r) = .ok filter →
      ∃ items, filter = .single op.operator (.array items) ∧ 2 ≤ items.length ∧
        (2 < items.length → op.IsChain (op.join l r)) ∧
        (¬ op.IsChain (op.join l r) → ∃ left right, compile ctx l = .ok left ∧
          compile ctx r = .ok right ∧ items = [.document left, .document right])) := by
  refine ⟨fun first others h => ?_, fun ctx first others filters hne hplain hfilters => ?_,
    fun ctx l r filter => exists_items_of_compile_join⟩
  · rw [run_ofString_eq_ok_iff]
    exact run_chainText fun o ho => ⟨run_ofString_eq_ok_iff.mp (h o ho).2, (h o ho).1⟩
  · obtain ⟨filter, added, rfl, hfilter, hadded⟩ := List.map_eq_cons_iff.mp hfilters.symm
    exact compile_chain hne (.operand (hplain first List.mem_cons_self) hfilter.symm)
      (fun c hc => hplain c (List.mem_cons_of_mem first hc)) hadded.symm

/-- A column as an operand of a chain, with its text. -/
def columnOperand (name : String) : String × Expr :=
  (name, .column (.bare name))

theorem chain_becomes_one_array_columns :
    (Scan.Cursor.ofString (chainText .any ["a", "b", "c"])).run parseExpr =
      (.ok (Connective.any.chain (.column (.bare "a")) [.column (.bare "b"),
        .column (.bare "c")]), ⟨(chainText .any ["a", "b", "c"]).toList, []⟩) ∧
    compile (.flat {}) (.or (.or (.column (.bare "a")) (.column (.bare "b")))
      (.column (.bare "c"))) =
      .ok (.single "$or" (.array [.document (.single "a" (.bool true)),
        .document (.single "b" (.bool true)), .document (.single "c" (.bool true))])) ∧
    Connective.any.IsChain
      (.or (.or (.column (.bare "a")) (.column (.bare "b"))) (.column (.bare "c"))) := by
  obtain ⟨hread, hflat, harray⟩ := chain_becomes_one_array .any
  have hcompile :=
    hflat (.flat {}) (.column (.bare "a")) [.column (.bare "b"), .column (.bare "c")]
    [.single "a" (.bool true), .single "b" (.bool true), .single "c" (.bool true)] (by simp)
    (by simp [Expr.isLogical]) rfl
  refine ⟨hread (columnOperand "a") [columnOperand "b", columnOperand "c"] ?_, hcompile, ?_⟩
  · have hword : ∀ name ∈ ["a", "b", "c"], IsLeadingWord name := by decide
    have hoperand : ∀ name ∈ ["a", "b", "c"], (columnOperand name).2.isLogical = false ∧
        (Scan.Cursor.ofString name).run parseExpr =
          (.ok (columnOperand name).2, ⟨name.toList, []⟩) := by
      intro name hname
      have hread := run_parseExpr_text (.test (.operand (.bare (hword name hname))))
      exact ⟨rfl, run_ofString_eq_ok_iff.mpr hread⟩
    simpa [columnOperand] using hoperand
  · obtain ⟨items, hitems, -, hchain, -⟩ := harray (.flat {})
      (.or (.column (.bare "a")) (.column (.bare "b"))) (.column (.bare "c")) _ hcompile
    have hthree := congrArg (operands Connective.any.operator) hitems
    rw [operands_single, operands_single] at hthree
    refine hchain ?_
    rw [← hthree]
    decide

end Filter

end DocQuery
