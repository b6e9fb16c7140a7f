import DocQuery.Proofs.Sql.FollowingExpr

/-!
# Queries in respaced texts

A query that is read from a text is read from every text that differs from it in its
blanks.  It has to reach to the end of the text, or to a closing parenthesis; a selection
may also be followed by bounds.

* `SelectEnd`, `follows_unpaged` — selections up to their bounds, which may stand in the
  second text only
* `follows_select`, `follows_query` — the parts of a query, from its items to its set
  operations
* `following_nestedAt` — the parsers of every depth follow each other
* `follows_parseExpr`, `follows_parseQuery` — freed of the bound on the depth

### What is load-bearing

The depth of parentheses is bounded by the length of the text, so the two runs have
different bounds.  Only the second one has to be large enough (`following_nestedAt`):
where the first run exceeds its own bound it fails, and nothing has to be followed.
-/

set_option synthInstance.maxSize 600

/-- A selection with other bounds. -/
def DocQuery.Sql.Select.paged (s : Select) (limit offset : Option Int) : Select :=
  { s with limit := limit, offset := offset }

namespace DocQuery.Sql.Grammar

open Scan Text

variable {α : Type} {inside : Prop} {n : Nat} {rest cs ds : List Char}

/-! ### The end of a query -/

/-- **What a selection may be followed by**: no keyword by which it would go on but for
those of its bounds, no comma or parenthesis, and no alias. -/
structure SelectEnd (rest : List Char) : Prop where
  keyword : ∀ k : Keyword, k ≠ .limit → k ≠ .offset → k.word.match? rest = none
  mark : front rest ∉ [',', '(']
  noAlias : NoAlias rest

theorem selectEnd_nil : SelectEnd [] where
  keyword k _ _ := keyword_match?_nil k
  mark := by decide
  noAlias := noAlias_nil

theorem selectEnd_of_end (hend : inside ∨ rest = []) : inside ∨ SelectEnd rest := by
  refine hend.imp_right ?_
  rintro rfl
  exact selectEnd_nil

theorem match?_of_end (hend : inside ∨ rest = []) (k : Keyword) :
    inside ∨ k.word.match? rest = none := by
  refine hend.imp_right ?_
  rintro rfl
  exact keyword_match?_nil k

theorem front_ne_of_end (hend : inside ∨ SelectEnd rest) {c : Char} (hc : c ∈ [',', '(']) :
    inside ∨ front rest ≠ c := by
  refine hend.imp_right fun hend => ?_
  rintro rfl
  exact hend.mark hc

theorem exprEnd_of_end (hend : inside ∨ SelectEnd rest) : inside ∨ ExprEnd rest := by
  refine hend.imp_right fun hend k hk => hend.keyword k ?_ ?_
  · rintro rfl
    exact absurd hk (by decide)
  · rintro rfl
    exact absurd hk (by decide)

theorem noAlias_of_end (hend : inside ∨ SelectEnd rest) : inside ∨ NoAlias rest :=
  hend.imp_right fun hend => hend.noAlias

/-! ### Parts of a query -/

/-- The limit of a query, with the offset before it if there are two numbers. -/
def limitClause : Parser (Option Int × Option Int) := do
  if ← consume .limit then
    let first ← count
    if ← consumeChar ',' then
      let second ← count
      return (some (second : Int), some (first : Int))
    return (some (first : Int), none)
  return (none, none)

theorem paging_eq : paging = (do
    let page ← limitClause
    if page.2.isSome then
      return page
    if ← consume .offset then
      return (page.1, some ((← count : Nat) : Int))
    return (page.1, none)) := rfl

instance : Shrinks limitClause := by
  unfold limitClause
  infer_instance

/-- The clauses of a selection behind its source, but for its bounds. -/
def unpagedClauses (nested : Nested) (distinct : Bool) (items : List SelectItem)
    (source : Source) : Parser Select := do
  let joins ← many (join? nested) (← get).length
  let filter ← after .whereKw nested.expr
  let groupBy ← after .groupBy (commaList nested.expr)
  let having ← after .having nested.expr
  let orderBy ← after .orderBy (commaList (orderItem nested))
  return {
    distinct, items, source, joins, filter, groupBy := groupBy.getD [], having
    orderBy := orderBy.getD [], limit := none, offset := none }

/-- A selection without its bounds. -/
def unpaged (nested : Nested) : Parser Select := do
  expect .select
  let distinct ← quantifier
  let items ← commaList (selectItem nested)
  expect .fromKw
  let source ← source nested
  singleSource
  unpagedClauses nested distinct items source

/-- **The bounds of a selection come last.** -/
theorem select_eq_unpaged (nested : Nested) : select nested = (do
    let s ← unpaged nested
    let page ← paging
    return s.paged page.1 page.2) := by
  rw [select_eq]
  simp only [unpaged, unpagedClauses, clauses, bind_assoc, pure_bind, Select.paged]

instance (nested : Nested) [nested.Shrinking] (distinct : Bool) (items : List SelectItem)
    (source : Source) : Shrinks (unpagedClauses nested distinct items source) := by
  unfold unpagedClauses
  infer_instance

instance (nested : Nested) [nested.Shrinking] : Shrinks (unpaged nested) := by
  unfold unpaged
  infer_instance

/-- The bounds of a selection are followed to the end of the text. -/
theorem follows_paging (hrest : Cut rest) (hend : inside ∨ rest = []) :
    Follows inside n (Ahead rest) (Ahead rest) paging paging := by
  have hkeyword : ∀ k, Follows inside n (Ahead rest) (Ahead rest) (consume k) (consume k) :=
    fun k => follows_consume hrest (match?_of_end hend k)
  have hcomma : inside ∨ front rest ≠ ',' :=
    front_ne_of_end (selectEnd_of_end hend) (by decide)
  have hlimit : Follows inside n (Ahead rest) (Ahead rest) limitClause limitClause := by
    refine (hkeyword .limit).bind fun found => ?_
    cases found with
    | false => exact follows_pure _
    | true =>
      refine (follows_count hrest).bind fun first => ?_
      refine (follows_consumeChar (by decide) hcomma).bind fun found => ?_
      cases found with
      | false => exact follows_pure _
      | true => exact (follows_count hrest).bind fun second => follows_pure _
  rw [paging_eq]
  refine hlimit.bind fun page => ?_
  split
  · exact follows_pure _
  · refine (hkeyword .offset).bind fun found => ?_
    cases found with
    | false => exact follows_pure _
    | true => exact (follows_count hrest).bind fun m => follows_pure _

section Parts

variable (hrest : Cut rest) (hend : inside ∨ SelectEnd rest)
include hrest hend

/-- A keyword that may be missing. -/
theorem follows_keyword {k : Keyword} (hlimit : k ≠ .limit) (hoffset : k ≠ .offset) :
    Follows inside n (Ahead rest) (Ahead rest) (consume k) (consume k) :=
  follows_consume hrest (hend.imp_right fun hend => hend.keyword k hlimit hoffset)

theorem follows_table : Follows inside n (Ahead rest) (Ahead rest) table table := by
  refine (follows_dottedName hrest).ahead.bind fun name => ?_
  exact (follows_aliasName hrest (noAlias_of_end hend)).bind fun a => follows_pure _

theorem follows_oneOf {choices : List (Keyword × α)}
    (hchoices : ∀ choice ∈ choices, choice.1 ≠ .limit ∧ choice.1 ≠ .offset) :
    Follows inside n (Ahead rest) (Ahead rest) (oneOf choices) (oneOf choices) := by
  induction choices with
  | nil => exact follows_pure none
  | cons choice others ih =>
    obtain ⟨⟨hlimit, hoffset⟩, hothers⟩ := List.forall_mem_cons.mp hchoices
    refine (follows_keyword hrest hend hlimit hoffset).bind fun found => ?_
    cases found with
    | true => exact follows_pure _
    | false => exact ih hothers

theorem follows_after {p q : Parser α} [Shrinks p] [Shrinks q] {k : Keyword}
    (hlimit : k ≠ .limit) (hoffset : k ≠ .offset)
    (hp : Follows inside n (Ahead rest) (Ahead rest) p q) :
    Follows inside n (Ahead rest) (Ahead rest) (after k p) (after k q) := by
  refine (follows_keyword hrest hend hlimit hoffset).bind fun found => ?_
  cases found with
  | true => exact hp.bind fun a => follows_pure _
  | false => exact follows_pure none

theorem follows_quantifier :
    Follows inside n (Ahead rest) (Ahead rest) quantifier quantifier := by
  refine (follows_keyword hrest hend (k := .distinct) (by decide) (by decide)).bind
    fun distinct => ?_
  cases distinct with
  | true => exact follows_pure _
  | false =>
    exact ((follows_keyword hrest hend (k := .all) (by decide) (by decide)).map _).bind
      fun _ => follows_pure _

theorem follows_singleSource :
    Follows inside n (Ahead rest) (Ahead rest) singleSource singleSource := by
  refine follows_skipBlanks ?_ fun c cs ds hc h _ => ?_
  · rcases hend with hin | hend
    · exact .ended hin rfl
    · have hcomma : (front rest == ',') = false := by
        have hmark := hend.mark
        simp only [List.mem_cons, not_or] at hmark
        simpa using hmark.1
      refine .step (run_bind_ok run_current) (run_bind_ok run_current) ?_
      rw [hcomma]
      exact .of_run rfl rfl (.ended rfl hrest.start)
  · refine .step (run_bind_ok run_current) (run_bind_ok run_current) ?_
    rw [front_cons, front_cons]
    split
    · -- a second source is an error
      intro _ _ hrun
      cases hrun
    · exact .of_run rfl rfl h.ahead

theorem follows_setOperator :
    Follows inside n (Ahead rest) (Ahead rest) setOperator setOperator := by
  refine (follows_keyword hrest hend (k := .union) (by decide) (by decide)).bind fun found =>
    ?_
  cases found with
  | true =>
    refine (follows_keyword hrest hend (k := .all) (by decide) (by decide)).bind fun found =>
      ?_
    cases found <;> exact follows_pure _
  | false => exact follows_oneOf hrest hend (by decide)

end Parts

/-! ### Queries -/

section Queries

variable {l r : Nested} [r.Shrinking] (hrest : Cut rest) (hend : inside ∨ SelectEnd rest)
  (hnested : Nested.Following rest n l r)
include hrest hend hnested

theorem follows_selectItem :
    Follows inside n (Ahead rest) (Ahead rest) (selectItem l) (selectItem r) := by
  refine (hnested.expr (exprEnd_of_end hend)).bind fun e => ?_
  split
  · exact follows_pure _
  · exact (follows_aliasName hrest (noAlias_of_end hend)).bind fun a => follows_pure _

theorem follows_orderItem :
    Follows inside n (Ahead rest) (Ahead rest) (orderItem l) (orderItem r) := by
  refine (hnested.expr (exprEnd_of_end hend)).bind fun e => ?_
  refine (follows_keyword hrest hend (k := .desc) (by decide) (by decide)).bind fun found =>
    ?_
  cases found with
  | true => exact follows_pure _
  | false =>
    exact ((follows_keyword hrest hend (k := .asc) (by decide) (by decide)).map _).bind
      fun _ => follows_pure _

variable [l.Shrinking]

theorem follows_source :
    Follows inside n (Ahead rest) (Ahead rest) (source l) (source r) := by
  refine (follows_consumeChar (by decide) (front_ne_of_end hend (by decide))).bind
    fun found => ?_
  cases found with
  | false => exact follows_table hrest hend
  | true =>
    refine (hnested.query (.inl trivial)).bind_closed fun query => ?_
    refine (follows_expectChar (by decide)).ahead.bind fun _ => ?_
    exact (follows_aliasName hrest (noAlias_of_end hend)).bind fun a => follows_pure _

theorem follows_join? : Follows inside n (Ahead rest) (Ahead rest) (join? l) (join? r) := by
  refine (follows_oneOf hrest hend (by decide)).bind_match (fun kind => ?_) fun kind => ?_
  · cases kind <;> infer_instance
  · cases kind with
    | none => exact follows_pure none
    | some kind =>
      refine (follows_source hrest hend hnested).bind fun right => ?_
      exact (follows_after hrest hend (k := .onKw) (by decide) (by decide)
        (hnested.expr (exprEnd_of_end hend))).bind
        fun on => follows_pure _

/-- The clauses behind the source, but for the bounds. -/
theorem follows_unpagedClauses (distinct : Bool) (items : List SelectItem) (source : Source) :
    Follows inside n (Ahead rest) (Ahead rest) (unpagedClauses l distinct items source)
      (unpagedClauses r distinct items source) := by
  have hexpr := hnested.expr (exprEnd_of_end hend)
  have hcomma : inside ∨ front rest ≠ ',' := front_ne_of_end hend (by decide)
  have hjoins := follows_many (follows_join? hrest hend hnested)
  have horder := (follows_orderItem hrest hend hnested).commaList hcomma
  unfold unpagedClauses
  simp only [← bind_assoc get]
  refine hjoins.bind fun joins => ?_
  refine (follows_after hrest hend (by decide) (by decide) hexpr).bind fun filter => ?_
  refine (follows_after hrest hend (by decide) (by decide) (hexpr.commaList hcomma)).bind
    fun groupBy => ?_
  refine (follows_after hrest hend (by decide) (by decide) hexpr).bind fun having => ?_
  exact (follows_after hrest hend (by decide) (by decide) horder).bind fun orderBy =>
    follows_pure _

/-- **Selections are followed up to their bounds.** -/
theorem follows_unpaged :
    Follows inside (n + 1) (Ahead rest) (Ahead rest) (unpaged l) (unpaged r) := by
  refine (follows_expect hrest .select).ahead.bind_lt length_lt_of_expect fun _ => ?_
  refine (follows_quantifier hrest hend).bind fun distinct => ?_
  refine ((follows_selectItem hrest hend hnested).commaList
    (front_ne_of_end hend (by decide))).bind fun items => ?_
  refine (follows_expect hrest .fromKw).ahead.bind fun _ => ?_
  refine (follows_source hrest hend hnested).bind fun source => ?_
  refine (follows_singleSource hrest hend).bind fun _ => ?_
  exact follows_unpagedClauses hrest hend hnested distinct items source

end Queries

section Ends

variable {l r : Nested} [l.Shrinking] [r.Shrinking] (hrest : Cut rest)
  (hend : inside ∨ rest = [])
  (hnested : Nested.Following rest n l r)
include hrest hend hnested

/-- **Selections are followed.** -/
theorem follows_select :
    Follows inside (n + 1) (Ahead rest) (Ahead rest) (select l) (select r) := by
  rw [select_eq_unpaged, select_eq_unpaged]
  refine (follows_unpaged hrest (selectEnd_of_end hend) hnested).bind fun s => ?_
  exact (follows_paging hrest hend).bind fun page => follows_pure _

theorem follows_branch :
    Follows inside (n + 1) (Ahead rest) (Ahead rest) (branch l) (branch r) := by
  intro cs ds h hlength
  have hopen : inside ∨ front rest ≠ '(' :=
    front_ne_of_end (selectEnd_of_end hend) (by decide)
  refine (follows_consumeChar (by decide) hopen cs ds h hlength).bind
    fun found left left' _ hfound hleft => ?_
  cases found with
  | true =>
    have hshorter := length_lt_of_consumeChar (by decide) hfound
    exact follows_closed _ (hnested.query (.inl trivial)) left left' hleft (by omega)
  | false =>
    have hshorter := Shrinks.length_le hfound
    refine (follows_select hrest hend hnested left left' hleft (by omega)).bind
      fun selection last last' _ _ hlast => ?_
    exact .of_run rfl rfl hlast

theorem follows_furtherBranch :
    Follows inside (n + 1) (Ahead rest) (Ahead rest) (furtherBranch l) (furtherBranch r) := by
  refine (follows_setOperator hrest (selectEnd_of_end hend)).bind_match (fun op => ?_)
    fun op => ?_
  · cases op <;> infer_instance
  · cases op with
    | none => exact follows_pure none
    | some op => exact (follows_branch hrest hend hnested).bind fun query => follows_pure _

/-- **Queries are followed.** -/
theorem follows_query :
    Follows inside (n + 1) (Ahead rest) (Ahead rest) (query l) (query r) := by
  have hothers := follows_many (follows_furtherBranch hrest hend hnested)
  unfold query
  simp only [← bind_assoc get]
  refine (follows_branch hrest hend hnested).bind_match (fun first => ?_) fun first => ?_
  · refine .bind inferInstance fun others => ?_
    cases others <;> infer_instance
  · refine hothers.bind_match (fun others => ?_) fun others => ?_
    · cases others <;> infer_instance
    · cases others <;> exact follows_pure _

end Ends

/-! ### Any depth -/

/-- **The parsers of every depth follow each other**, if the second one is as deep as its
text is long.  The induction is on the depth of the first one; at depth zero it reads
nothing. -/
theorem following_nestedAt (hrest : Cut rest) (depth n : Nat) :
    Nested.Following rest n (nestedAt depth) (nestedAt n) := by
  induction depth generalizing n with
  | zero =>
    constructor
    all_goals
      intro _ _ cs ds _ _ _ _ hrun
      cases hrun
  | succ depth ih =>
    cases n with
    | zero => exact ⟨fun _ _ _ _ hlength => absurd hlength (Nat.not_lt_zero _),
        fun _ _ _ _ hlength => absurd hlength (Nat.not_lt_zero _)⟩
    | succ n => exact ⟨fun hend => follows_disjunction hrest hend (ih n),
        fun hend => follows_query hrest hend (ih n)⟩

/-- A parser freed of the bound on the depth. -/
theorem follows_anyDepth {S : List Char → List Char → Prop} {p : Nested → Parser α}
    (h : ∀ depth n, Follows inside (n +
      1) (Ahead rest) S (p (nestedAt depth)) (p (nestedAt n))) :
    Follows inside n (Ahead rest) S (anyDepth p) (anyDepth p) :=
  follows_get fun cs ds hcs _ => h (cs.length + 1) (ds.length + 1) cs ds hcs (by omega)

/-- **Expressions in respaced texts are the same.** -/
theorem follows_parseExpr (hrest : Cut rest) (hend : inside ∨ ExprEnd rest) :
    Follows inside n (Ahead rest) (Ahead rest) parseExpr parseExpr :=
  follows_anyDepth fun depth n =>
    follows_disjunction hrest hend (following_nestedAt hrest depth n)

/-- **Queries in respaced texts are the same.** -/
theorem follows_parseQuery (hrest : Cut rest) (hend : inside ∨ rest = []) :
    Follows inside n (Ahead rest) (Ahead rest) parseQuery parseQuery :=
  follows_anyDepth fun depth n => follows_query hrest hend (following_nestedAt hrest depth n)

end DocQuery.Sql.Grammar
