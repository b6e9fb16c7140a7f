import DocQuery.Proofs.Sql.SelectRoundTrip
import Mathlib.Data.Option.Basic

/-!
# Bounds behind a selection

`LIMIT` and `OFFSET` come last in a selection, and both numbers may stand behind one
keyword as well.  A text that reads as a selection without bounds reads, with bounds
written behind it, as the selection with those bounds.

* `Bounds`, `Bounds.text` — the bounds, in the four ways in which they are written
* `Rejects` — a parser fails on a text, whatever blanks stand before
* `recovers_bounds`, `rejects_bounds` — bounds are read back exactly if their numbers fit
  64 bits
* `Select.IsReadFrom` — a text that reads as a selection, to its end
* `Select.IsReadFrom.ofString_append`, `Select.IsReadFrom.ofString_append_ne` — with
  bounds behind it

### What is load-bearing

The text before the bounds is arbitrary, so nothing is known of it but that it was read
once, up to its end.  The run on the longer text follows that run (`follows_unpaged`): up
to the bounds it finds what the first run has found, as no part of a selection takes
`LIMIT` or `OFFSET` for its own.
-/

namespace DocQuery.Sql

open Scan Text Grammar

/-! ### Bounds and their texts -/

/-- The bounds on rows, in the four ways in which they are written. -/
inductive Bounds where
  | limit (n : Nat)
  | offset (m : Nat)
  | limitOffset (n m : Nat)
  /-- Both numbers behind one keyword, the offset first. -/
  | pair (m n : Nat)
deriving Repr, DecidableEq

namespace Bounds

/-- The greatest number of rows. -/
def limit? : Bounds → Option Nat
  | .limit n | .limitOffset n _ | .pair _ n => some n
  | .offset _ => none

/-- The number of rows to leave out. -/
def offset? : Bounds → Option Nat
  | .offset m | .limitOffset _ m | .pair m _ => some m
  | .limit _ => none

/-- The text of bounds. -/
def text : Bounds → String
  | .limit n => clauseText .limit [toString n]
  | .offset m => clauseText .offset [toString m]
  | .limitOffset n m => clauseText .limit [toString n] ++ clauseText .offset [toString m]
  | .pair m n => clauseText .limit [toString m, toString n]

/-- Bounds whose numbers fit 64 bits. -/
structure Fits (b : Bounds) : Prop where
  limit : ∀ n ∈ b.limit?, Decimal.fitsInt64 n = true
  offset : ∀ m ∈ b.offset?, Decimal.fitsInt64 m = true

/-- A selection with these bounds. -/
def apply (b : Bounds) (s : Select) : Select :=
  s.paged (b.limit?.map Int.ofNat) (b.offset?.map Int.ofNat)

end Bounds

/-- The text of one number behind its keyword. -/
theorem toList_numberText (k : Keyword) (m : Nat) :
    (clauseText k [toString m]).toList = ' ' :: k.text.toList ++ ' ' ::
      Nat.toDigits 10 m := by
  rw [toList_clauseText k (List.cons_ne_nil _ _), List.map_singleton, commaText_singleton]
  exact congrArg (fun digits => ' ' :: k.text.toList ++ ' ' :: digits) Nat.toList_repr

/-- The text of two numbers behind one keyword. -/
theorem toList_pairText (m n : Nat) :
    (Bounds.pair m n).text.toList = ' ' :: Keyword.limit.text.toList ++
    (' ' :: Nat.toDigits 10 m ++
      ([','] ++ ' ' :: Nat.toDigits 10 n)) := by
  rw [Bounds.text, toList_clauseText _ (List.cons_ne_nil _ _)]
  simp [commaText_cons_cons]

/-- But for two numbers behind one keyword, the limit and the offset have a clause each. -/
theorem Bounds.text_eq {b : Bounds} (hb : ∀ m n, b ≠ .pair m n) :
    b.text = clauseText .limit ((b.limit?.map Int.ofNat).toList.map toString) ++
      clauseText .offset ((b.offset?.map Int.ofNat).toList.map toString) := by
  cases b with
  | limit n => exact String.append_empty.symm
  | offset m => exact String.empty_append.symm
  | limitOffset n m => rfl
  | pair m n => exact absurd rfl (hb m n)

theorem begins_offset (m : Nat) :
    Begins [.offset] (clauseText .offset [toString m]).toList := by
  have h : Begins [.offset] ((clauseText .offset [toString m]).toList ++ []) :=
    begins_clause .offset _ (.inl rfl)
  rwa [List.append_nil] at h

/-- Bounds begin with one of their keywords. -/
theorem begins_bounds (b : Bounds) : Begins [.limit, .offset] b.text.toList := by
  have hlimit : ∀ parts, Begins [.limit, .offset] ((clauseText .limit parts).toList ++ []) :=
    fun parts => begins_clause .limit parts (.inl rfl)
  simp only [List.append_nil] at hlimit
  cases b with
  | limit n => exact hlimit _
  | offset m => exact (begins_offset m).mono (by decide)
  | limitOffset n m =>
    rw [Bounds.text, String.toList_append]
    exact begins_clause .limit _ (begins_offset m)
  | pair m n => exact hlimit _

/-! ### Texts that are not read -/

/-- **A parser fails on a text**, whatever blanks stand before. -/
def Rejects {α : Type} (n : Nat) (p : Parser α) (text rest : List Char) : Prop :=
  ∀ cs, cs.length < n → dropBlanks cs = dropBlanks (text ++ rest) →
    ∀ a left, p.run cs ≠ .ok (a, left)

section Rejects

variable {α β : Type} {n : Nat} {p : Parser α} {f : α → Parser β} {a : α}
  {text more rest : List Char}

theorem Rejects.bind (h : Rejects n p text rest) : Rejects n (p >>= f) text rest := by
  intro cs hlength hcs b left hrun
  obtain ⟨a, middle, hp, -⟩ := exists_of_run_bind hrun
  exact h cs hlength hcs a middle hp

/-- What is not read is not read with more of the text behind it. -/
theorem Rejects.append (h : Rejects n p text (more ++ rest)) :
    Rejects n p (text ++ more) rest := by
  intro cs hlength hcs
  rw [List.append_assoc] at hcs
  exact h cs hlength hcs

/-- What follows a part fails. -/
theorem Rejects.after [Shrinks p] (hp : Recovers n p text a (more ++ rest))
    (hf : Rejects n (f a) more rest) : Rejects n (p >>= f) (text ++ more) rest := by
  intro cs hlength hcs b last hrun
  rw [List.append_assoc] at hcs
  obtain ⟨left, hfirst, hleft⟩ := hp cs hlength hcs
  rw [run_bind_ok hfirst] at hrun
  exact hf left (Nat.lt_of_le_of_lt (Shrinks.length_le hfirst) hlength) hleft b last hrun

/-- A number that does not fit is not read. -/
theorem rejects_count {m : Nat} (hm : Decimal.fitsInt64 m = false) (hrest : Apart rest) :
    Rejects n count (' ' :: Nat.toDigits 10 m) rest := by
  intro cs _ hcs a left hrun
  have hfront : (front rest).isDigit = false :=
    Bool.eq_false_iff.mpr fun hdigit => by
      have hname := isNameChar_of_isDigit hdigit
      rw [hrest.isNameChar] at hname
      cases hname
  have hblank : dropBlanks (Nat.toDigits 10 m ++ rest) = Nat.toDigits 10 m ++ rest := by
    obtain ⟨c, others, hdigits⟩ := List.exists_cons_of_ne_nil (@Nat.toDigits_ne_nil m 10)
    have hc : c.isDigit = true := isDigit_of_mem_toDigits c (hdigits ▸ List.mem_cons_self)
    rw [hdigits]
    exact dropBlanks_cons (isBlank_of_isNameChar (isNameChar_of_isDigit hc)) _
  have hnone : Decimal.readInt? (Nat.toDigits 10 m) = none := by
    have hread := readInt?_toDigits_eq (Int.natCast_nonneg m)
    rw [hm] at hread
    exact hread
  rw [List.cons_append, dropBlanks_space, hblank] at hcs
  rw [count, run_bind_ok run_skipBlanks, run_bind_ok run_get,
    run_bind_ok (run_takeChars _), hcs,
    takeWhile_append_of_front isDigit_of_mem_toDigits hfront, hnone] at hrun
  cases hrun

end Rejects

/-! ### Bounds are read back -/

section Reading

variable {n : Nat} {rest : List Char}

theorem isCount_of_fits {number : Option Nat} (h : ∀ m ∈ number, Decimal.fitsInt64 m = true) :
    ∀ value ∈ number.map Int.ofNat, IsCount value := by
  intro value hvalue
  obtain ⟨m, hm, rfl⟩ := Option.mem_map.mp hvalue
  exact ⟨Int.natCast_nonneg m, h m hm⟩

theorem recovers_number {m : Nat} (hm : Decimal.fitsInt64 m = true) (hrest : Apart rest) :
    Recovers n count (' ' :: Nat.toDigits 10 m) m rest :=
  recovers_count Nat.toDigits_ne_nil isDigit_of_mem_toDigits
    (readInt?_toDigits (Int.natCast_nonneg m) hm) hrest

/-- Two numbers behind one keyword: the offset comes first. -/
theorem recovers_pair {m k : Nat} (hm : Decimal.fitsInt64 m = true)
    (hk : Decimal.fitsInt64 k = true) :
    Recovers n paging (Bounds.pair m k).text.toList (some (k : Int), some (m : Int)) [] := by
  have hlimit : Recovers n limitClause (Bounds.pair m k).text.toList (some (k : Int),
    some (m : Int))
      [] := by
    rw [toList_pairText]
    refine (recovers_consume .limit (apart_space _)).bind ?_
    refine (recovers_number hm (apart_comma _)).bind ?_
    refine (recovers_consumeChar (by decide)).bind ?_
    exact (recovers_number hk (.inl rfl)).bind_pure rfl
  rw [paging_eq]
  exact hlimit.bind_pure rfl

/-- **Bounds are read back if their numbers fit.** -/
theorem recovers_bounds {b : Bounds} (h : b.Fits) :
    Recovers n paging b.text.toList (b.limit?.map Int.ofNat, b.offset?.map Int.ofNat) [] := by
  by_cases hpair : ∃ m k, b = .pair m k
  · obtain ⟨m, k, rfl⟩ := hpair
    exact recovers_pair (h.offset m rfl) (h.limit k rfl)
  · rw [Bounds.text_eq fun m k heq => hpair ⟨m, k, heq⟩, String.toList_append]
    exact recovers_paging (isCount_of_fits h.limit) (isCount_of_fits h.offset)

/-- A limit that does not fit is not read, whatever follows it. -/
theorem rejects_limitClause {m : Nat} (hm : Decimal.fitsInt64 m = false)
    (hrest : Apart rest) :
    Rejects n limitClause (' ' :: Keyword.limit.text.toList ++ ' ' ::
      Nat.toDigits 10 m) rest :=
  .after (recovers_consume .limit (apart_space _)) (rejects_count hm hrest).bind

/-- An offset that does not fit is not read. -/
theorem rejects_offset {m : Nat} (hm : Decimal.fitsInt64 m = false) {limit : Option Nat}
    (hlimit : ∀ k ∈ limit, Decimal.fitsInt64 k = true) :
    Rejects n paging
      ((clauseText .limit ((limit.map Int.ofNat).toList.map toString)).toList ++
      (clauseText .offset [toString m]).toList) [] := by
  have hbegins := begins_offset m
  rw [← List.append_nil (clauseText .offset _).toList] at hbegins
  rw [paging_eq]
  refine .after (recovers_limit (isCount_of_fits hlimit) hbegins) ?_
  rw [toList_numberText]
  exact .after (recovers_consume .offset (apart_space _)) (rejects_count hm (.inl rfl)).bind

/-- **Bounds are not read if a number does not fit.**  The numbers are tried in the order
in which they are written. -/
theorem rejects_bounds {b : Bounds} (h : ¬ b.Fits) : Rejects n paging b.text.toList [] := by
  cases b with
  | limit k =>
    cases hk : Decimal.fitsInt64 k with
    | true => exact absurd ⟨by simpa [Bounds.limit?] using hk, by simp [Bounds.offset?]⟩ h
    | false =>
      rw [paging_eq, Bounds.text, toList_numberText]
      exact (rejects_limitClause hk (.inl rfl)).bind
  | offset m =>
    cases hm : Decimal.fitsInt64 m with
    | true => exact absurd ⟨by simp [Bounds.limit?], by simpa [Bounds.offset?] using hm⟩ h
    | false => exact @rejects_offset n m hm none (by simp)
  | limitOffset k m =>
    rw [Bounds.text, String.toList_append]
    cases hk : Decimal.fitsInt64 k with
    | false =>
      have hoffset := (begins_offset m).apart
      rw [← List.append_nil (clauseText .offset _).toList] at hoffset
      rw [paging_eq, toList_numberText .limit]
      exact (rejects_limitClause hk hoffset).append.bind
    | true =>
      cases hm : Decimal.fitsInt64 m with
      | true =>
        exact absurd ⟨by simpa [Bounds.limit?] using hk, by simpa [Bounds.offset?] using hm⟩ h
      | false => exact @rejects_offset n m hm (some k) (by simpa using hk)
  | pair m k =>
    rw [paging_eq, toList_pairText]
    cases hm : Decimal.fitsInt64 m with
    | false =>
      rw [← List.append_assoc]
      exact (rejects_limitClause hm (apart_comma _)).append.bind
    | true =>
      cases hk : Decimal.fitsInt64 k with
      | true =>
        exact absurd ⟨by simpa [Bounds.limit?] using hk, by simpa [Bounds.offset?] using hm⟩ h
      | false =>
        refine Rejects.bind (.after (recovers_consume .limit (apart_space _)) ?_)
        refine .after (recovers_number hm (apart_comma _)) ?_
        exact .after (recovers_consumeChar (by decide)) (rejects_count hk (.inl rfl)).bind

end Reading

/-! ### Selections up to their bounds -/

/-- No part of a selection goes on with bounds. -/
theorem selectEnd_bounds (b : Bounds) : SelectEnd (dropBlanks b.text.toList) where
  keyword k hlimit hoffset := by
    refine (begins_bounds b).match?_eq_none ?_
    revert hlimit hoffset
    cases k <;> decide
  mark := (begins_bounds b).front_notMem (by decide) (by decide)
  noAlias ds hds := by
    have halias : AliasEnd b.text.toList := .inl ((begins_bounds b).mono (by decide))
    exact halias.recovers_none ds (Nat.lt_succ_self _) hds

theorem cut_bounds (b : Bounds) : Cut (dropBlanks b.text.toList) :=
  (boundary_of_begins ((begins_bounds b).mono (by decide))).cut

/-- What is left of a query behind a selection without its bounds. -/
def queryRest (nested : Nested) (s : Select) : Parser Query := do
  let page ← paging
  match ← many (furtherBranch nested) (← get).length with
  | [] => return .plain (s.paged page.1 page.2)
  | others =>
    return .setOperation (.plain (s.paged page.1 page.2) ::
      others.map Prod.snd) (others.map Prod.fst)

section Queries

variable {nested : Nested} {s : Select} {cs start left : List Char}

/-- A query that begins with a selection. -/
theorem run_query_of_unpaged (hopen : (consumeChar '(').run cs = .ok (false, start))
    (hrun : (unpaged nested).run start = .ok (s, left)) :
    (query nested).run cs = (queryRest nested s).run left := by
  rw [query, branch, select_eq_unpaged]
  simp only [bind_assoc]
  rw [run_bind_ok hopen]
  simp only [Bool.false_eq_true, if_false, bind_assoc, pure_bind]
  rw [run_bind_ok hrun]
  rfl

/-- A keyword that is not found leaves the text as it is, up to blanks. -/
theorem dropBlanks_of_oneOf_none {α : Type} {choices : List (Keyword × α)}
    (h : (oneOf choices).run cs = .ok (none, left)) : dropBlanks left = dropBlanks cs := by
  induction choices generalizing cs with
  | nil =>
    cases h
    rfl
  | cons choice others ih =>
    obtain ⟨found, middle, hfound, h⟩ := exists_of_run_bind h
    rcases run_consume_cases hfound with ⟨rfl, -⟩ | ⟨rfl, -, rfl⟩
    · cases h
    · exact (ih h).trans (dropBlanks_dropBlanks cs)

theorem dropBlanks_of_furtherBranch_none
    (h : (furtherBranch nested).run cs = .ok (none, left)) :
    dropBlanks left = dropBlanks cs := by
  obtain ⟨op, middle, hop, h⟩ := exists_of_run_bind h
  cases op with
  | some op =>
    obtain ⟨q, last, -, h⟩ := exists_of_run_bind h
    cases h
  | none =>
    cases h
    obtain ⟨found, start, hfound, hop⟩ := exists_of_run_bind hop
    rcases run_consume_cases hfound with ⟨rfl, -⟩ | ⟨rfl, -, rfl⟩
    · obtain ⟨all, last, -, hop⟩ := exists_of_run_bind hop
      cases all <;> cases hop
    · exact (dropBlanks_of_oneOf_none hop).trans (dropBlanks_dropBlanks cs)

theorem dropBlanks_of_many_nil {budget : Nat}
    (h : (many (furtherBranch nested) budget).run cs = .ok ([], left)) :
    dropBlanks left = dropBlanks cs := by
  cases budget with
  | zero =>
    cases h
    rfl
  | succ budget =>
    obtain ⟨further, middle, hfurther, h⟩ := exists_of_run_bind h
    cases further with
    | some first =>
      obtain ⟨others, last, -, h⟩ := exists_of_run_bind h
      cases h
    | none =>
      cases h
      exact dropBlanks_of_furtherBranch_none hfurther

/-- Where no bounds are found, nothing but blanks is read. -/
theorem dropBlanks_of_paging_none (h : paging.run cs = .ok ((none, none), left)) :
    dropBlanks left = dropBlanks cs := by
  rw [paging_eq] at h
  obtain ⟨page, middle, hlimit, h⟩ := exists_of_run_bind h
  obtain ⟨found, start, hfound, hlimit⟩ := exists_of_run_bind hlimit
  rcases run_consume_cases hfound with ⟨rfl, -⟩ | ⟨rfl, -, rfl⟩
  · -- behind the keyword there is a number
    obtain ⟨first, afterFirst, -, hlimit⟩ := exists_of_run_bind hlimit
    obtain ⟨comma, afterComma, -, hlimit⟩ := exists_of_run_bind hlimit
    cases comma with
    | true =>
      obtain ⟨second, last, -, hlimit⟩ := exists_of_run_bind hlimit
      cases hlimit
      cases h
    | false =>
      cases hlimit
      obtain ⟨found, last, -, h⟩ := exists_of_run_bind h
      cases found with
      | true =>
        obtain ⟨m, last, -, h⟩ := exists_of_run_bind h
        cases h
      | false => cases h
  · cases hlimit
    obtain ⟨found, last, hoffset, h⟩ := exists_of_run_bind h
    rcases run_consume_cases hoffset with ⟨rfl, -⟩ | ⟨rfl, -, rfl⟩
    · obtain ⟨m, last, -, h⟩ := exists_of_run_bind h
      cases h
    · cases h
      simp

/-- **The run of a selection** comes to its bounds, and reads nothing but blanks behind
them. -/
theorem exists_unpaged_of_query (h : (query nested).run cs = .ok (.plain s, left)) :
    ∃ s₀ limit offset start middle last, s = s₀.paged limit offset ∧
      (consumeChar '(').run cs = .ok (false, start) ∧
      (unpaged nested).run start = .ok (s₀, middle) ∧
      paging.run middle = .ok ((limit, offset), last) ∧
      dropBlanks last = dropBlanks left := by
  obtain ⟨first, afterFirst, hfirst, h⟩ := exists_of_run_bind h
  rw [run_bind_ok run_get] at h
  obtain ⟨others, afterOthers, hothers, h⟩ := exists_of_run_bind h
  cases others with
  | cons other others => cases h
  | nil =>
    cases h
    obtain ⟨found, start, hopen, hfirst⟩ := exists_of_run_bind hfirst
    cases found with
    | true =>
      obtain ⟨inner, last, -, hfirst⟩ := exists_of_run_bind hfirst
      obtain ⟨_, last, -, hfirst⟩ := exists_of_run_bind hfirst
      cases hfirst
    | false =>
      obtain ⟨selection, last, hselect, hfirst⟩ := exists_of_run_bind hfirst
      cases hfirst
      rw [select_eq_unpaged] at hselect
      obtain ⟨s₀, middle, hunpaged, hselect⟩ := exists_of_run_bind hselect
      obtain ⟨⟨limit, offset⟩, last, hpaging, hselect⟩ := exists_of_run_bind hselect
      cases hselect
      exact ⟨s₀, limit, offset, start, middle, _, rfl, hopen, hunpaged, hpaging,
        (dropBlanks_of_many_nil hothers).symm⟩

/-- A selection begins with its keyword. -/
theorem match?_of_unpaged (h : (unpaged nested).run start = .ok (s, left)) :
    (Keyword.select.word.match? (dropBlanks start)).isSome = true := by
  obtain ⟨_, middle, hexpect, -⟩ := exists_of_run_bind h
  rw [run_expect_cases hexpect]
  rfl

end Queries

/-! ### Bounds behind a text -/

/-- **A text that reads as a selection, to its end.** -/
def Select.IsReadFrom (s : Select) (text : String) : Prop :=
  ∃ left, parseQuery.run text.toList = .ok (.plain s, left) ∧ dropBlanks left = []

/-- A selection that is written from its parts is read from its text. -/
theorem Select.IsWritten.isReadFrom {s : Select} (h : s.IsWritten) :
    s.IsReadFrom s.display := by
  have hblank : dropBlanks s.display.toList = dropBlanks (' ' :: s.display.toList ++ []) := by
    rw [List.append_nil, dropBlanks_space]
  obtain ⟨left, hquery, hleft⟩ := recovers_query h _ (Nat.lt_succ_self _) hblank
  refine ⟨left, ?_, hleft⟩
  rw [parseQuery, anyDepth, run_bind_ok run_get, hquery]

namespace Select.IsReadFrom

variable {s : Select} {text : String}

/-- A statement that begins with the keyword of a selection is a query. -/
theorem run_parseAnyStatement {cs : List Char}
    (h : (Keyword.select.word.match? (dropBlanks cs)).isSome = true) :
    parseAnyStatement.run cs =
      (do return Statement.select (← parseQuery) : Parser Statement).run (dropBlanks cs) := by
  rw [parseAnyStatement, run_bind_ok run_check, run_bind_ok run_current, h, Bool.true_or,
    if_pos rfl]

/-- **The run on a text with bounds behind it** finds the same selection and comes to the
bounds. -/
theorem exists_run_append (h : s.IsReadFrom text) (hlimit : s.limit = none)
    (hoffset : s.offset = none) (b : Bounds) :
    ∃ depth s₀ left, s = s₀.paged none none ∧ dropBlanks left = dropBlanks b.text.toList ∧
      parseAnyStatement.run (text ++ b.text).toList =
        (do return Statement.select (← queryRest (nestedAt depth) s₀) : Parser Statement).run
          left := by
  obtain ⟨rest, hrun, hrest⟩ := h
  rw [parseQuery, anyDepth, run_bind_ok run_get] at hrun
  obtain ⟨s₀, limit, offset, start, middle, last, rfl, hopen, hunpaged, hpaging, hlast⟩ :=
    exists_unpaged_of_query hrun
  obtain rfl : limit = none := hlimit
  obtain rfl : offset = none := hoffset
  have hmiddle : dropBlanks middle = [] := by
    rw [← dropBlanks_of_paging_none hpaging, hlast, hrest]
  -- the second run starts behind the blanks in front of the longer text
  have hahead : Ahead (dropBlanks b.text.toList) text.toList
      (dropBlanks (text ++ b.text).toList) := by
    rw [String.toList_append]
    exact (Respaced.append_end text.toList rfl
      (begins_bounds b).apart.isDelimiter).ahead.congr
      (dropBlanks_dropBlanks _).symm
  generalize hds : dropBlanks (text ++ b.text).toList = ds at hahead
  have hend : False ∨ SelectEnd (dropBlanks b.text.toList) := .inr (selectEnd_bounds b)
  have hmark : False ∨ front (dropBlanks b.text.toList) ≠ '(' :=
    front_ne_of_end hend (by decide)
  rcases follows_consumeChar (by decide) hmark _ _ hahead (Nat.lt_succ_self _) _ _ hopen with
    ⟨hno, -⟩ | ⟨start', hopen', hstart⟩
  · exact hno.elim
  have hlength := Shrinks.length_le hopen'
  rcases follows_unpaged (cut_bounds b) hend
    (following_nestedAt (cut_bounds b) _ (ds.length + 1)) _ _
    hstart (by omega) _ _ hunpaged with ⟨hno, -⟩ | ⟨left, hunpaged', hleft⟩
  · exact hno.elim
  refine ⟨ds.length + 1, s₀, left, rfl, ?_, ?_⟩
  · cases hleft with
    | ended _ hds => exact hds
    | same hcs =>
      rw [hmiddle] at hcs
      cases hcs
  · have hquery : parseQuery.run ds = (queryRest (nestedAt (ds.length + 1)) s₀).run left := by
      rw [parseQuery, anyDepth, run_bind_ok run_get, run_query_of_unpaged hopen' hunpaged']
    have hblanks : dropBlanks start' = dropBlanks (text ++ b.text).toList := by
      rcases run_consumeChar_cases (by decide) hopen' with ⟨hfound, -⟩ | ⟨-, -, rfl⟩
      · cases hfound
      · rw [← hds]
        simp
    have hselect := match?_of_unpaged hunpaged'
    rw [hblanks] at hselect
    rw [run_parseAnyStatement hselect, hds, StateT.run_bind, StateT.run_bind, hquery]

/-- The text is a statement. -/
theorem ofString (h : s.IsReadFrom text) :
    Statement.ofString text = .ok (.select (.plain s)) := by
  obtain ⟨left, hrun, hleft⟩ := h
  -- the statement is read from behind the blanks in front of the text
  have hahead : Ahead [] text.toList (dropBlanks text.toList) := by
    have hself : Respaced [] text.toList (text.toList ++ []) := .append_end _ rfl (.inl rfl)
    rw [List.append_nil] at hself
    exact hself.ahead.congr (dropBlanks_dropBlanks _).symm
  rcases follows_parseQuery cut_nil live_end _ _ hahead (Nat.lt_succ_self _) _ _ hrun with
    ⟨hno, -⟩ | ⟨last, hrun', hlast⟩
  · exact hno.elim
  have hend : dropBlanks last = [] := by
    cases hlast with
    | ended _ hds => exact hds
    | same hcs =>
      rw [hleft] at hcs
      cases hcs
  have hquery := hrun'
  rw [parseQuery, anyDepth, run_bind_ok run_get] at hquery
  obtain ⟨s₀, limit, offset, start, middle, -, -, hopen, hunpaged, -, -⟩ :=
    exists_unpaged_of_query hquery
  have hselect := match?_of_unpaged hunpaged
  rcases run_consumeChar_cases (by decide) hopen with ⟨hfound, -⟩ | ⟨-, -, rfl⟩
  · cases hfound
  simp only [dropBlanks_dropBlanks] at hselect
  have hany : parseAnyStatement.run text.toList = .ok (.select (.plain s), last) := by
    rw [run_parseAnyStatement hselect, run_bind_ok hrun']
    rfl
  refine ofString_eq_ok_iff.mpr ⟨[], ?_⟩
  rw [parseStatement, run_bind_ok hany, run_bind_ok (run_endOfText hend)]
  rfl

/-- **A text that reads as a selection reads, with bounds behind it, as the selection with
those bounds.** -/
theorem ofString_append (h : s.IsReadFrom text) (hlimit : s.limit = none)
    (hoffset : s.offset = none) {b : Bounds} (hb : b.Fits) :
    Statement.ofString (text ++ b.text) = .ok (.select (.plain (b.apply s))) := by
  obtain ⟨depth, s₀, left, rfl, hleft, hrun⟩ := h.exists_run_append hlimit hoffset b
  have hquery : Recovers (left.length + 1) (queryRest (nestedAt depth) s₀) b.text.toList
      (.plain (b.apply (s₀.paged none none))) [] := by
    refine (recovers_bounds hb).bind_last ?_
    rw [← bind_assoc]
    exact (recovers_many_none (recovers_furtherBranch_none depth)).bind_pure rfl
  obtain ⟨last, hquery, hlast⟩ :=
    hquery left (Nat.lt_succ_self _) (by rw [hleft, List.append_nil])
  rw [run_bind_ok hquery] at hrun
  refine ofString_eq_ok_iff.mpr ⟨[], ?_⟩
  rw [parseStatement, run_bind_ok hrun, run_bind_ok (run_endOfText hlast)]
  rfl

/-- Bounds whose numbers do not fit make a text that is no statement. -/
theorem ofString_append_ne (h : s.IsReadFrom text) (hlimit : s.limit = none)
    (hoffset : s.offset = none) {b : Bounds} (hb : ¬ b.Fits) (statement : Statement) :
    Statement.ofString (text ++ b.text) ≠ .ok statement := by
  intro hok
  obtain ⟨depth, s₀, left, rfl, hleft, hrun⟩ := h.exists_run_append hlimit hoffset b
  obtain ⟨last, hparse⟩ := ofString_eq_ok_iff.mp hok
  obtain ⟨found, middle, hfound, -⟩ := exists_of_run_bind hparse
  rw [hrun] at hfound
  have hquery : Rejects (left.length + 1) (queryRest (nestedAt depth) s₀) b.text.toList [] :=
    (rejects_bounds hb).bind
  exact hquery.bind left (Nat.lt_succ_self _) (by rw [hleft, List.append_nil]) _ _ hfound

end Select.IsReadFrom

end DocQuery.Sql
