import DocQuery.Proofs.Scan.Respacing
import DocQuery.Proofs.Scan.Shrinking

/-!
# Runs that follow each other

Two parsers run on two texts that differ in their blanks.  Whenever the first run
succeeds, the second one gives the same result, and what the two leave differs in its
blanks again.

* `FollowsAt`, `Follows` — the relation, at two texts and for all related texts
* `FollowsAt.bind_core`, `Follows.bind`, `Follows.bind_closed`, `Follows.bind_lt` — sequences
* `Hungry` — a parser that fails at the end of the text
* `follows_consume`, `follows_consumeChar`, `follows_name`, … — the parsers of words and names
* `Follows.extendWhile`, `Follows.many`, `Follows.commaList` — loops

### The two design decisions

**The first text may end.**  The second one then goes on with `rest`, and a parser that
looks for something more could find it there.  Inside parentheses this does not matter: a
text that ends inside them is not read at all, as the closing one is missing
(`Follows.bind_closed`).  So a run that has come to the end need not be followed if it is
`inside`, and needs to know something about `rest` otherwise.

**Budgets.**  Loops and parentheses are bounded by the length of the text, which is not
the same on both sides.  The bound `n` is for the second text, and every parenthesis takes
one off (`Follows.bind_lt`).

### What is load-bearing

The runs of one loop are related by their steps alone, so both budgets have to be as large
as the text (`FollowsAt.extendWhile`); a loop that ran out of its budget could not be
followed.
-/

namespace DocQuery.Scan

open Text

variable {α β : Type} {inside : Prop} {n : Nat} {R S T : List Char → List Char → Prop}

/-- **A run follows another one**, given the two texts: it has the same result and leaves
a related text.  Inside parentheses a run to the end of the text need not be followed. -/
def FollowsAt (inside : Prop) (S : List Char → List Char → Prop) (p q : Parser α)
    (cs ds : List Char) : Prop :=
  ∀ a left, p.run cs = .ok (a, left) →
    inside ∧ dropBlanks left = [] ∨ ∃ left', q.run ds = .ok (a, left') ∧ S left left'

/-- The runs on all related texts follow each other, if the second text has fewer than `n`
characters. -/
def Follows (inside : Prop) (n : Nat) (R S : List Char → List Char → Prop)
    (p q : Parser α) : Prop :=
  ∀ cs ds, R cs ds → ds.length < n → FollowsAt inside S p q cs ds

/-- **A parser that fails at the end of the text.** -/
class Hungry (p : Parser α) : Prop where
  fails : ∀ {cs : List Char} (a : α) (left : List Char),
    dropBlanks cs = [] → p.run cs ≠ .ok (a, left)

/-! ### Single runs -/

section FollowsAt

variable {p q : Parser α} {f g : α → Parser β} {cs ds : List Char}

theorem FollowsAt.of_run {a : α} {left left' : List Char} (hp : p.run cs = .ok (a, left))
    (hq : q.run ds = .ok (a, left')) (h : S left left') : FollowsAt inside S p q cs ds := by
  intro b last hrun
  rw [hp] at hrun
  cases hrun
  exact .inr ⟨left', hq, h⟩

/-- Both runs take the same step. -/
theorem FollowsAt.step {p' q' : Parser α} {cs' ds' : List Char} (hp : p.run cs = p'.run cs')
    (hq : q.run ds = q'.run ds') (h : FollowsAt inside S p' q' cs' ds') :
    FollowsAt inside S p q cs ds := by
  intro a left hrun
  rw [hp] at hrun
  rw [hq]
  exact h a left hrun

theorem FollowsAt.mono (h : FollowsAt inside S p q cs ds) (hS : ∀ cs ds, S cs ds → T cs ds) :
    FollowsAt inside T p q cs ds :=
  fun a left hrun => (h a left hrun).imp_right fun ⟨left', hq, hleft⟩ =>
    ⟨left', hq, hS _ _ hleft⟩

/-- Inside parentheses nothing follows a run that has come to the end. -/
theorem FollowsAt.ended [Shrinks p] (hin : inside) (hcs : dropBlanks cs = []) :
    FollowsAt inside S p q cs ds :=
  fun _ _ hrun => .inl ⟨hin, Shrinks.dropBlanks_eq_nil hcs hrun⟩

theorem FollowsAt.hungry [Hungry p] (hcs : dropBlanks cs = []) :
    FollowsAt inside S p q cs ds :=
  fun a left hrun => absurd hrun (Hungry.fails a left hcs)

theorem FollowsAt.of_live (h : FollowsAt False S p q cs ds) : FollowsAt inside S p q cs ds :=
  fun a left hrun => .inr ((h a left hrun).resolve_left fun hno => hno.1)

theorem FollowsAt.failAt (mark : List Char) (cause : Cause) :
    FollowsAt inside S (failAt mark cause) q cs ds :=
  fun _ _ hrun => by cases hrun

/-- **Sequences.**  If the first part may come to the end without being followed, the
second part must fail there, or it may itself come to the end. -/
theorem FollowsAt.bind_core {inner : Prop} (hp : FollowsAt inner S p q cs ds)
    (hend : ∀ a left b last, inner → dropBlanks left = [] → (f a).run left = .ok (b, last) →
      inside ∧ dropBlanks last = [])
    (hf : ∀ a left left', p.run cs = .ok (a, left) → q.run ds = .ok (a, left') →
      S left left' →
      FollowsAt inside T (f a) (g a) left left') :
    FollowsAt inside T (p >>= f) (q >>= g) cs ds := by
  intro b last hrun
  obtain ⟨a, left, hfirst, hsecond⟩ := exists_of_run_bind hrun
  rcases hp a left hfirst with ⟨hin, hleft⟩ | ⟨left', hfirst', hleft⟩
  · exact .inl (hend a left b last hin hleft hsecond)
  · rw [run_bind_ok hfirst']
    exact hf a left left' hfirst hfirst' hleft b last hsecond

theorem FollowsAt.bind_live (hp : FollowsAt False S p q cs ds)
    (hf : ∀ a left left', p.run cs = .ok (a, left) → q.run ds = .ok (a, left') →
      S left left' →
      FollowsAt inside T (f a) (g a) left left') :
    FollowsAt inside T (p >>= f) (q >>= g) cs ds :=
  hp.bind_core (fun _ _ _ _ hno => hno.elim) hf

theorem FollowsAt.bind [∀ a, Shrinks (f a)] (hp : FollowsAt inside S p q cs ds)
    (hf : ∀ a left left', p.run cs = .ok (a, left) → q.run ds = .ok (a, left') →
      S left left' →
      FollowsAt inside T (f a) (g a) left left') :
    FollowsAt inside T (p >>= f) (q >>= g) cs ds :=
  hp.bind_core (fun _ _ _ _ hin hleft hrun => ⟨hin, Shrinks.dropBlanks_eq_nil hleft hrun⟩) hf

end FollowsAt

/-! ### Runs on all related texts -/

section Follows

variable {p q : Parser α} {f g : α → Parser β}

theorem Follows.mono (h : Follows inside n S T p q) {S' T' : List Char → List Char → Prop}
    (hS : ∀ cs ds, S' cs ds → S cs ds) (hT : ∀ cs ds, T cs ds → T' cs ds) :
    Follows inside n S' T' p q :=
  fun cs ds hcs hlength => (h cs ds (hS cs ds hcs) hlength).mono hT

theorem follows_pure (a : α) : Follows inside n R R (pure a) (pure a) :=
  fun _ _ hcs _ => .of_run rfl rfl hcs

theorem follows_failAt (mark : List Char) (cause : Cause) :
    Follows inside n R S (failAt mark cause) q :=
  fun _ _ _ _ => .failAt mark cause

theorem Follows.bind [Shrinks q] [∀ a, Shrinks (f a)] (hp : Follows inside n R S p q)
    (hf : ∀ a, Follows inside n S T (f a) (g a)) : Follows inside n R T (p >>= f) (q >>= g) :=
  fun cs ds hcs hlength => (hp cs ds hcs hlength).bind fun a left left' _ hrun hleft =>
    hf a left left' hleft (Nat.lt_of_le_of_lt (Shrinks.length_le hrun) hlength)

/-- The form for continuations that look at the result. -/
theorem Follows.bind_match [Shrinks q] (hp : Follows inside n R S p q)
    (hshrinks : ∀ a, Shrinks (f a)) (hf : ∀ a, Follows inside n S T (f a) (g a)) :
    Follows inside n R T (p >>= f) (q >>= g) :=
  hp.bind hf

/-- Where every run is followed, whatever its length. -/
theorem Follows.bind_live (hp : Follows False n R S p q)
    (hf : ∀ a m, Follows inside m S T (f a) (g a)) :
    Follows inside n R T (p >>= f) (q >>= g) :=
  fun cs ds hcs hlength => (hp cs ds hcs hlength).bind_live fun a left left' _ _ hleft =>
    hf a _ left left' hleft (Nat.lt_succ_self _)

/-- **Up to a closing parenthesis.**  What is followed by something that has to be there
is inside. -/
theorem Follows.bind_closed [Shrinks q] [∀ a, Hungry (f a)] (hp : Follows True n R S p q)
    (hf : ∀ a, Follows inside n S T (f a) (g a)) : Follows inside n R T (p >>= f) (q >>= g) :=
  fun cs ds hcs hlength => (hp cs ds hcs hlength).bind_core
    (fun _ _ b last _ hleft hrun => absurd hrun (Hungry.fails b last hleft))
    fun a left left' _ hrun hleft =>
      hf a left left' hleft (Nat.lt_of_le_of_lt (Shrinks.length_le hrun) hlength)

/-- **Behind a character.**  What has been read is taken off the bound. -/
theorem Follows.bind_lt [∀ a, Shrinks (f a)] (hp : Follows inside (n + 1) R S p q)
    (hlt : ∀ {ds a left}, q.run ds = .ok (a, left) → left.length < ds.length)
    (hf : ∀ a, Follows inside n S T (f a) (g a)) :
    Follows inside (n + 1) R T (p >>= f) (q >>= g) :=
  fun cs ds hcs hlength => (hp cs ds hcs hlength).bind fun a left left' _ hrun hleft =>
    hf a left left' hleft (Nat.lt_of_lt_of_le (hlt hrun) (Nat.le_of_lt_succ hlength))

theorem Follows.map [Shrinks q] (hp : Follows inside n R S p q) (f : α → β) :
    Follows inside n R S (f <$> p) (f <$> q) := by
  rw [map_eq_pure_bind, map_eq_pure_bind]
  exact hp.bind fun a => follows_pure (f a)

/-- Looking at the text. -/
theorem follows_get {f g : List Char → Parser α}
    (h : ∀ cs ds, R cs ds → ds.length < n → FollowsAt inside S (f cs) (g ds) cs ds) :
    Follows inside n R S (get >>= f) (get >>= g) :=
  fun cs ds hcs hlength =>
    .step (run_bind_ok run_get) (run_bind_ok run_get) (h cs ds hcs hlength)

end Follows

/-! ### The end of the text -/

section Hungry

instance hungry_bind_left (p : Parser α) (f : α → Parser β) [Hungry p] :
    Hungry (p >>= f) where
  fails b left hcs hrun := by
    obtain ⟨a, middle, hp, -⟩ := exists_of_run_bind hrun
    exact Hungry.fails a middle hcs hp

instance hungry_bind_right (p : Parser α) (f : α → Parser β) [Shrinks p] [∀ a, Hungry (f a)] :
    Hungry (p >>= f) where
  fails b left hcs hrun := by
    obtain ⟨a, middle, hp, hf⟩ := exists_of_run_bind hrun
    exact Hungry.fails b left (Shrinks.dropBlanks_eq_nil hcs hp) hf

instance (c : Prop) [Decidable c] (p q : Parser α) [Hungry p] [Hungry q] :
    Hungry (if c then p else q) := by
  split <;> infer_instance

instance (p q : Parser α) [Decidable (false = true)] [Hungry q] :
    Hungry (if false = true then p else q) := by
  rw [if_neg Bool.false_ne_true]
  infer_instance

/-- A keyword that has to be there is there. -/
theorem run_expect_cases {k : Keyword} {cs left : List Char}
    (h : (expect k).run cs = .ok ((), left)) :
    k.word.match? (dropBlanks cs) = some left := by
  rw [expect, run_bind_ok run_get] at h
  obtain ⟨found, middle, hfound, h⟩ := exists_of_run_bind h
  rcases run_consume_cases hfound with ⟨rfl, hmatch⟩ | ⟨rfl, -, -⟩
  · cases h
    exact hmatch
  · cases h

/-- A character that has to be there is there. -/
theorem run_expectChar_cases {c : Char} (hc : c ≠ '\x00') {cs left : List Char}
    (h : (expectChar c).run cs = .ok ((), left)) : dropBlanks cs = c :: left := by
  rw [expectChar, run_bind_ok run_get] at h
  obtain ⟨found, middle, hfound, h⟩ := exists_of_run_bind h
  rcases run_consumeChar_cases hc hfound with ⟨rfl, hcs⟩ | ⟨rfl, -, -⟩
  · cases h
    exact hcs
  · cases h

instance (k : Keyword) : Hungry (expect k) where
  fails _ left hcs hrun := by
    have hmatch := run_expect_cases hrun
    rw [hcs, keyword_match?_nil] at hmatch
    cases hmatch

instance hungry_close : Hungry (expectChar ')') where
  fails _ left hcs hrun := by
    have hclose := run_expectChar_cases (by decide) hrun
    rw [hcs] at hclose
    cases hclose

/-- At the end there is no closing parenthesis. -/
instance hungry_consume_close (f : Bool → Parser α) [Hungry (f false)] :
    Hungry (consumeChar ')' >>= f) where
  fails a left hcs hrun := by
    obtain ⟨found, middle, hfound, hf⟩ := exists_of_run_bind hrun
    rcases run_consumeChar_cases (by decide) hfound with ⟨-, hclose⟩ | ⟨rfl, -, rfl⟩
    · rw [hcs] at hclose
      cases hclose
    · exact Hungry.fails a left ((dropBlanks_dropBlanks _).trans hcs) hf

end Hungry

/-! ### Keywords and characters -/

section Keywords

variable {rest cs ds : List Char}

/-- Blanks in front of the second text do not matter. -/
theorem Ahead.congr (h : Ahead rest cs ds) {ds' : List Char}
    (hds' : Text.dropBlanks ds = Text.dropBlanks ds') : Ahead rest cs ds' := by
  cases h with
  | ended hcs hds => exact .ended hcs (hds' ▸ hds)
  | same hcs hds h => exact .same hcs (hds' ▸ hds) h

theorem Ahead.dropBlanks (h : Ahead rest cs ds) :
    Ahead rest (dropBlanks cs) (dropBlanks ds) := by
  cases h with
  | ended hcs hds =>
    exact .ended ((dropBlanks_dropBlanks cs).trans hcs) ((dropBlanks_dropBlanks ds).trans hds)
  | same hcs hds h =>
    exact .same ((dropBlanks_dropBlanks cs).trans hcs)
      ((dropBlanks_dropBlanks ds).trans hds) h

theorem Follows.ahead {p q : Parser α} (h : Follows inside n R (Respaced rest) p q) :
    Follows inside n R (Ahead rest) p q :=
  h.mono (fun _ _ => id) fun _ _ => Respaced.ahead

/-- **Passing over blanks** leads to the end or to a character that is the same on both
sides. -/
theorem follows_skipBlanks {f g : Unit → Parser α}
    (hend : FollowsAt inside S (f ()) (g ()) [] rest)
    (hsame : ∀ c cs ds, isBlank c = false → Respaced rest (c :: cs) (c :: ds) →
      (c :: ds).length < n → FollowsAt inside S (f ()) (g ()) (c :: cs) (c :: ds)) :
    Follows inside n (Ahead rest) S (skipBlanks >>= f) (skipBlanks >>= g) := by
  intro cs ds h hlength
  refine .step (run_bind_ok run_skipBlanks) (run_bind_ok run_skipBlanks) ?_
  have hshorter := Nat.lt_of_le_of_lt (length_dropBlanks_le ds) hlength
  cases h with
  | ended hcs hds =>
    rw [hcs, hds]
    exact hend
  | same hcs hds h =>
    rw [hds] at hshorter
    rw [hcs, hds]
    exact hsame _ _ _ (isBlank_of_dropBlanks hcs) h hshorter

/-- At a character a keyword is read on both sides or on none. -/
theorem followsAt_consume (hrest : Cut rest) (k : Keyword) {c : Char} {cs' ds' : List Char}
    (hcs : dropBlanks cs = c :: cs') (hds : dropBlanks ds = c :: ds')
    (h : Respaced rest (c :: cs') (c :: ds')) :
    FollowsAt False (Ahead rest) (consume k) (consume k) cs ds := by
  have hmatch := h.match? hrest k
  rw [← hcs, ← hds] at hmatch
  generalize hleft : k.word.match? (dropBlanks cs) = left at hmatch
  generalize hright : k.word.match? (dropBlanks ds) = left' at hmatch
  cases hmatch with
  | some h => exact .of_run (run_consume_of_match hleft) (run_consume_of_match hright) h.ahead
  | none =>
    exact .of_run (run_consume_of_none hleft) (run_consume_of_none hright)
      (Ahead.same hcs hds h).dropBlanks

theorem follows_consume (hrest : Cut rest) {k : Keyword}
    (hk : inside ∨ k.word.match? rest = none) :
    Follows inside n (Ahead rest) (Ahead rest) (consume k) (consume k) := by
  intro cs ds h _
  cases h with
  | same hcs hds h => exact (followsAt_consume hrest k hcs hds h).of_live
  | ended hcs hds =>
    rcases hk with hin | hk
    · exact .ended hin hcs
    · refine .of_run (run_consume_of_none ?_) (run_consume_of_none ?_)
        (Ahead.ended hcs hds).dropBlanks
      · rw [hcs, keyword_match?_nil]
      · rw [hds, hk]

/-- A keyword that has to be there is there on both sides. -/
theorem follows_expect (hrest : Cut rest) (k : Keyword) :
    Follows inside n (Ahead rest) (Respaced rest) (expect k) (expect k) := by
  intro cs ds h _
  cases h with
  | ended hcs => exact .hungry hcs
  | same hcs hds h =>
    intro _ left hrun
    have hmatch := h.match? hrest k
    rw [← hcs, ← hds, run_expect_cases hrun] at hmatch
    generalize hright : k.word.match? (dropBlanks ds) = found at hmatch
    cases hmatch with
    | some h => exact .inr ⟨_, run_expect hright, h⟩

theorem length_lt_of_expect {k : Keyword} {left : List Char} {u : Unit}
    (h : (expect k).run ds = .ok (u, left)) : left.length < ds.length :=
  Nat.lt_of_lt_of_le (length_lt_of_match? (run_expect_cases h)) (length_dropBlanks_le ds)

/-- Looking for a keyword finds it on both sides or on none. -/
theorem follows_check (hrest : Cut rest) {k : Keyword}
    (hk : inside ∨ k.word.match? rest = none) :
    Follows inside n (Ahead rest) (Ahead rest) (check k) (check k) := by
  intro cs ds h _
  cases h with
  | ended hcs hds =>
    rcases hk with hin | hk
    · exact .ended hin hcs
    · refine .of_run run_check (run_check.trans ?_) (Ahead.ended hcs hds).dropBlanks
      rw [hcs, hds, keyword_match?_nil, hk]
  | same hcs hds h =>
    refine .of_run run_check (run_check.trans ?_) (Ahead.same hcs hds h).dropBlanks
    have hmatch := h.match? hrest k
    rw [hcs, hds]
    generalize k.word.match? (_ :: _) = found at hmatch ⊢
    generalize k.word.match? (_ :: _) = found' at hmatch ⊢
    cases hmatch <;> rfl

/-- A character that is read on its own. -/
def isMark (c : Char) : Bool :=
  c != '\x00' && !isQuote c

theorem isMark_iff {c : Char} : isMark c = true ↔ c ≠ '\x00' ∧ isQuote c = false := by
  simp [isMark]

/-- At a character, a mark is read on both sides or on none. -/
theorem followsAt_consumeChar {c d : Char} (hc : isMark c = true) {cs' ds' : List Char}
    (hcs : dropBlanks cs = d :: cs') (hds : dropBlanks ds = d :: ds')
    (h : Respaced rest (d :: cs') (d :: ds')) :
    FollowsAt False (Ahead rest) (consumeChar c) (consumeChar c) cs ds := by
  by_cases hd : d = c
  · subst hd
    exact .of_run (run_consumeChar_of_front hcs) (run_consumeChar_of_front hds)
      (h.tail (isBlank_of_dropBlanks hcs) (isMark_iff.mp hc).2).ahead
  · refine .of_run (run_consumeChar_of_ne ?_) (run_consumeChar_of_ne ?_)
      (Ahead.same hcs hds h).dropBlanks
    · rwa [hcs]
    · rwa [hds]

theorem follows_consumeChar {c : Char} (hc : isMark c = true)
    (hrest : inside ∨ front rest ≠ c) :
    Follows inside n (Ahead rest) (Ahead rest) (consumeChar c) (consumeChar c) := by
  intro cs ds h _
  cases h with
  | same hcs hds h => exact (followsAt_consumeChar hc hcs hds h).of_live
  | ended hcs hds =>
    rcases hrest with hin | hrest
    · exact .ended hin hcs
    · refine .of_run (run_consumeChar_of_ne ?_) (run_consumeChar_of_ne ?_)
        (Ahead.ended hcs hds).dropBlanks
      · rw [hcs]
        exact Ne.symm (isMark_iff.mp hc).1
      · rwa [hds]

/-- A mark that may end a list: if there is none, something else has to be there. -/
theorem follows_consumeChar_bind {c : Char} (hc : isMark c = true) {f g : Bool → Parser α}
    [Hungry (f false)] (hf : ∀ found, Follows inside n (Ahead rest) S (f found) (g found)) :
    Follows inside n (Ahead rest) S (consumeChar c >>= f) (consumeChar c >>= g) := by
  intro cs ds h hlength
  cases h with
  | same hcs hds h =>
    exact (followsAt_consumeChar hc hcs hds h).bind_live fun found left left' _ hrun hleft =>
      hf found left left' hleft (Nat.lt_of_le_of_lt (Shrinks.length_le hrun) hlength)
  | ended hcs =>
    have hnone : (consumeChar c).run cs = .ok (false, dropBlanks cs) := by
      refine run_consumeChar_of_ne ?_
      rw [hcs]
      exact Ne.symm (isMark_iff.mp hc).1
    refine .step (run_bind_ok hnone) rfl ?_
    exact .hungry ((dropBlanks_dropBlanks cs).trans hcs)

/-- A mark that has to be there is there on both sides. -/
theorem follows_expectChar {c : Char} (hc : isMark c = true) :
    Follows inside n (Ahead rest) (Respaced rest) (expectChar c) (expectChar c) := by
  intro cs ds h _ _ left hrun
  obtain ⟨hnull, hquote⟩ := isMark_iff.mp hc
  have hfront := run_expectChar_cases hnull hrun
  cases h with
  | ended hcs =>
    rw [hcs] at hfront
    cases hfront
  | same hcs hds h =>
    rw [hcs] at hfront
    cases hfront
    exact .inr ⟨_, run_expectChar hds, h.tail (isBlank_of_dropBlanks hcs) hquote⟩

theorem length_lt_of_expectChar {c : Char} (hc : isMark c = true) {left : List Char}
    {u : Unit} (h : (expectChar c).run ds = .ok (u, left)) : left.length < ds.length := by
  have hlength := length_dropBlanks_le ds
  rw [run_expectChar_cases (isMark_iff.mp hc).1 h, List.length_cons] at hlength
  exact hlength

end Keywords

/-! ### Names -/

section Names

variable {rest cs ds : List Char}

theorem followsAt_takeChars (hrest : Cut rest) {test : Char → Bool}
    (htest : ∀ c, test c = true → isNameChar c = true) (h : Respaced rest cs ds) :
    FollowsAt inside (Respaced rest) (takeChars test) (takeChars test) cs ds := by
  obtain ⟨hsame, hbehind⟩ := h.takeWhile htest hrest
  refine .of_run (run_takeChars test) ((run_takeChars test).trans ?_) hbehind
  rw [hsame]

/-- At a character a bare name is read on both sides or on none. -/
theorem followsAt_identifier (hrest : Cut rest) {c : Char} (hc : isBlank c = false)
    (h : Respaced rest (c :: cs) (c :: ds)) :
    FollowsAt inside (Respaced rest) identifier identifier (c :: cs) (c :: ds) := by
  refine .step (run_bind_ok run_skipBlanks) (run_bind_ok run_skipBlanks) ?_
  rw [dropBlanks_cons hc, dropBlanks_cons hc]
  refine .step (run_bind_ok run_current) (run_bind_ok run_current) ?_
  rw [front_cons, front_cons]
  split
  · exact .of_run rfl rfl h
  · exact (followsAt_takeChars hrest (fun _ => id) h).bind fun word left left' _ _ hleft =>
      .of_run rfl rfl hleft

/-- A quoted text is the same on both sides. -/
theorem followsAt_quoted (hrest : Cut rest) {q : Char} (hq : isQuote q = true)
    (h : Respaced rest (q :: cs) (q :: ds)) :
    FollowsAt inside (Respaced rest) (quoted q) (quoted q) (q :: cs) (q :: ds) := by
  intro text left hrun
  obtain ⟨body, hbody, rfl⟩ := run_quoted_cases hrun
  obtain ⟨left', hbody', hleft⟩ := h.quotedBody hrest hq hbody
  refine .inr ⟨left', ?_, hleft⟩
  rw [quoted, run_bind_ok run_get, List.drop_one, List.tail_cons, hbody']
  rfl

theorem isQuote_of_isNameQuote {c : Char} (h : isNameQuote c = true) : isQuote c = true := by
  rw [isQuote, h, Bool.or_true]

/-- **Names are followed.** -/
theorem follows_name (hrest : Cut rest) :
    Follows inside n (Ahead rest) (Respaced rest) name name := by
  refine follows_skipBlanks ?_ fun c cs ds hc h hlength => ?_
  · exact .failAt _ _
  · refine .step (run_bind_ok run_get) (run_bind_ok run_get) ?_
    refine .step (run_bind_ok run_current) (run_bind_ok run_current) ?_
    rw [front_cons, front_cons]
    cases hq : isNameQuote c with
    | true =>
      exact (followsAt_quoted hrest (isQuote_of_isNameQuote hq) h).bind fun text left left' _
        _ hleft =>
        .of_run rfl rfl hleft
    | false =>
      refine (followsAt_identifier hrest hc h).bind_live fun word left left' _ _ hleft => ?_
      cases word with
      | none => exact .failAt _ _
      | some word => exact .of_run rfl rfl hleft

theorem not_isIdle_of_mark {c : Char} (hc : c ∈ openingMarks) : ¬ IsIdle c :=
  fun h => h.mark hc

theorem not_isIdle_of_name {c : Char} (hc : isNameChar c = true) : ¬ IsIdle c := by
  intro h
  rw [h.name] at hc
  cases hc

/-- What something is read from comes next on both sides or on none. -/
theorem Respaced.front_eq_iff (h : Respaced rest cs ds) (hrest : Cut rest) {c : Char}
    (hc : ¬ IsIdle c) : front cs = c ↔ front ds = c := by
  rcases h.front_cases hrest with hsame | ⟨hcs, hds⟩
  · rw [hsame]
  · constructor
    · rintro rfl
      exact absurd hcs hc
    · rintro rfl
      exact absurd hds hc

theorem Respaced.isDigit_front (h : Respaced rest cs ds) (hrest : Cut rest) :
    (front cs).isDigit = (front ds).isDigit := by
  rcases h.front_cases hrest with hsame | ⟨hcs, hds⟩
  · rw [hsame]
  · have hfalse : ∀ {c}, IsIdle c → c.isDigit = false := fun hc =>
      Bool.eq_false_iff.mpr fun hdigit => not_isIdle_of_name (isNameChar_of_isDigit hdigit) hc
    rw [hfalse hcs, hfalse hds]

theorem exists_cons_of_front {c : Char} (hc : c ≠ '\x00') (h : front cs = c) :
    ∃ cs', cs = c :: cs' := by
  cases cs with
  | nil => exact absurd h.symm hc
  | cons d cs' => exact ⟨cs', congrArg (· :: cs') h⟩

theorem isMark_of_isNameChar {c : Char} (hc : isNameChar c = true) : isMark c = true := by
  refine isMark_iff.mpr ⟨?_, Bool.eq_false_iff.mpr fun hq => ?_⟩
  · rintro rfl
    exact absurd hc (by decide)
  · rw [isNameChar_of_isQuote hq] at hc
    cases hc

/-- What something is read from is taken off both sides. -/
theorem Respaced.exists_tails (h : Respaced rest cs ds) (hrest : Cut rest) {c : Char}
    (hc : ¬ IsIdle c) (hmark : isMark c = true) (hcs : front cs = c) :
    ∃ cs' ds', cs = c :: cs' ∧ ds = c :: ds' ∧ Respaced rest cs' ds' := by
  obtain ⟨hnull, hquote⟩ := isMark_iff.mp hmark
  obtain ⟨cs', rfl⟩ := exists_cons_of_front hnull hcs
  obtain ⟨ds', rfl⟩ := exists_cons_of_front hnull ((h.front_eq_iff hrest hc).mp hcs)
  refine ⟨cs', ds', rfl, rfl, h.tail ?_ hquote⟩
  exact Bool.eq_false_iff.mpr fun hblank => hc (isIdle_of_isBlank hblank)

/-- Where no dot follows, no more names do. -/
theorem run_moreNames_of_ne (h : front cs ≠ '.') (budget : Nat) :
    (moreNames budget).run cs = .ok ([], cs) := by
  cases budget with
  | zero => rfl
  | succ budget =>
    rw [moreNames, run_bind_ok run_current, if_neg (by simpa using h)]
    rfl

/-- The names of a path are followed.  The induction is on the budget of the first run. -/
theorem followsAt_moreNames (hrest : Cut rest) {budget budget' : Nat}
    (h : Respaced rest cs ds) (hbudget : cs.length ≤ budget)
    (hbudget' : ds.length ≤ budget') :
    FollowsAt inside (Respaced rest) (moreNames budget) (moreNames budget') cs ds := by
  induction budget generalizing budget' cs ds with
  | zero =>
    have hcs : front cs ≠ '.' := by
      rw [List.length_eq_zero_iff.mp (Nat.le_zero.mp hbudget)]
      decide
    have hds : front ds ≠ '.' :=
      mt (h.front_eq_iff hrest (not_isIdle_of_mark (by decide))).mpr hcs
    exact .of_run (run_moreNames_of_ne hcs 0) (run_moreNames_of_ne hds budget') h
  | succ budget ih =>
    by_cases hcs : front cs = '.'
    · obtain ⟨cs, ds, rfl, rfl, hbehind⟩ :=
        h.exists_tails hrest (not_isIdle_of_mark (by decide)) (by decide) hcs
      obtain ⟨budget', rfl⟩ : ∃ m, budget' = m + 1 :=
        ⟨budget' - 1, by simp at hbudget'; omega⟩
      refine .step (run_bind_ok run_current) (run_bind_ok run_current) ?_
      refine .step (run_bind_ok (run_advance 1)) (run_bind_ok (run_advance 1)) ?_
      refine (follows_name hrest cs ds hbehind.ahead (Nat.lt_succ_self _)).bind
        fun first left left' hfirst hfirst' hleft => ?_
      have hleft_le := Shrinks.length_le hfirst
      have hleft_le' := Shrinks.length_le hfirst'
      refine (ih hleft ?_ ?_).bind fun others last last' _ _ hlast => .of_run rfl rfl hlast
      · rw [List.length_cons] at hbudget
        omega
      · rw [List.length_cons] at hbudget'
        omega
    · have hds : front ds ≠ '.' :=
        mt (h.front_eq_iff hrest (not_isIdle_of_mark (by decide))).mpr hcs
      exact .of_run (run_moreNames_of_ne hcs _) (run_moreNames_of_ne hds budget') h

theorem follows_dottedName (hrest : Cut rest) :
    Follows inside n (Ahead rest) (Respaced rest) dottedName dottedName := by
  refine (follows_name hrest).bind fun first => follows_get fun cs ds h _ => ?_
  refine (followsAt_moreNames hrest h (Nat.le_refl _) (Nat.le_refl _)).bind
    fun others left left' _ _ hleft => ?_
  exact .of_run rfl rfl hleft

theorem run_aliasName_end (h : dropBlanks cs = []) : aliasName.run cs = .ok (none, []) := by
  have hnone : Keyword.asKw.word.match? (dropBlanks cs) = none := by
    rw [h, keyword_match?_nil]
  rw [aliasName, run_bind_ok (run_consume_of_none hnone), h]
  rfl

/-- **Where no alias is read**, whatever blanks stand before. -/
def NoAlias (rest : List Char) : Prop :=
  ∀ ds, dropBlanks ds = rest → ∃ left, aliasName.run ds = .ok (none, left) ∧
    dropBlanks left = rest

theorem noAlias_nil : NoAlias [] :=
  fun _ hds => ⟨[], run_aliasName_end hds, rfl⟩

/-- An alias is followed. -/
theorem follows_aliasName (hrest : Cut rest) (hend : inside ∨ NoAlias rest) :
    Follows inside n (Ahead rest) (Ahead rest) aliasName aliasName := by
  intro cs ds h hlength
  cases h with
  | ended hcs hds =>
    rcases hend with hin | hend
    · exact .ended hin hcs
    · obtain ⟨left, hrun, hleft⟩ := hend ds hds
      exact .of_run (run_aliasName_end hcs) hrun (.ended rfl hleft)
  | @same c cs' ds' hcs hds h =>
    have hname : ∀ cs ds, Ahead rest cs ds → FollowsAt inside (Ahead rest)
        (do return some (← name)) (do return some (← name)) cs ds := by
      intro cs ds h
      refine (follows_name hrest cs ds h (Nat.lt_succ_self _)).bind fun word left left' _ _
        hleft => ?_
      exact .of_run rfl rfl hleft.ahead
    refine (followsAt_consume hrest .asKw hcs hds h).bind_live fun found left left' hrun hrun'
      hleft => ?_
    cases found with
    | true => exact hname left left' hleft
    | false =>
      -- nothing but blanks was read, so both texts are at their common character
      have hc := isBlank_of_dropBlanks hcs
      obtain rfl : left = c :: cs' := by
        rcases run_consume_cases hrun with ⟨hfound, -⟩ | ⟨-, -, hblanks⟩
        · cases hfound
        · exact hblanks.trans hcs
      obtain rfl : left' = c :: ds' := by
        rcases run_consume_cases hrun' with ⟨hfound, -⟩ | ⟨-, -, hblanks⟩
        · cases hfound
        · exact hblanks.trans hds
      refine .step (run_bind_ok run_skipBlanks) (run_bind_ok run_skipBlanks) ?_
      rw [dropBlanks_cons hc, dropBlanks_cons hc]
      refine .step (run_bind_ok run_current) (run_bind_ok run_current) ?_
      rw [front_cons, front_cons]
      split
      · exact hname _ _ h.ahead
      · refine .step (run_bind_ok run_get) (run_bind_ok run_get) ?_
        refine (followsAt_identifier hrest hc h).bind_live fun word left left' _ _ hleft => ?_
        cases word with
        | none => exact .of_run rfl rfl h.ahead
        | some word =>
          dsimp only
          split
          · exact .of_run rfl rfl h.ahead
          · exact .of_run rfl rfl hleft.ahead

/-- Numbers are followed. -/
theorem follows_count (hrest : Cut rest) :
    Follows inside n (Ahead rest) (Ahead rest) count count := by
  refine follows_skipBlanks ?_ fun c cs ds hc h hlength => ?_
  · exact .failAt _ _
  · refine .step (run_bind_ok run_get) (run_bind_ok run_get) ?_
    refine (followsAt_takeChars hrest (fun _ => isNameChar_of_isDigit) h).bind_live
      fun digits left left' _ _ hleft => ?_
    split
    · exact .of_run rfl rfl hleft.ahead
    · exact .failAt _ _

end Names

/-! ### Loops -/

section Loops

variable {rest cs ds : List Char}

/-- A budget as large as the text is never used up. -/
theorem run_extendWhile_succ {step : α → Parser (Option α)} [∀ a, Advances (step a)]
    {budget : Nat} (hbudget : cs.length ≤ budget) (a : α) :
    (extendWhile step (budget + 1) a).run cs = (extendWhile step budget a).run cs := by
  induction budget generalizing cs a with
  | zero =>
    rw [List.length_eq_zero_iff.mp (Nat.le_zero.mp hbudget)]
    exact run_bind_ok Advances.run_nil
  | succ budget ih =>
    rw [extendWhile, extendWhile]
    cases hstep : (step a).run cs with
    | error fault =>
      rw [StateT.run_bind, StateT.run_bind, hstep]
      rfl
    | ok result =>
      obtain ⟨next, left⟩ := result
      rw [run_bind_ok hstep, run_bind_ok hstep]
      cases next with
      | none => rfl
      | some next =>
        have hshorter := Advances.length_lt hstep
        exact ih (by omega) next

/-- **A loop is followed** if its steps are.  The induction is on the length of the first
text: a step that finds something takes it off both texts, so neither budget ends the loop
early. -/
theorem followsAt_extendWhile {step step' : α → Parser (Option α)}
    [∀ a, Shrinks (step a)] [∀ a, Advances (step a)] [∀ a, Advances (step' a)]
    (hstep : ∀ a, Follows inside n (Ahead rest) (Ahead rest) (step a) (step' a))
    {budget budget' : Nat} (a : α) (h : Ahead rest cs ds) (hlength : ds.length < n)
    (hbudget : cs.length ≤ budget) (hbudget' : ds.length ≤ budget') :
    FollowsAt inside (Ahead rest) (extendWhile step budget a)
      (extendWhile step' budget' a) cs ds := by
  induction hm : cs.length using Nat.strongRecOn generalizing budget budget' a cs ds with
  | ind m ih =>
    refine .step (run_extendWhile_succ hbudget a).symm
      (run_extendWhile_succ hbudget' a).symm ?_
    refine (hstep a cs ds h hlength).bind_core ?_ ?_
    · intro next left b last hin hleft hrun
      refine ⟨hin, ?_⟩
      cases next with
      | none =>
        cases hrun
        exact hleft
      | some next =>
        exact Shrinks.dropBlanks_eq_nil (p := extendWhile step budget next) hleft hrun
    · intro next left left' hrun hrun' hleft
      cases next with
      | none => exact .of_run rfl rfl hleft
      | some next =>
        have hshorter := Advances.length_lt hrun
        have hshorter' := Advances.length_lt hrun'
        exact ih left.length (by omega) next hleft (by omega) (by omega) (by omega) rfl

/-- A value and the steps that extend it. -/
theorem Follows.extendWhile {p p' : Parser α} {step step' : α → Parser (Option α)}
    [Shrinks p'] [∀ a, Shrinks (step a)] [∀ a, Advances (step a)] [∀ a, Advances (step' a)]
    (hp : Follows inside n R (Ahead rest) p p')
    (hstep : ∀ a, Follows inside n (Ahead rest) (Ahead rest) (step a) (step' a)) :
    Follows inside n R (Ahead rest) (do let a ← p; Scan.extendWhile step (← get).length a)
      (do let a ← p'; Scan.extendWhile step' (← get).length a) :=
  hp.bind fun a => follows_get fun _ _ h hlength =>
    followsAt_extendWhile hstep a h hlength (Nat.le_refl _) (Nat.le_refl _)

/-- One more item, if there is one. -/
def collect (item : Parser (Option α)) (found : List α) : Parser (Option (List α)) :=
  (fun next => next.map fun a => found ++ [a]) <$> item

/-- Items read one by one extend the list of those that were found. -/
theorem extendWhile_collect (item : Parser (Option α)) (budget : Nat) (found : List α) :
    extendWhile (collect item) budget found = (found ++ ·) <$> many item budget := by
  induction budget generalizing found with
  | zero => simp [extendWhile, many]
  | succ budget ih =>
    rw [extendWhile, many, collect, bind_map_left, map_bind]
    refine bind_congr fun next => ?_
    cases next with
    | none => simp
    | some first => simp [ih]

theorem many_eq_extendWhile (item : Parser (Option α)) (budget : Nat) :
    many item budget = extendWhile (collect item) budget [] := by
  rw [extendWhile_collect]
  simp

/-- The next item behind a comma, if there is a comma. -/
def commaItem (item : Parser α) : Parser (Option α) := do
  if ← consumeChar ',' then
    return some (← item)
  else return none

theorem moreItems_eq_many (item : Parser α) (budget : Nat) :
    moreItems item budget = many (commaItem item) budget := by
  induction budget with
  | zero => rfl
  | succ budget ih =>
    rw [moreItems, many, ih]
    simp only [commaItem, bind_assoc]
    refine bind_congr fun found => ?_
    cases found <;> simp

instance (item : Parser (Option α)) [Shrinks item] (found : List α) :
    Shrinks (collect item found) :=
  inferInstanceAs (Shrinks (_ <$> item))

instance (item : Parser (Option α)) [Advances item] (found : List α) :
    Advances (collect item found) where
  run_nil := by
    rw [collect, map_eq_pure_bind, run_bind_ok Advances.run_nil]
    rfl
  length_lt h := by
    rw [collect, map_eq_pure_bind] at h
    obtain ⟨next, left, hitem, h⟩ := exists_of_run_bind h
    cases next with
    | none => cases h
    | some next =>
      cases h
      exact Advances.length_lt hitem

instance (item : Parser α) [Shrinks item] : Shrinks (commaItem item) := by
  unfold commaItem
  infer_instance

instance (item : Parser α) [Shrinks item] : Advances (commaItem item) where
  run_nil := rfl
  length_lt h := by
    obtain ⟨found, left, hcomma, h⟩ := exists_of_run_bind h
    cases found with
    | false => cases h
    | true =>
      obtain ⟨first, last, hitem, h⟩ := exists_of_run_bind h
      cases h
      exact Nat.lt_of_le_of_lt (Shrinks.length_le hitem)
        (length_lt_of_consumeChar (by decide) hcomma)

/-- **Items one after another are followed** if each of them is. -/
theorem follows_many {item item' : Parser (Option α)} [Shrinks item] [Shrinks item']
    [Advances item] [Advances item']
    (hitem : Follows inside n (Ahead rest) (Ahead rest) item item') :
    Follows inside n (Ahead rest) (Ahead rest) (do many item (← get).length)
      (do many item' (← get).length) := by
  refine follows_get fun cs ds h hlength => ?_
  rw [many_eq_extendWhile, many_eq_extendWhile]
  have hstep : ∀ found, Follows inside n (Ahead rest) (Ahead rest) (collect item found)
      (collect item' found) := fun found => hitem.map _
  exact followsAt_extendWhile hstep [] h hlength (Nat.le_refl _) (Nat.le_refl _)

/-- **Items between commas are followed** if each of them is. -/
theorem Follows.commaList {item item' : Parser α} [Shrinks item] [Shrinks item']
    (hitem : Follows inside n (Ahead rest) (Ahead rest) item item')
    (hcomma : inside ∨ front rest ≠ ',') :
    Follows inside n (Ahead rest) (Ahead rest) (commaList item) (commaList item') := by
  have hnext : Follows inside n (Ahead rest) (Ahead rest) (commaItem item)
      (commaItem item') := by
    refine (follows_consumeChar (by decide) hcomma).bind fun found => ?_
    cases found with
    | false => exact follows_pure none
    | true => exact hitem.bind fun a => follows_pure (some a)
  refine hitem.bind fun first => ?_
  have hothers := (follows_many hnext).bind fun others => follows_pure (first :: others)
  simpa only [← moreItems_eq_many, bind_assoc] using hothers

/-! ### The end of a statement -/

/-- A semicolon, if there is one. -/
def semicolon : Parser (Option Unit) := do
  if ← consumeChar ';' then return some ()
  else return none

theorem skipSemicolons_eq_many (budget : Nat) :
    skipSemicolons budget = (fun _ => ()) <$> many semicolon budget := by
  induction budget with
  | zero => rfl
  | succ budget ih =>
    rw [skipSemicolons, many, ih]
    simp only [semicolon, bind_assoc, map_bind]
    refine bind_congr fun found => ?_
    cases found <;> simp

instance : Shrinks semicolon := by
  unfold semicolon
  infer_instance

instance : Advances semicolon where
  run_nil := rfl
  length_lt h := by
    obtain ⟨found, left, hfound, h⟩ := exists_of_run_bind h
    cases found with
    | false => cases h
    | true =>
      cases h
      exact length_lt_of_consumeChar (by decide) hfound

/-- The end of the text is the end of both texts. -/
theorem follows_endOfText : Follows False n (Ahead []) (Ahead []) endOfText endOfText := by
  have hone : Follows False n (Ahead []) (Ahead []) semicolon semicolon := by
    refine (follows_consumeChar (by decide) (.inr (by decide))).bind fun found => ?_
    cases found <;> exact follows_pure _
  have hloop : Follows False n (Ahead []) (Ahead []) (do skipSemicolons (← get).length)
      (do skipSemicolons (← get).length) := by
    simpa only [map_bind, ← skipSemicolons_eq_many] using (follows_many hone).map fun _ => ()
  intro cs ds h hlength
  rw [endOfText, ← bind_assoc]
  refine (hloop cs ds h hlength).bind_live fun _ left left' _ _ hleft => ?_
  refine follows_skipBlanks ?_ ?_ left left' hleft (Nat.lt_succ_self _)
  · exact .of_run rfl rfl (.ended rfl rfl)
  · -- anything that is left is an error
    intro c cs ds _ _ _ _ last hrun
    rw [run_bind_ok run_get] at hrun
    split at hrun <;> cases hrun
    contradiction

end Loops

end DocQuery.Scan
