import DocQuery.Proofs.Scan.Words
import DocQuery.Scan.Token

/-!
# Texts that differ in their blanks

Two texts with the same characters outside of blanks, with blanks in the same places, and
with the same texts between quotes.  The second text may go on where the first one ends.

* `Respaced` — the relation, `Ahead` the same relation with the blanks in front passed over
* `Cut` — what may come where the first text ends
* `openQuote`, `Respaced.replace` — blanks that are replaced outside of quotes
* `Respaced.takeWhile`, `Respaced.quotedBody`, `Respaced.match?` — names, quoted texts and
  keywords are the same on both sides

### The two design decisions

**One text may be longer.**  White space may be replaced, and an expression may be
followed by a clause.  Both are runs of one parser on two texts, and `rest` is what the
second text has and the first one has not.  It begins where no name can go on
(`Respaced.done`).

**Where blanks are passed over.**  Behind a name its dot has to follow at once, but most
parsers pass over blanks before they look.  The second relation is the one that all
parsers start from, and a name leaves the first one.

### What is load-bearing

A keyword of several words could begin in the first text and end in `rest`, and an
operator of two characters likewise.  `Cut` excludes the beginnings of such texts, and
nothing else: that `rest` begins with a keyword of its own is allowed for.
-/

namespace DocQuery.Scan

open Text

/-! ### The relation -/

/-- The characters that open a quoted text. -/
def isQuote (c : Char) : Bool :=
  c == '\'' || isNameQuote c

/-- Blanks, at least one. -/
structure IsBlankRun (run : List Char) : Prop where
  nonempty : run ≠ []
  blank : ∀ c ∈ run, isBlank c = true

/-- **Two texts that differ in their blanks**, of which the second one goes on with `rest`. -/
inductive Respaced (rest : List Char) : List Char → List Char → Prop
  /-- The first text ends, and in the second one no name goes on. -/
  | done {cs ds : List Char} (hcs : dropBlanks cs = []) (hds : dropBlanks ds = rest)
      (hend : ds = [] ∨ isDelimiter (front ds) = true) : Respaced rest cs ds
  | char {c : Char} {cs ds : List Char} (hblank : isBlank c = false)
    (hquote : isQuote c = false)
      (h : Respaced rest cs ds) : Respaced rest (c :: cs) (c :: ds)
  | blanks {b b' cs ds : List Char} (hb : IsBlankRun b) (hb' : IsBlankRun b')
      (h : Respaced rest cs ds) : Respaced rest (b ++ cs) (b' ++ ds)
  | quoted {q : Char} {body cs ds : List Char} (hq : isQuote q = true) (hbody : q ∉ body)
      (h : Respaced rest cs ds) : Respaced rest (q :: (body ++ q :: cs)) (q ::
        (body ++ q :: ds))
  /-- A quote that is never closed cannot be read, so nothing behind it matters. -/
  | unclosed {q : Char} {body ds : List Char} (hq : isQuote q = true) (hbody : q ∉ body) :
      Respaced rest (q :: body) (q :: ds)

/-- **The same relation with the blanks in front passed over**: the first text has ended,
or both go on with the same character. -/
inductive Ahead (rest cs ds : List Char) : Prop
  | ended (hcs : dropBlanks cs = []) (hds : dropBlanks ds = rest)
  | same {c : Char} {cs' ds' : List Char} (hcs : dropBlanks cs = c :: cs')
      (hds : dropBlanks ds = c :: ds') (h : Respaced rest (c :: cs') (c :: ds'))

/-- The characters that belong to what stands before them: quotes, parentheses that make a
call, dots and operators. -/
def openingMarks : List Char :=
  ['\'', '"', '\x60', '(', '.', '+', '-', '*', '/', '%', '=', '<', '>', '!']

/-- The words of keywords that are not the first ones. -/
def laterWords : List String :=
  ["BY", "JOIN", "OUTER", "INTO", "LIKE", "NULL", "NOT", "IN", "BETWEEN"]

/-- **What may come where the first text ends**: nothing that belongs to the end of
another text. -/
structure Cut (rest : List Char) : Prop where
  start : dropBlanks rest = rest
  mark : front rest ∉ openingMarks
  word : ∀ later ∈ laterWords, (leadingWord rest).map Char.toUpper ≠ later.toList

theorem Cut.notMem {rest marks : List Char} (h : Cut rest)
    (hmarks : marks.all openingMarks.contains = true) : front rest ∉ marks := by
  intro hmem
  exact h.mark (List.contains_iff_mem.mp (List.all_eq_true.mp hmarks _ hmem))

theorem cut_nil : Cut [] where
  start := rfl
  mark := by decide
  word := by decide

/-! ### Characters -/

theorem isBlank_of_isQuote {c : Char} (h : isQuote c = true) : isBlank c = false := by
  simp only [isQuote, isNameQuote, Bool.or_eq_true, beq_iff_eq] at h
  rcases h with rfl | rfl | rfl <;> decide

theorem isNameChar_of_isQuote {c : Char} (h : isQuote c = true) : isNameChar c = false := by
  simp only [isQuote, isNameQuote, Bool.or_eq_true, beq_iff_eq] at h
  rcases h with rfl | rfl | rfl <;> decide

theorem mem_openingMarks_of_isQuote {c : Char} (h : isQuote c = true) : c ∈ openingMarks := by
  simp only [isQuote, isNameQuote, Bool.or_eq_true, beq_iff_eq] at h
  rcases h with rfl | rfl | rfl <;> decide

theorem notMem_openingMarks_of_isBlank {c : Char} (h : isBlank c = true) :
    c ∉ openingMarks := by
  intro hc
  have hnone : ∀ mark ∈ openingMarks, isBlank mark = false := by
    exact fun mark hmark => by
      simpa using List.any_eq_false.mp (by decide : openingMarks.any isBlank =
        false) mark hmark
  rw [hnone c hc] at h
  cases h

/-- What is left of a text whose blanks are dropped begins with no blank. -/
theorem isBlank_of_dropBlanks {c : Char} {cs cs' : List Char} (h : dropBlanks cs = c :: cs') :
    isBlank c = false := by
  have hagain := dropBlanks_dropBlanks cs
  cases hc : isBlank c with
  | false => rfl
  | true =>
    -- dropping blanks once more would drop the character
    rw [h, dropBlanks, List.dropWhile_cons_of_pos hc] at hagain
    have hlength := length_dropBlanks_le cs'
    rw [show dropBlanks cs' = c :: cs' from hagain, List.length_cons] at hlength
    omega

theorem isBlank_front_of_blank {cs : List Char} (h : dropBlanks cs = []) (hcs : cs ≠ []) :
    isBlank (front cs) = true := by
  obtain ⟨c, cs, rfl⟩ := List.exists_cons_of_ne_nil hcs
  cases hc : isBlank c with
  | true => exact hc
  | false =>
    rw [dropBlanks_cons hc] at h
    cases h

theorem IsBlankRun.isBlank_front {run : List Char} (h : IsBlankRun run) (cs : List Char) :
    isBlank (front (run ++ cs)) = true := by
  obtain ⟨c, others, rfl⟩ := List.exists_cons_of_ne_nil h.nonempty
  exact h.blank c List.mem_cons_self

/-- A character that nothing is read from. -/
structure IsIdle (c : Char) : Prop where
  name : isNameChar c = false
  mark : c ∉ openingMarks

theorem isIdle_of_isBlank {c : Char} (h : isBlank c = true) : IsIdle c :=
  ⟨isNameChar_of_isBlank h, notMem_openingMarks_of_isBlank h⟩

theorem isIdle_front_nil : IsIdle (front []) :=
  ⟨by decide, by decide⟩

theorem isIdle_front_of_blank {cs : List Char} (h : dropBlanks cs = []) :
    IsIdle (front cs) := by
  by_cases hcs : cs = []
  · rw [hcs]
    exact isIdle_front_nil
  · exact isIdle_of_isBlank (isBlank_front_of_blank h hcs)

theorem isIdle_front_of_cut {rest ds : List Char} (hrest : Cut rest)
    (hds : dropBlanks ds = rest) (hend : ds = [] ∨ isDelimiter (front ds) = true) :
    IsIdle (front ds) := by
  cases ds with
  | nil => exact isIdle_front_nil
  | cons d ds =>
    cases hd : isBlank d with
    | true => exact isIdle_of_isBlank hd
    | false =>
      have hname : d ≠ '\x00' ∧ isNameChar d = false := by
        simpa [isDelimiter] using hend
      have hmark := hrest.mark
      rw [← hds, dropBlanks_cons hd] at hmark
      exact ⟨hname.2, hmark⟩

theorem IsBlankRun.isIdle_front {run : List Char} (h : IsBlankRun run) (cs : List Char) :
    IsIdle (front (run ++ cs)) :=
  isIdle_of_isBlank (h.isBlank_front cs)

namespace Respaced

variable {rest cs ds : List Char}

/-- **Both texts begin with the same character**, or with characters from which nothing is
read. -/
theorem front_cases (h : Respaced rest cs ds) (hrest : Cut rest) :
    front cs = front ds ∨ IsIdle (front cs) ∧ IsIdle (front ds) := by
  cases h with
  | done hcs hds hend =>
    exact .inr ⟨isIdle_front_of_blank hcs, isIdle_front_of_cut hrest hds hend⟩
  | blanks hb hb' => exact .inr ⟨hb.isIdle_front _, hb'.isIdle_front _⟩
  | char => exact .inl rfl
  | quoted => exact .inl rfl
  | unclosed => exact .inl rfl

/-- Passing over blanks. -/
theorem ahead (h : Respaced rest cs ds) : Ahead rest cs ds := by
  induction h with
  | done hcs hds => exact .ended hcs hds
  | char hblank hquote h =>
    exact .same (dropBlanks_cons hblank _) (dropBlanks_cons hblank _) (.char hblank hquote h)
  | @blanks b b' cs ds hb hb' h ih =>
    cases ih with
    | ended hcs hds =>
      exact .ended ((dropBlanks_append_of_all hb.blank cs).trans hcs)
        ((dropBlanks_append_of_all hb'.blank ds).trans hds)
    | same hcs hds hsame =>
      exact .same ((dropBlanks_append_of_all hb.blank cs).trans hcs)
        ((dropBlanks_append_of_all hb'.blank ds).trans hds) hsame
  | quoted hq hbody h =>
    exact .same (dropBlanks_cons (isBlank_of_isQuote hq) _)
      (dropBlanks_cons (isBlank_of_isQuote hq) _)
      (.quoted hq hbody h)
  | unclosed hq hbody =>
    exact .same (dropBlanks_cons (isBlank_of_isQuote hq) _)
      (dropBlanks_cons (isBlank_of_isQuote hq) _)
      (.unclosed hq hbody)

/-- **What a text goes on with** decides what the other one goes on with. -/
theorem cons_cases {c : Char} (h : Respaced rest (c :: cs) ds) (hblank : isBlank c = false) :
    (isQuote c = false ∧ ∃ ds', ds = c :: ds' ∧ Respaced rest cs ds') ∨
    (isQuote c = true ∧ ∃ body cs' ds', c ∉ body ∧ cs = body ++ c :: cs' ∧
      ds = c :: (body ++ c :: ds') ∧ Respaced rest cs' ds') ∨
    (isQuote c = true ∧ c ∉ cs ∧ ∃ ds', ds = c :: ds') := by
  generalize hleft : c :: cs = left at h
  cases h with
  | done hcs =>
    rw [← hleft, dropBlanks_cons hblank] at hcs
    cases hcs
  | char _ hquote h =>
    cases hleft
    exact .inl ⟨hquote, _, rfl, h⟩
  | blanks hb =>
    obtain ⟨first, others, rfl⟩ := List.exists_cons_of_ne_nil hb.nonempty
    cases hleft
    rw [hb.blank c List.mem_cons_self] at hblank
    cases hblank
  | quoted hq hbody h =>
    cases hleft
    exact .inr (.inl ⟨hq, _, _, _, hbody, rfl, rfl, h⟩)
  | unclosed hq hbody =>
    cases hleft
    exact .inr (.inr ⟨hq, hbody, _, rfl⟩)

theorem exists_cons {c : Char} (h : Respaced rest (c :: cs) ds) (hblank : isBlank c = false) :
    ∃ ds', ds = c :: ds' := by
  rcases h.cons_cases hblank with ⟨-, ds', hds, -⟩ | ⟨-, body, cs', ds', -, -, hds, -⟩ |
    ⟨-, -, ds', hds⟩
  · exact ⟨ds', hds⟩
  · exact ⟨_, hds⟩
  · exact ⟨ds', hds⟩

/-- Behind a character that is neither blank nor a quote. -/
theorem tail {c : Char} (h : Respaced rest (c :: cs) (c :: ds)) (hblank : isBlank c = false)
    (hquote : isQuote c = false) : Respaced rest cs ds := by
  rcases h.cons_cases hblank with ⟨-, ds', hds, h⟩ | ⟨hq, -⟩ | ⟨hq, -⟩
  · cases hds
    exact h
  all_goals
    rw [hquote] at hq
    cases hq

end Respaced

/-! ### The same text in front -/

/-- The quote that is open behind a character, given the one that is open before it. -/
def quoteAfter (opened : Option Char) (c : Char) : Option Char :=
  match opened with
  | none => if isQuote c then some c else none
  | some q => if c == q then none else some q

/-- The quote that is open at the end of a text. -/
def openQuote (cs : List Char) : Option Char :=
  cs.foldl quoteAfter none

/-- The relation behind a quote that is open, whatever stands between. -/
def RespacedIn (rest : List Char) : Option Char → List Char → List Char → Prop
  | none, cs, ds => Respaced rest cs ds
  | some q, cs, ds => isQuote q = true → ∀ body, q ∉ body →
    Respaced rest (q :: (body ++ cs)) (q :: (body ++ ds))

section RespacedIn

variable {rest cs ds : List Char} {opened : Option Char}

/-- **Step.**  One character in front of both texts. -/
theorem RespacedIn.cons {c : Char} (h : RespacedIn rest (quoteAfter opened c) cs ds) :
    RespacedIn rest opened (c :: cs) (c :: ds) := by
  cases opened with
  | none =>
    cases hquote : isQuote c with
    | true =>
      rw [quoteAfter, hquote] at h
      exact h hquote [] List.not_mem_nil
    | false =>
      rw [quoteAfter, hquote] at h
      cases hblank : isBlank c with
      | false => exact .char hblank hquote h
      | true =>
        have hrun : IsBlankRun [c] :=
          ⟨List.cons_ne_nil c [], List.forall_mem_singleton.mpr hblank⟩
        exact .blanks hrun hrun h
  | some q =>
    intro hq body hbody
    by_cases hc : c = q
    · subst hc
      rw [quoteAfter, beq_self_eq_true, if_pos rfl] at h
      exact .quoted hq hbody h
    · rw [quoteAfter, beq_eq_false_iff_ne.mpr hc, if_neg Bool.false_ne_true] at h
      have hnotMem : q ∉ body ++ [c] := by simp [hbody, Ne.symm hc]
      simpa using h hq (body ++ [c]) hnotMem

/-- **Run.**  The same text in front of both texts. -/
theorem RespacedIn.append {before : List Char}
    (h : RespacedIn rest (before.foldl quoteAfter opened) cs ds) :
    RespacedIn rest opened (before ++ cs) (before ++ ds) := by
  induction before generalizing opened with
  | nil => exact h
  | cons c before ih => exact .cons (ih h)

/-- The same text, followed by `rest` or not. -/
theorem Respaced.append_end (cs : List Char) (hds : dropBlanks ds = rest)
    (hend : ds = [] ∨ isDelimiter (front ds) = true) : Respaced rest cs (cs ++ ds) := by
  have hlast : RespacedIn rest (openQuote cs) [] ds := by
    cases openQuote cs with
    | none => exact .done rfl hds hend
    | some q =>
      intro hq body hbody
      rw [List.append_nil]
      exact .unclosed hq hbody
  have h : Respaced rest (cs ++ []) (cs ++ ds) := RespacedIn.append hlast
  rwa [List.append_nil] at h

/-- **White space that is replaced** outside of quotes. -/
theorem Respaced.replace {before run run' after : List Char}
    (hbefore : openQuote before = none) (hrun : IsBlankRun run) (hrun' : IsBlankRun run') :
    Respaced [] (before ++ (run ++ after)) (before ++ (run' ++ after)) := by
  have hafter : Respaced [] after (after ++ []) := .append_end after rfl (.inl rfl)
  rw [List.append_nil] at hafter
  have hblanks : RespacedIn [] (openQuote before) (run ++ after) (run' ++ after) := by
    rw [hbefore]
    exact .blanks hrun hrun' hafter
  exact RespacedIn.append hblanks

end RespacedIn

/-! ### Names -/

theorem takeWhile_eq_nil_of_front {test : Char → Bool} {cs : List Char}
    (h : test (front cs) = false) : cs.takeWhile test = [] ∧ cs.dropWhile test = cs := by
  cases cs with
  | nil => exact ⟨rfl, rfl⟩
  | cons c cs => simp [show test c = false from h]

namespace Respaced

variable {rest cs ds : List Char}

/-- **Names are the same on both sides**, and what is behind them is related. -/
theorem takeWhile {test : Char → Bool} (htest : ∀ c, test c = true → isNameChar c = true)
    (hrest : Cut rest) (h : Respaced rest cs ds) :
    cs.takeWhile test = ds.takeWhile test ∧
      Respaced rest (cs.dropWhile test) (ds.dropWhile test) := by
  have hfalse : ∀ {c}, isNameChar c = false → test c = false := fun hc =>
    Bool.eq_false_iff.mpr fun ht => absurd (htest _ ht) (by rw [hc]; decide)
  -- where no name goes on, both sides stay where they are
  have hstop : ∀ {cs ds}, Respaced rest cs ds → isNameChar (front cs) = false →
      isNameChar (front ds) = false → cs.takeWhile test = ds.takeWhile test ∧
        Respaced rest (cs.dropWhile test) (ds.dropWhile test) := by
    intro cs ds h hcs hds
    obtain ⟨hnil, hself⟩ := takeWhile_eq_nil_of_front (hfalse hcs)
    obtain ⟨hnil', hself'⟩ := takeWhile_eq_nil_of_front (hfalse hds)
    rw [hnil, hnil', hself, hself']
    exact ⟨rfl, h⟩
  induction h with
  | @char c cs ds hblank hquote h ih =>
    cases hc : test c with
    | true => simpa [hc] using ih
    | false =>
      simp only [List.takeWhile_cons, List.dropWhile_cons, hc, Bool.false_eq_true, if_false,
        true_and]
      exact .char hblank hquote h
  | quoted hq hbody h =>
    exact hstop (.quoted hq hbody h) (isNameChar_of_isQuote hq) (isNameChar_of_isQuote hq)
  | unclosed hq hbody =>
    exact hstop (.unclosed hq hbody) (isNameChar_of_isQuote hq) (isNameChar_of_isQuote hq)
  | done hcs hds hend =>
    exact hstop (.done hcs hds hend) (isIdle_front_of_blank hcs).name
      (isIdle_front_of_cut hrest hds hend).name
  | blanks hb hb' h =>
    exact hstop (.blanks hb hb' h) (hb.isIdle_front _).name (hb'.isIdle_front _).name

end Respaced

/-! ### Quoted texts -/

section Quoted

variable {q : Char} {body cs : List Char}

theorem quotedBody_cons_ne {c : Char} (hc : c ≠ q) (cs : List Char) :
    quotedBody q (c :: cs) = (quotedBody q cs).map fun (text, rest) => (c :: text, rest) := by
  rw [quotedBody.eq_def]
  exact if_neg (by simpa using hc)

/-- A quote ends the text in front of it. -/
theorem quotedBody_closed (hbody : q ∉ body) (hq : q ≠ '\x00') (hcs : front cs ≠ q) :
    quotedBody q (body ++ q :: cs) = some (body, cs) := by
  induction body with
  | nil =>
    cases cs with
    | nil => simp [quotedBody, hq]
    | cons d cs => simp [quotedBody, show d ≠ q from hcs]
  | cons c body ih =>
    obtain ⟨hc, hbody⟩ := not_or.mp (mt List.mem_cons.mpr hbody)
    rw [List.cons_append, quotedBody_cons_ne (Ne.symm hc), ih hbody]
    rfl

/-- Two quotes belong to the text. -/
theorem quotedBody_doubled (hbody : q ∉ body) :
    quotedBody q (body ++ q :: q :: cs) =
      (quotedBody q cs).map fun (text, rest) => (body ++ q :: q :: text, rest) := by
  induction body with
  | nil => simp [quotedBody]
  | cons c body ih =>
    obtain ⟨hc, hbody⟩ := not_or.mp (mt List.mem_cons.mpr hbody)
    rw [List.cons_append, quotedBody_cons_ne (Ne.symm hc), ih hbody, Option.map_map]
    rfl

theorem quotedBody_unclosed (hbody : q ∉ body) : quotedBody q body = none := by
  induction body with
  | nil => rfl
  | cons c body ih =>
    obtain ⟨hc, hbody⟩ := not_or.mp (mt List.mem_cons.mpr hbody)
    rw [quotedBody_cons_ne (Ne.symm hc), ih hbody]
    rfl

/-- **Quoted texts are the same on both sides**, and what is behind them is related.
Every round of the induction takes a text between two quotes; it goes on if a third one
follows at once. -/
theorem Respaced.quotedBody {rest ds text left : List Char} (hrest : Cut rest)
    (hq : isQuote q = true) (h : Respaced rest (q :: cs) (q :: ds))
    (htext : Scan.quotedBody q cs = some (text, left)) :
    ∃ left', Scan.quotedBody q ds = some (text, left') ∧ Respaced rest left left' := by
  have hnull : q ≠ '\x00' := by
    rintro rfl
    exact absurd hq (by decide)
  induction hlength : cs.length using Nat.strongRecOn generalizing cs ds text with
  | ind n ih =>
    rcases h.cons_cases (isBlank_of_isQuote hq) with
      ⟨hno, -⟩ | ⟨-, body, cs', ds', hbody, rfl, hds, hbehind⟩ | ⟨-, hopen, -⟩
    · rw [hq] at hno
      cases hno
    · cases hds
      by_cases hfront : ∃ cs'', cs' = q :: cs''
      · obtain ⟨cs'', rfl⟩ := hfront
        obtain ⟨ds'', rfl⟩ : ∃ ds'', ds' = q :: ds'' :=
          hbehind.exists_cons (isBlank_of_isQuote hq)
        rw [quotedBody_doubled hbody] at htext ⊢
        obtain ⟨⟨more, last⟩, hmore, heq⟩ := Option.map_eq_some_iff.mp htext
        cases heq
        have hshorter : cs''.length < n := by
          rw [← hlength]
          simp only [List.length_append, List.length_cons]
          omega
        obtain ⟨left', hmore', hleft⟩ := ih cs''.length hshorter hbehind hmore rfl
        exact ⟨left', by rw [hmore', Option.map_some], hleft⟩
      · have hcs' : front cs' ≠ q := by
          cases cs' with
          | nil => exact Ne.symm hnull
          | cons c cs'' => exact fun hc => hfront ⟨cs'', congrArg (· :: cs'') hc⟩
        have hds' : front ds' ≠ q := by
          rcases hbehind.front_cases hrest with hsame | ⟨-, hidle⟩
          · rwa [← hsame]
          · intro hds'
            rw [hds'] at hidle
            exact hidle.mark (mem_openingMarks_of_isQuote hq)
        rw [quotedBody_closed hbody hnull hcs'] at htext
        cases htext
        exact ⟨ds', quotedBody_closed hbody hnull hds', hbehind⟩
    · rw [quotedBody_unclosed hopen] at htext
      cases htext

end Quoted

/-! ### Keywords -/

/-- The texts of keywords: words of which every one but the first is a later word. -/
def isPhrase : List Char → Bool
  | [] => true
  | c :: w =>
    (if c == ' ' then laterWords.any (·.toList == w.takeWhile (· != ' '))
      else isNameChar c) &&
      isPhrase w

theorem isPhrase_keyword (k : Keyword) : isPhrase k.text.toList = true := by
  cases k <;> decide

theorem isPhrase_space {w : List Char} (h : isPhrase (' ' :: w) = true) :
    (∃ later ∈ laterWords, w.takeWhile (· != ' ') = later.toList) ∧ isPhrase w = true := by
  rw [isPhrase, beq_self_eq_true, if_pos rfl, Bool.and_eq_true, List.any_eq_true] at h
  obtain ⟨⟨later, hmem, heq⟩, hw⟩ := h
  exact ⟨⟨later, hmem, (beq_iff_eq.mp heq).symm⟩, hw⟩

theorem isPhrase_letter {c : Char} {w : List Char} (hc : c ≠ ' ')
    (h : isPhrase (c :: w) = true) : isNameChar c = true ∧ isPhrase w = true := by
  rwa [isPhrase, beq_eq_false_iff_ne.mpr hc, if_neg Bool.false_ne_true, Bool.and_eq_true] at h

theorem isNameChar_of_mem_laterWords {later : String} {c : Char} (h : later ∈ laterWords)
    (hc : c ∈ later.toList) : isNameChar c = true := by
  have hall : (laterWords.all fun later => later.toList.all isNameChar) = true := by decide
  exact List.all_eq_true.mp (List.all_eq_true.mp hall later h) c hc

theorem matchChars_space (w cs : List Char) :
    matchChars (' ' :: w) cs = if isBlank (front cs) then
      matchChars w (dropBlanks cs) else none := by
  cases cs with
  | nil => rfl
  | cons c cs =>
    rw [matchChars, beq_self_eq_true, if_pos rfl, front_cons]
    cases hc : isBlank c with
    | false => rfl
    | true => rw [dropBlanks, dropBlanks, List.dropWhile_cons_of_pos hc]

/-- A letter is not matched by what is no character of a name. -/
theorem matchChars_eq_none_of_front {expected : Char} {w cs : List Char}
    (hexpected : isNameChar expected = true) (hcs : isNameChar (front cs) = false) :
    matchChars (expected :: w) cs = none := by
  rw [Option.eq_none_iff_forall_ne_some]
  intro found hfound
  cases cs with
  | nil => cases hfound
  | cons c cs =>
    obtain ⟨rfl, -⟩ := matchChars_letter hexpected hfound
    rw [isNameChar_toUpper] at hexpected
    rw [front_cons, hexpected] at hcs
    cases hcs

theorem isDelimiter_of_isBlank {c : Char} (h : isBlank c = true) : isDelimiter c = true := by
  have hnull : c ≠ '\x00' := by
    rintro rfl
    exact absurd h (by decide)
  simp [isDelimiter, hnull, isNameChar_of_isBlank h]

theorem keyword_allows_of_front (k : Keyword) {cs : List Char}
    (h : cs = [] ∨ isDelimiter (front cs) = true) : k.word.allows cs = true := by
  cases cs with
  | nil => exact keyword_allows_nil k
  | cons c cs =>
    rw [keyword_allows_cons]
    exact h.resolve_left (List.cons_ne_nil c cs)

namespace Respaced

variable {rest cs ds : List Char}

/-- What may follow a keyword is the same on both sides. -/
theorem allows_eq (h : Respaced rest cs ds) (k : Keyword) :
    k.word.allows cs = k.word.allows ds := by
  cases h with
  | done hcs hds hend =>
    have hblank : cs = [] ∨ isDelimiter (front cs) = true :=
      (Classical.em (cs = [])).imp_right fun hne =>
        isDelimiter_of_isBlank (isBlank_front_of_blank hcs hne)
    rw [keyword_allows_of_front k hblank, keyword_allows_of_front k hend]
  | blanks hb hb' =>
    rw [keyword_allows_of_front k (.inr (isDelimiter_of_isBlank (hb.isBlank_front _))),
      keyword_allows_of_front k (.inr (isDelimiter_of_isBlank (hb'.isBlank_front _)))]
  | char => rw [keyword_allows_cons, keyword_allows_cons]
  | quoted => rw [keyword_allows_cons, keyword_allows_cons]
  | unclosed => rw [keyword_allows_cons, keyword_allows_cons]

/-- **Words are matched on both sides or on none.**  The induction follows the words of
the keyword; a later word of it cannot begin in `rest`. -/
theorem matchChars (hrest : Cut rest) (k : Keyword) {w : List Char} (hw : isPhrase w = true)
    (h : Respaced rest cs ds) :
    Option.Rel (Respaced rest) ((Scan.matchChars w cs).filter k.word.allows)
      ((Scan.matchChars w ds).filter k.word.allows) := by
  induction w generalizing cs ds with
  | nil =>
    rw [matchChars_nil, matchChars_nil, Option.filter_some, Option.filter_some,
      ← h.allows_eq k]
    split
    · exact .some h
    · exact .none
  | cons expected w ih =>
    by_cases hspace : expected = ' '
    · subst hspace
      obtain ⟨⟨later, hlater, hfirst⟩, hw⟩ := isPhrase_space hw
      have hfail : ∀ {text}, Cut text →
          (Scan.matchChars w text).filter k.word.allows = none := by
        intro text htext
        refine filter_matchChars_eq_none k ?_ ?_ <;> rw [hfirst]
        · exact fun c hc => isNameChar_of_mem_laterWords hlater hc
        · exact htext.word later hlater
      have hsolid : ∀ {c cs ds}, isBlank c = false →
          Option.Rel (Respaced rest) ((Scan.matchChars (' ' :: w) (c :: cs)).filter
            k.word.allows)
            ((Scan.matchChars (' ' :: w) (c :: ds)).filter k.word.allows) := by
        intro c cs ds hc
        simp only [matchChars_space, front_cons, hc]
        exact .none
      cases h with
      | done hcs hds hend =>
        rw [matchChars_space, matchChars_space, hcs, hds]
        split <;> split <;> simp only [hfail cut_nil, hfail hrest, Option.filter_none] <;>
          exact .none
      | @blanks b b' cs ds hb hb' h =>
        rw [matchChars_space, matchChars_space, hb.isBlank_front, hb'.isBlank_front,
          if_pos rfl, if_pos rfl]
        cases (Respaced.blanks hb hb' h).ahead with
        | ended hcs hds =>
          rw [hcs, hds, hfail cut_nil, hfail hrest]
          exact .none
        | same hcs hds h =>
          rw [hcs, hds]
          exact ih hw h
      | char hblank => exact hsolid hblank
      | quoted hq => exact hsolid (isBlank_of_isQuote hq)
      | unclosed hq => exact hsolid (isBlank_of_isQuote hq)
    · obtain ⟨hexpected, hw⟩ := isPhrase_letter hspace hw
      have hstop : ∀ {cs ds}, isNameChar (front cs) = false → isNameChar (front ds) = false →
          Option.Rel (Respaced rest) ((Scan.matchChars (expected :: w) cs).filter
            k.word.allows)
            ((Scan.matchChars (expected :: w) ds).filter k.word.allows) := by
        intro cs ds hcs hds
        rw [matchChars_eq_none_of_front hexpected hcs,
          matchChars_eq_none_of_front hexpected hds]
        exact .none
      cases h with
      | done hcs hds hend =>
        exact hstop (isIdle_front_of_blank hcs).name (isIdle_front_of_cut hrest hds hend).name
      | blanks hb hb' => exact hstop (hb.isIdle_front _).name (hb'.isIdle_front _).name
      | quoted hq => exact hstop (isNameChar_of_isQuote hq) (isNameChar_of_isQuote hq)
      | unclosed hq => exact hstop (isNameChar_of_isQuote hq) (isNameChar_of_isQuote hq)
      | char hblank hquote h =>
        rw [Scan.matchChars, Scan.matchChars]
        simp only [beq_eq_false_iff_ne.mpr hspace, Bool.false_eq_true, if_false]
        split
        · exact ih hw h
        · exact .none

/-- **Keywords are matched on both sides or on none.** -/
theorem match? (h : Respaced rest cs ds) (hrest : Cut rest) (k : Keyword) :
    Option.Rel (Respaced rest) (k.word.match? cs) (k.word.match? ds) := by
  rw [Word.match?, Word.match?, keyword_chars]
  exact h.matchChars hrest k (isPhrase_keyword k)

end Respaced

end DocQuery.Scan
