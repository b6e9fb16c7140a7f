import DocQuery.Proofs.Scan.Reading
import DocQuery.Scan.Token
import Mathlib.Data.List.TakeWhile

/-!
# Parsers only move forward

What a parser leaves is an end of the text that it was given.  This is closed under
everything that parsers are built with, so it is a class: that a parser shrinks is found
by looking at how it is written.

* `Shrinks` — a parser only moves forward
* `Shrinks.length_le` — it never leaves more than there was
* `length_lt_of_consume`, `length_lt_of_consumeChar` — what is read is gone
* `Advances` — a parser of optional items that finds an item only by reading something

### What is load-bearing

Two parsers set the text themselves: a quoted text ends where the search for its end
stopped, and an alias that turns out to be a keyword is given back.  The class does not
see through either, and they are done by hand.
-/

namespace DocQuery.Scan

open Text

variable {α β : Type}

/-- **A parser only moves forward**: what it leaves is an end of the text. -/
class Shrinks (p : Parser α) : Prop where
  suffix : ∀ {cs : List Char} {a : α}
    {left : List Char}, p.run cs = .ok (a, left) → left <:+ cs

theorem Shrinks.length_le {p : Parser α} [Shrinks p] {cs left : List Char} {a : α}
    (h : p.run cs = .ok (a, left)) : left.length ≤ cs.length :=
  (Shrinks.suffix h).length_le

/-- At the end of the text a parser stays there. -/
theorem Shrinks.dropBlanks_eq_nil {p : Parser α} [Shrinks p] {cs left : List Char} {a : α}
    (hcs : dropBlanks cs = []) (h : p.run cs = .ok (a, left)) : dropBlanks left = [] := by
  have hblank : ∀ c ∈ cs, isBlank c = true := List.dropWhile_eq_nil_iff.mp hcs
  exact List.dropWhile_eq_nil_iff.mpr fun c hc => hblank c ((Shrinks.suffix h).subset hc)

/-! ### Sequences and choices -/

theorem exists_of_run_bind {p : Parser α} {f : α → Parser β} {cs left : List Char} {b : β}
    (h : (p >>= f).run cs = .ok (b, left)) :
    ∃ a middle, p.run cs = .ok (a, middle) ∧ (f a).run middle = .ok (b, left) := by
  rw [StateT.run_bind] at h
  cases hp : p.run cs with
  | error fault =>
    rw [hp] at h
    cases h
  | ok result =>
    rw [hp] at h
    exact ⟨result.1, result.2, rfl, h⟩

instance (a : α) : Shrinks (pure a : Parser α) where
  suffix h := by
    cases h
    exact List.suffix_refl _

instance (p : Parser α) (f : α → Parser β) [Shrinks p] [∀ a, Shrinks (f a)] :
    Shrinks (p >>= f) where
  suffix h := by
    obtain ⟨a, middle, hp, hf⟩ := exists_of_run_bind h
    exact (Shrinks.suffix hf).trans (Shrinks.suffix hp)

/-- The form for continuations that look at the result. -/
theorem Shrinks.bind {p : Parser α} {f : α → Parser β} (hp : Shrinks p)
    (hf : ∀ a, Shrinks (f a)) : Shrinks (p >>= f) :=
  inferInstance

instance (p : Parser α) (f : α → β) [Shrinks p] : Shrinks (f <$> p) where
  suffix h := by
    rw [map_eq_pure_bind] at h
    exact Shrinks.suffix h

instance (p : Parser α) [Shrinks p] : Shrinks (discard p) :=
  inferInstanceAs (Shrinks ((fun _ => ()) <$> p))

instance (c : Prop) [Decidable c] (p q : Parser α) [Shrinks p] [Shrinks q] :
    Shrinks (if c then p else q) := by
  split <;> infer_instance

instance (mark : List Char) (cause : Cause) : Shrinks (failAt mark cause : Parser α) where
  suffix h := by cases h

/-! ### Looking and moving -/

instance : Shrinks (get : Parser (List Char)) where
  suffix h := by
    cases h
    exact List.suffix_refl _

instance : Shrinks current := inferInstanceAs (Shrinks (do return front (← get)))

instance (n : Nat) : Shrinks (peek n) :=
  inferInstanceAs (Shrinks (do return peekAt n (← get)))

instance (n : Nat) : Shrinks (advance n) where
  suffix h := by
    cases h
    exact List.drop_suffix n _

theorem dropBlanks_suffix (cs : List Char) : dropBlanks cs <:+ cs :=
  List.dropWhile_suffix _

instance : Shrinks skipBlanks where
  suffix h := by
    cases h
    exact dropBlanks_suffix _

instance (test : Char → Bool) : Shrinks (takeChars test) where
  suffix h := by
    cases h
    exact List.dropWhile_suffix _

/-! ### Keywords and characters -/

theorem matchChars_suffix {w cs left : List Char} (h : matchChars w cs = some left) :
    left <:+ cs := by
  induction w generalizing cs with
  | nil =>
    cases h
    exact List.suffix_refl _
  | cons expected w ih =>
    cases cs with
    | nil => cases h
    | cons c cs =>
      rw [matchChars] at h
      split at h
      · split at h
        · exact ((ih h).trans (dropBlanks_suffix _)).trans (List.suffix_cons c cs)
        · cases h
      · split at h
        · exact (ih h).trans (List.suffix_cons c cs)
        · cases h

theorem match?_suffix {k : Keyword} {cs left : List Char} (h : k.word.match? cs = some left) :
    left <:+ cs :=
  matchChars_suffix (Option.filter_eq_some_iff.mp h).1

/-- A keyword is read if it matches, and otherwise only blanks are passed over. -/
theorem run_consume_cases {k : Keyword} {cs left : List Char} {found : Bool}
    (h : (consume k).run cs = .ok (found, left)) :
    found = true ∧ k.word.match? (dropBlanks cs) = some left ∨
      found = false ∧ k.word.match? (dropBlanks cs) = none ∧ left = dropBlanks cs := by
  cases hmatch : k.word.match? (dropBlanks cs) with
  | some after =>
    rw [run_consume_of_match hmatch] at h
    cases h
    exact .inl ⟨rfl, rfl⟩
  | none =>
    rw [run_consume_of_none hmatch] at h
    cases h
    exact .inr ⟨rfl, rfl, rfl⟩

instance (k : Keyword) : Shrinks (consume k) where
  suffix {cs found left} h := by
    rcases run_consume_cases h with ⟨-, hmatch⟩ | ⟨-, -, rfl⟩
    · exact (match?_suffix hmatch).trans (dropBlanks_suffix cs)
    · exact dropBlanks_suffix cs

instance (k : Keyword) : Shrinks (check k) where
  suffix h := by
    cases h
    exact dropBlanks_suffix _

instance (k : Keyword) : Shrinks (expect k) :=
  inferInstanceAs (Shrinks (do
    let mark ← get
    if !(← consume k) then failAt mark (.expectedWord k.word.display)))

instance (c : Char) : Shrinks (consumeChar c) :=
  inferInstanceAs (Shrinks (do
    skipBlanks
    if (← current) == c then
      advance 1
      return true
    else return false))

instance (c : Char) : Shrinks (expectChar c) :=
  inferInstanceAs (Shrinks (do
    let mark ← get
    if !(← consumeChar c) then failAt mark (.expectedChar c)))

/-! ### Loops -/

instance Shrinks.moreItems (item : Parser α) [Shrinks item] (budget : Nat) :
    Shrinks (moreItems item budget) := by
  induction budget with
  | zero => exact inferInstanceAs (Shrinks (pure []))
  | succ budget ih =>
    unfold Scan.moreItems
    infer_instance

instance (item : Parser α) [Shrinks item] : Shrinks (commaList item) := by
  unfold commaList
  infer_instance

instance Shrinks.extendWhile (step : α → Parser (Option α)) [∀ a, Shrinks (step a)]
    (budget : Nat) (a : α) : Shrinks (extendWhile step budget a) := by
  induction budget generalizing a with
  | zero => exact inferInstanceAs (Shrinks (pure a))
  | succ budget ih =>
    unfold Scan.extendWhile
    refine Shrinks.bind inferInstance fun next => ?_
    cases next <;> infer_instance

instance Shrinks.many (item : Parser (Option α)) [Shrinks item] (budget : Nat) :
    Shrinks (many item budget) := by
  induction budget with
  | zero => exact inferInstanceAs (Shrinks (pure []))
  | succ budget ih =>
    unfold Scan.many
    refine Shrinks.bind inferInstance fun first => ?_
    cases first <;> infer_instance

/-! ### Tokens -/

instance : Shrinks identifier := by
  unfold identifier
  infer_instance

theorem quotedBody_suffix {q : Char} {cs text left : List Char}
    (h : quotedBody q cs = some (text, left)) : left <:+ cs := by
  fun_induction quotedBody q cs generalizing text left with
  | case1 => cases h
  | case2 c hc hq => cases h
  | case3 c hc hq =>
    cases h
    exact List.nil_suffix
  | case4 c hc d after hd ih =>
    obtain ⟨⟨inner, last⟩, hinner, heq⟩ := Option.map_eq_some_iff.mp h
    cases heq
    exact ((ih hinner).trans (List.suffix_cons _ _)).trans (List.suffix_cons _ _)
  | case5 c hc d after hd =>
    cases h
    exact List.suffix_cons _ _
  | case6 c after hc ih =>
    obtain ⟨⟨inner, last⟩, hinner, heq⟩ := Option.map_eq_some_iff.mp h
    cases heq
    exact (ih hinner).trans (List.suffix_cons _ _)

/-- A quoted text is read up to the end that was found for it. -/
theorem run_quoted_cases {q : Char} {cs left : List Char} {text : String}
    (h : (quoted q).run cs = .ok (text, left)) :
    ∃ body, quotedBody q (cs.drop 1) = some (body, left) ∧ text = String.ofList body := by
  rw [quoted, run_bind_ok run_get] at h
  cases hbody : quotedBody q (cs.drop 1) with
  | none =>
    rw [hbody] at h
    cases h
  | some found =>
    rw [hbody] at h
    cases h
    exact ⟨found.1, rfl, rfl⟩

instance (q : Char) : Shrinks (quoted q) where
  suffix h := by
    obtain ⟨body, hbody, -⟩ := run_quoted_cases h
    exact (quotedBody_suffix hbody).trans (List.drop_suffix 1 _)

instance : Shrinks name := by
  unfold name
  refine Shrinks.bind inferInstance fun _ => Shrinks.bind inferInstance fun mark =>
    Shrinks.bind inferInstance fun c => ?_
  split
  · infer_instance
  · refine Shrinks.bind inferInstance fun word => ?_
    cases word <;> infer_instance

instance Shrinks.moreNames (budget : Nat) : Shrinks (moreNames budget) := by
  induction budget with
  | zero => exact inferInstanceAs (Shrinks (pure []))
  | succ budget ih =>
    unfold Scan.moreNames
    infer_instance

instance : Shrinks dottedName := by
  unfold dottedName
  infer_instance

/-- A word that is no alias is given back. -/
instance : Shrinks aliasName where
  suffix {cs result left} h := by
    rw [aliasName] at h
    obtain ⟨found, middle, hfound, h⟩ := exists_of_run_bind h
    refine List.IsSuffix.trans ?_ (Shrinks.suffix hfound)
    cases found with
    | true => exact Shrinks.suffix (p := do return some (← name)) h
    | false =>
      rw [if_neg Bool.false_ne_true, run_bind_ok run_skipBlanks, run_bind_ok run_current] at h
      refine List.IsSuffix.trans ?_ (dropBlanks_suffix middle)
      split at h
      · exact Shrinks.suffix (p := do return some (← name)) h
      · rw [run_bind_ok run_get] at h
        obtain ⟨word, behind, hword, h⟩ := exists_of_run_bind h
        cases word with
        | none =>
          cases h
          exact List.suffix_refl _
        | some word =>
          dsimp only at h
          split at h
          · cases h
            exact List.suffix_refl _
          · cases h
            exact Shrinks.suffix hword

instance : Shrinks count := by
  unfold count
  refine Shrinks.bind inferInstance fun _ => Shrinks.bind inferInstance fun mark =>
    Shrinks.bind inferInstance fun digits => ?_
  split <;> infer_instance

/-! ### What is read is gone -/

theorem length_lt_of_match? {k : Keyword} {cs left : List Char}
    (h : k.word.match? cs = some left) : left.length < cs.length := by
  obtain ⟨hmatch, -⟩ := Option.filter_eq_some_iff.mp h
  obtain ⟨expected, others, htext, hexpected⟩ := exists_keyword_text k
  rw [keyword_chars, htext] at hmatch
  cases cs with
  | nil => cases hmatch
  | cons c cs =>
    have hsuffix := matchChars_suffix (matchChars_letter hexpected hmatch).2
    exact Nat.lt_succ_of_le hsuffix.length_le

theorem length_lt_of_consume {k : Keyword} {cs left : List Char}
    (h : (consume k).run cs = .ok (true, left)) : left.length < cs.length := by
  rcases run_consume_cases h with ⟨-, hmatch⟩ | ⟨hfalse, -⟩
  · exact Nat.lt_of_lt_of_le (length_lt_of_match? hmatch) (length_dropBlanks_le cs)
  · cases hfalse

/-- A character is read if it comes next, and otherwise only blanks are passed over. -/
theorem run_consumeChar_cases {c : Char} (hc : c ≠ '\x00') {cs left : List Char}
    {found : Bool} (h : (consumeChar c).run cs = .ok (found, left)) :
    found = true ∧ dropBlanks cs = c :: left ∨
      found = false ∧ front (dropBlanks cs) ≠ c ∧ left = dropBlanks cs := by
  by_cases hfront : front (dropBlanks cs) = c
  · cases hcs : dropBlanks cs with
    | nil =>
      rw [hcs] at hfront
      exact absurd hfront.symm hc
    | cons d after =>
      rw [hcs, front_cons] at hfront
      subst hfront
      rw [run_consumeChar_of_front hcs] at h
      cases h
      exact .inl ⟨rfl, rfl⟩
  · rw [run_consumeChar_of_ne hfront] at h
    cases h
    exact .inr ⟨rfl, hfront, rfl⟩

theorem length_lt_of_consumeChar {c : Char} (hc : c ≠ '\x00') {cs left : List Char}
    (h : (consumeChar c).run cs = .ok (true, left)) : left.length < cs.length := by
  rcases run_consumeChar_cases hc h with ⟨-, hcs⟩ | ⟨hfalse, -⟩
  · have hlength := length_dropBlanks_le cs
    rw [hcs] at hlength
    exact hlength
  · cases hfalse

/-- At the end no keyword is found. -/
theorem run_consume_nil (k : Keyword) : (consume k).run [] = .ok (false, []) := by
  refine run_consume_of_none ?_
  rw [show dropBlanks [] = [] from rfl, keyword_match?_nil]

/-- **A parser of optional items finds an item only by reading something**, and finds none
at the end. -/
class Advances (p : Parser (Option α)) : Prop where
  run_nil : p.run [] = .ok (none, [])
  length_lt : ∀ {cs : List Char} {a : α} {left : List Char},
    p.run cs = .ok (some a, left) → left.length < cs.length

end DocQuery.Scan
