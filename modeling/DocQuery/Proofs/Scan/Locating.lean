import DocQuery.Proofs.Scan.Following
import DocQuery.Scan.Cursor

/-!
# Where failures lie

A failure carries two places in the text, each given by what remains there: where the
faulty part began and where reading stopped.  Both lie in the part that the parser was
given, and in this order.

* `Failure.Behind` — a failure lies behind a mark
* `FailsBehind` — a parser that is run behind a mark fails behind it
* `SyntaxError.IsWithin`, `Failure.Behind.locate` — the same, in positions counted from
  the start
* `Consumes` — a parser that never succeeds without reading something

### What is load-bearing

A parser may fail for a part that began before the place where it was started, as the
beginning of that part is remembered and handed on.  So the mark is not the place where a
parser starts: it is any place before it, and a parser that remembers its own start begins
a new one (`failsBehind_get`).
-/

namespace DocQuery.Scan

open Text

variable {α β : Type} {mark : List Char}

/-- **A failure lies behind a mark**, and reading stopped behind the start of the faulty
part. -/
structure Failure.Behind (mark : List Char) (fault : Failure) : Prop where
  start : fault.mark <:+ mark
  stop : fault.stop <:+ fault.mark

theorem Failure.Behind.trans {fault : Failure} {cs : List Char} (h : fault.Behind cs)
    (hcs : cs <:+ mark) : fault.Behind mark :=
  ⟨h.start.trans hcs, h.stop⟩

/-- **A parser that is run behind a mark fails behind it.** -/
class FailsBehind (mark : List Char) (p : Parser α) : Prop where
  behind : ∀ {cs : List Char} {fault : Failure}, cs <:+ mark → p.run cs = .error fault →
    fault.Behind mark

/-- A parser that fails nowhere. -/
class NeverFails (p : Parser α) : Prop where
  run_ne : ∀ {cs : List Char} {fault : Failure}, p.run cs ≠ .error fault

instance (p : Parser α) [NeverFails p] : FailsBehind mark p where
  behind _ h := absurd h NeverFails.run_ne

/-! ### Sequences and choices -/

/-- A sequence fails in its first part or behind it. -/
theorem error_of_run_bind {p : Parser α} {f : α → Parser β} {cs : List Char} {fault : Failure}
    (h : (p >>= f).run cs = .error fault) :
    p.run cs = .error fault ∨ ∃ a left, p.run cs = .ok (a, left) ∧
      (f a).run left = .error fault := by
  rw [StateT.run_bind] at h
  cases hp : p.run cs with
  | error cause =>
    rw [hp] at h
    cases h
    exact .inl rfl
  | ok result =>
    rw [hp] at h
    exact .inr ⟨result.1, result.2, rfl, h⟩

instance FailsBehind.bind (p : Parser α) (f : α → Parser β) [hp : FailsBehind mark p]
    [Shrinks p]
    [hf : ∀ a, FailsBehind mark (f a)] : FailsBehind mark (p >>= f) where
  behind hcs h := by
    rcases error_of_run_bind h with hfirst | ⟨a, left, hfirst, hsecond⟩
    · exact hp.behind hcs hfirst
    · exact (hf a).behind ((Shrinks.suffix hfirst).trans hcs) hsecond

/-- A parser that remembers its start. -/
instance (priority := 1100) failsBehind_get (f : List Char → Parser β)
    [hf : ∀ cs, FailsBehind cs (f cs)] : FailsBehind mark (get >>= f) where
  behind {cs fault} hcs h := by
    rw [run_bind_ok run_get] at h
    exact ((hf cs).behind (List.suffix_refl cs) h).trans hcs

instance (p : Parser α) (f : α → β) [hp : FailsBehind mark p] :
    FailsBehind mark (f <$> p) where
  behind hcs h := by
    rw [map_eq_pure_bind] at h
    rcases error_of_run_bind h with hfirst | ⟨a, left, -, hsecond⟩
    · exact hp.behind hcs hfirst
    · cases hsecond

instance (p : Parser α) [FailsBehind mark p] : FailsBehind mark (discard p) :=
  inferInstanceAs (FailsBehind mark ((fun _ => ()) <$> p))

instance (c : Prop) [Decidable c] (p q : Parser α) [FailsBehind mark p] [FailsBehind mark q] :
    FailsBehind mark (if c then p else q) := by
  split <;> infer_instance

instance (cause : Cause) : FailsBehind mark (failAt mark cause : Parser α) where
  behind hcs h := by
    cases h
    exact ⟨List.suffix_refl mark, hcs⟩

/-! ### Parsers that fail nowhere -/

instance (a : α) : NeverFails (pure a : Parser α) where
  run_ne h := by cases h

instance : NeverFails (get : Parser (List Char)) where
  run_ne h := by cases h

instance : NeverFails current where
  run_ne h := by cases h

instance (n : Nat) : NeverFails (peek n) where
  run_ne h := by cases h

instance (n : Nat) : NeverFails (advance n) where
  run_ne h := by cases h

instance : NeverFails skipBlanks where
  run_ne h := by cases h

instance (test : Char → Bool) : NeverFails (takeChars test) where
  run_ne h := by cases h

instance (k : Keyword) : NeverFails (consume k) where
  run_ne {cs fault} h := by
    cases hmatch : k.word.match? (dropBlanks cs) with
    | some after =>
      rw [run_consume_of_match hmatch] at h
      cases h
    | none =>
      rw [run_consume_of_none hmatch] at h
      cases h

instance (k : Keyword) : NeverFails (check k) where
  run_ne h := by cases h

/-! ### Keywords, characters and loops -/

instance (c : Char) : FailsBehind mark (consumeChar c) := by
  unfold consumeChar
  infer_instance

instance (k : Keyword) : FailsBehind mark (expect k) := by
  unfold expect
  infer_instance

instance (c : Char) : FailsBehind mark (expectChar c) := by
  unfold expectChar
  infer_instance

instance FailsBehind.moreItems (item : Parser α) [Shrinks item] [FailsBehind mark item]
    (budget : Nat) : FailsBehind mark (moreItems item budget) := by
  induction budget with
  | zero => exact inferInstanceAs (FailsBehind mark (pure []))
  | succ budget ih =>
    unfold Scan.moreItems
    infer_instance

instance (item : Parser α) [Shrinks item] [∀ mark, FailsBehind mark item] :
    FailsBehind mark (commaList item) := by
  unfold commaList
  infer_instance

instance FailsBehind.extendWhile (step : α → Parser (Option α)) [∀ a, Shrinks (step a)]
    [∀ a, FailsBehind mark (step a)] (budget : Nat) (a : α) :
    FailsBehind mark (extendWhile step budget a) := by
  induction budget generalizing a with
  | zero => exact inferInstanceAs (FailsBehind mark (pure a))
  | succ budget ih =>
    unfold Scan.extendWhile
    refine @FailsBehind.bind _ _ _ _ _ _ _ fun next => ?_
    cases next <;> infer_instance

instance FailsBehind.many (item : Parser (Option α)) [Shrinks item] [FailsBehind mark item]
    (budget : Nat) : FailsBehind mark (many item budget) := by
  induction budget with
  | zero => exact inferInstanceAs (FailsBehind mark (pure []))
  | succ budget ih =>
    unfold Scan.many
    refine @FailsBehind.bind _ _ _ _ _ _ _ fun first => ?_
    cases first <;> infer_instance

instance Shrinks.skipSemicolons (budget : Nat) : Shrinks (skipSemicolons budget) := by
  induction budget with
  | zero => exact inferInstanceAs (Shrinks (pure ()))
  | succ budget ih =>
    unfold Scan.skipSemicolons
    infer_instance

instance FailsBehind.skipSemicolons (budget : Nat) :
    FailsBehind mark (skipSemicolons budget) := by
  induction budget with
  | zero => exact inferInstanceAs (FailsBehind mark (pure ()))
  | succ budget ih =>
    unfold Scan.skipSemicolons
    infer_instance

/-! ### Tokens -/

instance : FailsBehind mark identifier := by
  unfold identifier
  infer_instance

/-- A quote that is not closed makes everything behind it faulty. -/
instance (q : Char) : FailsBehind mark (quoted q) where
  behind {cs fault} hcs h := by
    rw [quoted, run_bind_ok run_get] at h
    cases hbody : quotedBody q (cs.drop 1) with
    | some found =>
      rw [hbody] at h
      cases h
    | none =>
      rw [hbody] at h
      cases h
      exact ⟨hcs, List.nil_suffix⟩

instance : FailsBehind mark name := by
  unfold name
  refine @FailsBehind.bind _ _ _ _ _ _ _ fun _ => @failsBehind_get _ _ _ fun start =>
    @FailsBehind.bind _ _ _ _ _ _ _ fun c => ?_
  split
  · infer_instance
  · refine @FailsBehind.bind _ _ _ _ _ _ _ fun word => ?_
    cases word <;> infer_instance

instance FailsBehind.moreNames (budget : Nat) : FailsBehind mark (moreNames budget) := by
  induction budget with
  | zero => exact inferInstanceAs (FailsBehind mark (pure []))
  | succ budget ih =>
    unfold Scan.moreNames
    infer_instance

instance : FailsBehind mark dottedName := by
  unfold dottedName
  infer_instance

instance : FailsBehind mark count := by
  unfold count
  refine @FailsBehind.bind _ _ _ _ _ _ _ fun _ => @failsBehind_get _ _ _ fun start =>
    @FailsBehind.bind _ _ _ _ _ _ _ fun digits => ?_
  split <;> infer_instance

/-- Only the name behind the keyword, or one that is quoted, can fail. -/
instance : FailsBehind mark aliasName where
  behind {cs fault} hcs h := by
    have hname : FailsBehind mark (do return some (← name)) := inferInstance
    rw [aliasName] at h
    rcases error_of_run_bind h with hfirst | ⟨found, left, hfirst, h⟩
    · exact absurd hfirst NeverFails.run_ne
    have hleft : left <:+ mark := (Shrinks.suffix hfirst).trans hcs
    cases found with
    | true => exact hname.behind hleft h
    | false =>
      rw [if_neg Bool.false_ne_true, run_bind_ok run_skipBlanks, run_bind_ok run_current] at h
      split at h
      · exact hname.behind ((dropBlanks_suffix left).trans hleft) h
      · rw [run_bind_ok run_get] at h
        rcases error_of_run_bind h with hword | ⟨word, after, hword, h⟩
        · exact FailsBehind.behind ((dropBlanks_suffix left).trans hleft) hword
        · cases word with
          | none => cases h
          | some word =>
            dsimp only at h
            split at h <;> cases h

/-- What is left at the end of a text is faulty from its first character on. -/
instance : FailsBehind mark endOfText where
  behind {cs fault} hcs h := by
    rw [endOfText, run_bind_ok run_get] at h
    rcases error_of_run_bind h with hfirst | ⟨_, left, hfirst, h⟩
    · exact FailsBehind.behind hcs hfirst
    have hleft : dropBlanks left <:+ mark :=
      ((dropBlanks_suffix left).trans (Shrinks.suffix hfirst)).trans hcs
    rw [run_bind_ok run_skipBlanks, run_bind_ok run_get] at h
    generalize dropBlanks left = last at hleft h
    split at h
    · cases h
    · cases h
      exact ⟨hleft, (List.suffix_cons _ _).trans (List.suffix_cons _ _)⟩
    · cases h
      exact ⟨hleft, List.suffix_refl _⟩
    · cases h
      exact ⟨hleft, List.suffix_refl _⟩

/-- Nothing remains behind the end of the text. -/
theorem eq_nil_of_run_endOfText {cs left : List Char} {u : Unit}
    (h : endOfText.run cs = .ok (u, left)) : left = [] := by
  rw [endOfText, run_bind_ok run_get] at h
  obtain ⟨_, middle, -, h⟩ := exists_of_run_bind h
  rw [run_bind_ok run_skipBlanks, run_bind_ok run_get] at h
  generalize dropBlanks middle = last at h
  split at h <;> cases h
  rfl

instance : Shrinks endOfText where
  suffix h := by
    rw [eq_nil_of_run_endOfText h]
    exact List.nil_suffix

/-! ### Parsers that read something -/

/-- **A parser that never succeeds without reading something.** -/
class Consumes (p : Parser α) : Prop where
  length_lt : ∀ {cs : List Char} {a : α} {left : List Char},
    p.run cs = .ok (a, left) → left.length < cs.length

instance (p : Parser α) (f : α → Parser β) [Consumes p] [∀ a, Shrinks (f a)] :
    Consumes (p >>= f) where
  length_lt h := by
    obtain ⟨a, middle, hfirst, hsecond⟩ := exists_of_run_bind h
    exact Nat.lt_of_le_of_lt (Shrinks.length_le hsecond) (Consumes.length_lt hfirst)

instance Consumes.bind_right (p : Parser α) (f : α → Parser β)
    [Shrinks p] [hf : ∀ a, Consumes (f a)] : Consumes (p >>= f) where
  length_lt h := by
    obtain ⟨a, middle, hfirst, hsecond⟩ := exists_of_run_bind h
    exact Nat.lt_of_lt_of_le ((hf a).length_lt hsecond) (Shrinks.length_le hfirst)

instance (c : Prop) [Decidable c] (p q : Parser α) [Consumes p] [Consumes q] :
    Consumes (if c then p else q) := by
  split <;> infer_instance

/-- Passing over a character that is there. -/
theorem length_lt_of_advance {p : Parser α} [Shrinks p] {cs left : List Char} {a : α}
    (hfront : front cs ≠ '\x00') (h : (do advance 1; p).run cs = .ok (a, left)) :
    left.length < cs.length := by
  cases cs with
  | nil => exact absurd rfl hfront
  | cons c cs =>
    rw [run_bind_ok (run_advance 1)] at h
    exact Nat.lt_succ_of_le (Shrinks.length_le h)

/-- Both quotes are read. -/
instance (q : Char) : Consumes (quoted q) where
  length_lt {cs text left} h := by
    obtain ⟨body, hbody, -⟩ := run_quoted_cases h
    cases cs with
    | nil => cases hbody
    | cons c cs => exact Nat.lt_succ_of_le (quotedBody_suffix hbody).length_le

/-- A bare name has at least one character. -/
theorem length_lt_of_identifier {cs left : List Char} {word : String}
    (h : identifier.run cs = .ok (some word, left)) : left.length < cs.length := by
  rw [identifier, run_bind_ok run_skipBlanks, run_bind_ok run_current] at h
  split at h
  · cases h
  · rename_i hname
    rw [run_bind_ok (run_takeChars isNameChar)] at h
    cases h
    cases hcs : dropBlanks cs with
    | nil =>
      rw [hcs] at hname
      exact absurd (by decide) hname
    | cons c more =>
      have hc : isNameChar c = true := by
        rw [hcs, front_cons] at hname
        simp only [Bool.or_eq_true, not_or, Bool.not_eq_true, Bool.not_eq_false'] at hname
        exact hname.2
      have hlength := length_dropBlanks_le cs
      rw [hcs, List.length_cons] at hlength
      rw [List.dropWhile_cons_of_pos hc]
      exact Nat.lt_of_le_of_lt (List.dropWhile_suffix isNameChar).length_le hlength

instance : Consumes name := by
  unfold name
  refine @Consumes.bind_right _ _ _ _ _ fun _ => @Consumes.bind_right _ _ _ _ _ fun start =>
    @Consumes.bind_right _ _ _ _ _ fun c => ?_
  split
  · infer_instance
  · refine ⟨fun h => ?_⟩
    obtain ⟨word, middle, hword, h⟩ := exists_of_run_bind h
    cases word with
    | none => cases h
    | some word =>
      cases h
      exact length_lt_of_identifier hword

/-! ### Positions -/

/-- **An error lies in a text behind a position**, and shows the part of the text between
its own positions, or the character at its start if there is none between them. -/
structure SyntaxError.IsWithin (text : List Char) (position : Nat) (e : SyntaxError) :
    Prop where
  position_le : position ≤ e.start
  start_le : e.start ≤ e.finish
  finish_le : e.finish ≤ text.length
  text_eq : e.text =
    String.ofList ((text.take (min (max e.finish (e.start + 1)) text.length)).drop e.start)

/-- **A failure behind a place is an error behind its position.**  What remained at the
start of the faulty part is the text from there on, so the part that is shown is cut out
of the text. -/
theorem Failure.Behind.locate {text : List Char} {position : Nat} {fault : Failure}
    (h : fault.Behind (text.drop position)) (hposition : position ≤ text.length) :
    (fault.locate text.length).IsWithin text position := by
  have hstart : fault.mark.length ≤ text.length - position := by
    simpa using h.start.length_le
  have hstop : fault.stop.length ≤ fault.mark.length := h.stop.length_le
  have hmark : text.drop (text.length - fault.mark.length) = fault.mark :=
    (List.suffix_iff_eq_drop.mp (h.start.trans (List.drop_suffix _ _))).symm
  refine ⟨?_, ?_, Nat.sub_le _ _, ?_⟩
  · show position ≤ text.length - fault.mark.length
    omega
  · show text.length - fault.mark.length ≤ text.length - fault.stop.length
    omega
  · show String.ofList (fault.mark.take (max (fault.mark.length - fault.stop.length) 1)) = _
    have hlength : min (max (fault.mark.length - fault.stop.length) 1) fault.mark.length =
        min (min (max (text.length - fault.stop.length) (text.length - fault.mark.length + 1))
          text.length - (text.length - fault.mark.length)) fault.mark.length := by
      omega
    refine congrArg String.ofList ?_
    rw [List.drop_take, Failure.locate, hmark]
    exact List.take_eq_take_iff.mpr hlength

/-- **A run from a position ends in the text**: behind the position if it succeeds, and
with an error that lies behind the position if it fails. -/
def EndsWithin (text : List Char) (position : Nat) : Except SyntaxError α × Cursor → Prop
  | (.ok _, stop) => stop.text = text ∧ position < stop.position ∧ stop.position ≤ text.length
  | (.error e, _) => e.IsWithin text position

/-- Positions seen from a cursor are those of what remains. -/
theorem endsWithin_run {p : Parser α} [Shrinks p] [Consumes p] [∀ mark, FailsBehind mark p]
    (text : List Char) {position : Nat} (hposition : position ≤ text.length) :
    EndsWithin text position ((Cursor.mk text (text.drop position)).run p) := by
  rw [Cursor.run]
  cases hrun : p.run (text.drop position) with
  | ok result =>
    obtain ⟨a, left⟩ := result
    have hless := Consumes.length_lt hrun
    rw [List.length_drop] at hless
    refine ⟨rfl, ?_, Nat.sub_le _ _⟩
    show position < text.length - left.length
    omega
  | error fault => exact (FailsBehind.behind (List.suffix_refl _) hrun).locate hposition

end DocQuery.Scan
