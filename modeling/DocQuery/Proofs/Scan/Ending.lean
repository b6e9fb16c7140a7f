import DocQuery.Proofs.Scan.Following

/-!
# Recursions that end

A loop of the parser runs on a budget, the number of characters that remain.  Here the
loops are written without one, as equations, and each equation is shown to have exactly
one solution: the loop with the budget.

* `AgreeBelow` — two parsers agree on the texts below a length
* `Contracts`, `Determines` — a recursion whose calls see shorter texts only, and one that
  has exactly one solution
* `Contracts.determines` — the solution is the recursion run on a budget
* `extendRound`, `manyRound`, `itemRound`, `nameRound`, `semicolonRound` — the loops, one
  round each

### What is load-bearing

**One solution means that every call ends.**  A parser passes on the failures of what it
calls.  If a recursion called itself on a text that is not shorter, a solution could be
changed there, by failing for one thing, and would stay a solution.  So it is the calls
that `Contracts` is about, and the results play no part in it.
-/

namespace DocQuery.Scan

open Text

variable {ι α β : Type} {n : Nat}

/-! ### Agreement below a length -/

/-- **Two parsers agree on all texts of fewer than `n` characters**, in their results and
failures. -/
class AgreeBelow (n : Nat) (p q : Parser α) : Prop where
  run_eq : ∀ {cs : List Char}, cs.length < n → p.run cs = q.run cs

instance AgreeBelow.refl (p : Parser α) : AgreeBelow n p p where
  run_eq _ := rfl

theorem AgreeBelow.zero (p q : Parser α) : AgreeBelow 0 p q where
  run_eq h := absurd h (Nat.not_lt_zero _)

theorem AgreeBelow.mono {m : Nat} {p q : Parser α} (h : AgreeBelow n p q) (hm : m ≤ n) :
    AgreeBelow m p q where
  run_eq hcs := h.run_eq (Nat.lt_of_lt_of_le hcs hm)

theorem AgreeBelow.symm {p q : Parser α} (h : AgreeBelow n p q) : AgreeBelow n q p where
  run_eq hcs := (h.run_eq hcs).symm

theorem AgreeBelow.trans {p q r : Parser α} (hpq : AgreeBelow n p q)
    (hqr : AgreeBelow n q r) : AgreeBelow n p r where
  run_eq hcs := (hpq.run_eq hcs).trans (hqr.run_eq hcs)

theorem AgreeBelow.of_run_nil {p q : Parser α} (h : p.run [] = q.run []) :
    AgreeBelow 1 p q where
  run_eq hcs := by rwa [List.length_eq_zero_iff.mp (Nat.lt_one_iff.mp hcs)]

/-- Parsers that agree below every length are the same. -/
theorem eq_of_agreeBelow {p q : Parser α} (h : ∀ n, AgreeBelow n p q) : p = q :=
  StateT.ext fun cs => (h (cs.length + 1)).run_eq (Nat.lt_succ_self _)

/-- Sequences with the same first part agree if their second parts agree on what it leaves. -/
theorem run_bind_congr {p : Parser α} {f g : α → Parser β} {cs : List Char}
    (h : ∀ a left, p.run cs = .ok (a, left) → (f a).run left = (g a).run left) :
    (p >>= f).run cs = (p >>= g).run cs := by
  rw [StateT.run_bind, StateT.run_bind]
  cases hp : p.run cs with
  | error fault => rfl
  | ok result => exact h result.1 result.2 hp

instance AgreeBelow.bind_left (p q : Parser α) (f : α → Parser β) [h : AgreeBelow n p q] :
    AgreeBelow n (p >>= f) (q >>= f) where
  run_eq hcs := by rw [StateT.run_bind, StateT.run_bind, h.run_eq hcs]

instance AgreeBelow.bind (p q : Parser α) (f g : α → Parser β) [AgreeBelow n p q] [Shrinks q]
    [h : ∀ a, AgreeBelow n (f a) (g a)] : AgreeBelow n (p >>= f) (q >>= g) where
  run_eq hcs := by
    refine ((AgreeBelow.bind_left p q f).run_eq hcs).trans
      (run_bind_congr fun a left hrun => ?_)
    exact (h a).run_eq (Nat.lt_of_le_of_lt (Shrinks.length_le hrun) hcs)

instance (c : Prop) [Decidable c] (p p' q q' : Parser α) [AgreeBelow n p q]
    [AgreeBelow n p' q'] : AgreeBelow n (if c then p else p') (if c then q else q') := by
  split <;> infer_instance

/-- **What comes behind something that has been read** need only agree on shorter texts. -/
theorem AgreeBelow.behind {p : Parser α} {f g : α → Parser β}
    (hp : ∀ {cs a left}, p.run cs = .ok (a, left) → left.length < cs.length)
    (hf : ∀ a, AgreeBelow n (f a) (g a)) : AgreeBelow (n + 1) (p >>= f) (p >>= g) where
  run_eq hcs := run_bind_congr fun a _ hrun => (hf a).run_eq
    (Nat.lt_of_lt_of_le (hp hrun) (Nat.le_of_lt_succ hcs))

theorem AgreeBelow.behind_consume {k : Keyword} {f g : Bool → Parser β}
    (hfound : AgreeBelow n (f true) (g true))
    (hnone : AgreeBelow (n + 1) (f false) (g false)) :
    AgreeBelow (n + 1) (consume k >>= f) (consume k >>= g) where
  run_eq {cs} hcs := run_bind_congr fun found left hrun => by
    cases found with
    | true =>
      exact hfound.run_eq (Nat.lt_of_lt_of_le (length_lt_of_consume hrun)
        (Nat.le_of_lt_succ hcs))
    | false => exact hnone.run_eq (Nat.lt_of_le_of_lt (Shrinks.length_le hrun) hcs)

theorem AgreeBelow.behind_consumeChar {c : Char} (hc : c ≠ '\x00') {f g : Bool → Parser β}
    (hfound : AgreeBelow n (f true) (g true))
    (hnone : AgreeBelow (n + 1) (f false) (g false)) :
    AgreeBelow (n + 1) (consumeChar c >>= f) (consumeChar c >>= g) where
  run_eq {cs} hcs := run_bind_congr fun found left hrun => by
    cases found with
    | true =>
      exact hfound.run_eq (Nat.lt_of_lt_of_le (length_lt_of_consumeChar hc hrun)
        (Nat.le_of_lt_succ hcs))
    | false => exact hnone.run_eq (Nat.lt_of_le_of_lt (Shrinks.length_le hrun) hcs)

/-- Passing over a character that is there. -/
theorem run_advance_bind_congr {f g : Unit → Parser β} {cs : List Char}
    (hfront : front cs ≠ '\x00') (hcs : cs.length < n + 1) (hf : AgreeBelow n (f ()) (g ())) :
    (advance 1 >>= f).run cs = (advance 1 >>= g).run cs := by
  cases cs with
  | nil => exact absurd rfl hfront
  | cons c cs =>
    rw [run_bind_ok (run_advance 1), run_bind_ok (run_advance 1)]
    exact hf.run_eq (Nat.lt_of_succ_lt_succ hcs)

/-- What an item that was found is followed by. -/
theorem AgreeBelow.behind_found {p : Parser (Option α)} [Shrinks p] [Advances p]
    {f g : Option α → Parser β} (hfound : ∀ a, AgreeBelow n (f (some a)) (g (some a)))
    (hnone : AgreeBelow (n + 1) (f none) (g none)) :
    AgreeBelow (n + 1) (p >>= f) (p >>= g) where
  run_eq {cs} hcs := run_bind_congr fun found left hrun => by
    cases found with
    | some a =>
      exact (hfound a).run_eq (Nat.lt_of_lt_of_le (Advances.length_lt hrun)
        (Nat.le_of_lt_succ hcs))
    | none => exact hnone.run_eq (Nat.lt_of_le_of_lt (Shrinks.length_le hrun) hcs)

/-! ### Loops whose parts agree -/

instance AgreeBelow.moreItems (p q : Parser α) [AgreeBelow n p q] [Shrinks q] (budget : Nat) :
    AgreeBelow n (moreItems p budget) (moreItems q budget) := by
  induction budget with
  | zero => exact .refl _
  | succ budget ih =>
    unfold Scan.moreItems
    infer_instance

instance (p q : Parser α) [AgreeBelow n p q] [Shrinks q] :
    AgreeBelow n (commaList p) (commaList q) := by
  unfold commaList
  infer_instance

instance AgreeBelow.extendWhile (step step' : α → Parser (Option α))
    [∀ a, AgreeBelow n (step a) (step' a)] [∀ a, Shrinks (step' a)] (budget : Nat) (a : α) :
    AgreeBelow n (extendWhile step budget a) (extendWhile step' budget a) := by
  induction budget generalizing a with
  | zero => exact .refl _
  | succ budget ih =>
    unfold Scan.extendWhile
    refine @AgreeBelow.bind _ _ _ _ _ _ _ _ _ fun next => ?_
    cases next <;> infer_instance

instance AgreeBelow.many (item item' : Parser (Option α)) [AgreeBelow n item item']
    [Shrinks item'] (budget : Nat) : AgreeBelow n (many item budget) (many item' budget) := by
  induction budget with
  | zero => exact .refl _
  | succ budget ih =>
    unfold Scan.many
    refine @AgreeBelow.bind _ _ _ _ _ _ _ _ _ fun first => ?_
    cases first <;> infer_instance

/-! ### Recursions -/

/-- **A recursion calls itself on shorter texts only.** -/
def Contracts (round : (ι → Parser α) → ι → Parser α) : Prop :=
  ∀ {n : Nat} {x y : ι → Parser α}, (∀ i, AgreeBelow n (x i) (y i)) →
    ∀ i, AgreeBelow (n + 1) (round x i) (round y i)

/-- **A recursion ends everywhere, and gives `loop`**: this is the only solution of its
equation. -/
def Determines (round : (ι → Parser α) → ι → Parser α) (loop : ι → Parser α) : Prop :=
  ∀ x : ι → Parser α, x = round x ↔ x = loop

section Bounded

variable {round : (ι → Parser α) → ι → Parser α} {bounded : Nat → ι → Parser α}

/-- Budgets that are as large as the text make no difference. -/
theorem Contracts.agreeBelow_bounded (h : Contracts round)
    (hsucc : ∀ budget, bounded (budget + 1) = round (bounded budget))
    (hzero : ∀ i, AgreeBelow 1 (bounded 0 i) (round (bounded 0) i)) {budget budget' : Nat}
    (hn : n ≤ budget) (hn' : n ≤ budget') (i : ι) :
    AgreeBelow (n + 1) (bounded budget i) (bounded budget' i) := by
  -- at the end of the text every budget does what one round does
  have hend : ∀ budget i, AgreeBelow 1 (bounded budget i) (round (bounded 0) i) := by
    intro budget i
    cases budget with
    | zero => exact hzero i
    | succ budget =>
      rw [hsucc]
      exact h (fun i => AgreeBelow.zero _ _) i
  induction n generalizing budget budget' i with
  | zero => exact (hend budget i).trans (hend budget' i).symm
  | succ n ih =>
    obtain ⟨budget, rfl⟩ := Nat.exists_eq_add_of_lt hn
    obtain ⟨budget', rfl⟩ := Nat.exists_eq_add_of_lt hn'
    rw [hsucc, hsucc]
    exact h (fun i => ih (Nat.le_add_right n budget) (Nat.le_add_right n budget') i) i

/-- **A recursion that is run on a budget as large as the text is the only solution** of
its equation, if it does the right thing at the end of the text. -/
theorem Contracts.determines (bounded : Nat → ι → Parser α) (h : Contracts round)
    (hsucc : ∀ budget, bounded (budget + 1) = round (bounded budget))
    (hzero : ∀ i, AgreeBelow 1 (bounded 0 i) (round (bounded 0) i)) :
    Determines round (fun i => do bounded (← get).length i) := by
  have hloop : ∀ n i, AgreeBelow (n + 1) (do bounded (← get).length i) (bounded n i) := by
    refine fun n i => ⟨fun {cs} hcs => ?_⟩
    rw [run_bind_ok run_get]
    exact (h.agreeBelow_bounded hsucc hzero (Nat.le_refl cs.length) (Nat.le_of_lt_succ hcs)
      i).run_eq
      (Nat.lt_succ_self _)
  have hsolution : ∀ x : ι → Parser α, x = round x →
      ∀ n i, AgreeBelow (n + 1) (x i) (bounded n i) := by
    intro x hx n
    induction n with
    | zero =>
      intro i
      rw [hx]
      exact (h (fun i => AgreeBelow.zero (x i) (bounded 0 i)) i).trans (hzero i).symm
    | succ n ih =>
      intro i
      rw [hx, hsucc]
      exact h ih i
  refine fun x => ⟨fun hx => funext fun i => ?_, ?_⟩
  · exact eq_of_agreeBelow fun n =>
      ((hsolution x hx n i).trans (hloop n i).symm).mono (Nat.le_succ n)
  · rintro rfl
    refine funext fun i => eq_of_agreeBelow fun n => ?_
    have hround := h (fun i => (hloop n i).mono (Nat.le_succ n)) i
    rw [← hsucc] at hround
    exact ((hloop (n + 1) i).mono (Nat.le_add_right n 2)).trans
      (hround.symm.mono (Nat.le_succ n))

end Bounded

/-! ### The loops -/

/-- One round of a loop that extends a value. -/
def extendRound (step : α → Parser (Option α)) (again : α → Parser α) (a : α) : Parser α := do
  match ← step a with
  | some next => again next
  | none => return a

theorem extendWhile_determined (step : α → Parser (Option α)) [∀ a, Shrinks (step a)]
    [∀ a, Advances (step a)] :
    Determines (extendRound step) (fun a => do extendWhile step (← get).length a) := by
  refine Contracts.determines (extendWhile step) (fun hagree a => ?_) (fun _ => rfl) fun a =>
    ?_
  · exact .behind_found hagree (.refl _)
  · refine .of_run_nil ?_
    rw [extendRound, run_bind_ok Advances.run_nil]
    rfl

/-- One round of a loop that collects items. -/
def manyRound (item : Parser (Option α)) (again : Unit → Parser (List α)) (_ : Unit) :
    Parser (List α) := do
  match ← item with
  | some first => return first :: (← again ())
  | none => return []

theorem many_determined (item : Parser (Option α)) [Shrinks item] [Advances item] :
    Determines (manyRound item) (fun _ => do many item (← get).length) := by
  refine Contracts.determines (fun budget _ => many item budget) (fun hagree _ => ?_)
    (fun _ => rfl) fun _ => ?_
  · exact .behind_found (fun first => inferInstance) (.refl _)
  · refine .of_run_nil ?_
    rw [manyRound, run_bind_ok Advances.run_nil]
    rfl

/-- One round of a loop that collects items, each after a comma. -/
def itemRound (item : Parser α) (again : Unit → Parser (List α)) (_ : Unit) :
    Parser (List α) := do
  if ← consumeChar ',' then
    let first ← item
    return first :: (← again ())
  else return []

theorem moreItems_determined (item : Parser α) [Shrinks item] :
    Determines (itemRound item) (fun _ => do moreItems item (← get).length) := by
  refine Contracts.determines (fun budget _ => moreItems item budget) (fun hagree _ => ?_)
    (fun _ => rfl) fun _ => .of_run_nil rfl
  exact .behind_consumeChar (by decide)
    (inferInstanceAs (AgreeBelow _ (item >>= _) (item >>= _)))
    (.refl _)

/-- One round of a loop that collects names, each after a dot. -/
def nameRound (again : Unit → Parser (List String)) (_ : Unit) : Parser (List String) := do
  if (← current) == '.' then
    advance 1
    let first ← name
    return first :: (← again ())
  else return []

theorem moreNames_determined :
    Determines nameRound (fun _ => do moreNames (← get).length) := by
  refine Contracts.determines (fun budget _ => moreNames budget) (fun hagree _ => ?_)
    (fun _ => rfl) fun _ => .of_run_nil rfl
  refine ⟨fun {cs} hcs => run_bind_congr fun c left hrun => ?_⟩
  cases hrun
  by_cases hdot : front cs = '.'
  · rw [if_pos (by simpa using hdot), if_pos (by simpa using hdot)]
    exact run_advance_bind_congr (by rw [hdot]; decide) hcs inferInstance
  · rw [if_neg (by simpa using hdot), if_neg (by simpa using hdot)]

/-- One round of a loop that passes over semicolons. -/
def semicolonRound (again : Unit → Parser Unit) (_ : Unit) : Parser Unit := do
  if ← consumeChar ';' then again ()

theorem skipSemicolons_determined :
    Determines semicolonRound (fun _ => do skipSemicolons (← get).length) := by
  refine Contracts.determines (fun budget _ => skipSemicolons budget) (fun hagree _ => ?_)
    (fun _ => rfl) fun _ => .of_run_nil rfl
  exact .behind_consumeChar (by decide) (hagree ()) (.refl _)

end DocQuery.Scan
