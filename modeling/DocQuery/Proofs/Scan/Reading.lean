import DocQuery.Proofs.Scan.Words

/-!
# What parsers read

A parser reads a text if it gives the expected result wherever the text comes next, and
then leaves what follows the text.  Blanks never matter: a parser may stand before them
when it starts, and may have passed over some of them when it ends.

* `run_bind_ok` — runs one step of a parser
* `run_consume_of_match`, `run_consumeChar_of_front`, … — the steps on their own
* `Leaves`, `Reads` — a parser reads a text
* `Leaves.extendWhile`, `Reads.extendWhile` — a loop that finds nothing more ends
* `reads_commaList` — items between commas are read if each of them is
-/

namespace DocQuery.Scan

open Text

variable {α β : Type}

/-! ### Running one step -/

section Steps

variable {p : Parser α} {f : α → Parser β} {a : α} {cs after : List Char} {k : Keyword}
  {c : Char}

/-- A sequence goes on where its first part stopped. -/
theorem run_bind_ok (h : p.run cs = .ok (a, after)) : (p >>= f).run cs = (f a).run after := by
  rw [StateT.run_bind, h]
  rfl

@[simp] theorem run_get : (get : Parser (List Char)).run cs = .ok (cs, cs) := rfl

@[simp] theorem run_skipBlanks : skipBlanks.run cs = .ok ((), dropBlanks cs) := rfl

@[simp] theorem run_advance (n : Nat) : (advance n).run cs = .ok ((), cs.drop n) := rfl

@[simp] theorem run_current : current.run cs = .ok (front cs, cs) := rfl

@[simp] theorem run_peek (n : Nat) : (peek n).run cs = .ok (peekAt n cs, cs) := rfl

@[simp] theorem run_takeChars (test : Char → Bool) :
    (takeChars test).run cs = .ok (cs.takeWhile test, cs.dropWhile test) := rfl

@[simp] theorem run_check : (check k).run cs =
    .ok ((k.word.match? (dropBlanks cs)).isSome, dropBlanks cs) := rfl

theorem run_consume_of_match (h : k.word.match? (dropBlanks cs) = some after) :
    (consume k).run cs = .ok (true, after) := by
  rw [consume, consumeWord, run_bind_ok run_skipBlanks, run_bind_ok run_get, h]
  rfl

theorem run_consume_of_none (h : k.word.match? (dropBlanks cs) = none) :
    (consume k).run cs = .ok (false, dropBlanks cs) := by
  rw [consume, consumeWord, run_bind_ok run_skipBlanks, run_bind_ok run_get, h]
  rfl

theorem run_consumeChar_of_front (h : dropBlanks cs = c :: after) :
    (consumeChar c).run cs = .ok (true, after) := by
  rw [consumeChar, run_bind_ok run_skipBlanks, run_bind_ok run_current, h, front_cons,
    beq_self_eq_true, if_pos rfl]
  rfl

theorem run_consumeChar_of_ne (h : front (dropBlanks cs) ≠ c) :
    (consumeChar c).run cs = .ok (false, dropBlanks cs) := by
  rw [consumeChar, run_bind_ok run_skipBlanks, run_bind_ok run_current,
    if_neg (by simpa using h)]
  rfl

theorem run_expectChar (h : dropBlanks cs = c :: after) :
    (expectChar c).run cs = .ok ((), after) := by
  rw [expectChar, run_bind_ok run_get, run_bind_ok (run_consumeChar_of_front h)]
  rfl

theorem run_expect (h : k.word.match? (dropBlanks cs) = some after) :
    (expect k).run cs = .ok ((), after) := by
  rw [expect, run_bind_ok run_get, run_bind_ok (run_consume_of_match h)]
  rfl

end Steps

/-! ### Reading -/

/-- What a parser leaves of `rest`: all of it, or all but the blanks at its front. -/
def Leaves (rest left : List Char) : Prop :=
  left = rest ∨ left = dropBlanks rest

section Leaves

variable {rest left : List Char}

theorem Leaves.dropBlanks_eq (h : Leaves rest left) : dropBlanks left = dropBlanks rest := by
  rcases h with rfl | rfl <;> simp

theorem Leaves.length_le (h : Leaves rest left) : left.length ≤ rest.length := by
  rcases h with rfl | rfl
  · exact Nat.le_refl _
  · exact length_dropBlanks_le rest

theorem Leaves.dropBlanks (h : Leaves rest left) : Leaves rest (Text.dropBlanks left) :=
  .inr h.dropBlanks_eq

/-- A loop whose step finds nothing ends where it stands. -/
theorem Leaves.extendWhile {step : α → Parser (Option α)} {a : α} (h : Leaves rest left)
    (hstep : (step a).run left = .ok (none, Text.dropBlanks left)) (budget : Nat) :
    ∃ left', (Scan.extendWhile step budget a).run left = .ok (a, left') ∧
      Leaves rest left' := by
  cases budget with
  | zero => exact ⟨left, rfl, h⟩
  | succ budget =>
    refine ⟨Text.dropBlanks left, ?_, h.dropBlanks⟩
    rw [Scan.extendWhile, run_bind_ok hstep]
    rfl

end Leaves

/-- **A parser reads a text.**  Wherever the text comes next and `rest` follows it, the
parser gives the result `a` and leaves `rest`. -/
def Reads (p : Parser α) (text : List Char) (a : α) (rest : List Char) : Prop :=
  ∀ cs, dropBlanks cs = text ++ rest → ∃ left, p.run cs = .ok (a, left) ∧ Leaves rest left

theorem Reads.extendWhile {p : Parser α} {step : α → Parser (Option α)}
    {text rest : List Char} {a : α} (h : Reads p text a rest)
    (hstep : ∀ left, Leaves rest left → (step a).run left = .ok (none, dropBlanks left)) :
    Reads (do let first ← p; Scan.extendWhile step (← get).length first) text a rest := by
  intro cs hcs
  obtain ⟨left, hrun, hleft⟩ := h cs hcs
  obtain ⟨left', hloop, hleft'⟩ := hleft.extendWhile (hstep left hleft) left.length
  refine ⟨left', ?_, hleft'⟩
  rw [run_bind_ok hrun, run_bind_ok run_get, hloop]

/-! ### Items between commas -/

/-- Texts with a comma and a space between them. -/
def commaText (texts : List (List Char)) : List Char :=
  [',', ' '].intercalate texts

@[simp] theorem commaText_singleton (text : List Char) : commaText [text] = text := by
  simp [commaText]

theorem commaText_cons_cons (text next : List Char) (texts : List (List Char)) :
    commaText (text :: next :: texts) = text ++ ',' :: ' ' :: commaText (next :: texts) := by
  simp [commaText, List.intercalate]

/-- The first text, and every other one behind its comma. -/
theorem commaText_map_cons (text : α → List Char) (first : α) (others : List α) :
    commaText ((first :: others).map text) =
      text first ++ others.flatMap fun a => ',' :: ' ' :: text a := by
  induction others generalizing first with
  | nil => simp
  | cons next others ih =>
    rw [List.map_cons, List.map_cons, commaText_cons_cons, ← List.map_cons, ih]
    simp

theorem length_le_commaText {text : List Char} {texts : List (List Char)} (h : text ∈ texts) :
    text.length ≤ (commaText texts).length := by
  induction texts with
  | nil => cases h
  | cons first others ih =>
    cases others with
    | nil => simp_all
    | cons next others =>
      rw [commaText_cons_cons, List.length_append, List.length_cons, List.length_cons]
      rcases List.mem_cons.mp h with rfl | hothers
      · omega
      · have := ih hothers
        omega

section CommaList

variable {item : Parser α} {text : α → List Char} {End : List Char → Prop}

/-- The items that follow an item are read one by one.  The budget is enough as every item
takes up at least its comma. -/
theorem run_moreItems {items : List α} {rest left : List Char} {budget : Nat}
    (hitem : ∀ a ∈ items, ∀ rest, End rest → Reads item (text a) a rest)
    (hstart : ∀ a ∈ items, ∀ rest, dropBlanks (' ' :: text a ++ rest) = text a ++ rest)
    (hcomma : ∀ rest, End (',' :: rest)) (hend : End rest)
    (hrest : front (dropBlanks rest) ≠ ',')
    (hleft : Leaves ((items.flatMap fun a => ',' :: ' ' :: text a) ++ rest) left)
    (hbudget : left.length ≤ budget) :
    ∃ left', (moreItems item budget).run left = .ok (items, left') ∧ Leaves rest left' := by
  induction items generalizing left budget with
  | nil =>
    cases budget with
    | zero => exact ⟨left, rfl, hleft⟩
    | succ budget =>
      rw [List.flatMap_nil, List.nil_append] at hleft
      have hnone : front (dropBlanks left) ≠ ',' := by rwa [hleft.dropBlanks_eq]
      refine ⟨dropBlanks left, ?_, hleft.dropBlanks⟩
      rw [moreItems, run_bind_ok (run_consumeChar_of_ne hnone)]
      rfl
  | cons first others ih =>
    have hfront : dropBlanks left = ',' :: (' ' :: text first ++
        ((others.flatMap fun a => ',' :: ' ' :: text a) ++ rest)) := by
      rw [hleft.dropBlanks_eq, List.flatMap_cons]
      exact (dropBlanks_cons (by decide) _).trans (by simp)
    have hpositive : 0 < left.length := by
      have hlength := length_dropBlanks_le left
      rw [hfront, List.length_cons] at hlength
      omega
    obtain ⟨budget, rfl⟩ : ∃ n, budget = n + 1 := ⟨budget - 1, by omega⟩
    have hbehind : End ((others.flatMap fun a => ',' :: ' ' :: text a) ++ rest) := by
      cases others with
      | nil => exact hend
      | cons next others => exact hcomma _
    obtain ⟨middle, hmiddle, hleaves⟩ := hitem first List.mem_cons_self _ hbehind _
      (hstart first List.mem_cons_self _)
    have hshorter : middle.length ≤ budget := by
      have hlength := length_dropBlanks_le left
      rw [hfront] at hlength
      have := hleaves.length_le
      simp only [List.length_cons, List.length_append] at hlength this
      omega
    obtain ⟨left', hothers, hleft'⟩ :=
      ih (fun a ha => hitem a (List.mem_cons_of_mem first ha))
      (fun a ha => hstart a (List.mem_cons_of_mem first ha)) hleaves hshorter
    refine ⟨left', ?_, hleft'⟩
    rw [moreItems, run_bind_ok (run_consumeChar_of_front hfront), if_pos rfl,
      run_bind_ok hmiddle, run_bind_ok hothers]
    rfl

/-- **Items between commas are read** if each of them is, before a comma and before what
follows. -/
theorem reads_commaList {items : List α} (hitems : items ≠ []) {rest : List Char}
    (hitem : ∀ a ∈ items, ∀ rest, End rest → Reads item (text a) a rest)
    (hstart : ∀ a ∈ items, ∀ rest, dropBlanks (' ' :: text a ++ rest) = text a ++ rest)
    (hcomma : ∀ rest, End (',' :: rest)) (hend : End rest)
    (hrest : front (dropBlanks rest) ≠ ',') :
    Reads (commaList item) (commaText (items.map text)) items rest := by
  intro cs hcs
  obtain ⟨first, others, rfl⟩ := List.exists_cons_of_ne_nil hitems
  rw [commaText_map_cons, List.append_assoc] at hcs
  have hbehind : End ((others.flatMap fun a => ',' :: ' ' :: text a) ++ rest) := by
    cases others with
    | nil => exact hend
    | cons next others => exact hcomma _
  obtain ⟨left, hfirst, hleaves⟩ := hitem first List.mem_cons_self _ hbehind cs hcs
  obtain ⟨left', hothers, hleft'⟩ :=
    run_moreItems (fun a ha => hitem a (List.mem_cons_of_mem first ha))
    (fun a ha => hstart a (List.mem_cons_of_mem first ha)) hcomma hend hrest hleaves
      (Nat.le_refl _)
  refine ⟨left', ?_, hleft'⟩
  rw [commaList, run_bind_ok hfirst, run_bind_ok run_get, run_bind_ok hothers]
  rfl

end CommaList

end DocQuery.Scan
