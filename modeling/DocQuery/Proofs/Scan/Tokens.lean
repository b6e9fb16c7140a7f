import DocQuery.Proofs.Scan.Reading
import DocQuery.Scan.Token

/-!
# Names and quoted texts

* `IsIdentifier`, `run_identifier`, `run_name` — bare names are read up to where a name ends
* `EvenRuns`, `quotedBody_append` — a raw text between quotes is read back if its own
  quotes come in pairs
-/

namespace DocQuery.Scan

open Text

/-! ### Bare names -/

/-- A text that is a name without quotes. -/
structure IsIdentifier (word : String) : Prop where
  nonempty : word.toList ≠ []
  front : (front word.toList).isDigit = false
  chars : ∀ c ∈ word.toList, isNameChar c = true

instance (word : String) : Decidable (IsIdentifier word) :=
  decidable_of_iff (word.toList ≠ [] ∧ (front word.toList).isDigit = false ∧
      word.toList.all isNameChar = true)
    ⟨fun ⟨hne, hfront, hchars⟩ => ⟨hne, hfront, List.all_eq_true.mp hchars⟩,
      fun h => ⟨h.nonempty, h.front, List.all_eq_true.mpr h.chars⟩⟩

section Identifier

variable {word : String} {rest cs : List Char}

theorem IsIdentifier.exists_cons (h : IsIdentifier word) :
    ∃ c more, word.toList = c :: more ∧ isNameChar c = true ∧ c.isDigit = false := by
  obtain ⟨c, more, hword⟩ := List.exists_cons_of_ne_nil h.nonempty
  refine ⟨c, more, hword, h.chars c (hword ▸ List.mem_cons_self), ?_⟩
  have hfront := h.front
  rwa [hword, front_cons] at hfront

/-- A name begins with no blank. -/
theorem IsIdentifier.dropBlanks_append (h : IsIdentifier word) (rest : List Char) :
    dropBlanks (word.toList ++ rest) = word.toList ++ rest := by
  obtain ⟨c, more, hword, hc, -⟩ := h.exists_cons
  rw [hword, List.cons_append, dropBlanks_cons (isBlank_of_isNameChar hc)]

theorem IsIdentifier.front_append (h : IsIdentifier word) (rest : List Char) :
    isNameChar (Scan.front (word.toList ++ rest)) = true ∧
      (Scan.front (word.toList ++ rest)).isDigit = false := by
  obtain ⟨c, more, hword, hc, hdigit⟩ := h.exists_cons
  rw [hword, List.cons_append, front_cons]
  exact ⟨hc, hdigit⟩

theorem run_identifier (h : IsIdentifier word) (hrest : isNameChar (front rest) = false)
    (hcs : dropBlanks cs = word.toList ++ rest) :
    identifier.run cs = .ok (some word, rest) := by
  obtain ⟨hname, hdigit⟩ := h.front_append rest
  rw [identifier, run_bind_ok run_skipBlanks, run_bind_ok run_current, hcs, hname, hdigit]
  simp only [Bool.not_true, Bool.or_self, Bool.false_eq_true, if_false]
  rw [run_bind_ok (run_takeChars isNameChar), takeWhile_append_of_front h.chars hrest,
    dropWhile_append_of_front h.chars hrest, String.ofList_toList]
  rfl

theorem run_name (h : IsIdentifier word) (hrest : isNameChar (front rest) = false)
    (hcs : dropBlanks cs = word.toList ++ rest) : name.run cs = .ok (word, rest) := by
  obtain ⟨hname, -⟩ := h.front_append rest
  have hquote : isNameQuote (front (word.toList ++ rest)) = false := by
    cases hquote : isNameQuote (front (word.toList ++ rest)) with
    | false => rfl
    | true =>
      simp only [isNameQuote, Bool.or_eq_true, beq_iff_eq] at hquote
      rcases hquote with hquote | hquote <;> rw [hquote] at hname <;>
        exact absurd hname (by decide)
  rw [name, run_bind_ok run_skipBlanks, run_bind_ok run_get, run_bind_ok run_current,
    hcs, hquote]
  simp only [Bool.false_eq_true, if_false]
  rw [run_bind_ok (run_identifier h hrest (h.dropBlanks_append rest))]
  rfl

end Identifier

/-! ### Quoted texts -/

/-- Every run of a character that cannot be made longer has an even length. -/
def EvenRuns (q : Char) (cs : List Char) : Prop :=
  ∀ before n after, cs = before ++ List.replicate n q ++ after → before.getLast? ≠ some q →
    after.head? ≠ some q → n % 2 = 0

section Quoted

variable {q : Char} {cs rest : List Char}

theorem evenRuns_nil (q : Char) : EvenRuns q [] := by
  intro before n after hcs _ _
  simp_all

/-- Another character in front changes no run. -/
theorem EvenRuns.cons {c : Char} (h : EvenRuns q cs) (hc : c ≠ q) : EvenRuns q (c :: cs) := by
  intro before n after hcs hbefore hafter
  cases before with
  | nil =>
    cases n with
    | zero => rfl
    | succ n =>
      rw [List.nil_append, List.replicate_succ, List.cons_append, List.cons.injEq] at hcs
      exact absurd hcs.1 hc
  | cons first before =>
    rw [List.cons_append, List.cons_append, List.cons.injEq] at hcs
    refine h before n after hcs.2 ?_ hafter
    intro hlast
    exact hbefore (by rw [List.getLast?_cons, hlast]; rfl)

/-- Two characters in front make a run longer by two. -/
theorem EvenRuns.double (h : EvenRuns q cs) : EvenRuns q (q :: q :: cs) := by
  intro before n after hcs hbefore hafter
  rcases before with _ | ⟨c, _ | ⟨d, before⟩⟩
  · rcases n with _ | _ | n
    · rfl
    · simp only [List.nil_append, List.replicate_succ, List.replicate_zero, List.cons_append,
        List.cons.injEq, true_and] at hcs
      exact absurd (by rw [← hcs]; rfl) hafter
    · simp only [List.nil_append, List.replicate_succ, List.cons_append, List.cons.injEq,
        true_and] at hcs
      have heven := h [] n after (by simpa using hcs) (by simp) hafter
      omega
  · simp only [List.cons_append, List.cons.injEq] at hcs
    exact absurd (by rw [← hcs.1]; rfl) hbefore
  · simp only [List.cons_append, List.cons.injEq] at hcs
    obtain ⟨rfl, rfl, hcs⟩ := hcs
    refine h before n after (by simpa using hcs) ?_ hafter
    intro hlast
    exact hbefore (by rw [List.getLast?_cons, List.getLast?_cons, hlast]; rfl)

theorem EvenRuns.of_cons_ne {c : Char} (h : EvenRuns q (c :: cs)) (hc : c ≠ q) :
    EvenRuns q cs := by
  intro before n after hcs hbefore hafter
  refine h (c :: before) n after (by simp [hcs]) ?_ hafter
  rw [List.getLast?_cons]
  cases hlast : before.getLast? with
  | none => simpa using hc
  | some last => simpa [hlast] using hbefore

/-- A run at the front begins with two characters. -/
theorem EvenRuns.exists_of_cons (h : EvenRuns q (q :: cs)) :
    ∃ more, cs = q :: more ∧ EvenRuns q more := by
  cases cs with
  | nil => exact absurd (h [] 1 [] rfl (by simp) (by simp)) (by decide)
  | cons d more =>
    by_cases hd : d = q
    · subst hd
      refine ⟨more, rfl, fun before n after hmore hbefore hafter => ?_⟩
      cases before with
      | nil =>
        -- the run goes on to the left, by two characters
        have heven :=
          h [] (n + 2) after (by simp [hmore, List.replicate_succ]) (by simp) hafter
        omega
      | cons c before =>
        refine h (d :: d :: c :: before) n after (by simp [hmore]) ?_ hafter
        rwa [List.getLast?_cons_cons, List.getLast?_cons_cons]
    · exact absurd (h [] 1 (d :: more) rfl (by simp) (by simpa using hd)) (by decide)

/-- **A text whose quotes come in pairs is read back** up to the quote behind it. -/
theorem quotedBody_append (hq : q ≠ '\x00') (hrest : front rest ≠ q) (h : EvenRuns q cs) :
    quotedBody q (cs ++ q :: rest) = some (cs, rest) := by
  induction hlength : cs.length using Nat.strongRecOn generalizing cs with
  | ind n ih =>
    cases cs with
    | nil =>
      cases rest with
      | nil => simp [quotedBody, hq]
      | cons d rest => simp [quotedBody, show d ≠ q from hrest]
    | cons c more =>
      by_cases hc : c = q
      · subst hc
        obtain ⟨others, rfl, hothers⟩ := h.exists_of_cons
        have hread := ih others.length (by simp only [← hlength, List.length_cons]; omega)
          hothers rfl
        simp [quotedBody, hread]
      · have hread := ih more.length (by simp [← hlength]) (h.of_cons_ne hc) rfl
        cases more <;> simp_all [quotedBody]

theorem run_quoted (hq : q ≠ '\x00') (hrest : front rest ≠ q) (h : EvenRuns q cs) :
    (quoted q).run (q :: (cs ++ q :: rest)) = .ok (String.ofList cs, rest) := by
  rw [quoted, run_bind_ok run_get]
  simp only [List.drop_succ_cons, List.drop_zero, quotedBody_append hq hrest h]
  rfl

end Quoted

end DocQuery.Scan
