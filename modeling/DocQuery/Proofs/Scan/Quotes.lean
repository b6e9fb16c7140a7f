import DocQuery.Proofs.Scan.Shrinking
import DocQuery.Proofs.Scan.Tokens
import DocQuery.Proofs.Text.Doubled

/-!
# Texts between quotes

The end of a quoted text is found by looking one character ahead, and its quotes are read
as single ones later.  Both agree with how a text is put between quotes: what is read is
the text of exactly one string, and it ends where that string ends.

* `quotedBody_eq_some_iff` — where a quoted text ends
* `run_quoted_iff` — what is read between quotes
* `run_name_quoted` — quoted names are decoded as they are read
-/

namespace DocQuery.Scan

open Text

variable {q : Char} {cs raw rest : List Char}

theorem evenRuns_doubleChars (q : Char) (cs : List Char) : EvenRuns q (doubleChars q cs) := by
  induction cs with
  | nil => exact evenRuns_nil q
  | cons c cs ih =>
    by_cases hc : c = q
    · subst hc
      rw [doubleChars_quote]
      exact ih.double
    · rw [doubleChars_cons_ne hc]
      exact ih.cons hc

/-- What is found between quotes is a text with its quotes doubled, and no quote follows
it.  The induction goes from the opening quote to the closing one, and takes two quotes
side by side in one step. -/
theorem exists_of_quotedBody (h : quotedBody q cs = some (raw, rest)) :
    ∃ text, raw = doubleChars q text ∧ cs = raw ++ q :: rest ∧ front rest ≠ q := by
  induction cs using quotedBody.induct (q := q) generalizing raw with
  | case1 => cases h
  | case2 c hc hnull =>
    rw [quotedBody, if_pos hc] at h
    exact absurd (h.symm.trans (if_pos hnull)) (Option.some_ne_none _)
  | case3 c hc hnull =>
    rw [quotedBody, if_pos hc] at h
    obtain ⟨rfl, rfl⟩ := Prod.mk.inj (Option.some.inj (h.symm.trans (if_neg hnull)))
    exact ⟨[], rfl, by rw [eq_of_beq hc]; rfl, fun hq => hnull (beq_iff_eq.mpr hq.symm)⟩
  | case4 c hc d after hd ih =>
    rw [quotedBody, if_pos hc] at h
    obtain ⟨⟨inner, last⟩, hinner, heq⟩ :=
      Option.map_eq_some_iff.mp ((if_pos hd).symm.trans h)
    obtain ⟨rfl, rfl⟩ := Prod.mk.inj heq
    obtain ⟨text, rfl, rfl, hlast⟩ := ih hinner
    rw [eq_of_beq hc, eq_of_beq hd]
    exact ⟨q :: text, (doubleChars_quote q text).symm, rfl, hlast⟩
  | case5 c hc d after hd =>
    rw [quotedBody, if_pos hc] at h
    obtain ⟨rfl, rfl⟩ := Prod.mk.inj (Option.some.inj ((if_neg hd).symm.trans h))
    exact ⟨[], rfl, by rw [eq_of_beq hc]; rfl, fun hq => hd (beq_iff_eq.mpr hq)⟩
  | case6 c after hc ih =>
    have hne : c ≠ q := by simpa using hc
    rw [quotedBody.eq_def] at h
    obtain ⟨⟨inner, last⟩, hinner, heq⟩ :=
      Option.map_eq_some_iff.mp ((if_neg hc).symm.trans h)
    obtain ⟨rfl, rfl⟩ := Prod.mk.inj heq
    obtain ⟨text, rfl, rfl, hlast⟩ := ih hinner
    exact ⟨c :: text, (doubleChars_cons_ne hne text).symm, rfl, hlast⟩

/-- **A quoted text ends at the first quote that is not one of two.** -/
theorem quotedBody_eq_some_iff (hq : q ≠ '\x00') :
    quotedBody q cs = some (raw, rest) ↔
      ∃ text, raw = doubleChars q text ∧ cs = raw ++ q :: rest ∧ front rest ≠ q := by
  refine ⟨exists_of_quotedBody, ?_⟩
  rintro ⟨text, rfl, rfl, hrest⟩
  exact quotedBody_append hq hrest (evenRuns_doubleChars q text)

/-- **What is read between quotes** is the raw text of the string that is written there. -/
theorem run_quoted_iff (hq : q ≠ '\x00') {text : String} :
    (quoted q).run (q :: cs) = .ok (text, rest) ↔
      ∃ s, text = double q s ∧ q :: cs = (inQuotes q s).toList ++ rest ∧ front rest ≠ q := by
  constructor
  · intro h
    obtain ⟨body, hbody, rfl⟩ := run_quoted_cases h
    rw [List.drop_succ_cons, List.drop_zero] at hbody
    obtain ⟨chars, rfl, rfl, hrest⟩ := (quotedBody_eq_some_iff hq).mp hbody
    exact ⟨String.ofList chars, by rw [double, String.toList_ofList], by simp, hrest⟩
  · rintro ⟨s, rfl, hcs, hrest⟩
    rw [hcs, toList_inQuotes_append]
    exact run_quoted hq hrest (evenRuns_doubleChars q s.toList)

theorem ne_null_of_isNameQuote (hq : isNameQuote q = true) : q ≠ '\x00' := by
  rintro rfl
  exact absurd hq (by decide)

theorem isBlank_of_isNameQuote (hq : isNameQuote q = true) : isBlank q = false := by
  simp only [isNameQuote, Bool.or_eq_true, beq_iff_eq] at hq
  rcases hq with rfl | rfl <;> decide

/-- **A quoted name is decoded as it is read.** -/
theorem run_name_quoted (hq : isNameQuote q = true) (s : String) (hrest : front rest ≠ q)
    (hcs : dropBlanks cs = (inQuotes q s).toList ++ rest) : name.run cs = .ok (s, rest) := by
  rw [toList_inQuotes_append] at hcs
  have hread : (quoted q).run (q :: (doubleChars q s.toList ++ q :: rest)) =
      .ok (double q s, rest) :=
    run_quoted (ne_null_of_isNameQuote hq) hrest (evenRuns_doubleChars q s.toList)
  rw [name, run_bind_ok run_skipBlanks, run_bind_ok run_get, run_bind_ok run_current, hcs,
    front_cons, hq, if_pos rfl, run_bind_ok hread, undouble_double]
  rfl

end DocQuery.Scan
