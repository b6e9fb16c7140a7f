import DocQuery.Text.Basic

/-!
# Doubled quotes

A text between quotes is written with every quote of its own doubled, and is read by
taking pairs of quotes as one.

* `doubleChars`, `double` — a text with its quotes doubled
* `inQuotes` — a text between quotes
* `undoubleChars_doubleChars`, `undouble_double` — reading takes back what writing has done
* `undoubleChars_eq_self_iff` — reading changes a text exactly if two quotes are side by
  side in it
-/

namespace DocQuery.Text

/-- Every `q` written twice. -/
def doubleChars (q : Char) : List Char → List Char
  | [] => []
  | c :: rest => if c == q then q :: q :: doubleChars q rest else c :: doubleChars q rest

/-- Every `q` written twice. -/
def double (q : Char) (s : String) : String :=
  String.ofList (doubleChars q s.toList)

/-- A text between quotes `q`, with its own quotes doubled. -/
def inQuotes (q : Char) (s : String) : String :=
  String.ofList (q :: (doubleChars q s.toList ++ [q]))

section Chars

variable {q c : Char} {cs : List Char}

@[simp] theorem doubleChars_nil (q : Char) : doubleChars q [] = [] := rfl

@[simp] theorem doubleChars_quote (q : Char) (cs : List Char) :
    doubleChars q (q :: cs) = q :: q :: doubleChars q cs :=
  if_pos (beq_self_eq_true q)

theorem doubleChars_cons_ne (hc : c ≠ q) (cs : List Char) :
    doubleChars q (c :: cs) = c :: doubleChars q cs :=
  if_neg (by simpa using hc)

/-- A text without quotes is written as it is. -/
theorem doubleChars_eq_self (h : q ∉ cs) : doubleChars q cs = cs := by
  induction cs with
  | nil => rfl
  | cons c rest ih =>
    obtain ⟨hc, hrest⟩ := not_or.mp (mt List.mem_cons.mpr h)
    rw [doubleChars_cons_ne (Ne.symm hc), ih hrest]

theorem head?_doubleChars (q : Char) (cs : List Char) :
    (doubleChars q cs).head? = cs.head? := by
  cases cs with
  | nil => rfl
  | cons c rest =>
    by_cases hc : c = q
    · subst hc
      rw [doubleChars_quote, List.head?_cons, List.head?_cons]
    · rw [doubleChars_cons_ne hc, List.head?_cons, List.head?_cons]

theorem doubleChars_append (q : Char) (cs ds : List Char) :
    doubleChars q (cs ++ ds) = doubleChars q cs ++ doubleChars q ds := by
  induction cs with
  | nil => rfl
  | cons c rest ih =>
    by_cases hc : c = q
    · subst hc
      rw [List.cons_append, doubleChars_quote, doubleChars_quote, ih]
      rfl
    · rw [List.cons_append, doubleChars_cons_ne hc, doubleChars_cons_ne hc, ih,
        List.cons_append]

theorem doubleChars_replicate (q : Char) (n : Nat) :
    doubleChars q (List.replicate n q) = List.replicate (2 * n) q := by
  induction n with
  | zero => rfl
  | succ n ih =>
    rw [List.replicate_succ, doubleChars_quote, ih]
    rfl

theorem mem_doubleChars {d : Char} : d ∈ doubleChars q cs ↔ d ∈ cs := by
  induction cs with
  | nil => rfl
  | cons c rest ih =>
    by_cases hc : c = q
    · subst hc
      simp [ih]
    · rw [doubleChars_cons_ne hc, List.mem_cons, List.mem_cons, ih]

theorem undoubleChars_short (hshort : ∀ a b rest, cs = a :: b :: rest → False) :
    undoubleChars q cs = cs := by
  rw [undoubleChars]
  exact hshort

theorem undoubleChars_quote (q : Char) (cs : List Char) :
    undoubleChars q (q :: q :: cs) = q :: undoubleChars q cs := by
  rw [undoubleChars, beq_self_eq_true, Bool.and_self, if_pos rfl]

theorem undoubleChars_cons_ne (hc : c ≠ q) (cs : List Char) :
    undoubleChars q (c :: cs) = c :: undoubleChars q cs := by
  cases cs with
  | nil => rfl
  | cons d rest =>
    rw [undoubleChars, beq_eq_false_iff_ne.mpr hc, Bool.false_and, if_neg Bool.false_ne_true]

/-- **Reading takes back what writing has done**, however many quotes are side by side. -/
@[simp] theorem undoubleChars_doubleChars (q : Char) (cs : List Char) :
    undoubleChars q (doubleChars q cs) = cs := by
  induction cs with
  | nil => rfl
  | cons c rest ih =>
    by_cases hc : c = q
    · subst hc
      rw [doubleChars_quote, undoubleChars_quote, ih]
    · rw [doubleChars_cons_ne hc, undoubleChars_cons_ne hc, ih]

theorem length_undoubleChars_le (q : Char) (cs : List Char) :
    (undoubleChars q cs).length ≤ cs.length := by
  induction cs using undoubleChars.induct (q := q) with
  | case1 a b rest hpair ih =>
    rw [undoubleChars, if_pos hpair]
    simp only [List.length_cons]
    omega
  | case2 a b rest hpair ih =>
    rw [undoubleChars, if_neg hpair]
    simpa using ih
  | case3 cs hshort => exact Nat.le_of_eq (congrArg List.length (undoubleChars_short hshort))

/-- **A text is read as it is exactly if no two quotes are side by side in it.** -/
theorem undoubleChars_eq_self_iff (q : Char) (cs : List Char) :
    undoubleChars q cs = cs ↔ ¬ [q, q] <:+: cs := by
  induction cs using undoubleChars.induct (q := q) with
  | case1 a b rest hpair ih =>
    obtain ⟨ha, hb⟩ : a = q ∧ b = q := by simpa using hpair
    rw [ha, hb, undoubleChars_quote]
    have hlength := length_undoubleChars_le q rest
    refine iff_of_false (fun h => ?_) (not_not_intro ⟨[], rest, rfl⟩)
    have := congrArg List.length h
    simp only [List.length_cons] at this
    omega
  | case2 a b rest hpair ih =>
    have hfront : ¬ [q, q] <+: a :: b :: rest := by
      rw [List.cons_prefix_cons, List.cons_prefix_cons]
      rintro ⟨rfl, rfl, -⟩
      simp at hpair
    rw [undoubleChars, if_neg hpair, List.cons_inj_right, ih]
    exact not_congr (List.infix_cons_iff.trans (or_iff_right hfront)).symm
  | case3 cs hshort =>
    refine iff_of_true (undoubleChars_short hshort) fun hpair => ?_
    obtain ⟨before, after, rfl⟩ := hpair
    cases before with
    | nil => exact hshort q q after rfl
    | cons a before =>
      cases before with
      | nil => exact hshort a q (q :: after) rfl
      | cons b before => exact hshort a b _ rfl

end Chars

/-! ### Texts -/

@[simp] theorem toList_double (q : Char) (s : String) :
    (double q s).toList = doubleChars q s.toList := by
  rw [double, String.toList_ofList]

@[simp] theorem toList_inQuotes (q : Char) (s : String) :
    (inQuotes q s).toList = q :: (doubleChars q s.toList ++ [q]) := by
  rw [inQuotes, String.toList_ofList]

theorem toList_inQuotes_append (q : Char) (s : String) (rest : List Char) :
    (inQuotes q s).toList ++ rest = q :: (doubleChars q s.toList ++ q :: rest) := by
  rw [toList_inQuotes, List.cons_append, List.append_assoc, List.singleton_append]

@[simp] theorem undouble_double (q : Char) (s : String) : undouble q (double q s) = s := by
  rw [undouble, toList_double, undoubleChars_doubleChars, String.ofList_toList]

theorem double_eq_self {q : Char} {s : String} (h : q ∉ s.toList) : double q s = s := by
  rw [double, doubleChars_eq_self h, String.ofList_toList]

theorem undouble_eq_self_iff (q : Char) (s : String) :
    undouble q s = s ↔ ¬ [q, q] <:+: s.toList := by
  rw [← undoubleChars_eq_self_iff, undouble, ← String.toList_inj, String.toList_ofList]

end DocQuery.Text
