import DocQuery.Calendar.Pattern
import DocQuery.Proofs.Text.Doubled
import Mathlib.Data.List.SplitBy

/-!
# Patterns whose quotes are doubled

A pattern hides text from being read as fields by putting it between single quotes.  Once
its quotes are doubled it hides nothing: every section is closed as soon as it is opened.

* `charsFormat`, `openFormat` — the format of a pattern, from outside or from inside of a
  section
* `run_induction` — induction along the runs of equal characters of a text
* `runItems`, `flatFormat` — a pattern read run by run, with nothing hidden
* `formatOfPattern_double` — so a pattern with doubled quotes is read
* `hidesNothing` — the quotes of a pattern stand alone and hide no letters
* `formatOfPattern_double_of_hidesNothing`, `hidesNothing_of_formatOfPattern_double` —
  these patterns are the ones that are read alike with and without their quotes doubled
-/

namespace DocQuery.Calendar

open Text

theorem beq_quote_of_isAlpha {c : Char} (hc : c.isAlpha = true) : (c == '\'') = false := by
  refine beq_eq_false_iff_ne.mpr ?_
  rintro rfl
  exact absurd hc (by decide)

/-! ### Sections -/

section Sections

variable {c : Char} {rest : List Char}

theorem quotedText_pair (rest : List Char) : quotedText ('\'' :: '\'' :: rest) =
    ('\'' :: (quotedText rest).1, (quotedText rest).2) := rfl

theorem quotedText_close (h : rest.head? ≠ some '\'') :
    quotedText ('\'' :: rest) = ([], rest) := by
  cases rest with
  | nil => rfl
  | cons d rest =>
    rw [quotedText]
    · rfl
    · rintro _ - heq
      cases heq
      exact h rfl

theorem quotedText_cons_ne (hc : c ≠ '\'') (rest : List Char) : quotedText (c :: rest) =
    (c :: (quotedText rest).1, (quotedText rest).2) := by
  rw [quotedText]
  · rw [if_neg (by simpa using hc)]
  · rintro _ heq -
    exact hc heq

theorem length_quotedText_le (cs : List Char) : (quotedText cs).2.length ≤ cs.length := by
  induction cs using quotedText.induct with
  | case1 => exact Nat.le_refl _
  | case2 rest _ _ _ ih =>
    rw [quotedText_pair]
    exact Nat.le_succ_of_le (Nat.le_succ_of_le ih)
  | case3 c rest hpair hc =>
    rw [eq_of_beq hc, quotedText_close]
    · exact Nat.le_succ _
    · intro hhead
      obtain ⟨more, rfl⟩ := List.head?_eq_some_iff.mp hhead
      exact hpair more (eq_of_beq hc) rfl
  | case4 c rest hpair hc _ _ _ ih =>
    rw [quotedText_cons_ne (by simpa using hc)]
    exact Nat.le_succ_of_le ih

/-- One step of reading a pattern: a section, a run of letters or a character that stands
for itself. -/
theorem formatOfChars_cons (fuel : Nat) (c : Char) (rest : List Char) :
    formatOfChars (fuel + 1) (c :: rest) =
      if c == '\'' then
        (formatOfChars fuel (quotedText rest).2).map
          ((quotedText rest).1.map literalItem ++ ·)
      else if c.isAlpha then
        (letterItem c ((rest.takeWhile (· == c)).length + 1)).bind fun item =>
          (formatOfChars fuel (rest.drop (rest.takeWhile (· == c)).length)).map (item :: ·)
      else (formatOfChars fuel rest).map (literalItem c :: ·) := by
  rw [formatOfChars]
  simp only [bind_pure_comp, Option.map_eq_map, Option.bind_eq_bind]

/-- The bound on the number of sections is no restriction. -/
theorem formatOfChars_eq {fuel budget : Nat} {cs : List Char} (hfuel : cs.length ≤ fuel)
    (hbudget : cs.length ≤ budget) : formatOfChars fuel cs = formatOfChars budget cs := by
  induction fuel generalizing budget cs with
  | zero =>
    rw [List.length_eq_zero_iff.mp (Nat.le_zero.mp hfuel)]
    cases budget <;> rfl
  | succ fuel ih =>
    cases cs with
    | nil => cases budget <;> rfl
    | cons c rest =>
      rw [List.length_cons] at hfuel hbudget
      obtain ⟨budget, rfl⟩ : ∃ n, budget = n + 1 := ⟨budget - 1, by omega⟩
      have hafter := length_quotedText_le rest
      have hsection := @ih budget (quotedText rest).2 (by omega) (by omega)
      have hrun := @ih budget (rest.drop (rest.takeWhile (· == c)).length)
        (by rw [List.length_drop]; omega) (by rw [List.length_drop]; omega)
      have hrest := @ih budget rest (by omega) (by omega)
      rw [formatOfChars_cons, formatOfChars_cons, hsection, hrun, hrest]

end Sections

/-- The format of the characters of a pattern. -/
def charsFormat (cs : List Char) : Option Format :=
  formatOfChars cs.length cs

theorem formatOfPattern_eq (p : String) : formatOfPattern p = charsFormat p.toList := by
  rw [formatOfPattern, charsFormat, String.length_toList]

/-- The format of what is left of a pattern, from inside of a section or from outside. -/
def openFormat (inside : Bool) (cs : List Char) : Option Format :=
  if inside then (charsFormat (quotedText cs).2).map ((quotedText cs).1.map literalItem ++ ·)
  else charsFormat cs

/-! ### Reading run by run -/

/-- A text begins with a run of its first character, which is not the next one behind the
run. -/
theorem exists_run (c : Char) (more : List Char) :
    ∃ n rest, c :: more = List.replicate (n + 1) c ++ rest ∧
    rest.head? ≠ some c := by
  refine ⟨(more.takeWhile (· == c)).length, more.dropWhile (· == c), ?_, fun hc => ?_⟩
  · have hrun : more.takeWhile (· == c) = List.replicate (more.takeWhile (· == c)).length c :=
      List.eq_replicate_of_mem fun d hd => by
        simpa using List.all_eq_true.mp List.all_takeWhile d hd
    rw [List.replicate_succ, ← hrun, List.cons_append, List.takeWhile_append_dropWhile]
  · have hnot := List.head?_dropWhile_not (· == c) more
    rw [hc] at hnot
    simp at hnot

/-- Induction along the runs of equal characters of a text. -/
theorem run_induction {motive : List Char → Prop} (nil : motive [])
    (run : ∀ c n rest, rest.head? ≠ some c → motive rest →
      motive (List.replicate (n + 1) c ++ rest))
    (cs : List Char) : motive cs := by
  induction hlength : cs.length using Nat.strongRecOn generalizing cs with
  | ind length ih =>
    cases cs with
    | nil => exact nil
    | cons c more =>
      obtain ⟨n, rest, hcs, hhead⟩ := exists_run c more
      rw [hcs] at hlength ⊢
      refine run c n rest hhead (ih rest.length ?_ rest rfl)
      rw [← hlength, List.length_append, List.length_replicate]
      omega

section OpenFormat

variable {c : Char} {rest : List Char}

theorem charsFormat_cons (c : Char) (rest : List Char) : charsFormat (c :: rest) =
    if c == '\'' then openFormat true rest
    else if c.isAlpha then
      (letterItem c ((rest.takeWhile (· == c)).length + 1)).bind fun item =>
        (charsFormat (rest.drop (rest.takeWhile (· == c)).length)).map (item :: ·)
    else (charsFormat rest).map (literalItem c :: ·) := by
  have hsection : formatOfChars rest.length (quotedText rest).2 =
      charsFormat (quotedText rest).2 :=
    formatOfChars_eq (length_quotedText_le rest) (Nat.le_refl _)
  have hrun : formatOfChars rest.length (rest.drop (rest.takeWhile (· == c)).length) =
      charsFormat (rest.drop (rest.takeWhile (· == c)).length) :=
    formatOfChars_eq (by rw [List.length_drop]; omega) (Nat.le_refl _)
  rw [charsFormat, List.length_cons, formatOfChars_cons, hsection, hrun]
  rfl

theorem openFormat_nil (inside : Bool) : openFormat inside [] = some [] := by
  cases inside <;> rfl

/-- A quote that stands alone opens a section or closes it. -/
theorem openFormat_quote (inside : Bool) (h : rest.head? ≠ some '\'') :
    openFormat inside ('\'' :: rest) = openFormat (!inside) rest := by
  cases inside with
  | false => exact charsFormat_cons '\'' rest
  | true =>
    rw [openFormat, if_pos rfl, quotedText_close h]
    exact Option.map_id'

theorem openFormat_pair (rest : List Char) : openFormat true ('\'' :: '\'' :: rest) =
    (openFormat true rest).map (.literal '\'' :: ·) := by
  rw [openFormat, if_pos rfl, quotedText_pair, openFormat, if_pos rfl, Option.map_map]
  rfl

/-- After quotes side by side, a pattern goes on inside of a section or outside. -/
theorem openFormat_quotes (inside : Bool) (n : Nat) (h : rest.head? ≠ some '\'') :
    ∃ goesOn items, openFormat inside (List.replicate n '\'' ++ rest) =
      (openFormat goesOn rest).map (items ++ ·) := by
  induction n using Nat.twoStepInduction generalizing inside with
  | zero => exact ⟨inside, [], Option.map_id'.symm⟩
  | one => exact ⟨!inside, [], (openFormat_quote inside h).trans Option.map_id'.symm⟩
  | more n ih ih' =>
    cases inside with
    | false =>
      obtain ⟨goesOn, items, heq⟩ := ih' true
      exact ⟨goesOn, items, (charsFormat_cons '\'' _).trans heq⟩
    | true =>
      obtain ⟨goesOn, items, heq⟩ := ih true
      refine ⟨goesOn, .literal '\'' :: items,
        (openFormat_pair (List.replicate n '\'' ++ rest)).trans ?_⟩
      rw [heq, Option.map_map]
      rfl

/-- Inside of a section every character stands for itself, and outside all but letters and
quotes. -/
theorem openFormat_literal (inside : Bool) (hquote : c ≠ '\'')
    (hc : inside = false → c.isAlpha = false) (n : Nat) (rest : List Char) :
    openFormat inside (List.replicate n c ++ rest) =
      (openFormat inside rest).map (List.replicate n (literalItem c) ++ ·) := by
  induction n with
  | zero => exact Option.map_id'.symm
  | succ n ih =>
    have hstep : openFormat inside (c :: (List.replicate n c ++ rest)) =
        (openFormat inside (List.replicate n c ++ rest)).map (literalItem c :: ·) := by
      cases inside with
      | false =>
        rw [openFormat, if_neg Bool.false_ne_true, charsFormat_cons,
          if_neg (by simpa using hquote), hc rfl, if_neg Bool.false_ne_true]
        rfl
      | true =>
        rw [openFormat, if_pos rfl, quotedText_cons_ne hquote, openFormat, if_pos rfl,
          Option.map_map]
        rfl
    rw [List.replicate_succ, List.cons_append, hstep, ih, Option.map_map]
    rfl

/-- A run of letters outside of a section names a field. -/
theorem openFormat_letters (hc : c.isAlpha = true) (n : Nat) (h : rest.head? ≠ some c) :
    openFormat false (List.replicate (n + 1) c ++ rest) =
      (letterItem c (n + 1)).bind fun item => (openFormat false rest).map (item :: ·) := by
  have hstop : rest.takeWhile (· == c) = [] := by
    cases rest with
    | nil => rfl
    | cons d rest => exact List.takeWhile_cons_of_neg (by simpa using h)
  have hrun : (List.replicate n c ++ rest).takeWhile (· == c) = List.replicate n c := by
    rw [List.takeWhile_append_of_pos fun d hd =>
      beq_iff_eq.mpr (List.eq_of_mem_replicate hd), hstop, List.append_nil]
  rw [openFormat, if_neg Bool.false_ne_true, List.replicate_succ, List.cons_append,
    charsFormat_cons, beq_quote_of_isAlpha hc, if_neg Bool.false_ne_true, hc, if_pos rfl,
    hrun, List.drop_left, List.length_replicate]
  rfl

end OpenFormat

/-! ### Patterns read with nothing hidden -/

/-- The items of a run of equal characters: of a run of quotes all but one stand for
themselves. -/
def runItems : List Char → Option Format
  | [] => some []
  | c :: more =>
    if c == '\'' then some (more.map literalItem)
    else if c.isAlpha then (letterItem c (more.length + 1)).map ([·])
    else some ((c :: more).map literalItem)

/-- The format of characters whose quotes hide nothing: every run is read by itself. -/
def flatChars (cs : List Char) : Option Format :=
  ((cs.splitBy (· == ·)).mapM runItems).map List.flatten

/-- The format of a pattern whose quotes hide nothing. -/
def flatFormat (p : String) : Option Format :=
  flatChars p.toList

section FlatChars

variable {c : Char} {rest : List Char}

theorem splitBy_run (n : Nat) (h : rest.head? ≠ some c) :
    (List.replicate (n + 1) c ++ rest).splitBy (· == ·) =
      List.replicate (n + 1) c :: rest.splitBy (· == ·) := by
  have hrun : (List.replicate (n + 1) c).IsChain fun a b => (a == b) = true :=
    List.isChain_replicate_of_rel _ (beq_self_eq_true c)
  have hborder : ∀ x ∈ (List.replicate (n + 1) c).getLast?, ∀ y ∈ rest.head?,
      (x == y) = false := by
    intro x hx y hy
    rw [List.eq_of_mem_replicate (List.mem_of_getLast? hx)]
    exact beq_eq_false_iff_ne.mpr fun hcy => h (hcy ▸ hy)
  rw [List.splitBy_append hborder, List.splitBy_of_isChain (by simp) hrun]
  rfl

theorem flatChars_run (n : Nat) (h : rest.head? ≠ some c) :
    flatChars (List.replicate (n + 1) c ++ rest) =
      (runItems (List.replicate (n + 1) c)).bind fun items =>
      (flatChars rest).map (items ++ ·) := by
  rw [flatChars, splitBy_run n h, List.mapM_cons, flatChars]
  cases runItems (List.replicate (n + 1) c) with
  | none => rfl
  | some items =>
    cases (rest.splitBy (· == ·)).mapM runItems with
    | none => rfl
    | some _ => rfl

theorem flatChars_quotes (n : Nat) (h : rest.head? ≠ some '\'') :
    flatChars (List.replicate (n + 1) '\'' ++ rest) =
      (flatChars rest).map (List.replicate n (.literal '\'') ++ ·) := by
  rw [flatChars_run n h, List.replicate_succ, runItems, if_pos (beq_self_eq_true _),
    List.map_replicate]
  rfl

theorem flatChars_letters (hc : c.isAlpha = true) (n : Nat) (h : rest.head? ≠ some c) :
    flatChars (List.replicate (n + 1) c ++ rest) =
      (letterItem c (n + 1)).bind fun item => (flatChars rest).map (item :: ·) := by
  rw [flatChars_run n h, List.replicate_succ, runItems, beq_quote_of_isAlpha hc,
    if_neg Bool.false_ne_true, hc, if_pos rfl, List.length_replicate, Option.bind_map]
  rfl

theorem flatChars_literals (hquote : c ≠ '\'') (hc : c.isAlpha = false) (n : Nat)
    (h : rest.head? ≠ some c) : flatChars (List.replicate (n + 1) c ++ rest) =
      (flatChars rest).map (List.replicate (n + 1) (literalItem c) ++ ·) := by
  rw [flatChars_run n h, List.replicate_succ, runItems, if_neg (by simpa using hquote), hc,
    if_neg Bool.false_ne_true, ← List.replicate_succ, List.map_replicate]
  rfl

end FlatChars

/-! ### Doubled quotes -/

/-- A section is read up to the quote that closes it. -/
theorem quotedText_doubleChars (text : List Char) {rest : List Char}
    (h : rest.head? ≠ some '\'') :
    quotedText (doubleChars '\'' text ++ '\'' :: rest) = (text, rest) := by
  induction text with
  | nil => exact quotedText_close h
  | cons c text ih =>
    by_cases hc : c = '\''
    · subst hc
      rw [doubleChars_quote, List.cons_append, List.cons_append, quotedText_pair, ih]
    · rw [doubleChars_cons_ne hc, List.cons_append, quotedText_cons_ne hc, ih]

theorem quotedText_quotes (n : Nat) {rest : List Char} (h : rest.head? ≠ some '\'') :
    quotedText (List.replicate (2 * n + 1) '\'' ++ rest) = (List.replicate n '\'', rest) := by
  have hsection := quotedText_doubleChars (List.replicate n '\'') h
  rw [doubleChars_replicate] at hsection
  rwa [List.replicate_succ', List.append_assoc, List.singleton_append]

/-- A pattern whose quotes are doubled hides nothing. -/
theorem charsFormat_doubleChars (cs : List Char) :
    charsFormat (doubleChars '\'' cs) = flatChars cs := by
  induction cs using run_induction with
  | nil => rfl
  | run c n rest hhead ih =>
    have hafter : (doubleChars '\'' rest).head? ≠ some c := by rwa [head?_doubleChars]
    rw [doubleChars_append]
    by_cases hquote : c = '\''
    · subst hquote
      have hquotes : doubleChars '\'' (List.replicate (n + 1) '\'') =
          '\'' :: List.replicate (2 * n + 1) '\'' := by
        rw [doubleChars_replicate, Nat.mul_succ]
        rfl
      rw [hquotes, List.cons_append, charsFormat_cons, if_pos (beq_self_eq_true _),
        openFormat, if_pos rfl, quotedText_quotes n hafter, ih, flatChars_quotes n hhead,
        List.map_replicate]
      rfl
    · have hself : doubleChars '\'' (List.replicate (n + 1) c) = List.replicate (n + 1) c :=
        doubleChars_eq_self fun hmem => hquote (List.eq_of_mem_replicate hmem).symm
      rw [hself]
      cases hc : c.isAlpha with
      | false =>
        rw [flatChars_literals hquote hc n hhead, ← ih]
        exact openFormat_literal false hquote (fun _ => hc) (n + 1) _
      | true =>
        rw [flatChars_letters hc n hhead, ← ih]
        exact openFormat_letters hc n hafter

theorem formatOfPattern_double (p : String) :
    formatOfPattern (double '\'' p) = flatFormat p := by
  rw [formatOfPattern_eq, toList_double, charsFormat_doubleChars, flatFormat]

/-! ### Patterns that hide nothing -/

/-- Quotes stand alone, and there are no letters between an opening quote and the closing
one. -/
def hidesNothingFrom (inside : Bool) : List Char → Bool
  | [] => true
  | c :: rest =>
    if c == '\'' then rest.head? != some '\'' && hidesNothingFrom (!inside) rest
    else !(inside && c.isAlpha) && hidesNothingFrom inside rest

/-- The quotes of a pattern hide nothing. -/
def hidesNothing (p : String) : Bool :=
  hidesNothingFrom false p.toList

section HidesNothing

variable {c : Char} {inside : Bool} {rest cs : List Char} {f : Format}

theorem hidesNothingFrom_quotes (n : Nat) (h : rest.head? ≠ some '\'') :
    hidesNothingFrom inside (List.replicate (n + 1) '\'' ++ rest) = true ↔
      n = 0 ∧ hidesNothingFrom (!inside) rest = true := by
  rw [List.replicate_succ, List.cons_append, hidesNothingFrom, if_pos (beq_self_eq_true _),
    Bool.and_eq_true]
  cases n with
  | zero => simpa using fun _ => h
  | succ n => simp [List.replicate_succ]

theorem hidesNothingFrom_cons_ne (hquote : c ≠ '\'') :
    hidesNothingFrom inside (c :: rest) = true ↔
    (inside = true → c.isAlpha = false) ∧ hidesNothingFrom inside rest = true := by
  rw [hidesNothingFrom, if_neg (by simpa using hquote), Bool.and_eq_true]
  cases inside <;> simp

theorem hidesNothingFrom_run (hquote : c ≠ '\'') (n : Nat) :
    hidesNothingFrom inside (List.replicate (n + 1) c ++ rest) = true ↔
      (inside = true → c.isAlpha = false) ∧ hidesNothingFrom inside rest = true := by
  induction n with
  | zero => exact hidesNothingFrom_cons_ne hquote
  | succ n ih =>
    rw [List.replicate_succ, List.cons_append, hidesNothingFrom_cons_ne hquote, ih,
      and_self_left]

/-- A run of letters names a field, which is no character that stands for itself. -/
theorem literalItem_ne_letterItem {n : Nat} {item : Item} (d : Char)
    (h : letterItem c n = some item) : literalItem d ≠ item := by
  rw [letterItem.eq_def] at h
  split at h <;> grind [literalItem]

theorem literalItem_ne_quote (hquote : c ≠ '\'') : literalItem c ≠ .literal '\'' := by
  grind [literalItem]

/-- A pattern that hides nothing is read as if there were no sections, and takes no quotes. -/
theorem flatChars_of_hidesNothingFrom (h : hidesNothingFrom inside cs = true) :
    flatChars cs = openFormat inside cs ∧ ∀ f, flatChars cs = some f → .literal '\'' ∉ f := by
  induction cs using run_induction generalizing inside with
  | nil => exact ⟨(openFormat_nil inside).symm, by rintro _ ⟨⟩; exact List.not_mem_nil⟩
  | run c n rest hhead ih =>
    by_cases hquote : c = '\''
    · subst hquote
      -- a quote that stands alone is an empty section of its own, and opens or closes the
      -- one it belongs to
      obtain ⟨rfl, hrest⟩ := (hidesNothingFrom_quotes n hhead).mp h
      have hflat : flatChars (List.replicate (0 + 1) '\'' ++ rest) = flatChars rest :=
        (flatChars_quotes 0 hhead).trans Option.map_id'
      rw [hflat]
      exact ⟨(ih hrest).1.trans (openFormat_quote inside hhead).symm, (ih hrest).2⟩
    · obtain ⟨hinside, hrest⟩ := (hidesNothingFrom_run hquote n).mp h
      obtain ⟨hopen, hnone⟩ := ih hrest
      cases hc : c.isAlpha with
      | false =>
        rw [flatChars_literals hquote hc n hhead,
          openFormat_literal inside hquote (fun _ => hc), hopen]
        refine ⟨rfl, fun f hf hmem => ?_⟩
        obtain ⟨items, hitems, rfl⟩ := Option.map_eq_some_iff.mp hf
        rcases List.mem_append.mp hmem with hrun | hitem
        · exact literalItem_ne_quote hquote (List.eq_of_mem_replicate hrun).symm
        · exact hnone items (hopen.trans hitems) hitem
      | true =>
        obtain rfl : inside = false := by
          cases inside with
          | false => rfl
          | true => exact absurd hc (by rw [hinside rfl]; exact Bool.false_ne_true)
        rw [flatChars_letters hc n hhead, openFormat_letters hc n hhead, hopen]
        refine ⟨rfl, fun f hf hmem => ?_⟩
        obtain ⟨item, hitem, hf⟩ := Option.bind_eq_some_iff.mp hf
        obtain ⟨items, hitems, rfl⟩ := Option.map_eq_some_iff.mp hf
        rcases List.mem_cons.mp hmem with heq | hmem
        · exact literalItem_ne_letterItem '\'' hitem heq
        · exact hnone items (hopen.trans hitems) hmem

/-- No other pattern is read alike with and without sections, but for one that takes
quotes. -/
theorem hidesNothingFrom_of_flatChars (hopen : openFormat inside cs = some f)
    (hflat : flatChars cs = some f) (hnone : .literal '\'' ∉ f) :
    hidesNothingFrom inside cs = true := by
  induction cs using run_induction generalizing inside f with
  | nil => rfl
  | run c n rest hhead ih =>
    by_cases hquote : c = '\''
    · subst hquote
      rw [flatChars_quotes n hhead] at hflat
      obtain ⟨items, hitems, rfl⟩ := Option.map_eq_some_iff.mp hflat
      cases n with
      | zero =>
        have hrest : openFormat (!inside) rest = some items :=
          (openFormat_quote inside hhead).symm.trans hopen
        exact (hidesNothingFrom_quotes 0 hhead).mpr ⟨rfl, ih hrest hitems hnone⟩
      -- of quotes side by side all but one are left in the format
      | succ n => exact absurd (List.mem_append_left items List.mem_cons_self) hnone
    · rw [hidesNothingFrom_run hquote n]
      cases hc : c.isAlpha with
      | false =>
        rw [flatChars_literals hquote hc n hhead] at hflat
        rw [openFormat_literal inside hquote (fun _ => hc)] at hopen
        obtain ⟨items, hitems, rfl⟩ := Option.map_eq_some_iff.mp hflat
        obtain ⟨others, hothers, heq⟩ := Option.map_eq_some_iff.mp hopen
        rw [List.append_cancel_left heq] at hothers
        exact ⟨fun _ => rfl, ih hothers hitems fun hmem =>
          hnone (List.mem_append_right _ hmem)⟩
      | true =>
        rw [flatChars_letters hc n hhead] at hflat
        obtain ⟨item, hitem, hflat⟩ := Option.bind_eq_some_iff.mp hflat
        obtain ⟨items, hitems, rfl⟩ := Option.map_eq_some_iff.mp hflat
        cases inside with
        | false =>
          rw [openFormat_letters hc n hhead, hitem, Option.bind_some] at hopen
          obtain ⟨others, hothers, heq⟩ := Option.map_eq_some_iff.mp hopen
          rw [List.tail_eq_of_cons_eq heq] at hothers
          exact ⟨nofun, ih hothers hitems fun hmem => hnone (List.mem_cons_of_mem item hmem)⟩
        | true =>
          -- letters between quotes are characters on the one side and name a field on the
          -- other
          rw [openFormat_literal true hquote nofun] at hopen
          obtain ⟨others, hothers, heq⟩ := Option.map_eq_some_iff.mp hopen
          exact absurd (List.head_eq_of_cons_eq heq) (literalItem_ne_letterItem c hitem)

/-- A run of letters that names no field is still there if nothing is hidden. -/
theorem flatChars_eq_none (h : openFormat inside cs = none) : flatChars cs = none := by
  induction cs using run_induction generalizing inside with
  | nil => exact absurd ((openFormat_nil inside).symm.trans h) (Option.some_ne_none _)
  | run c n rest hhead ih =>
    by_cases hquote : c = '\''
    · subst hquote
      obtain ⟨goesOn, items, heq⟩ := openFormat_quotes inside (n + 1) hhead
      rw [flatChars_quotes n hhead, ih (Option.map_eq_none_iff.mp (heq.symm.trans h)),
        Option.map_none]
    · cases hc : c.isAlpha with
      | false =>
        rw [openFormat_literal inside hquote (fun _ => hc)] at h
        rw [flatChars_literals hquote hc n hhead, ih (Option.map_eq_none_iff.mp h),
          Option.map_none]
      | true =>
        rw [flatChars_letters hc n hhead]
        cases inside with
        | false =>
          rw [openFormat_letters hc n hhead] at h
          refine Option.bind_eq_none_iff.mpr fun item hitem => ?_
          have hrest := Option.bind_eq_none_iff.mp h item hitem
          rw [ih (Option.map_eq_none_iff.mp hrest), Option.map_none]
        | true =>
          rw [openFormat_literal true hquote nofun] at h
          rw [ih (Option.map_eq_none_iff.mp h)]
          exact Option.bind_eq_none_iff.mpr fun _ _ => rfl

end HidesNothing

section Patterns

variable {p : String} {f : Format}

/-- **Doubling the quotes changes no pattern that hides nothing**, and such a pattern
takes no quotes. -/
theorem formatOfPattern_double_of_hidesNothing (h : hidesNothing p = true) :
    formatOfPattern (double '\'' p) = formatOfPattern p ∧
      ∀ f, formatOfPattern p = some f → .literal '\'' ∉ f := by
  obtain ⟨hopen, hnone⟩ := flatChars_of_hidesNothingFrom h
  have hsame : formatOfPattern (double '\'' p) = formatOfPattern p := by
    rw [formatOfPattern_double, flatFormat, hopen, formatOfPattern_eq]
    rfl
  exact ⟨hsame, fun f hf => hnone f ((formatOfPattern_double p).symm.trans (hsame.trans hf))⟩

/-- **Doubling the quotes changes every other pattern**, unless it takes quotes. -/
theorem hidesNothing_of_formatOfPattern_double (h : formatOfPattern p = some f)
    (hdouble : formatOfPattern (double '\'' p) = some f) (hnone : .literal '\'' ∉ f) :
    hidesNothing p = true :=
  hidesNothingFrom_of_flatChars ((formatOfPattern_eq p).symm.trans h)
    ((formatOfPattern_double p).symm.trans hdouble) hnone

/-- A pattern without a format has none with its quotes doubled. -/
theorem formatOfPattern_double_eq_none (h : formatOfPattern p = none) :
    formatOfPattern (double '\'' p) = none := by
  have hopen : openFormat false p.toList = none := (formatOfPattern_eq p).symm.trans h
  rw [formatOfPattern_double, flatFormat, flatChars_eq_none hopen]

end Patterns

end DocQuery.Calendar
