import DocQuery.Predicate.Like

/-!
# What LIKE patterns match

The regular expression of a LIKE pattern finds the texts that match the pattern.  Regular
expressions are read piece by piece: anchors, single characters, the dot and the dot with
a star.  Nothing else may stand unescaped, so the reading is that of every dialect.

* `Like.Matches` — a text matches a pattern
* `Like.Piece`, `Like.Piece.read?` — the pieces of a regular expression
* `Like.Piece.Spans`, `Like.Piece.Finds` — how pieces are found in a text
* `Like.read?_toRegex` — the pieces of a pattern, one for each of its characters
* `Like.toRegex_finds_matches` — both sides agree

### What is load-bearing

**A star is always escaped.**  A dot that stands for one character is followed by the text
of the next character of the pattern.  If that text could begin with a bare star, the two
would be read as a run.

**Line terminators.**  The dot passes over them and the wildcards of a pattern do not, so
the two sides agree on texts without them, whichever characters they are.
-/

namespace DocQuery.Like

/-! ### Patterns -/

/-- **A text matches a pattern**: `%` stands for any run of characters, `_` for any one
character and every other character for itself. -/
inductive Matches : (pattern text : List Char) → Prop where
  | nil : Matches [] []
  | run {pattern text : List Char} (taken : List Char) (h : Matches pattern text) :
      Matches ('%' :: pattern) (taken ++ text)
  | any {pattern text : List Char} (c : Char) (h : Matches pattern text) :
      Matches ('_' :: pattern) (c :: text)
  | char {pattern text : List Char} {c : Char} (hc : c ≠ '%' ∧ c ≠ '_')
    (h : Matches pattern text) :
      Matches (c :: pattern) (c :: text)

/-! ### Regular expressions -/

/-- The pieces of a regular expression. -/
inductive Piece where
  /-- The start of the text. -/
  | start
  /-- The end of the text. -/
  | stop
  | char (c : Char)
  /-- One character that ends no line. -/
  | any
  /-- A run of characters that end no line. -/
  | run
deriving Repr, DecidableEq

namespace Piece

/-- The characters that are operators unless a backslash stands before them. -/
def operators : List Char :=
  ['\\', '.', '^', '$', '*', '+', '?', '(', ')', '|', '[', ']', '\x7b', '\x7d']

/-- The pieces of a regular expression.  Operators that are no pieces are not read, nor
are escaped letters and digits, which stand for classes and the like. -/
def read? : List Char → Option (List Piece)
  | [] => some []
  | '\\' :: c :: rest => if c.isAlphanum then none else (read? rest).map (.char c :: ·)
  | '.' :: '*' :: rest => (read? rest).map (.run :: ·)
  | '.' :: rest => (read? rest).map (.any :: ·)
  | '^' :: rest => (read? rest).map (.start :: ·)
  | '$' :: rest => (read? rest).map (.stop :: ·)
  | c :: rest => if c ∈ operators then none else (read? rest).map (.char c :: ·)

/-- Pieces are found one after the other, with `before` behind and `ahead` in front of
them. -/
inductive Spans (endsLine : Char → Bool) :
    List Piece → (before ahead : List Char) → Prop where
  | nil (before ahead : List Char) : Spans endsLine [] before ahead
  | start {pieces : List Piece} {ahead : List Char} (h : Spans endsLine pieces [] ahead) :
      Spans endsLine (.start :: pieces) [] ahead
  | stop {pieces : List Piece} {before : List Char} (h : Spans endsLine pieces before []) :
      Spans endsLine (.stop :: pieces) before []
  | char {pieces : List Piece} {before ahead : List Char} {c : Char}
      (h : Spans endsLine pieces (before ++ [c]) ahead) :
      Spans endsLine (.char c :: pieces) before (c :: ahead)
  | any {pieces : List Piece} {before ahead : List Char} {c : Char} (hc : endsLine c = false)
      (h : Spans endsLine pieces (before ++ [c]) ahead) :
      Spans endsLine (.any :: pieces) before (c :: ahead)
  | run {pieces : List Piece} {before taken ahead : List Char}
      (htaken : ∀ c ∈ taken, endsLine c = false)
      (h : Spans endsLine pieces (before ++ taken) ahead) :
      Spans endsLine (.run :: pieces) before (taken ++ ahead)

/-- **Pieces are found in a text**, wherever in it. -/
def Finds (endsLine : Char → Bool) (pieces : List Piece) (text : List Char) : Prop :=
  ∃ before ahead, text = before ++ ahead ∧ Spans endsLine pieces before ahead

/-- The piece of a character of a pattern. -/
def ofPattern (c : Char) : Piece :=
  if c = '%' then .run else if c = '_' then .any else .char c

end Piece

/-! ### The regular expression of a pattern -/

/-- The text of a character of a pattern. -/
def regexOf (c : Char) : List Char :=
  if c == '%' then ['.', '*'] else if c == '_' then ['.'] else escapeChar c

/-- **Without brackets every character has its own text.**  The bound on the number of
parts is no restriction. -/
theorem body_eq_flatMap {cs : List Char} (hbracket : '[' ∉ cs) {fuel : Nat}
    (hfuel : cs.length ≤ fuel) : body fuel cs = cs.flatMap regexOf := by
  induction cs generalizing fuel with
  | nil => cases fuel <;> rfl
  | cons c rest ih =>
    obtain ⟨hc, hrest⟩ : '[' ≠ c ∧ '[' ∉ rest := by simpa using hbracket
    rw [List.length_cons] at hfuel
    obtain ⟨fuel, rfl⟩ : ∃ n, fuel = n + 1 := ⟨fuel - 1, by omega⟩
    have hbehind := ih hrest (Nat.le_of_succ_le_succ hfuel)
    rw [body, hbehind, List.flatMap_cons, regexOf]
    split
    · rfl
    · split
      · rfl
      · rw [if_neg (by simpa using Ne.symm hc)]

/-- The text of a character does not begin with a star. -/
theorem regexOf_ne_star (c : Char) (behind more : List Char) :
    regexOf c ++ behind ≠ '*' :: more := by
  rw [regexOf]
  split
  · simp
  · split
    · simp
    · rw [escapeChar]
      split
      · simp
      · rename_i hspecial
        intro h
        obtain ⟨rfl, -⟩ := List.cons.inj h
        exact hspecial (by decide)

namespace Piece

/-- A character that is no operator is read as itself. -/
theorem read?_cons {c : Char} (hc : c ∉ operators) (behind : List Char) :
    read? (c :: behind) = (read? behind).map (.char c :: ·) := by
  have hne : ∀ d ∈ operators, c ≠ d := fun d hd heq => hc (heq ▸ hd)
  rw [read?, if_neg hc]
  · exact fun _ _ heq => absurd heq (hne _ (by decide))
  · exact fun _ heq => absurd heq (hne _ (by decide))
  · exact hne _ (by decide)
  · exact hne _ (by decide)
  · exact hne _ (by decide)

/-- An escaped character is read as itself. -/
theorem read?_escapeChar (c : Char) (behind : List Char) :
    read? (escapeChar c ++ behind) = (read? behind).map (.char c :: ·) := by
  rw [escapeChar]
  split
  · rename_i hspecial
    have hplain := List.all_eq_true.mp (by decide : specials.all (!·.isAlphanum) = true) c
      (by simpa using hspecial)
    rw [Bool.not_eq_true'] at hplain
    simp only [List.cons_append, List.nil_append, read?, hplain]
    rfl
  · rename_i hspecial
    have hsub := List.all_eq_true.mp (by decide : operators.all specials.contains = true) c
    exact read?_cons (fun hc => hspecial (hsub hc)) behind

/-- **Step.**  The text of a character of a pattern is read as its piece. -/
theorem read?_regexOf (c : Char) {behind : List Char} (hstar : ∀ more, behind ≠ '*' :: more) :
    read? (regexOf c ++ behind) = (read? behind).map (ofPattern c :: ·) := by
  rw [regexOf, ofPattern]
  by_cases hrun : c = '%'
  · simp [hrun, read?]
  · by_cases hany : c = '_'
    · have hdot : read? ('.' :: behind) = (read? behind).map (.any :: ·) := by
        rw [read?]
        exact hstar
      simpa [hrun, hany] using hdot
    · simpa [hrun, hany] using read?_escapeChar c behind

/-- **Run.**  The text of a pattern is read character by character. -/
theorem read?_flatMap (cs : List Char) :
    read? (cs.flatMap regexOf ++ ['$']) = some (cs.map ofPattern ++ [.stop]) := by
  induction cs with
  | nil => rfl
  | cons c rest ih =>
    have hstar : ∀ more, rest.flatMap regexOf ++ ['$'] ≠ '*' :: more := by
      intro more
      cases rest with
      | nil => simp
      | cons next rest =>
        rw [List.flatMap_cons, List.append_assoc]
        exact regexOf_ne_star next _ more
    rw [List.flatMap_cons, List.append_assoc, read?_regexOf c hstar, ih]
    rfl

/-! ### Finding the pieces of a pattern -/

section Spans

variable {endsLine : Char → Bool} {pattern before text : List Char}

/-- What the pieces of a pattern are found in matches the pattern. -/
theorem matches_of_spans (h : Spans endsLine (pattern.map ofPattern ++ [.stop]) before text) :
    Matches pattern text := by
  induction pattern generalizing before text with
  | nil =>
    cases h with
    | stop _ => exact .nil
  | cons c rest ih =>
    rw [List.map_cons, List.cons_append, ofPattern] at h
    split at h
    · rename_i hrun
      cases h with
      | run _ h => exact hrun ▸ .run _ (ih h)
    · split at h
      · rename_i hany
        cases h with
        | any _ h => exact hany ▸ .any _ (ih h)
      · rename_i hrun hany
        cases h with
        | char h => exact .char ⟨hrun, hany⟩ (ih h)

/-- The pieces of a pattern are found in what matches the pattern, if no line ends there. -/
theorem spans_of_matches (h : Matches pattern text) (htext : ∀ c ∈ text, endsLine c = false)
    (before : List Char) : Spans endsLine (pattern.map ofPattern ++ [.stop]) before text := by
  induction h generalizing before with
  | nil => exact .stop (.nil _ _)
  | run taken _ ih =>
    obtain ⟨htaken, hrest⟩ := List.forall_mem_append.mp htext
    exact .run htaken (ih hrest _)
  | any c _ ih =>
    obtain ⟨hc, hrest⟩ := List.forall_mem_cons.mp htext
    exact .any hc (ih hrest _)
  | @char pattern text c hc _ ih =>
    have hpiece : ofPattern c = .char c := by rw [ofPattern, if_neg hc.1, if_neg hc.2]
    rw [List.map_cons, hpiece]
    exact .char (ih (List.forall_mem_cons.mp htext).2 _)

end Spans

/-- Pieces that begin with the start of the text are found there or nowhere. -/
theorem finds_start_iff {endsLine : Char → Bool} {pieces : List Piece} {text : List Char} :
    Finds endsLine (.start :: pieces) text ↔ Spans endsLine pieces [] text := by
  constructor
  · rintro ⟨before, ahead, rfl, h⟩
    cases h with
    | start h => exact h
  · exact fun h => ⟨[], text, rfl, .start h⟩

end Piece

/-- The pieces of a pattern without brackets: one for each of its characters, between the
two ends. -/
theorem read?_toRegex {pattern : String} (h : '[' ∉ pattern.toList) :
    Piece.read? (toRegex pattern).toList =
      some (.start :: (pattern.toList.map Piece.ofPattern ++ [.stop])) := by
  have hlength : pattern.toList.length ≤ pattern.length := Nat.le_of_eq String.length_toList
  rw [toRegex, String.toList_ofList, body_eq_flatMap h hlength, List.cons_append, Piece.read?,
    Piece.read?_flatMap]
  rfl

/-- **The regular expression of a pattern finds the texts that match the pattern.**  Every
character of the pattern is read back from the regular expression, in its order and
escaped once, and the expression is found in a text in which no line ends exactly if the
whole text matches. -/
theorem toRegex_finds_matches (endsLine : Char → Bool) {pattern : String}
    (hbracket : '[' ∉ pattern.toList) {text : String}
    (htext : ∀ c ∈ text.toList, endsLine c = false) :
    ∃ pieces, Piece.read? (toRegex pattern).toList = some pieces ∧
      (Piece.Finds endsLine pieces text.toList ↔ Matches pattern.toList text.toList) := by
  refine ⟨_, read?_toRegex hbracket, ?_⟩
  rw [Piece.finds_start_iff]
  exact ⟨Piece.matches_of_spans, fun h => Piece.spans_of_matches h htext []⟩

/-- `_.%*` has a dot and a star of its own, and matches `a.bc*`. -/
theorem toRegex_finds_matches_star :
    '[' ∉ "_.%*".toList ∧ (∀ c ∈ "a.bc*".toList, (c == '\n') = false) ∧
      Matches "_.%*".toList "a.bc*".toList ∧
      ∃ pieces, Piece.read? (toRegex "_.%*").toList = some pieces ∧
        Piece.Finds (· == '\n') pieces "a.bc*".toList := by
  have hbracket : '[' ∉ "_.%*".toList := by decide
  have htext : ∀ c ∈ "a.bc*".toList, (c == '\n') = false := by simp
  have hmatches : Matches "_.%*".toList "a.bc*".toList :=
    .any 'a' (.char (by decide) (.run ['b', 'c'] (.char (by decide) .nil)))
  obtain ⟨pieces, hread, hfinds⟩ := toRegex_finds_matches (· == '\n') hbracket htext
  exact ⟨hbracket, htext, hmatches, pieces, hread, hfinds.mpr hmatches⟩

end DocQuery.Like
