import DocQuery.Proofs.Scan.Following
import DocQuery.Proofs.Scan.Tokens

/-!
# Texts that are read back part by part

A text that is put together from parts is read back part by part.  Every part begins with
a space, and none of its blanks matters to the parser of the next part.

* `Recovers` — a parser recovers a value from its text, whatever follows
* `Recovers.bind`, `Recovers.bind_pure` — parts one after another
* `Apart`, `Begins` — what may follow a part: a comma, or a keyword of the next part
* `recovers_consume`, `recovers_aliasName_some`, `recovers_aliasName_none`, … — keywords
  and names
* `recovers_many`, `Recovers.commaList` — lists of parts

### What is load-bearing

**Parts that are missing.**  A part that is not there has the empty text, and its parser
must not take anything from the next part.  So each of these lemmas asks what the next
part begins with.

**Length.**  The text is shorter than `n` all along, which is what parsers for a bounded
depth of parentheses need to know.
-/

namespace DocQuery.Scan

open Text

variable {α β : Type} {n : Nat}

/-- **A parser recovers a value from its text.**  Wherever the text comes next, up to
blanks, and `rest` follows it, the parser gives the value and leaves `rest`, up to blanks. -/
def Recovers (n : Nat) (p : Parser α) (text : List Char) (a : α) (rest : List Char) : Prop :=
  ∀ cs, cs.length < n → dropBlanks cs = dropBlanks (text ++ rest) →
    ∃ left, p.run cs = .ok (a, left) ∧ dropBlanks left = dropBlanks rest

section Recovers

variable {p : Parser α} {f : α → Parser β} {a : α} {b : β} {text more rest : List Char}

theorem recovers_pure (a : α) : Recovers n (pure a) [] a rest :=
  fun cs _ hcs => ⟨cs, rfl, hcs⟩

/-- One part after another. -/
theorem Recovers.bind [Shrinks p] (hp : Recovers n p text a (more ++ rest))
    (hf : Recovers n (f a) more b rest) : Recovers n (p >>= f) (text ++ more) b rest := by
  intro cs hlength hcs
  rw [List.append_assoc] at hcs
  obtain ⟨left, hrun, hleft⟩ := hp cs hlength hcs
  rw [run_bind_ok hrun]
  exact hf left (Nat.lt_of_le_of_lt (Shrinks.length_le hrun) hlength) hleft

/-- One part after another, up to the end of the text. -/
theorem Recovers.bind_end [Shrinks p] (hp : Recovers n p text a more)
    (hf : Recovers n (f a) more b []) : Recovers n (p >>= f) (text ++ more) b [] := by
  have hp' : Recovers n p text a (more ++ []) := by rwa [List.append_nil]
  exact hp'.bind hf

/-- A part that is missing, before one that is not. -/
theorem Recovers.bind_missing [Shrinks p] (hp : Recovers n p [] a (text ++ rest))
    (hf : Recovers n (f a) text b rest) : Recovers n (p >>= f) text b rest :=
  hp.bind hf

/-- A part that is the last one, before others that are missing. -/
theorem Recovers.bind_last [Shrinks p] (hp : Recovers n p text a rest)
    (hf : Recovers n (f a) [] b rest) : Recovers n (p >>= f) text b rest := by
  have hboth : Recovers n (p >>= f) (text ++ []) b rest := hp.bind hf
  rwa [List.append_nil] at hboth

/-- The value is used, and nothing more is read. -/
theorem Recovers.bind_pure [Shrinks p] (hp : Recovers n p text a rest) (hf : f a = pure b) :
    Recovers n (p >>= f) text b rest :=
  hp.bind_last (hf ▸ recovers_pure b)

theorem Recovers.discard [Shrinks p] (hp : Recovers n p text a rest) :
    Recovers n (discard p) text () rest := by
  have hunit : Functor.discard p = p >>= fun _ => pure () :=
    map_eq_pure_bind (Function.const α ()) p
  rw [hunit]
  exact hp.bind_pure rfl

/-- A space in front of a text does not matter. -/
theorem Recovers.space (h : Recovers n p text a rest) :
    Recovers n p (' ' :: text) a rest := by
  intro cs hlength hcs
  rw [List.cons_append, dropBlanks_space] at hcs
  exact h cs hlength hcs

end Recovers

/-! ### What follows a part -/

/-- The end of the text, a space or a comma. -/
def Apart (rest : List Char) : Prop :=
  rest = [] ∨ ∃ c more, rest = c :: more ∧ (c = ' ' ∨ c = ',')

/-- **The end of the text, or one of some keywords.** -/
def Begins (ks : List Keyword) (rest : List Char) : Prop :=
  rest = [] ∨ ∃ k ∈ ks, ∃ after, Apart after ∧ rest = ' ' :: (k.text.toList ++ after)

section Following

variable {ks : List Keyword} {rest : List Char}

theorem apart_space (more : List Char) : Apart (' ' :: more) :=
  .inr ⟨' ', more, rfl, .inl rfl⟩

theorem apart_comma (more : List Char) : Apart (',' :: more) :=
  .inr ⟨',', more, rfl, .inr rfl⟩

theorem Begins.apart (h : Begins ks rest) : Apart rest := by
  rcases h with rfl | ⟨k, -, after, -, rfl⟩
  · exact .inl rfl
  · exact apart_space _

theorem Begins.mono (h : Begins ks rest) {others : List Keyword} (hsub : ks ⊆ others) :
    Begins others rest :=
  h.imp_right fun ⟨k, hk, after, hafter, hrest⟩ => ⟨k, hsub hk, after, hafter, hrest⟩

theorem Apart.isDelimiter (h : Apart rest) : rest = [] ∨ isDelimiter (front rest) = true := by
  refine h.imp_right ?_
  rintro ⟨c, more, rfl, rfl | rfl⟩
  · exact (by decide : Scan.isDelimiter ' ' = true)
  · exact (by decide : Scan.isDelimiter ',' = true)

theorem Apart.isNameChar (h : Apart rest) : isNameChar (front rest) = false := by
  rcases h with rfl | ⟨c, more, rfl, rfl | rfl⟩
  · decide
  · exact (by decide : Scan.isNameChar ' ' = false)
  · exact (by decide : Scan.isNameChar ',' = false)

theorem Apart.front_ne (h : Apart rest) : front rest ≠ '.' := by
  rcases h with rfl | ⟨c, more, rfl, rfl | rfl⟩
  · decide
  · exact (by decide : ' ' ≠ '.')
  · exact (by decide : ',' ≠ '.')

theorem Apart.allows (h : Apart rest) (k : Keyword) : k.word.allows rest = true :=
  keyword_allows_of_front k h.isDelimiter

/-- The first word of what follows is that of a keyword. -/
theorem Begins.leadingWord_cases (h : Begins ks rest) :
    dropBlanks rest = [] ∨ ∃ k ∈ ks,
      (leadingWord (dropBlanks rest)).map Char.toUpper = k.head := by
  rcases h with rfl | ⟨k, hk, after, hafter, rfl⟩
  · exact .inl rfl
  · refine .inr ⟨k, hk, ?_⟩
    rw [dropBlanks_space, dropBlanks_keyword, leadingWord_keyword k hafter.isNameChar]

/-- No keyword is found but those that may come next. -/
theorem Begins.match?_eq_none (h : Begins ks rest) {k : Keyword}
    (hk : ks.all (fun other => other.head != k.head) = true) :
    k.word.match? (dropBlanks rest) = none := by
  refine keyword_match?_eq_none ?_
  rcases h.leadingWord_cases with hnil | ⟨other, hother, hword⟩
  · rw [hnil]
    exact Ne.symm (keyword_head_ne_nil k)
  · rw [hword]
    exact bne_iff_ne.mp (List.all_eq_true.mp hk other hother)

/-- What follows begins with a letter, if it is not the end. -/
theorem Begins.front_cases (h : Begins ks rest) :
    front (dropBlanks rest) = '\x00' ∨ isNameChar (front (dropBlanks rest)) = true := by
  rcases h with rfl | ⟨k, -, after, -, rfl⟩
  · exact .inl rfl
  · obtain ⟨c, more, htext, hc⟩ := exists_keyword_text k
    rw [dropBlanks_space, dropBlanks_keyword, htext]
    exact .inr hc

theorem Begins.front_notMem (h : Begins ks rest) {marks : List Char}
    (hmarks : marks.any isNameChar = false) (hnull : '\x00' ∉ marks) :
    front (dropBlanks rest) ∉ marks := by
  rcases h.front_cases with hfront | hfront
  · rwa [hfront]
  · exact notMem_of_isNameChar hfront hmarks

end Following

/-! ### Keywords, names and numbers -/

section Parts

variable {rest : List Char} {k : Keyword} {word : String}

/-- A keyword that is there. -/
theorem recovers_consume (k : Keyword) (hrest : Apart rest) :
    Recovers n (consume k) (' ' :: k.text.toList) true rest := by
  intro cs _ hcs
  rw [List.cons_append, dropBlanks_space, dropBlanks_keyword] at hcs
  refine ⟨rest, run_consume_of_match ?_, rfl⟩
  rw [hcs]
  exact keyword_match?_text k (hrest.allows k)

theorem recovers_expect (k : Keyword) (hrest : Apart rest) :
    Recovers n (expect k) (' ' :: k.text.toList) () rest := by
  intro cs _ hcs
  rw [List.cons_append, dropBlanks_space, dropBlanks_keyword] at hcs
  refine ⟨rest, run_expect ?_, rfl⟩
  rw [hcs]
  exact keyword_match?_text k (hrest.allows k)

/-- A keyword that is not there. -/
theorem recovers_consume_none (hk : k.word.match? (dropBlanks rest) = none) :
    Recovers n (consume k) [] false rest := by
  intro cs _ hcs
  rw [List.nil_append] at hcs
  refine ⟨dropBlanks cs, run_consume_of_none (hcs ▸ hk), ?_⟩
  rw [dropBlanks_dropBlanks, hcs]

theorem recovers_consumeChar {c : Char} (hc : isBlank c = false) :
    Recovers n (consumeChar c) [c] true rest := by
  intro cs _ hcs
  rw [List.singleton_append, dropBlanks_cons hc] at hcs
  exact ⟨rest, run_consumeChar_of_front hcs, rfl⟩

/-- A mark that is not there. -/
theorem recovers_consumeChar_none {c : Char} (hc : front (dropBlanks rest) ≠ c) :
    Recovers n (consumeChar c) [] false rest := by
  intro cs _ hcs
  rw [List.nil_append] at hcs
  refine ⟨dropBlanks cs, run_consumeChar_of_ne (hcs ▸ hc), ?_⟩
  rw [dropBlanks_dropBlanks, hcs]

theorem recovers_name (hword : IsIdentifier word) (hrest : Apart rest) :
    Recovers n name (' ' :: word.toList) word rest := by
  intro cs _ hcs
  rw [List.cons_append, dropBlanks_space, hword.dropBlanks_append] at hcs
  exact ⟨rest, run_name hword hrest.isNameChar hcs, rfl⟩

/-- A name without dots. -/
theorem recovers_dottedName (hword : IsIdentifier word) (hrest : Apart rest) :
    Recovers n dottedName (' ' :: word.toList) word rest := by
  intro cs _ hcs
  rw [List.cons_append, dropBlanks_space, hword.dropBlanks_append] at hcs
  refine ⟨rest, ?_, rfl⟩
  rw [dottedName, run_bind_ok (run_name hword hrest.isNameChar hcs), run_bind_ok run_get,
    run_bind_ok (run_moreNames_of_ne hrest.front_ne _), String.intercalate_singleton]
  rfl

theorem recovers_aliasName_some (hword : IsIdentifier word) (hrest : Apart rest) :
    Recovers n aliasName (' ' :: Keyword.asKw.text.toList ++ ' ' :: word.toList)
      (some word) rest := by
  intro cs hlength hcs
  rw [List.append_assoc] at hcs
  obtain ⟨left, has, hleft⟩ := recovers_consume .asKw (apart_space _) cs hlength hcs
  obtain ⟨last, hname, hlast⟩ := recovers_name hword hrest left
    (Nat.lt_of_le_of_lt (Shrinks.length_le has) hlength) hleft
  refine ⟨last, ?_, hlast⟩
  rw [aliasName, run_bind_ok has, if_pos rfl, run_bind_ok hname]
  rfl

/-- There is no alias if a reserved word comes next, or what is no name. -/
theorem recovers_aliasName_none (has : Keyword.asKw.word.match? (dropBlanks rest) = none)
    (hquote : isNameQuote (front (dropBlanks rest)) = false)
    (hword : isNameChar (front (dropBlanks rest)) = false ∨
      isReserved (String.ofList (leadingWord (dropBlanks rest))) = true) :
    Recovers n aliasName [] none rest := by
  intro cs hlength hcs
  rw [List.nil_append] at hcs
  refine ⟨dropBlanks rest, ?_, dropBlanks_dropBlanks rest⟩
  have hnone : Keyword.asKw.word.match? (dropBlanks cs) = none := hcs ▸ has
  rw [aliasName, run_bind_ok (run_consume_of_none hnone), if_neg Bool.false_ne_true,
    run_bind_ok run_skipBlanks, run_bind_ok run_current, dropBlanks_dropBlanks, hcs, hquote,
    if_neg Bool.false_ne_true, run_bind_ok run_get]
  cases hfound : (front (dropBlanks rest)).isDigit ||
    !isNameChar (front (dropBlanks rest)) with
  | true =>
    have hnone : identifier.run (dropBlanks rest) = .ok (none, dropBlanks rest) := by
      rw [identifier, run_bind_ok run_skipBlanks, run_bind_ok run_current,
        dropBlanks_dropBlanks, hfound]
      rfl
    rw [run_bind_ok hnone]
    rfl
  | false =>
    obtain ⟨-, hname⟩ := Bool.or_eq_false_iff.mp hfound
    rw [Bool.not_eq_false'] at hname
    have hsome : identifier.run (dropBlanks rest) =
        .ok (some (String.ofList (leadingWord (dropBlanks rest))),
          (dropBlanks rest).dropWhile isNameChar) := by
      rw [identifier, run_bind_ok run_skipBlanks, run_bind_ok run_current,
        dropBlanks_dropBlanks, hfound]
      rfl
    have hreserved := hword.resolve_left (by rw [hname]; decide)
    rw [run_bind_ok hsome]
    dsimp only
    rw [hreserved]
    rfl

/-- A number without sign. -/
theorem recovers_count {digits : List Char} {value : Int} (hne : digits ≠ [])
    (hdigits : ∀ c ∈ digits, c.isDigit = true) (hvalue : Decimal.readInt? digits = some value)
    (hrest : Apart rest) : Recovers n count (' ' :: digits) value.toNat rest := by
  intro cs _ hcs
  have hblank : dropBlanks (digits ++ rest) = digits ++ rest := by
    obtain ⟨c, others, rfl⟩ := List.exists_cons_of_ne_nil hne
    exact dropBlanks_cons
      (isBlank_of_isNameChar (isNameChar_of_isDigit (hdigits c List.mem_cons_self))) _
  have hfront : (front rest).isDigit = false :=
    Bool.eq_false_iff.mpr fun hdigit => by
      have hname := isNameChar_of_isDigit hdigit
      rw [hrest.isNameChar] at hname
      cases hname
  rw [List.cons_append, dropBlanks_space, hblank] at hcs
  refine ⟨rest, ?_, rfl⟩
  rw [count, run_bind_ok run_skipBlanks, run_bind_ok run_get,
    run_bind_ok (run_takeChars _), hcs, takeWhile_append_of_front hdigits hfront,
    dropWhile_append_of_front hdigits hfront, hvalue]
  rfl

end Parts

/-! ### Lists of parts -/

section Lists

variable {rest : List Char} {items : List α} {text : α → List Char} {End : List Char → Prop}

theorem end_flatMap (hnext : ∀ a ∈ items, ∀ rest, End rest → End (text a ++ rest))
    (hend : End rest) : End (items.flatMap text ++ rest) := by
  induction items with
  | nil => exact hend
  | cons first others ih =>
    rw [List.flatMap_cons, List.append_assoc]
    exact hnext first List.mem_cons_self _
      (ih fun a ha => hnext a (List.mem_cons_of_mem first ha))

/-- **Parts one after another are read back.**  The induction is on the parts; the budget
is enough as every part takes up something. -/
theorem recovers_many {item : Parser (Option α)} [Shrinks item] [Advances item]
    (hitem : ∀ a ∈ items, ∀ rest, End rest → Recovers n item (text a) (some a) rest)
    (hnext : ∀ a ∈ items, ∀ rest, End rest → End (text a ++ rest)) (hend : End rest)
    (hnone : Recovers n item [] none rest) :
    Recovers n (do many item (← get).length) (items.flatMap text) items rest := by
  have hloop : ∀ {budget cs}, cs.length ≤ budget → cs.length < n →
      dropBlanks cs = dropBlanks (items.flatMap text ++ rest) →
        ∃ left, (many item budget).run cs = .ok (items, left) ∧
          dropBlanks left = dropBlanks rest := by
    induction items with
    | nil =>
      intro budget cs _ hlength hcs
      cases budget with
      | zero => exact ⟨cs, rfl, hcs⟩
      | succ budget =>
        obtain ⟨left, hrun, hleft⟩ := hnone cs hlength hcs
        refine ⟨left, ?_, hleft⟩
        rw [many, run_bind_ok hrun]
        rfl
    | cons first others ih =>
      intro budget cs hbudget hlength hcs
      rw [List.flatMap_cons, List.append_assoc] at hcs
      have hnext' := fun a ha => hnext a (List.mem_cons_of_mem first ha)
      obtain ⟨left, hrun, hleft⟩ :=
        hitem first List.mem_cons_self _ (end_flatMap hnext' hend) cs
        hlength hcs
      have hshorter := Advances.length_lt hrun
      obtain ⟨budget, rfl⟩ : ∃ more, budget = more + 1 := ⟨budget - 1, by omega⟩
      have henough : left.length ≤ budget := by omega
      obtain ⟨last, hothers, hlast⟩ :=
        ih (fun a ha => hitem a (List.mem_cons_of_mem first ha))
        hnext' henough (by omega) hleft
      refine ⟨last, ?_, hlast⟩
      rw [many, run_bind_ok hrun]
      dsimp only
      rw [run_bind_ok hothers]
      rfl
  intro cs hlength hcs
  rw [run_bind_ok run_get]
  exact hloop (Nat.le_refl _) hlength hcs

/-- There is no part. -/
theorem recovers_many_none {item : Parser (Option α)} [Shrinks item] [Advances item]
    (hnone : Recovers n item [] none rest) :
    Recovers n (do many item (← get).length) [] [] rest := by
  have hitem : ∀ a ∈ ([] : List α), ∀ rest, True → Recovers n item [] (some a) rest := by simp
  exact recovers_many hitem (fun _ _ _ _ => trivial) trivial hnone

/-- **Parts with commas between them are read back.** -/
theorem Recovers.commaList {item : Parser α} [Shrinks item] (hne : items ≠ [])
    (hitem : ∀ a ∈ items, ∀ rest, End rest → Recovers n item (text a) a rest)
    (hcomma : ∀ more, End (',' :: more)) (hend : End rest)
    (hrest : front (dropBlanks rest) ≠ ',') :
    Recovers n (commaList item) (commaText (items.map text)) items rest := by
  obtain ⟨first, others, rfl⟩ := List.exists_cons_of_ne_nil hne
  have hnext : ∀ a ∈ others, ∀ rest, End rest →
      Recovers n (commaItem item) (',' :: ' ' :: text a) (some a) rest := by
    intro a ha rest hrest
    have ha := hitem a (List.mem_cons_of_mem first ha) rest hrest
    exact (recovers_consumeChar (by decide : isBlank ',' = false)).bind
      (ha.space.bind_pure rfl)
  have hnone : Recovers n (commaItem item) [] none rest :=
    (recovers_consumeChar_none hrest).bind_pure rfl
  have hmore := recovers_many hnext (fun a _ _ _ => hcomma _) hend hnone
  rw [commaText_map_cons]
  refine (hitem first List.mem_cons_self _
    (end_flatMap (fun a _ _ _ => hcomma _) hend)).bind ?_
  have hlast := hmore.bind_pure (f := fun others => pure (first :: others)) rfl
  simpa only [← moreItems_eq_many, bind_assoc] using hlast

end Lists

/-- Nothing but blanks is the end of the text. -/
theorem run_endOfText {cs : List Char} (h : dropBlanks cs = []) :
    endOfText.run cs = .ok ((), []) := by
  have hloop : ∀ budget, ∃ left, (skipSemicolons budget).run cs = .ok ((), left) ∧
      dropBlanks left = [] := by
    intro budget
    cases budget with
    | zero => exact ⟨cs, rfl, h⟩
    | succ budget =>
      have hother : front (dropBlanks cs) ≠ ';' := by
        rw [h]
        decide
      refine ⟨[], ?_, rfl⟩
      rw [skipSemicolons, run_bind_ok (run_consumeChar_of_ne hother), h]
      rfl
  obtain ⟨left, hrun, hleft⟩ := hloop cs.length
  rw [endOfText, run_bind_ok run_get, run_bind_ok hrun, run_bind_ok run_skipBlanks, hleft]
  rfl

end DocQuery.Scan
