import DocQuery.Proofs.Calendar.Patterns

/-!
# What dates are written with

No field of a date is written with a single quote.  A format reads a text with a quote in
it only if it has an item for the quote.

* `Quoteless` — no quote stands between two places of a text
* `Item.quoteless_read` — one item reads no quote
* `Format.read_eq_none` — a format without quotes reads no text with a quote in it
* `readWithPattern_double` — doubled quotes do no harm to a pattern that hides nothing
-/

namespace DocQuery.Calendar

open Text

/-- There is no quote between two places of a text. -/
def Quoteless (cs rest : List Char) : Prop :=
  ∃ front, cs = front ++ rest ∧ '\'' ∉ front

namespace Quoteless

variable {cs after rest : List Char} {c : Char}

theorem refl (cs : List Char) : Quoteless cs cs :=
  ⟨[], rfl, List.not_mem_nil⟩

theorem trans (h : Quoteless cs after) (h' : Quoteless after rest) : Quoteless cs rest := by
  obtain ⟨front, rfl, hfront⟩ := h
  obtain ⟨middle, rfl, hmiddle⟩ := h'
  exact ⟨front ++ middle, (List.append_assoc ..).symm, List.not_mem_append hfront hmiddle⟩

theorem cons (hc : '\'' ≠ c) (h : Quoteless cs rest) : Quoteless (c :: cs) rest := by
  obtain ⟨front, rfl, hfront⟩ := h
  exact ⟨c :: front, rfl, List.not_mem_cons_of_ne_of_not_mem hc hfront⟩

theorem drop {n : Nat} (h : '\'' ∉ cs.take n) : Quoteless cs (cs.drop n) :=
  ⟨cs.take n, (List.take_append_drop n cs).symm, h⟩

theorem dropWhile {p : Char → Bool} (hp : p '\'' = false) (cs : List Char) :
    Quoteless cs (cs.dropWhile p) := by
  refine ⟨cs.takeWhile p, List.takeWhile_append_dropWhile.symm, fun hmem => ?_⟩
  have hquote := List.all_eq_true.mp List.all_takeWhile _ hmem
  exact Bool.false_ne_true (hp.symm.trans hquote)

theorem dropBlanks (cs : List Char) : Quoteless cs (dropBlanks cs) :=
  dropWhile (by decide) cs

/-- If no quote is left then there was none. -/
theorem quote_notMem (h : Quoteless cs rest) (hrest : '\'' ∉ rest) : '\'' ∉ cs := by
  obtain ⟨front, rfl, hfront⟩ := h
  exact List.not_mem_append hfront hrest

end Quoteless

/-! ### Parts of dates -/

section Parts

variable {cs rest : List Char}

theorem ne_of_isDigit {c : Char} (h : c.isDigit = true) : '\'' ≠ c := by
  rintro rfl
  exact absurd h (by decide)

theorem quoteless_readDigits {least width n : Nat}
    (h : readDigits least width cs = some (n, rest)) : Quoteless cs rest := by
  unfold readDigits at h
  dsimp only at h
  split at h
  · cases h
  · cases h
    have hdigits : (cs.take width).takeWhile Char.isDigit <+: cs :=
      (List.takeWhile_prefix _).trans (List.take_prefix width cs)
    refine Quoteless.drop fun hmem => ?_
    rw [← List.prefix_iff_eq_take.mp hdigits] at hmem
    exact ne_of_isDigit (List.all_eq_true.mp List.all_takeWhile _ hmem) rfl

theorem quoteless_readNumber {width n : Nat} (h : readNumber width cs = some (n, rest)) :
    Quoteless cs rest :=
  (Quoteless.dropBlanks cs).trans (quoteless_readDigits h)

theorem quoteless_signed {sign : Nat × List Char → Int} {width : Nat} {n : Int}
    (h : (readDigits 1 width cs).map (fun x => (sign x, x.2)) = some (n, rest)) :
    Quoteless cs rest := by
  obtain ⟨⟨k, after⟩, hread, heq⟩ := Option.map_eq_some_iff.mp h
  cases heq
  exact quoteless_readDigits hread

theorem quoteless_readYear {n : Int} (h : readYear cs = some (n, rest)) :
    Quoteless cs rest := by
  refine (Quoteless.dropBlanks cs).trans ?_
  unfold readYear at h
  split at h
  · rename_i hcs
    rw [hcs]
    exact (quoteless_signed h).cons (by decide)
  · rename_i hcs
    rw [hcs]
    exact (quoteless_signed h).cons (by decide)
  · exact quoteless_signed h

/-- Words are compared up to case, and a quote has no other case. -/
theorem quoteless_dropWord? {word : String} (hword : '\'' ∉ word.toList.map Char.toLower)
    (h : dropWord? word cs = some rest) : Quoteless cs rest := by
  unfold dropWord? at h
  dsimp only at h
  split at h
  · rename_i hsame
    cases h
    have hcase : word.toList.map Char.toLower = (cs.take word.length).map Char.toLower := by
      simpa [sameWord] using (Bool.and_eq_true_iff.mp hsame).2
    refine Quoteless.drop fun hmem => hword ?_
    rw [hcase]
    exact List.mem_map_of_mem (f := Char.toLower) hmem
  · cases h

theorem quoteless_readName {words : List String}
    (hwords : ∀ word ∈ words, '\'' ∉ word.toList.map Char.toLower) {index n : Nat}
    (h : readName index cs words = some (n, rest)) : Quoteless cs rest := by
  induction words generalizing index with
  | nil => cases h
  | cons word words ih =>
    rw [readName] at h
    split at h
    · rename_i hdrop
      cases h
      exact quoteless_dropWord? (hwords word List.mem_cons_self) hdrop
    · exact ih (fun w hw => hwords w (List.mem_cons_of_mem word hw)) h

theorem quoteless_readLongName {names endings : List String}
    (hnames : ∀ word ∈ names, '\'' ∉ word.toList.map Char.toLower)
    (hendings : ∀ word ∈ endings, '\'' ∉ word.toList.map Char.toLower) {n : Nat}
    (h : readLongName names endings cs = some (n, rest)) : Quoteless cs rest := by
  obtain ⟨⟨index, after⟩, hname, heq⟩ := Option.bind_eq_some_iff.mp h
  cases heq
  refine (quoteless_readName hnames hname).trans ?_
  cases hdrop : dropWord? (endings.getD n "") after with
  | none => exact .refl after
  | some rest =>
    refine quoteless_dropWord? ?_ hdrop
    rw [List.getD_eq_getElem?_getD]
    cases hending : endings[n]? with
    | none => decide
    | some word => exact hendings word (List.mem_of_getElem? hending)

theorem quoteless_readFraction {n : Nat} (h : readFraction cs = some (n, rest)) :
    Quoteless cs rest := by
  obtain ⟨⟨digits, after⟩, hread, heq⟩ := Option.bind_eq_some_iff.mp h
  cases heq
  exact (quoteless_readDigits hread).trans (.dropWhile (by decide) after)

theorem quoteless_readPair {n : Nat} (h : readPair cs = some (n, rest)) :
    Quoteless cs rest := by
  unfold readPair at h
  split at h
  · split at h
    · rename_i hdigits
      cases h
      obtain ⟨ha, hb⟩ := Bool.and_eq_true_iff.mp hdigits
      exact ((Quoteless.refl rest).cons (ne_of_isDigit hb)).cons (ne_of_isDigit ha)
    · cases h
  · cases h

theorem quoteless_dropChar? {c : Char} (hc : '\'' ≠ c) (h : dropChar? c cs = some rest) :
    Quoteless cs rest := by
  cases cs with
  | nil => cases h
  | cons a after =>
    rw [dropChar?] at h
    split at h
    · rename_i heq
      cases h
      exact (Quoteless.refl _).cons (by rwa [eq_of_beq heq])
    · cases h

theorem quoteless_hoursMinutes {separator : List Char → Option (List Char)}
    (hseparator : ∀ {cs rest}, separator cs = some rest → Quoteless cs rest) {negative : Bool}
    {n : Int}
    (h : ((readPair cs).bind fun x => (separator x.2).bind fun after =>
      (readPair after).bind fun y =>
      if 60 ≤ y.1 then none
      else some (if negative then -(x.1 * 3600 + y.1 * 60 : Int) else x.1 * 3600 +
        y.1 * 60, y.2)) =
        some (n, rest)) : Quoteless cs rest := by
  obtain ⟨⟨hours, afterHours⟩, hhours, h⟩ := Option.bind_eq_some_iff.mp h
  obtain ⟨afterSeparator, hsep, h⟩ := Option.bind_eq_some_iff.mp h
  obtain ⟨⟨minutes, afterMinutes⟩, hminutes, h⟩ := Option.bind_eq_some_iff.mp h
  split at h
  · cases h
  · cases h
    exact ((quoteless_readPair hhours).trans (hseparator hsep)).trans
      (quoteless_readPair hminutes)

theorem quoteless_readOffset {separator : List Char → Option (List Char)}
    (hseparator : ∀ {cs rest}, separator cs = some rest → Quoteless cs rest) {n : Int}
    (h : readOffset separator cs = some (n, rest)) : Quoteless cs rest := by
  unfold readOffset at h
  dsimp only at h
  split at h
  · exact (quoteless_hoursMinutes hseparator h).cons (by decide)
  · exact (quoteless_hoursMinutes hseparator h).cons (by decide)
  · exact (quoteless_hoursMinutes hseparator h).cons (by decide)
  · cases h

end Parts

/-! ### Items and formats -/

/-- Storing a field leaves what is left of the text as it is. -/
theorem exists_of_stored {α : Type} {read : Option (α × List Char)}
    {store : α × List Char → Option Fields} {g : Fields} {rest : List Char}
    (h : (read.bind fun x => (store x).bind fun g => some (g, x.2)) = some (g, rest)) :
    ∃ a, read = some (a, rest) := by
  obtain ⟨⟨a, after⟩, hread, h⟩ := Option.bind_eq_some_iff.mp h
  obtain ⟨stored, -, h⟩ := Option.bind_eq_some_iff.mp h
  cases h
  exact ⟨a, hread⟩

/-- **An item reads no quote**, but for a quote that stands for itself. -/
theorem Item.quoteless_read {item : Item} (hitem : item ≠ .literal '\'') {f g : Fields}
    {cs rest : List Char} (h : item.read f cs = some (g, rest)) : Quoteless cs rest := by
  have number {width : Nat} {store : Nat × List Char → Option Fields}
      (h : ((readNumber width cs).bind fun x => (store x).bind fun g => some (g, x.2)) =
        some (g, rest)) :
      Quoteless cs rest := by
    obtain ⟨n, hread⟩ := exists_of_stored h
    exact quoteless_readNumber hread
  cases item with
  | literal c =>
    obtain ⟨after, hdrop, heq⟩ := Option.bind_eq_some_iff.mp h
    cases heq
    exact quoteless_dropChar? (fun hc => hitem (hc ▸ rfl)) hdrop
  | blank c =>
    cases h
    exact .dropBlanks cs
  | year =>
    obtain ⟨n, hread⟩ := exists_of_stored h
    exact quoteless_readYear hread
  | yearOfCentury | month | day | ordinal | hour | hour12 | minute | second => exact number h
  | monthShort | halfDay | weekdayShort =>
    obtain ⟨n, hread⟩ := exists_of_stored h
    exact quoteless_readName (by decide) hread
  | monthLong | weekdayLong =>
    obtain ⟨n, hread⟩ := exists_of_stored h
    exact quoteless_readLongName (by decide) (by decide) hread
  | fraction =>
    dsimp only [Item.read] at h
    split at h
    · obtain ⟨n, hread⟩ := exists_of_stored h
      exact (quoteless_readFraction hread).cons (by decide)
    · cases h
      exact .refl cs
  | fractionDigits count =>
    obtain ⟨n, hread⟩ := exists_of_stored h
    exact quoteless_readDigits hread
  | offset =>
    obtain ⟨n, hread⟩ := exists_of_stored h
    refine (Quoteless.dropBlanks cs).trans (quoteless_readOffset ?_ hread)
    rintro cs rest ⟨⟩
    exact .dropWhile (by decide) cs

namespace Format

variable {format : Format} {f g : Fields} {cs : List Char}

/-- Item by item, no quote is read. -/
theorem quote_notMem_of_readFrom (hformat : .literal '\'' ∉ format)
    (h : readFrom f format cs = some g) : '\'' ∉ cs := by
  induction format generalizing f cs with
  | nil =>
    cases cs with
    | nil => exact List.not_mem_nil
    | cons c cs => cases h
  | cons item items ih =>
    obtain ⟨hitem, hitems⟩ := not_or.mp (mt List.mem_cons.mpr hformat)
    obtain ⟨⟨stored, rest⟩, hread, h⟩ := Option.bind_eq_some_iff.mp h
    exact (Item.quoteless_read (Ne.symm hitem) hread).quote_notMem (ih hitems h)

/-- **A format without quotes reads no text with a quote in it.** -/
theorem read_eq_none (hformat : .literal '\'' ∉ format) {text : String}
    (htext : '\'' ∈ text.toList) : format.read text = none :=
  Option.eq_none_iff_forall_ne_some.mpr fun _ h => quote_notMem_of_readFrom hformat h htext

end Format

/-! ### Reading with patterns -/

section Patterns

variable {p v : String}

theorem readWithPattern_eq_none_of_quote
    (hp : ∀ f, formatOfPattern p = some f → .literal '\'' ∉ f) (hv : '\'' ∈ v.toList) :
    readWithPattern p v = none := by
  rw [readWithPattern]
  cases hf : formatOfPattern p with
  | none => rfl
  | some f =>
    have hread : f.read v = none := Format.read_eq_none (hp f hf) hv
    simp only [Option.bind_eq_bind, Option.bind_some, Format.instant?, Format.local?,
      Format.date?, hread]
    rfl

/-- **Doubled quotes do no harm if the pattern hides nothing**, and none if it has no
format. -/
theorem readWithPattern_double (h : hidesNothing p = true ∨ formatOfPattern p = none)
    (v : String) :
    readWithPattern (double '\'' p) (double '\'' v) = readWithPattern p v := by
  rcases h with h | h
  · obtain ⟨hsame, hnone⟩ := formatOfPattern_double_of_hidesNothing h
    by_cases hv : '\'' ∈ v.toList
    · have hdouble : '\'' ∈ (double '\'' v).toList := by rwa [toList_double, mem_doubleChars]
      rw [readWithPattern_eq_none_of_quote hnone hv,
        readWithPattern_eq_none_of_quote (by rwa [hsame]) hdouble]
    · rw [double_eq_self hv, readWithPattern, hsame, readWithPattern]
  · rw [readWithPattern, readWithPattern, formatOfPattern_double_eq_none h, h]
    rfl

end Patterns

end DocQuery.Calendar
