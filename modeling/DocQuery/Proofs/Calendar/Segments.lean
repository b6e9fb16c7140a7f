import DocQuery.Proofs.Calendar.Patterns
import Mathlib.Data.List.Chain

/-!
# Patterns by their segments

A pattern is written segment by segment: runs of letters, sections between quotes, and
characters that stand for themselves.  Its format is the formats of the segments one after
the other.

* `Segment`, `Segment.MayMeet` — the segments of patterns, and which of them may stand
  side by side
* `Segment.items?`, `charsFormat_segments` — the format of a pattern, segment by segment
* `letterTable`, `runDirective?` — the directives of runs
* `Segment.pieces`, `map_directive_items?` — the format of a segment as a text
* `cutDirectives`, `cutDirectives_flatten` — a text is cut into its directives in one way only
* `patterns_translated_by_segments` — the text of the format of a pattern

### What is load-bearing

**Where a segment ends.**  A run ends where another letter follows it, and a section ends
at a quote that no quote follows.  This is all that is asked of neighbours
(`Segment.MayMeet`).

**What is cut.**  A percent sign takes the next character with it, so a percent sign that
stands for itself has to be doubled.  Else it would make a directive of the character
behind it.
-/

namespace DocQuery.Calendar

open Text

/-! ### Segments -/

/-- **A segment of a pattern**: letters of one kind, a character that stands for itself,
or a section between quotes. -/
inductive Segment where
  /-- One letter and `more` of the same. -/
  | run (letter : Char) (isLetter : letter.isAlpha = true) (more : Nat)
  | literal (c : Char) (isPlain : c.isAlpha = false ∧ c ≠ '\'')
  | quoted (text : List Char)

namespace Segment

/-- How a segment is written: in a section the quotes are doubled. -/
def chars : Segment → List Char
  | .run letter _ more => List.replicate (more + 1) letter
  | .literal c _ => [c]
  | .quoted text => '\'' :: (doubleChars '\'' text ++ ['\''])

/-- Segments that may stand side by side: two runs are of different letters, and two
sections do not touch. -/
def MayMeet : Segment → Segment → Prop
  | .run letter _ _, .run next _ _ => letter ≠ next
  | .quoted _, .quoted _ => False
  | _, _ => True

/-- The pattern that is made of segments. -/
def pattern (segments : List Segment) : String :=
  String.ofList (segments.flatMap chars)

/-- The items of a segment; none for a run that names no field. -/
def items? : Segment → Option Format
  | .run letter _ more => (letterItem letter (more + 1)).map ([·])
  | .literal c _ => some [literalItem c]
  | .quoted text => some (text.map literalItem)

/-- What comes behind a segment does not go on with it. -/
def EndsBefore (rest : List Char) : Segment → Prop
  | .run letter _ _ => rest.head? ≠ some letter
  | .literal _ _ => True
  | .quoted _ => rest.head? ≠ some '\''

theorem MayMeet.endsBefore {s next : Segment} (h : s.MayMeet next) (rest : List Char) :
    s.EndsBefore (next.chars ++ rest) := by
  cases s with
  | literal => exact trivial
  | run letter hletter =>
    intro heq
    cases next with
    | run other => exact h (Option.some.inj heq).symm
    | literal c hplain =>
      obtain rfl : c = letter := Option.some.inj heq
      exact Bool.false_ne_true (hplain.1.symm.trans hletter)
    | quoted =>
      obtain rfl : '\'' = letter := Option.some.inj heq
      exact absurd hletter (by decide)
  | quoted =>
    intro heq
    cases next with
    | run letter hletter =>
      obtain rfl : letter = '\'' := Option.some.inj heq
      exact absurd hletter (by decide)
    | literal c hplain => exact hplain.2 (Option.some.inj heq)
    | quoted => exact h

theorem endsBefore_of_isChain {s : Segment} {segments : List Segment}
    (h : (s :: segments).IsChain MayMeet) : s.EndsBefore (segments.flatMap chars) := by
  cases segments with
  | nil => cases s <;> simp [EndsBefore]
  | cons next segments =>
    rw [List.flatMap_cons]
    exact MayMeet.endsBefore (List.isChain_cons_cons.mp h).1 _

end Segment

/-- **Step.**  A segment at the front of a pattern is read by itself. -/
theorem charsFormat_segment (s : Segment) {rest : List Char} (h : s.EndsBefore rest) :
    charsFormat (s.chars ++ rest) = s.items?.bind fun items =>
    (charsFormat rest).map (items ++ ·) := by
  cases s with
  | run letter hletter more =>
    rw [Segment.items?, Option.bind_map]
    exact openFormat_letters hletter more h
  | literal c hplain => exact openFormat_literal false hplain.2 (fun _ => hplain.1) 1 rest
  | quoted text =>
    have hsection : doubleChars '\'' text ++ ['\''] ++ rest = doubleChars '\'' text ++ '\'' ::
        rest := by
      simp
    rw [Segment.chars, List.cons_append, charsFormat_cons, if_pos (beq_self_eq_true _),
      openFormat, if_pos rfl, hsection, quotedText_doubleChars text h]
    rfl

/-- **Run.**  A pattern is read segment by segment. -/
theorem charsFormat_segments {segments : List Segment}
    (h : segments.IsChain Segment.MayMeet) :
    charsFormat (segments.flatMap Segment.chars) =
      (segments.mapM Segment.items?).map List.flatten := by
  induction segments with
  | nil => rfl
  | cons s segments ih =>
    rw [List.flatMap_cons, charsFormat_segment s (Segment.endsBefore_of_isChain h), ih h.tail,
      List.mapM_cons]
    cases s.items? with
    | none => rfl
    | some items =>
      cases segments.mapM Segment.items? with
      | none => rfl
      | some more => rfl

/-! ### Directives -/

/-- The name of an item, as formats are usually written; a character stands for itself,
and a percent sign is doubled. -/
def Item.directive : Item → String
  | .literal '%' => "%%"
  | .literal c => String.ofList [c]
  | .blank c => String.ofList [c]
  | .year => "%Y"
  | .yearOfCentury => "%y"
  | .month => "%m"
  | .monthShort => "%b"
  | .monthLong => "%B"
  | .day => "%d"
  | .ordinal => "%j"
  | .hour => "%H"
  | .hour12 => "%I"
  | .minute => "%M"
  | .second => "%S"
  | .fraction => "%.f"
  | .fractionDigits count => "%" ++ toString count ++ "f"
  | .halfDay => "%p"
  | .weekdayShort => "%a"
  | .weekdayLong => "%A"
  | .offset => "%z"

/-- **The directives of runs**: the letters, the lengths of a run, and the directive.  Of
several rows for a letter the first one counts. -/
def letterTable : List (List Char × (Nat → Bool) × String) := [
  (['y', 'u'], (· == 2), "%y"),
  (['y', 'u'], fun _ => true, "%Y"),
  (['M'], (· ≤ 2), "%m"),
  (['M'], (· == 3), "%b"),
  (['M'], fun _ => true, "%B"),
  (['d'], fun _ => true, "%d"),
  (['D'], fun _ => true, "%j"),
  (['H'], fun _ => true, "%H"),
  (['h'], fun _ => true, "%I"),
  (['m'], fun _ => true, "%M"),
  (['s'], fun _ => true, "%S"),
  (['S'], (· == 3), "%3f"),
  (['S'], (· == 6), "%6f"),
  (['S'], (· == 9), "%9f"),
  (['a'], fun _ => true, "%p"),
  (['E'], (· ≤ 3), "%a"),
  (['E'], fun _ => true, "%A"),
  (['X', 'x', 'Z'], fun _ => true, "%z")]

/-- The directive of a run of `count` equal letters. -/
def runDirective? (letter : Char) (count : Nat) : Option String :=
  (letterTable.find? fun row => row.1.contains letter && row.2.1 count).map fun row => row.2.2

/-- A run of letters names a field exactly if it has a directive. -/
theorem map_directive_letterItem (letter : Char) (count : Nat) :
    (letterItem letter count).map Item.directive = runDirective? letter count := by
  rw [letterItem.eq_def]
  split
  -- for five letters the length of the run matters: `y`, `u`, `M`, `S` and `E`
  case h_1 | h_2 => cases h : count == 2 <;>
    simp [runDirective?, letterTable, h, Item.directive]
  case h_3 =>
    by_cases htwo : count ≤ 2 <;> by_cases hthree : count = 3 <;>
      simp [runDirective?, letterTable, htwo, hthree, Item.directive]
  case h_10 =>
    by_cases hthree : count = 3
    · subst hthree; decide
    by_cases hsix : count = 6
    · subst hsix; decide
    by_cases hnine : count = 9
    · subst hnine; decide
    simp [runDirective?, letterTable, hthree, hsix, hnine]
  case h_12 => by_cases hthree : count ≤ 3 <;>
    simp [runDirective?, letterTable, hthree, Item.directive]
  case h_16 => simp_all [runDirective?, letterTable]
  all_goals rfl

/-- The text of a format: the directives of its items. -/
def Format.text (format : Format) : List Char :=
  format.flatMap fun item => item.directive.toList

/-- A character that stands for itself, as a piece of a format; a percent sign is doubled. -/
def literalPiece (c : Char) : List Char :=
  if c == '%' then ['%', '%'] else [c]

theorem toList_directive_literalItem (c : Char) :
    (literalItem c).directive.toList = literalPiece c := by
  by_cases hc : c = '%'
  · subst hc
    decide
  · rw [literalPiece, if_neg (by simpa using hc), literalItem]
    split
    · rw [Item.directive, String.toList_ofList]
    · rw [Item.directive, String.toList_ofList]
      exact fun heq => hc (by simpa using heq)

namespace Segment

/-- Whether a segment has a format: a run needs a directive. -/
def supported : Segment → Bool
  | .run letter _ more => (runDirective? letter (more + 1)).isSome
  | .literal _ _ => true
  | .quoted _ => true

/-- The directive of a run. -/
def directive? : Segment → Option (List Char)
  | .run letter _ more => (runDirective? letter (more + 1)).map String.toList
  | .literal _ _ => none
  | .quoted _ => none

/-- **What a segment is translated to**: a run to its directive, and all else to the
characters that it stands for. -/
def pieces : Segment → List (List Char)
  | .run letter _ more => (runDirective? letter (more + 1)).toList.map String.toList
  | .literal c _ => [literalPiece c]
  | .quoted text => text.map literalPiece

theorem map_directive_items? (s : Segment) :
    s.items?.map (List.map fun item => item.directive.toList) =
      if s.supported then some s.pieces else none := by
  cases s with
  | run letter _ more =>
    rw [supported, pieces, ← map_directive_letterItem, items?]
    cases letterItem letter (more + 1) with
    | none => rfl
    | some item => rfl
  | literal c =>
    rw [supported, pieces, if_pos rfl, ← toList_directive_literalItem]
    rfl
  | quoted text =>
    rw [supported, pieces, if_pos rfl, items?, Option.map_some, List.map_map]
    exact congrArg some (List.map_congr_left fun c _ => toList_directive_literalItem c)

section Lists

variable {segments : List Segment}

/-- The segments of a pattern have a format together if each of them has one. -/
theorem exists_mapM_items? (h : ∀ s ∈ segments, s.supported = true) :
    ∃ lists, segments.mapM items? = some lists ∧
      (lists.flatten.map fun item => item.directive.toList) = segments.flatMap pieces := by
  induction segments with
  | nil => exact ⟨[], rfl, rfl⟩
  | cons s segments ih =>
    obtain ⟨hs, hsegments⟩ := List.forall_mem_cons.mp h
    obtain ⟨lists, hlists, hpieces⟩ := ih hsegments
    have hitems := s.map_directive_items?
    rw [hs, if_pos rfl, Option.map_eq_some_iff] at hitems
    obtain ⟨items, hitems, hfirst⟩ := hitems
    refine ⟨items :: lists, ?_, ?_⟩
    · rw [List.mapM_cons, hitems, hlists]
      rfl
    · rw [List.flatten_cons, List.map_append, hfirst, hpieces, List.flatMap_cons]

/-- One segment without a format is enough for the pattern to have none. -/
theorem mapM_items?_eq_none (h : ∃ s ∈ segments, s.supported = false) :
    segments.mapM items? = none := by
  induction segments with
  | nil =>
    obtain ⟨s, hs, -⟩ := h
    cases hs
  | cons s segments ih =>
    obtain ⟨x, hx, hnone⟩ := h
    rw [List.mapM_cons]
    rcases List.mem_cons.mp hx with rfl | hx
    · have hitems := x.map_directive_items?
      rw [hnone, if_neg Bool.false_ne_true, Option.map_eq_none_iff] at hitems
      rw [hitems]
      rfl
    · rw [ih ⟨x, hx, hnone⟩]
      cases s.items? <;> rfl

end Lists

end Segment

/-! ### Cutting a text into directives -/

/-- **A text cut into directives and single characters.**  A percent sign takes the next
character with it, and a digit the one behind it too. -/
def cutDirectives : List Char → List (List Char)
  | '%' :: d :: c :: rest =>
    if d.isDigit then ['%', d, c] :: cutDirectives rest
    else ['%', d] :: cutDirectives (c :: rest)
  | ['%', d] => [['%', d]]
  | c :: rest => [c] :: cutDirectives rest
  | [] => []

/-- Whether a piece names a field.  A percent sign that is doubled stands for itself. -/
def isDirective (piece : List Char) : Bool :=
  piece.head? == some '%' && piece != ['%', '%']

/-- The pieces that a text is cut into: a character by itself, a percent sign with one
character, or a percent sign with a digit and one character. -/
def isPiece : List Char → Bool
  | [c] => c != '%'
  | [sign, d] => sign == '%' && !d.isDigit
  | [sign, d, _] => sign == '%' && d.isDigit
  | _ => false

/-- **A piece at the front of a text is cut off.** -/
theorem cutDirectives_append {piece : List Char} (h : isPiece piece = true)
    (rest : List Char) : cutDirectives (piece ++ rest) = piece :: cutDirectives rest := by
  rw [isPiece.eq_def] at h
  split at h
  · rename_i c
    have hc : c ≠ '%' := bne_iff_ne.mp h
    rw [List.singleton_append, cutDirectives]
    · exact fun _ _ _ heq _ => hc heq
    · exact fun _ heq _ => hc heq
  · obtain ⟨hsign, hd⟩ := Bool.and_eq_true_iff.mp h
    obtain rfl := beq_iff_eq.mp hsign
    cases rest with
    | nil => rfl
    | cons c rest => exact if_neg (by simpa using hd)
  · obtain ⟨hsign, hd⟩ := Bool.and_eq_true_iff.mp h
    obtain rfl := beq_iff_eq.mp hsign
    exact if_pos hd
  · cases h

/-- **A text that is made of pieces is cut into these pieces.** -/
theorem cutDirectives_flatten {pieces : List (List Char)}
    (h : ∀ piece ∈ pieces, isPiece piece = true) :
    cutDirectives pieces.flatten = pieces := by
  induction pieces with
  | nil => rfl
  | cons piece pieces ih =>
    obtain ⟨hpiece, hpieces⟩ := List.forall_mem_cons.mp h
    rw [List.flatten_cons, cutDirectives_append hpiece, ih hpieces]

theorem isPiece_literalPiece (c : Char) : isPiece (literalPiece c) = true := by
  rw [literalPiece]
  split
  · decide
  · rename_i hc
    simpa [isPiece] using hc

theorem isDirective_literalPiece (c : Char) : isDirective (literalPiece c) = false := by
  rw [literalPiece]
  split
  · decide
  · rename_i hc
    simpa [isDirective] using fun h => absurd (beq_iff_eq.mpr h) hc

/-- The directive of a run is a piece that names a field. -/
theorem isPiece_of_runDirective? {letter : Char} {count : Nat} {directive : String}
    (h : runDirective? letter count = some directive) :
    isPiece directive.toList = true ∧ isDirective directive.toList = true := by
  have htable : letterTable.all (fun row => isPiece row.2.2.toList &&
      isDirective row.2.2.toList) = true := by
    decide
  obtain ⟨row, hrow, rfl⟩ := Option.map_eq_some_iff.mp h
  have hpiece := List.all_eq_true.mp htable row (List.mem_of_find?_eq_some hrow)
  rwa [Bool.and_eq_true] at hpiece

namespace Segment

theorem isPiece_of_mem_pieces {s : Segment} {piece : List Char} (h : piece ∈ s.pieces) :
    isPiece piece = true := by
  cases s with
  | run letter _ more =>
    obtain ⟨directive, hdirective, rfl⟩ := List.mem_map.mp h
    exact (isPiece_of_runDirective? (Option.mem_toList.mp hdirective)).1
  | literal c =>
    rw [List.mem_singleton.mp h]
    exact isPiece_literalPiece c
  | quoted text =>
    obtain ⟨c, -, rfl⟩ := List.mem_map.mp h
    exact isPiece_literalPiece c

/-- Of the pieces of a segment, only the directive of a run names a field. -/
theorem filter_isDirective_pieces (s : Segment) :
    s.pieces.filter isDirective = s.directive?.toList := by
  cases s with
  | run letter _ more =>
    rw [pieces, directive?]
    cases hdirective : runDirective? letter (more + 1) with
    | none => rfl
    | some directive =>
      exact List.filter_cons_of_pos (isPiece_of_runDirective? hdirective).2
  | literal c =>
    exact List.filter_cons_of_neg (by rw [isDirective_literalPiece]; exact Bool.false_ne_true)
  | quoted text =>
    rw [pieces, directive?, Option.toList_none, List.filter_eq_nil_iff]
    intro piece hpiece
    obtain ⟨c, -, rfl⟩ := List.mem_map.mp hpiece
    rw [isDirective_literalPiece]
    exact Bool.false_ne_true

end Segment

open Segment in
/-- **Patterns are translated segment by segment.**  If every run of a pattern has a
directive, the pattern has a format, and the text of the format is the directive of each
run, each character that stands for itself, and the text of each section, in order and
with every percent sign doubled that is no directive.  Cut into pieces, this text has the
directives of the runs and no others.  A pattern with a run that has no directive has no
format. -/
theorem patterns_translated_by_segments {segments : List Segment}
    (h : segments.IsChain MayMeet) :
    ((∀ s ∈ segments, s.supported = true) →
      ∃ format, formatOfPattern (pattern segments) = some format ∧
        format.text = (segments.flatMap pieces).flatten ∧
        (cutDirectives format.text).filter isDirective = segments.filterMap directive?) ∧
      ((∃ s ∈ segments, s.supported = false) →
        formatOfPattern (pattern segments) = none) := by
  have hformat : formatOfPattern (pattern segments) =
      (segments.mapM items?).map List.flatten := by
    rw [formatOfPattern_eq, pattern, String.toList_ofList, charsFormat_segments h]
  rw [hformat]
  constructor
  · intro hsupported
    obtain ⟨lists, hlists, hpieces⟩ := exists_mapM_items? hsupported
    have htext : Format.text lists.flatten = (segments.flatMap pieces).flatten := by
      rw [← hpieces, Format.text, List.flatMap_def]
    refine ⟨lists.flatten, by rw [hlists, Option.map_some], htext, ?_⟩
    have hcut : cutDirectives (segments.flatMap pieces).flatten =
        segments.flatMap pieces := by
      refine cutDirectives_flatten fun piece hpiece => ?_
      obtain ⟨s, -, hs⟩ := List.mem_flatMap.mp hpiece
      exact isPiece_of_mem_pieces hs
    rw [htext, hcut, List.filter_flatMap, List.filterMap_eq_flatMap_toList]
    exact List.flatMap_congr fun s _ => filter_isDirective_pieces s
  · intro hunsupported
    rw [mapM_items?_eq_none hunsupported, Option.map_none]

/-- A year, a percent sign, a section with a quote and a percent sign, and two equal
letters. -/
def clockSegments (letter : Char) (hletter : letter.isAlpha = true) : List Segment :=
  [.run 'y' (by decide) 3, .literal '%' (by decide), .quoted ['o', '\'', 'd', '%'],
    .run letter hletter 1]

open Segment in
/-- With days the pattern has a format, in which the percent signs and the letter between
the quotes name nothing.  With a letter that names no field it has none. -/
theorem patterns_translated_by_segments_clock :
    (clockSegments 'd' (by decide)).IsChain MayMeet ∧
      (∀ s ∈ clockSegments 'd' (by decide), s.supported = true) ∧
      (∃ format, formatOfPattern "yyyy%'o''d%'dd" = some format ∧
        format.text = "%Y%%o'd%%%d".toList ∧
        (cutDirectives format.text).filter isDirective = ["%Y".toList, "%d".toList]) ∧
      (∃ s ∈ clockSegments 'Q' (by decide), s.supported = false) ∧
      formatOfPattern "yyyy%'o''d%'QQ" = none := by
  have hchain : ∀ letter hletter, (clockSegments letter hletter).IsChain MayMeet := by
    intro letter hletter
    simp [clockSegments, MayMeet]
  have hsupported : ∀ s ∈ clockSegments 'd' (by decide), s.supported = true :=
    List.all_eq_true.mp (by decide)
  have hunsupported : ∃ s ∈ clockSegments 'Q' (by decide), s.supported = false :=
    ⟨.run 'Q' (by decide) 1, by simp [clockSegments], by decide⟩
  exact ⟨hchain 'd' (by decide), hsupported,
    (patterns_translated_by_segments (hchain 'd' (by decide))).1 hsupported, hunsupported,
    (patterns_translated_by_segments (hchain 'Q' (by decide))).2 hunsupported⟩

end DocQuery.Calendar
