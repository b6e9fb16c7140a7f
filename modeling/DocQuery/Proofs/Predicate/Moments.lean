import DocQuery.Predicate.Moment
import DocQuery.Proofs.Calendar.Consumed
import DocQuery.Proofs.Operand.Quoted

/-!
# Points in time from texts

A comparison with a point in time holds two string constants, the pattern and the text.
Both are read as they stand between their quotes, with the quotes of their own still
doubled.

* `Moment.comparison`, `Moment.comparisonText` — the comparison and how it is written
* `Moment.ofExpr?_comparison_eq_ok_iff` — when it gives a point in time
* `moments_read_from_raw_texts` — which patterns can be used from a query

### What is load-bearing

A pattern puts text between quotes to hide it from being read as fields.  With its quotes
doubled the pattern hides nothing, so the text is taken for fields after all.
-/

namespace DocQuery

open Sql Scan Text Calendar

namespace Moment

/-- The comparison of a field with the point in time that a text names by a pattern. -/
def comparison (field : Expr) (op : Comparison) (pattern text : String) : Expr :=
  .compare op (.call "date" false [field, .literal (.string (double '\'' pattern))])
    (.literal (.string (double '\'' text)))

/-- How the comparison is written. -/
def comparisonText (field : Expr) (op : Comparison) (pattern text : String) : String :=
  "date(" ++ field.display ++ ", " ++ inQuotes '\'' pattern ++ ") " ++ op.symbol ++ " " ++
    inQuotes '\'' text

section Comparison

variable {field : Expr} {op : Comparison} {pattern text : String}

theorem text_comparison : (comparison field op pattern text).text =
    (comparisonText field op pattern text).toList := by
  have hargs : commaText ([field, .literal (.string (double '\'' pattern))].map Expr.text) =
      field.text ++ ',' :: ' ' :: (inQuotes '\'' pattern).toList := by
    rw [← text_double]
    simp [commaText]
  rw [comparison, text_compare, text_call, hargs, text_double, comparisonText]
  simp [distinctText, Expr.text]

theorem isFormula_comparison (hfield : field.IsOperand) :
    (comparison field op pattern text).IsFormula := by
  refine .test (.compare op (.call (by decide) ?_ nofun) (isOperand_double text))
  simpa using ⟨hfield, isOperand_double pattern⟩

/-- **A comparison is read from its text**, whatever quotes its pattern and its text have. -/
theorem run_comparisonText (hfield : field.IsOperand) :
    (Cursor.ofString (comparisonText field op pattern text)).run parseExpr =
      (.ok (comparison field op pattern text),
        ⟨(comparisonText field op pattern text).toList, []⟩) := by
  have hread := run_parseExpr_text (@isFormula_comparison field op pattern text hfield)
  rw [text_comparison] at hread
  rw [Cursor.run, Cursor.ofString]
  simp only [hread]

theorem parts?_date (field : Expr) (raw : String) :
    parts? ⟨"date", false, [field, .literal (.string raw)]⟩ = some (field, raw) := by
  have hname : sameWord (trim "date") "date" = true := by decide
  simp only [parts?, Call.isNamed, hname, if_pos]

/-- **The pattern and the text are read with their quotes doubled.** -/
theorem ofExpr?_comparison_eq_ok_iff (hop : op ≠ .ne) (m : Option Moment) :
    ofExpr? (comparison field op pattern text) = .ok m ↔
      ∃ instant, readWithPattern (double '\'' pattern) (double '\'' text) = some instant ∧
        m = some ⟨field.stringValue, op, instant⟩ := by
  have hne : (op == .ne) = false := beq_eq_false_iff_ne.mpr hop
  have hof : ofExpr? (comparison field op pattern text) =
      (read (double '\'' pattern) (double '\'' text)).bind fun instant =>
        .ok (some ⟨field.stringValue, op, instant⟩) := by
    simp only [comparison, ofExpr?, ofComparison?, parts?_date, hne]
    rfl
  rw [hof, read]
  cases readWithPattern (double '\'' pattern) (double '\'' text) with
  | none => exact iff_of_false nofun nofun
  | some instant =>
    constructor
    · rintro ⟨⟩
      exact ⟨instant, rfl, rfl⟩
    · rintro ⟨_, ⟨⟩, rfl⟩
      rfl

end Comparison

end Moment

/-- **Points in time are read from raw texts.**  A comparison with a point in time is read
from its text up to the end, but its pattern and its text are then used with their quotes
doubled.  So a pattern is read as if its quotes hid nothing.  If it does hide nothing, the
comparison asks for the point in time that the text names by the pattern, and fails if the
text names none; a pattern without a format always fails.  Every other pattern stands for
another format, or takes a quote. -/
theorem moments_read_from_raw_texts (field : Expr) {op : Comparison} (hop : op ≠ .ne)
    (p v : String) :
    (field.IsOperand → (Cursor.ofString (Moment.comparisonText field op p v)).run parseExpr =
      (.ok (Moment.comparison field op p v),
        ⟨(Moment.comparisonText field op p v).toList, []⟩)) ∧
    (∀ m, Moment.ofExpr? (Moment.comparison field op p v) = .ok m ↔
      ∃ instant, readWithPattern (double '\'' p) (double '\'' v) = some instant ∧
        m = some ⟨field.stringValue, op, instant⟩) ∧
    formatOfPattern (double '\'' p) = flatFormat p ∧
    (hidesNothing p = true ∨ formatOfPattern p = none →
      ∀ m, Moment.ofExpr? (Moment.comparison field op p v) = .ok m ↔
        ∃ instant, readWithPattern p v = some instant ∧
          m = some ⟨field.stringValue, op, instant⟩) ∧
    ∀ f, formatOfPattern p = some f →
      (hidesNothing p = true ↔ formatOfPattern (double '\'' p) = some f ∧
        .literal '\'' ∉ f) := by
  refine ⟨Moment.run_comparisonText, Moment.ofExpr?_comparison_eq_ok_iff hop,
    formatOfPattern_double p, fun hp m => ?_, fun f hf =>
      ⟨fun hp => ?_, fun ⟨hdouble, hnone⟩ => ?_⟩⟩
  · rw [← readWithPattern_double hp v]
    exact Moment.ofExpr?_comparison_eq_ok_iff hop m
  · obtain ⟨hsame, hnone⟩ := formatOfPattern_double_of_hidesNothing hp
    exact ⟨hsame.trans hf, hnone f hf⟩
  · exact hidesNothing_of_formatOfPattern_double hf hdouble hnone

/-- `yyyy-MM-dd'T'HH:mm:ss` hides a letter, and cannot be used from a query. -/
theorem moments_read_from_raw_texts_hidden :
    Comparison.eq ≠ .ne ∧ (Expr.column (.bare "created")).IsOperand ∧
    (Cursor.ofString "date(created, 'yyyy-MM-dd''T''HH:mm:ss') = '2020-01-02T03:04:05'").run
      parseExpr =
      (.ok (Moment.comparison (.column (.bare "created")) .eq "yyyy-MM-dd'T'HH:mm:ss"
        "2020-01-02T03:04:05"),
        ⟨"date(created, 'yyyy-MM-dd''T''HH:mm:ss') = '2020-01-02T03:04:05'".toList, []⟩) ∧
    readWithPattern "yyyy-MM-dd'T'HH:mm:ss" "2020-01-02T03:04:05" = some ⟨1577934245, 0⟩ ∧
    (∀ m, Moment.ofExpr? (Moment.comparison (.column (.bare "created")) .eq
      "yyyy-MM-dd'T'HH:mm:ss" "2020-01-02T03:04:05") ≠ .ok m) ∧
    hidesNothing "dd'.'MM'.'yyyy" = true ∧
    Moment.ofExpr? (Moment.comparison (.column (.bare "created")) .lt "dd'.'MM'.'yyyy"
      "02.01.2020") = .ok (some ⟨"created", .lt, ⟨1577923200, 0⟩⟩) := by
  have hoperand : (Expr.column (.bare "created")).IsOperand := .bare (by decide)
  have hhidden := moments_read_from_raw_texts (.column (.bare "created"))
    (by decide : Comparison.eq ≠ .ne)
    "yyyy-MM-dd'T'HH:mm:ss" "2020-01-02T03:04:05"
  have hvisible := moments_read_from_raw_texts (.column (.bare "created"))
    (by decide : Comparison.lt ≠ .ne)
    "dd'.'MM'.'yyyy" "02.01.2020"
  have htext : Moment.comparisonText (.column (.bare "created")) .eq "yyyy-MM-dd'T'HH:mm:ss"
      "2020-01-02T03:04:05" =
        "date(created, 'yyyy-MM-dd''T''HH:mm:ss') = '2020-01-02T03:04:05'" := by
    decide +kernel
  refine ⟨by decide, hoperand, htext ▸ hhidden.1 hoperand, by decide +kernel, fun m hm =>
    ?_, by decide, ?_⟩
  · obtain ⟨instant, hread, -⟩ := (hhidden.2.1 m).mp hm
    have hnone : flatFormat "yyyy-MM-dd'T'HH:mm:ss" = none := by decide +kernel
    rw [readWithPattern, hhidden.2.2.1, hnone] at hread
    cases hread
  · exact (hvisible.2.2.2.1 (.inl (by decide)) _).mpr ⟨_, by decide +kernel, rfl⟩

end DocQuery
