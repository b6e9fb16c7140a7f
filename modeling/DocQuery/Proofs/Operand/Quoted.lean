import DocQuery.Operand
import DocQuery.Proofs.Scan.Quotes
import DocQuery.Proofs.Sql.RoundTrip

/-!
# Quoted operands

A text between single quotes is a constant, and one between double or back quotes is a
name that is taken for a value.  The constant is kept raw and its quotes are read as
single ones when its value is asked for.  The name is decoded when it is read.

* `Sql.Grammar.run_primary_literal_iff` — which texts are read as string constants
* `Sql.run_parseExpr_literal`, `Sql.run_parseExpr_quoted` — constants and names are read
  up to their end
* `Operand.unquote_double` — the value of a string constant comes from the text that was
  put between quotes
* `string_literals_decoded` — constants from their text to their value
* `quoted_names_decoded_twice` — quoted names from their text to their value

### What is load-bearing

The value of a quoted name is that of a raw text.  So single quotes side by side in a
name, which its own quotes do not double, are still taken for one.
-/

namespace DocQuery

open Scan Text

namespace Sql

namespace Grammar

variable {nested : Nested} {cs rest : List Char}

/-- **What begins with a single quote is a string constant** up to the quote that ends it. -/
theorem run_primary_literal_iff {e : Expr} :
    (primary nested).run ('\'' :: cs) = .ok (e, rest) ↔
      ∃ s, e = .literal (.string (double '\'' s)) ∧
        '\'' :: cs = (inQuotes '\'' s).toList ++ rest ∧ front rest ≠ '\'' := by
  have hprimary : (primary nested).run ('\'' :: cs) =
      (stringLiteral >>= fun l => pure (Expr.literal l)).run ('\'' :: cs) := by
    rw [primary, run_bind_ok run_skipBlanks, run_bind_ok run_get, dropBlanks_cons (by decide)]
    rfl
  have hliteral : stringLiteral.run ('\'' :: cs) =
      (quoted '\'' >>= fun raw => pure (Literal.string raw)).run ('\'' :: cs) := by
    rw [stringLiteral, run_bind_ok run_skipBlanks, dropBlanks_cons (by decide)]
  rw [hprimary]
  constructor
  · intro h
    cases hread : (quoted '\'').run ('\'' :: cs) with
    | error failure =>
      rw [StateT.run_bind, hliteral, StateT.run_bind, hread] at h
      cases h
    | ok found =>
      rw [run_bind_ok (hliteral.trans (run_bind_ok hread))] at h
      cases h
      obtain ⟨s, hraw, hcs, hrest⟩ := (run_quoted_iff (by decide)).mp hread
      exact ⟨s, congrArg (Expr.literal ∘ Literal.string) hraw, hcs, hrest⟩
  · rintro ⟨s, rfl, hcs, hrest⟩
    have hread := (run_quoted_iff (by decide)).mpr ⟨s, rfl, hcs, hrest⟩
    rw [run_bind_ok (hliteral.trans (run_bind_ok hread))]
    rfl

/-- A quoted name is read as a primary, if its quote does not follow. -/
theorem reads_primary_quoted {q : Char} (hq : isNameQuote q = true) (s : String)
    (hrest : front rest ≠ q) :
    Reads (primary nested) (inQuotes q s).toList (.column (.ofQuoted s)) rest := by
  intro cs hcs
  refine ⟨rest, ?_, .inl rfl⟩
  have hname : name.run (dropBlanks cs) = .ok (s, rest) :=
    run_name_quoted hq s hrest (by rw [dropBlanks_dropBlanks, hcs])
  rw [hcs, toList_inQuotes_append] at hname
  rw [primary, run_bind_ok run_skipBlanks, run_bind_ok run_get, hcs, toList_inQuotes_append,
    front_cons]
  simp only [isNameQuote, Bool.or_eq_true, beq_iff_eq] at hq
  rcases hq with rfl | rfl <;> exact run_bind_ok hname

end Grammar

theorem text_double (s : String) :
    (Expr.literal (.string (double '\'' s))).text = (inQuotes '\'' s).toList := by
  rw [text_string, toList_double, toList_inQuotes]

theorem isOperand_double (s : String) :
    (Expr.literal (.string (double '\'' s))).IsOperand := by
  refine .string ?_
  rw [toList_double]
  exact evenRuns_doubleChars '\'' s.toList

/-- **A string constant is read up to its end.** -/
theorem run_parseExpr_literal (s : String) :
    parseExpr.run (inQuotes '\'' s).toList =
      .ok (.literal (.string (double '\'' s)), []) := by
  rw [← text_double]
  exact run_parseExpr_text (.test (.operand (isOperand_double s)))

/-- **A quoted name is read up to its end.** -/
theorem run_parseExpr_quoted {q : Char} (hq : isNameQuote q = true) (s : String) :
    parseExpr.run (inQuotes q s).toList = .ok (.column (.ofQuoted s), []) := by
  have hmark : isNameChar q = false ∧ q ≠ ')' ∧ q ∉ ['-', '+'] := by
    simp only [isNameQuote, Bool.or_eq_true, beq_iff_eq] at hq
    rcases hq with rfl | rfl <;> decide
  refine run_parseExpr_of_sum ?_ fun nested => ?_
  · rw [toList_inQuotes]
    exact starts_mark _ hmark.1 (isBlank_of_isNameQuote hq) hmark.2.1 _
  · have hend : front [] ≠ q := Ne.symm (ne_null_of_isNameQuote hq)
    refine Grammar.reads_sum_of_signedPrimary (fun budget _ => ?_) ⟨by decide, by decide⟩
    refine Grammar.reads_signedPrimary_of_primary (Grammar.reads_primary_quoted hq s hend)
      ?_ budget
    rw [toList_inQuotes_append, front_cons]
    exact hmark.2.2

end Sql

open Sql

/-! ### Values -/

namespace Operand

variable {types : FieldTypes} {aliases : Option Aliases} {counterpart : Option Expr}

@[simp] theorem unquote_double (s : String) : unquote (double '\'' s) = s :=
  undouble_double '\'' s

theorem value_string (raw : String) :
    value types aliases counterpart (.literal (.string raw)) =
    ofText (types.ofCounterpart counterpart) raw := rfl

theorem value_ofQuoted (s : String) :
    value types aliases counterpart (.column (.ofQuoted s)) =
    ofText (types.ofCounterpart counterpart) s := rfl

/-- Beside a field of no declared type a text stands for itself, unless it names a truth
value. -/
theorem ofText_unknown_eq_string_iff (raw : String) :
    ofText .unknown raw = .ok (.string (unquote raw)) ↔
      sameWord (unquote raw) "true" = false ∧ sameWord (unquote raw) "false" = false := by
  rw [ofText, readBool?]
  cases sameWord (unquote raw) "true" with
  | true => simp
  | false => cases sameWord (unquote raw) "false" <;> simp

end Operand

/-! ### From texts to values -/

/-- **String constants are decoded exactly.**  A text between single quotes is read as a
constant up to the quote that ends it, wherever it stands, and nothing else that begins
with a single quote is read.  Beside a field of strings its value is the text, and so it
is beside a field of no declared type, unless the text names a truth value. -/
theorem string_literals_decoded (nested : Grammar.Nested) :
    (∀ s t : String, front t.toList ≠ '\'' → ∀ whole,
      (⟨whole, (inQuotes '\'' s ++ t).toList⟩ : Cursor).run (Grammar.primary nested) =
        (.ok (.literal (.string (double '\'' s))), ⟨whole, t.toList⟩)) ∧
    (∀ cs e rest, (Grammar.primary nested).run ('\'' :: cs) = .ok (e, rest) →
      ∃ s, '\'' :: cs = (inQuotes '\'' s).toList ++ rest ∧ front rest ≠ '\'' ∧
        e = .literal (.string (double '\'' s))) ∧
    ∀ s types aliases counterpart,
      (types.ofCounterpart counterpart = .string →
        Operand.value types aliases counterpart (.literal (.string (double '\'' s))) =
          .ok (.string s)) ∧
      (types.ofCounterpart counterpart = .unknown →
        (Operand.value types aliases counterpart (.literal (.string (double '\'' s))) =
          .ok (.string s) ↔
          sameWord s "true" = false ∧ sameWord s "false" = false)) := by
  refine ⟨fun s t ht whole => ?_, fun cs e rest h => ?_, fun s types aliases counterpart =>
    ⟨fun htype => ?_, fun htype => ?_⟩⟩
  · have hrun : (Grammar.primary nested).run (inQuotes '\'' s ++ t).toList =
        .ok (.literal (.string (double '\'' s)), t.toList) := by
      rw [String.toList_append, toList_inQuotes_append]
      exact Grammar.run_primary_literal_iff.mpr ⟨s, rfl,
        (toList_inQuotes_append _ _ _).symm, ht⟩
    rw [Cursor.run]
    simp only [hrun]
  · obtain ⟨s, he, hcs, hrest⟩ := Grammar.run_primary_literal_iff.mp h
    exact ⟨s, hcs, hrest, he⟩
  · rw [Operand.value_string, htype, Operand.ofText, Operand.unquote_double]
  · have hiff := Operand.ofText_unknown_eq_string_iff (double '\'' s)
    rwa [Operand.unquote_double, ← htype,
      ← @Operand.value_string types aliases counterpart] at hiff

/-- `'it''s'` is read up to the blank behind it, and its value is `it's`. -/
theorem string_literals_decoded_its :
    front " rest".toList ≠ '\'' ∧
    (Cursor.ofString "'it''s' rest").run (Grammar.primary (Grammar.nestedAt 0)) =
      (.ok (.literal (.string "it''s")), ⟨"'it''s' rest".toList, " rest".toList⟩) ∧
    (FieldTypes.ofCounterpart ⟨.string, []⟩ (some (.column (.bare "name"))) = .string ∧
      Operand.value ⟨.string, []⟩ none (some (.column (.bare "name")))
        (.literal (.string "it''s")) =
        .ok (.string "it's")) ∧
    (FieldTypes.ofCounterpart {} none = .unknown ∧
      Operand.value {} none none (.literal (.string "it''s")) = .ok (.string "it's")) := by
  obtain ⟨hread, -, hvalue⟩ := string_literals_decoded (Grammar.nestedAt 0)
  refine ⟨by decide, hread "it's" " rest" (by decide) _, ⟨rfl, ?_⟩, rfl, ?_⟩
  · exact (hvalue "it's" _ _ _).1 rfl
  · exact ((hvalue "it's" _ _ _).2 rfl).mpr (by decide)

/-- **Quoted names are decoded twice.**  A text between double or back quotes is read as
the name of just that text.  But beside a field of strings its value is that of a raw
text, and is the text itself exactly if no two single quotes are side by side in it. -/
theorem quoted_names_decoded_twice {q : Char} (hq : isNameQuote q = true) (s : String) :
    (Cursor.ofString (inQuotes q s)).run parseExpr =
      (.ok (.column (.ofQuoted s)), ⟨(inQuotes q s).toList, []⟩) ∧
    ∀ types aliases counterpart, types.ofCounterpart counterpart = .string →
      Operand.value types aliases counterpart (.column (.ofQuoted s)) =
        .ok (.string (undouble '\'' s)) ∧
      (Operand.value types aliases counterpart (.column (.ofQuoted s)) = .ok (.string s) ↔
        ¬ ['\'', '\''] <:+: s.toList) := by
  refine ⟨?_, fun types aliases counterpart htype => ?_⟩
  · rw [Cursor.run, Cursor.ofString]
    simp only [run_parseExpr_quoted hq s]
  · have hvalue : Operand.value types aliases counterpart (.column (.ofQuoted s)) =
        .ok (.string (undouble '\'' s)) := by
      rw [Operand.value_ofQuoted, htype]
      rfl
    refine ⟨hvalue, ?_⟩
    rw [hvalue, ← undouble_eq_self_iff, Except.ok.injEq, Value.string.injEq]

/-- `"it''s"` is read as the name `it''s`, and its value is `it's`. -/
theorem quoted_names_decoded_twice_its :
    isNameQuote '"' = true ∧
    (Cursor.ofString "\"it''s\"").run parseExpr =
      (.ok (.column (.ofQuoted "it''s")), ⟨"\"it''s\"".toList, []⟩) ∧
    FieldTypes.ofCounterpart ⟨.string, []⟩ (some (.column (.bare "name"))) = .string ∧
    Operand.value ⟨.string, []⟩ none (some (.column (.bare "name")))
      (.column (.ofQuoted "it''s")) =
      .ok (.string "it's") := by
  obtain ⟨hread, hvalue⟩ := quoted_names_decoded_twice (q := '"') rfl "it''s"
  exact ⟨rfl, hread, rfl, (hvalue _ _ _ rfl).1⟩

end DocQuery
