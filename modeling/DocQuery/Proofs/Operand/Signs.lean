import DocQuery.Pipeline.Step
import DocQuery.Proofs.Join.Waiting

/-!
# Signs in front of operands

Signs may stand in front of any operand, and only numbers heed them.  A number under an
odd number of minus signs is negated.  Everything else that can have a value has the value
that it has without signs, wherever a constant is asked for: beside a field, in an
assignment and in a row.

* `Sql.Expr.minusSigns`, `Sql.Expr.unsigned` — the signs of an expression, and what stands
  behind them
* `Operand.value_signed` — what the signs come to
* `Operand.value_negated_int`, `Operand.value_negated_float` — numbers are negated
* `Operand.value_unsigned` — everything else drops its signs
* `minus_heeded_by_numbers_alone` — the three places where a constant is asked for

### What is load-bearing

A signed expression counts as a constant, whatever stands behind the sign.  So a column
that would be refused as a value of a row, or compared as a field, is taken for the text
of its name once a sign stands in front of it.
-/

namespace DocQuery

open Sql

namespace Sql.Expr

/-- How many minus signs stand in front of an expression. -/
def minusSigns : Expr → Nat
  | .signed true e => e.minusSigns + 1
  | .signed false e => e.minusSigns
  | _ => 0

/-- The expression behind all signs. -/
def unsigned : Expr → Expr
  | .signed _ e => e.unsigned
  | e => e

/-- Whether an expression is a number without signs. -/
def isNumeral : Expr → Bool
  | .literal (.int _) | .literal (.float _) => true
  | _ => false

/-- Only signed expressions have signs. -/
theorem exists_signed_of_minusSigns {e : Expr} (h : e.minusSigns % 2 = 1) :
    ∃ negative inner, e = .signed negative inner := by
  cases e with
  | signed negative inner => exact ⟨negative, inner, rfl⟩
  | _ => cases h

theorem unsigned_ne_signed (e : Expr) (negative : Bool) (inner : Expr) :
    e.unsigned ≠ .signed negative inner := by
  induction e using unsigned.induct with
  | case1 _ e ih =>
    rw [unsigned]
    exact ih
  | case2 e hsigned =>
    rw [unsigned]
    · exact hsigned negative inner
    · exact hsigned

end Sql.Expr

/-! ### Values -/

namespace Operand

variable {types : FieldTypes} {type : FieldType} {aliases : Option Aliases}
  {counterpart : Option Expr} {e : Expr}

/-- **Signs are counted.**  The induction is along the signs; each of them changes the
count that the next one finds. -/
theorem signedValue_unsigned (negative : Bool) (e : Expr) :
    signedValue type aliases negative e =
      signedValue type aliases (negative != (e.minusSigns % 2 == 1)) e.unsigned := by
  induction e using Expr.unsigned.induct generalizing negative with
  | case1 minus e ih =>
    rw [signedValue, ih, Expr.unsigned]
    congr 1
    cases minus with
    | false => rw [Bool.bne_false, Expr.minusSigns]
    | true =>
      rw [Expr.minusSigns]
      rcases Nat.mod_two_eq_zero_or_one e.minusSigns with heven | hodd
      · have hnext : (e.minusSigns + 1) % 2 = 1 := by omega
        rw [heven, hnext]
        cases negative <;> rfl
      · have hnext : (e.minusSigns + 1) % 2 = 0 := by omega
        rw [hodd, hnext]
        cases negative <;> rfl
  | case2 e hsigned =>
    have hnone : e.minusSigns = 0 := by
      cases e with
      | signed minus e => exact absurd rfl (hsigned minus e)
      | _ => rfl
    rw [hnone, Expr.unsigned]
    · exact congrArg (signedValue type aliases · e) (Bool.bne_false negative).symm
    · exact hsigned

/-- What the signs of an expression come to. -/
theorem value_signed (types : FieldTypes) (aliases : Option Aliases)
    (counterpart : Option Expr) (e : Expr) : value types aliases counterpart e =
      signedValue (types.ofCounterpart counterpart) aliases (e.minusSigns % 2 == 1)
        e.unsigned := by
  rw [value, signedValue_unsigned, Bool.false_bne]

/-- A whole number under a minus is the negated number, unless it has none. -/
theorem value_negated_int (hodd : e.minusSigns % 2 = 1) {n : Int}
    (hn : e.unsigned = .literal (.int n)) :
    value types aliases counterpart e =
      if Decimal.fitsInt64 (-n) then value types aliases counterpart (.literal (.int (-n)))
      else .error (.numberFormat ("-" ++ toString n)) := by
  rw [value_signed, hodd, hn, signedValue, ofLiteral]
  cases hfits : Decimal.fitsInt64 (-n) with
  | true => simp [hfits, value, signedValue, ofLiteral]
  | false => simp [hfits]

/-- A floating-point number under a minus is the negated number. -/
theorem value_negated_float (hodd : e.minusSigns % 2 = 1) {x : Float}
    (hx : e.unsigned = .literal (.float x)) :
    value types aliases counterpart e =
      value types aliases counterpart (.literal (.float (-x))) := by
  rw [value_signed, hodd, hx]
  rfl

/-- **Everything but a number drops its signs.** -/
theorem value_unsigned (hnumeral : e.unsigned.isNumeral = false) :
    value types aliases counterpart e = value types aliases counterpart e.unsigned := by
  have hdropped : ∀ negative,
    signedValue (types.ofCounterpart counterpart) aliases negative e.unsigned =
      signedValue (types.ofCounterpart counterpart) aliases false e.unsigned := by
    intro negative
    cases hoperand : e.unsigned with
    | signed minus inner => exact absurd hoperand (e.unsigned_ne_signed minus inner)
    | literal l =>
      rw [hoperand] at hnumeral
      cases l with
      | int n => cases hnumeral
      | float x => cases hnumeral
      | _ => rfl
    | _ => rfl
  rw [value_signed, hdropped, value]

/-- Only a constant or a column has a value, with or without signs. -/
theorem constant_or_column_of_value {v : Value}
    (h : value types aliases counterpart e = .ok v) :
    (∃ l, e.unsigned = .literal l) ∨ ∃ c, e.unsigned = .column c := by
  rw [value_signed] at h
  cases hoperand : e.unsigned with
  | signed minus inner => exact absurd hoperand (e.unsigned_ne_signed minus inner)
  | literal l => exact .inl ⟨l, rfl⟩
  | column c => exact .inr ⟨c, rfl⟩
  | _ =>
    rw [hoperand] at h
    cases h

end Operand

/-! ### Places that ask for a constant -/

/-- The value that is stored for a signed expression is the value of the expression. -/
theorem storedValue_signed (types : FieldTypes) (context field : String) {e : Expr}
    (hodd : e.minusSigns % 2 = 1) :
    storedValue types context field e =
      Operand.value types none (some (.column (.bare field))) e := by
  obtain ⟨negative, inner, rfl⟩ := Expr.exists_signed_of_minusSigns hodd
  rfl

/-- A comparison of a field with a signed expression compares it with the value of the
expression. -/
theorem Filter.compile_compare_signed (ctx : Context) (op : Comparison) {c : Column}
    (hc : c.quoted = false) {e : Expr} (hodd : e.minusSigns % 2 = 1) :
    compile ctx (.compare op (.column c) e) =
      (ctx.value (some (.column c)) e).map (fieldTest ctx c op) := by
  obtain ⟨negative, inner, rfl⟩ := Expr.exists_signed_of_minusSigns hodd
  rw [compile_compare op hc rfl]
  cases ctx.value (some (.column c)) (.signed negative inner) <;> rfl

/-- A flat test of a field shows its value. -/
theorem Filter.value_eq_of_keyed {name : String} {op : Comparison} {v w : Value}
    (h : keyed name op v = keyed name op w) : v = w := by
  cases op with
  | eq => simpa [keyed, Document.single] using h
  | _ => simpa [keyed, Document.single] using h

/-- **Beside a field, a column under a minus is compared like the column itself** in a
flat filter, exactly if the text of its path stands for itself beside the field. -/
theorem Filter.compile_negated_column_iff (types : FieldTypes) (op : Comparison)
    {l r : Column} (hl : l.quoted = false) (hr : r.quoted = false) {e : Expr}
    (hodd : e.minusSigns % 2 = 1) (he : e.unsigned = .column r) :
    compile (.flat types) (.compare op (.column l) e) =
        compile (.flat types) (.compare op (.column l) (.column r)) ↔
      Operand.ofText (types.typeOf l.fullName) r.fullName = .ok (.string r.fullName) := by
  have htype : types.ofCounterpart (some (.column l)) = types.typeOf l.fullName := by
    rw [FieldTypes.ofCounterpart, Expr.stringValue, hl]
    rfl
  have hvalue : (Context.flat types).value (some (.column l)) e =
      Operand.ofText (types.typeOf l.fullName) r.fullName := by
    have hnumeral : e.unsigned.isNumeral = false := by rw [he]; rfl
    rw [Context.value, Operand.value_unsigned hnumeral, he]
    change Operand.ofColumn (types.ofCounterpart (some (.column l))) none r = _
    rw [htype, Operand.ofColumn, hr, if_neg Bool.false_ne_true]
    cases Operand.ofText (types.typeOf l.fullName) r.fullName with
    | error fault => rfl
    | ok v => cases v <;> rfl
  rw [compile_compare_signed _ op hl hodd, compile_columns types op hl hr, hvalue]
  constructor
  · intro h
    cases htext : Operand.ofText (types.typeOf l.fullName) r.fullName with
    | error fault =>
      rw [htext] at h
      cases h
    | ok v =>
      rw [htext] at h
      exact congrArg Except.ok (value_eq_of_keyed (Except.ok.inj h))
  · intro h
    rw [h]
    rfl

/-- **Only numbers heed a minus.**  Under an odd number of minus signs, a number is
negated, and refused if it has no negation.  Everything else has the value that it has
without signs, or none: beside any counterpart, as a value that is stored, and as the
other side of a field in a comparison.  A flat filter then compares a column under a minus
just as the column itself, exactly if the text of its path is read as that text beside the
field. -/
theorem minus_heeded_by_numbers_alone {e : Expr} (hodd : e.minusSigns % 2 = 1)
    (types : FieldTypes) :
    (∀ aliases counterpart,
      (∀ n, e.unsigned = .literal (.int n) → Operand.value types aliases counterpart e =
        if Decimal.fitsInt64 (-n) then
          Operand.value types aliases counterpart (.literal (.int (-n)))
        else .error (.numberFormat ("-" ++ toString n))) ∧
      (∀ x, e.unsigned = .literal (.float x) → Operand.value types aliases counterpart e =
        Operand.value types aliases counterpart (.literal (.float (-x)))) ∧
      (∀ v, Operand.value types aliases counterpart e = .ok v →
        (∃ l, e.unsigned = .literal l) ∨ ∃ c, e.unsigned = .column c)) ∧
    (e.unsigned.isNumeral = false →
      (∀ aliases counterpart, Operand.value types aliases counterpart e =
        Operand.value types aliases counterpart e.unsigned) ∧
      (∀ context field, storedValue types context field e =
        Operand.value types none (some (.column (.bare field))) e.unsigned) ∧
      ∀ (ctx : Filter.Context) op c, c.quoted = false →
        Filter.compile ctx (.compare op (.column c) e) =
          (ctx.value (some (.column c)) e.unsigned).map (Filter.fieldTest ctx c op)) ∧
    ∀ op l r, l.quoted = false → r.quoted = false → e.unsigned = .column r →
      (Filter.compile (.flat types) (.compare op (.column l) e) =
          Filter.compile (.flat types) (.compare op (.column l) (.column r)) ↔
        Operand.ofText (types.typeOf l.fullName) r.fullName = .ok (.string r.fullName)) := by
  refine ⟨fun aliases counterpart => ⟨?_, ?_, ?_⟩, fun hnumeral => ⟨?_, ?_, ?_⟩, ?_⟩
  · exact fun n hn => Operand.value_negated_int hodd hn
  · exact fun x hx => Operand.value_negated_float hodd hx
  · exact fun v hv => Operand.constant_or_column_of_value hv
  · exact fun aliases counterpart => Operand.value_unsigned hnumeral
  · intro context field
    rw [storedValue_signed types context field hodd, Operand.value_unsigned hnumeral]
  · intro ctx op c hc
    rw [Filter.compile_compare_signed ctx op hc hodd, Filter.Context.value,
      Operand.value_unsigned hnumeral]
    rfl
  · exact fun op l r hl hr he => Filter.compile_negated_column_iff types op hl hr hodd he

/-- The expression `-b`. -/
def minusColumn : Expr :=
  .signed true (.column (.bare "b"))

/-- `b` cannot be assigned and `-b` can, and `a = -b` has the filter of `a = b`. -/
theorem minus_heeded_by_numbers_alone_column :
    minusColumn.minusSigns % 2 = 1 ∧
      storedValue {} "update" "a" (.column (.bare "b")) =
        .error (.storedExpression "update" "b") ∧
      storedValue {} "update" "a" minusColumn = .ok (.string "b") ∧
      Filter.compile (.flat {}) (.compare .eq (.column (.bare "a")) minusColumn) =
        Filter.compile (.flat {}) (.compare .eq (.column (.bare "a"))
          (.column (.bare "b"))) := by
  obtain ⟨-, hdropped, hflat⟩ := minus_heeded_by_numbers_alone (e := minusColumn) rfl {}
  obtain ⟨-, hstored, -⟩ := hdropped rfl
  exact ⟨rfl, rfl, hstored "update" "a", (hflat .eq _ _ rfl rfl rfl).mpr rfl⟩

end DocQuery
