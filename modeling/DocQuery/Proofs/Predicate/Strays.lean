import DocQuery.Proofs.Predicate.Special

/-!
# Variables that go astray in a filter

A filter between stages states comparisons as expressions, where variables are evaluated.
Other tests name a field or hold a text, and a variable in that place is not evaluated.

* `Filter.Strays` — the expressions whose filter has a variable where it is not evaluated
* `Operand.shows_signedValue` — the variables in the value of an operand
* `Filter.shows_parameter`, `Filter.shows_callValue` — the variables in calls

### What is load-bearing

Whether a variable goes astray depends on what is around it through two things only:
whether it stands inside an expression of the database, and the role that it is compiled
in.  `Filter.Strays` has both as indices and follows the shape of the condition, not that
of the filter.
-/

namespace DocQuery

open Sql Text

/-- An expression that asks for a truth value. -/
def Sql.Expr.isTest : Expr → Bool
  | .compare .. | .like .. | .isNull .. | .inList .. | .between .. | .and .. | .or .. | .not
    _ => true
  | _ => false

/-! ### Where variables go astray -/

/-- Texts of the type stay texts. -/
def Operand.KeepsText (type : FieldType) : Prop :=
  type = .string ∨ type = .unknown

namespace Filter

/-- The role that an expression is compiled in: a parameter or a side of an operator, an
item beside what it is compared with, or a test. -/
inductive Role where
  | operand
  | beside (counterpart : Expr)
  | test

/-- A column goes into the filter as a text that is not evaluated. -/
def Role.Leaves (types : FieldTypes) (inside : Bool) : Role → Prop
  | .operand => inside = false
  | .beside counterpart => inside = false ∧
    Operand.KeepsText (types.typeOf counterpart.stringValue)
  | .test => True

/-- **An expression whose filter has a variable that is not evaluated.**  The rules give
the role of the expression and whether its value stands inside an expression of the
database. -/
inductive Strays (types : FieldTypes) : Role → Bool → Expr → Prop
  /-- A column that is tested is the name of a field. -/
  | column {role : Role} {inside : Bool} {c : Column} (hrole : role.Leaves types inside)
    (hc : c.IsVariable) : Strays types role inside (.column c)
  /-- Signs in front of a column are dropped. -/
  | signed {role : Role} {inside : Bool} {negative : Bool} {e : Expr}
    (hrole : role.Leaves types inside) (h : e.ReadsVariable) :
    Strays types role inside (.signed negative e)
  /-- A pattern match names its field. -/
  | matched {role : Role} {inside : Bool} {name : String} {distinct : Bool} {args : List Expr}
    {parts : Expr × String × Option String} (hrole : role ≠ .operand)
    (hparts : Match.parts? ⟨name, distinct, args⟩ = some parts) (h : parts.1.ReadsVariable) :
    Strays types role inside (.call name distinct args)
  /-- An identifier on its own is the name of a field. -/
  | identity {inside : Bool} {name : String} {distinct : Bool} {args : List Expr}
    (hparts : Match.parts? ⟨name, distinct, args⟩ = none)
    (hid : isIdentityCall ⟨name, distinct, args⟩ = true)
    (h : (Expr.call name distinct args).ReadsVariable) :
    Strays types .test inside (.call name distinct args)
  /-- An argument of a call is a parameter of its operator. -/
  | argument {role : Role} {inside : Bool} {name : String} {distinct : Bool}
    {args : List Expr}
    {x : Expr} (hparts : role = .operand ∨ Match.parts? ⟨name, distinct, args⟩ = none)
    (hid : isIdentityCall ⟨name, distinct, args⟩ = false) (hx : x ∈ args)
    (h : Strays types .operand (Value.isInside inside ("$" ++
      Aggregate.operatorName name)) x) :
    Strays types role inside (.call name distinct args)
  /-- A special comparison names its field. -/
  | special {role : Role} {inside : Bool} {op : Comparison} {l r field : Expr}
    (hfield : specialField? op l r = some field) (h : field.ReadsVariable) :
    Strays types role inside (.compare op l r)
  /-- Other comparisons are expressions, which evaluate the columns on their sides. -/
  | side {role : Role} {inside : Bool} {op : Comparison} {l r x : Expr}
    (hplain : specialField? op l r = none) (hx : x = l ∨ x = r)
      (h : Strays types .operand true x) :
    Strays types role inside (.compare op l r)
  /-- BETWEEN is made of two comparisons. -/
  | least {role : Role} {inside negated : Bool} {e low high : Expr}
    (h : Strays types .test inside (.compare .ge e low)) :
    Strays types role inside (.between negated e low high)
  | greatest {role : Role} {inside negated : Bool} {e low high : Expr}
    (h : Strays types .test inside (.compare .le e high)) :
    Strays types role inside (.between negated e low high)
  /-- LIKE names its field and holds its pattern. -/
  | like {role : Role} {inside negated : Bool} {e pattern : Expr}
    (h : e.ReadsVariable ∨ pattern.ReadsVariable) : Strays types role inside
      (.like negated e pattern)
  /-- A test for a missing value names its field. -/
  | missing {role : Role} {inside negated : Bool} {e : Expr} (hcall : isCall e = false)
    (h : e.ReadsVariable) : Strays types role inside (.isNull negated e)
  | missingIdentity {role : Role} {inside negated : Bool} {name : String} {distinct : Bool}
    {args : List Expr} (hid : isIdentityCall ⟨name, distinct, args⟩ = true)
    (h : (Expr.call name distinct args).ReadsVariable) :
    Strays types role inside (.isNull negated (.call name distinct args))
  /-- The operator of a call is tested beside the call itself. -/
  | missingCall {role : Role} {inside negated : Bool} {name : String} {distinct : Bool}
    {args : List Expr} (hname : Aggregate.operatorName name ≠ "exists")
    (h : Strays types .operand inside (.call name distinct args)) :
    Strays types role inside (.isNull negated (.call name distinct args))
  /-- Membership among identifiers names its field. -/
  | listedIdentity {role : Role} {inside negated : Bool} {e field : Expr} {items : List Expr}
    (hfield : listField? e = some field) (h : field.ReadsVariable) :
    Strays types role inside (.inList negated e items)
  /-- Membership of a column is an expression, that of a call is not. -/
  | listTarget {role : Role} {inside negated : Bool} {e : Expr} {items : List Expr}
    (hplain : listField? e = none) (h : Strays types .operand (inside || !isCall e) e) :
    Strays types role inside (.inList negated e items)
  | listItem {role : Role} {inside negated : Bool} {e x : Expr} {items : List Expr}
    (hplain : listField? e = none) (hx : x ∈ items)
    (h : Strays types (.beside e) (inside || !isCall e) x) :
    Strays types role inside (.inList negated e items)
  /-- The sides of AND and OR are tests. -/
  | and {role : Role} {inside : Bool} {l r x : Expr} (hx : x = l ∨ x = r)
    (h : Strays types .test inside x) : Strays types role inside (.and l r)
  | or {role : Role} {inside : Bool} {l r x : Expr} (hx : x = l ∨ x = r)
    (h : Strays types .test inside x) : Strays types role inside (.or l r)
  /-- Only columns and comparisons have a negated form. -/
  | notColumn {role : Role} {inside : Bool} {c : Column} (hc : c.IsVariable) :
    Strays types role inside (.not (.column c))
  | notCompare {role : Role} {inside : Bool} {op : Comparison} {l r : Expr}
    (h : Strays types .test inside (.compare op l r)) :
    Strays types role inside (.not (.compare op l r))

/-! ### What the rules say of one form -/

section Forms

variable {types : FieldTypes} {role role' : Role} {inside : Bool} {e l r x : Expr}
  {c : Column}

theorem strays_column_iff :
    Strays types role inside (.column c) ↔ role.Leaves types inside ∧ c.IsVariable := by
  constructor
  · intro h
    cases h with
    | column hrole hc => exact ⟨hrole, hc⟩
  · exact fun h => .column h.1 h.2

theorem strays_signed_iff {negative : Bool} :
    Strays types role inside (.signed negative e) ↔
      role.Leaves types inside ∧ e.ReadsVariable := by
  constructor
  · intro h
    cases h with
    | signed hrole hreads => exact ⟨hrole, hreads⟩
  · exact fun h => .signed h.1 h.2

theorem strays_call_iff {name : String} {distinct : Bool} {args : List Expr} :
    Strays types .operand inside (.call name distinct args) ↔
      isIdentityCall ⟨name, distinct, args⟩ = false ∧ ∃ x ∈ args,
        Strays types .operand (Value.isInside inside ("$" ++
          Aggregate.operatorName name)) x := by
  constructor
  · intro h
    cases h with
    | matched hrole => exact absurd rfl hrole
    | argument _ hid hx h => exact ⟨hid, _, hx, h⟩
  · rintro ⟨hid, x, hx, h⟩
    exact .argument (.inl rfl) hid hx h

/-- A match that stands on its own. -/
theorem strays_matched_iff {name : String} {distinct : Bool} {args : List Expr}
    {parts : Expr × String × Option String} (hrole : role ≠ .operand)
    (hparts : Match.parts? ⟨name, distinct, args⟩ = some parts) :
    Strays types role inside (.call name distinct args) ↔ parts.1.ReadsVariable := by
  refine ⟨fun h => ?_, .matched hrole hparts⟩
  cases h with
  | matched _ hparts' hreads => exact Option.some.inj (hparts.symm.trans hparts') ▸ hreads
  | identity hnone => exact absurd (hparts.symm.trans hnone) (by simp)
  | argument hnone => exact absurd (hparts.symm.trans (hnone.resolve_left hrole)) (by simp)

/-- An identifier that is tested. -/
theorem strays_identity_iff {name : String} {distinct : Bool} {args : List Expr}
    (hparts : Match.parts? ⟨name, distinct, args⟩ = none)
    (hid : isIdentityCall ⟨name, distinct, args⟩ = true) :
    Strays types .test inside (.call name distinct args) ↔
      (Expr.call name distinct args).ReadsVariable := by
  refine ⟨fun h => ?_, .identity hparts hid⟩
  cases h with
  | matched _ hparts' => exact absurd (hparts.symm.trans hparts') (by simp)
  | identity _ _ hreads => exact hreads
  | argument _ hid' => exact absurd (hid.symm.trans hid') (by decide)

/-- Any other call goes astray as an operand does. -/
theorem strays_plainCall_iff {name : String} {distinct : Bool} {args : List Expr}
    (hparts : Match.parts? ⟨name, distinct, args⟩ = none)
    (hid : role ≠ .test ∨ isIdentityCall ⟨name, distinct, args⟩ = false) :
    Strays types role inside (.call name distinct args) ↔
      Strays types .operand inside (.call name distinct args) := by
  rw [strays_call_iff]
  constructor
  · intro h
    cases h with
    | matched _ hparts' => exact absurd (hparts.symm.trans hparts') (by simp)
    | identity _ hid' =>
      exact absurd (hid'.symm.trans (hid.resolve_left fun h => h rfl)) (by decide)
    | argument _ hid hx h => exact ⟨hid, _, hx, h⟩
  · rintro ⟨hid, x, hx, h⟩
    exact .argument (.inr hparts) hid hx h

theorem strays_special_iff {op : Comparison} (hfield : specialField? op l r = some e) :
    Strays types role inside (.compare op l r) ↔ e.ReadsVariable := by
  refine ⟨fun h => ?_, .special hfield⟩
  cases h with
  | special hfield' hreads => exact Option.some.inj (hfield.symm.trans hfield') ▸ hreads
  | side hplain => exact absurd (hplain.symm.trans hfield) (by simp)

theorem strays_compare_iff {op : Comparison} (hplain : specialField? op l r = none) :
    Strays types role inside (.compare op l r) ↔
      Strays types .operand true l ∨ Strays types .operand true r := by
  constructor
  · intro h
    cases h with
    | special hfield => exact absurd (hplain.symm.trans hfield) (by simp)
    | side _ hx h =>
      rcases hx with rfl | rfl
      · exact .inl h
      · exact .inr h
  · rintro (h | h)
    · exact .side hplain (.inl rfl) h
    · exact .side hplain (.inr rfl) h

theorem strays_between_iff {negated : Bool} :
    Strays types role inside (.between negated e l r) ↔
      Strays types .test inside (.compare .ge e l) ∨
        Strays types .test inside (.compare .le e r) := by
  constructor
  · intro h
    cases h with
    | least h => exact .inl h
    | greatest h => exact .inr h
  · rintro (h | h)
    · exact .least h
    · exact .greatest h

theorem strays_like_iff {negated : Bool} :
    Strays types role inside (.like negated e x) ↔ e.ReadsVariable ∨ x.ReadsVariable := by
  refine ⟨fun h => ?_, .like⟩
  cases h with
  | like hreads => exact hreads

theorem strays_isNull_iff {negated : Bool} (hcall : isCall e = false) :
    Strays types role inside (.isNull negated e) ↔ e.ReadsVariable := by
  refine ⟨fun h => ?_, .missing hcall⟩
  cases h with
  | missing _ hreads => exact hreads
  | missingIdentity => cases hcall
  | missingCall => cases hcall

theorem strays_isNull_identity_iff {negated : Bool} {name : String} {distinct : Bool}
    {args : List Expr} (hid : isIdentityCall ⟨name, distinct, args⟩ = true) :
    Strays types role inside (.isNull negated (.call name distinct args)) ↔
      (Expr.call name distinct args).ReadsVariable := by
  refine ⟨fun h => ?_, .missingIdentity hid⟩
  cases h with
  | missing hcall => cases hcall
  | missingIdentity _ hreads => exact hreads
  | missingCall _ h => exact absurd (hid.symm.trans (strays_call_iff.mp h).1) (by decide)

theorem strays_isNull_call_iff {negated : Bool} {name : String} {distinct : Bool}
    {args : List Expr} (hid : isIdentityCall ⟨name, distinct, args⟩ = false) :
    Strays types role inside (.isNull negated (.call name distinct args)) ↔
      Aggregate.operatorName name ≠ "exists" ∧
        Strays types .operand inside (.call name distinct args) := by
  refine ⟨fun h => ?_, fun h => .missingCall h.1 h.2⟩
  cases h with
  | missing hcall => cases hcall
  | missingIdentity hid' => exact absurd (hid.symm.trans hid') (by decide)
  | missingCall hname h => exact ⟨hname, h⟩

theorem strays_listed_iff {negated : Bool} {items : List Expr}
    (hfield : listField? e = some x) :
    Strays types role inside (.inList negated e items) ↔ x.ReadsVariable := by
  refine ⟨fun h => ?_, .listedIdentity hfield⟩
  cases h with
  | listedIdentity hfield' hreads =>
    exact Option.some.inj (hfield.symm.trans hfield') ▸ hreads
  | listTarget hplain => exact absurd (hplain.symm.trans hfield) (by simp)
  | listItem hplain => exact absurd (hplain.symm.trans hfield) (by simp)

theorem strays_inList_iff {negated : Bool} {items : List Expr}
    (hplain : listField? e = none) :
    Strays types role inside (.inList negated e items) ↔
      Strays types .operand (inside || !isCall e) e ∨
        ∃ x ∈ items, Strays types (.beside e) (inside || !isCall e) x := by
  constructor
  · intro h
    cases h with
    | listedIdentity hfield => exact absurd (hplain.symm.trans hfield) (by simp)
    | listTarget _ h => exact .inl h
    | listItem _ hx h => exact .inr ⟨_, hx, h⟩
  · rintro (h | ⟨x, hx, h⟩)
    · exact .listTarget hplain h
    · exact .listItem hplain hx h

theorem strays_and_iff :
    Strays types role inside (.and l r) ↔
      Strays types .test inside l ∨ Strays types .test inside r := by
  constructor
  · intro h
    cases h with
    | and hx h =>
      rcases hx with rfl | rfl
      · exact .inl h
      · exact .inr h
  · rintro (h | h)
    · exact .and (.inl rfl) h
    · exact .and (.inr rfl) h

theorem strays_or_iff :
    Strays types role inside (.or l r) ↔
      Strays types .test inside l ∨ Strays types .test inside r := by
  constructor
  · intro h
    cases h with
    | or hx h =>
      rcases hx with rfl | rfl
      · exact .inl h
      · exact .inr h
  · rintro (h | h)
    · exact .or (.inl rfl) h
    · exact .or (.inr rfl) h

theorem strays_not_column_iff :
    Strays types role inside (.not (.column c)) ↔ c.IsVariable := by
  refine ⟨fun h => ?_, .notColumn⟩
  cases h with
  | notColumn hc => exact hc

theorem strays_not_compare_iff {op : Comparison} :
    Strays types role inside (.not (.compare op l r)) ↔
      Strays types .test inside (.compare op l r) := by
  refine ⟨fun h => ?_, .notCompare⟩
  cases h with
  | notCompare h => exact h

/-- The role of a test does not count. -/
theorem Strays.of_isTest (htest : e.isTest = true) (h : Strays types role inside e) :
    Strays types role' inside e := by
  cases h with
  | special hfield hreads => exact .special hfield hreads
  | side hplain hx h => exact .side hplain hx h
  | least h => exact .least h
  | greatest h => exact .greatest h
  | like hreads => exact .like hreads
  | missing hcall hreads => exact .missing hcall hreads
  | missingIdentity hid hreads => exact .missingIdentity hid hreads
  | missingCall hname h => exact .missingCall hname h
  | listedIdentity hfield hreads => exact .listedIdentity hfield hreads
  | listTarget hplain h => exact .listTarget hplain h
  | listItem hplain hx h => exact .listItem hplain hx h
  | and hx h => exact .and hx h
  | or hx h => exact .or hx h
  | notColumn hc => exact .notColumn hc
  | notCompare h => exact .notCompare h
  | _ => cases htest

theorem strays_congr_of_isTest (htest : e.isTest = true) :
    Strays types role inside e ↔ Strays types role' inside e :=
  ⟨.of_isTest htest, .of_isTest htest⟩

end Forms

/-! ### Operands -/

/-- A text that is a variable with one of some names.  Operands lose doubled quotes. -/
def RefersTo (names : String → Prop) (text : String) : Prop :=
  ∃ v, names v ∧ (text = "$$" ++ v ∨ text = "$$" ++ Operand.unquote v)

end Filter

namespace Operand

open Value

variable {type : FieldType} {v : Value} {names : String → Prop} {inside : Bool}

/-- A text of a type that keeps texts is a truth value or stays a text. -/
theorem ofText_cases {raw : String} (h : ofText type raw = .ok v) :
    (v.isTextless = true ∧ (KeepsText type → (readBool? (unquote raw)).isSome)) ∨
      (KeepsText type ∧ v = .string (unquote raw)) := by
  have hother : ∀ {type : FieldType}, type ≠ .string → type ≠ .unknown → ¬ KeepsText type :=
    fun hstring hunknown hkeeps => hkeeps.elim hstring hunknown
  cases type with
  | string => exact .inr ⟨.inl rfl, (Except.ok.inj h).symm⟩
  | unknown =>
    simp only [ofText] at h
    split at h
    · rename_i b hbool
      cases h
      exact .inl ⟨rfl, fun _ => Option.isSome_iff_exists.mpr ⟨b, hbool⟩⟩
    · cases h
      exact .inr ⟨.inr rfl, rfl⟩
  | boolean =>
    cases h
    exact .inl ⟨rfl, fun hkeeps => absurd hkeeps (hother (by decide) (by decide))⟩
  | number =>
    refine .inl ⟨?_, fun hkeeps => absurd hkeeps (hother (by decide) (by decide))⟩
    simp only [ofText, readNumber] at h
    split at h
    · cases h
      rfl
    · split at h
      · split at h
        · cases h
          rfl
        · cases h
      · cases h
  | date =>
    refine .inl ⟨?_, fun hkeeps => absurd hkeeps (hother (by decide) (by decide))⟩
    simp only [ofText] at h
    cases hread : readDate (unquote raw) with
    | error fault => rw [hread] at h; cases h
    | ok instant => rw [hread] at h; cases h; rfl

theorem isClean_ofText {raw : String} (hraw : NoDollar raw) (h : ofText type raw = .ok v) :
    v.IsClean := by
  rcases ofText_cases h with ⟨htextless, -⟩ | ⟨-, rfl⟩
  · exact isClean_of_isTextless htextless
  · exact .string hraw.unquote.not_holdsVariable

theorem readBool?_variable (v : String) : readBool? ("$$" ++ v) = none := by
  simp [readBool?, sameWord, String.toList_append]

/-- A variable that is taken for a text. -/
theorem shows_ofText {name : String} (hname : names name)
    (h : ofText type ("$$" ++ name) = .ok v) :
    v.Shows (Filter.RefersTo names) (inside = false ∧ KeepsText type) inside := by
  rcases ofText_cases h with ⟨htextless, hbool⟩ | ⟨hkeeps, rfl⟩
  · refine (isClean_of_isTextless htextless).shows.congr (iff_of_false id ?_)
    -- a type that keeps texts would have to read the variable as a truth value
    rintro ⟨-, hkeeps⟩
    have hsome := hbool hkeeps
    rw [unquote_variable, readBool?_variable] at hsome
    cases hsome
  · rw [unquote_variable]
    exact (Shows.reference (holdsVariable_variable _) ⟨name, hname, .inr rfl⟩).congr
      (and_iff_left hkeeps).symm

theorem isClean_ofNumber {number : Value} {text : String} (hnumber : number.IsClean)
    (htext : NoDollar text) (h : ofNumber type number text = .ok v) : v.IsClean := by
  cases type with
  | string => exact Except.ok.inj h ▸ .string htext.not_holdsVariable
  | boolean => exact Except.ok.inj h ▸ isClean_of_isTextless rfl
  | date => cases h
  | number => exact Except.ok.inj h ▸ hnumber
  | unknown => exact Except.ok.inj h ▸ hnumber

theorem isClean_ofLiteral {negative : Bool} {l : Literal} (hl : NoDollar l.display)
    (h : ofLiteral type negative l = .ok v) : v.IsClean := by
  cases l with
  | string raw =>
    have hraw : NoDollar raw := Expr.noDollar_stringValue (e := .literal (.string raw)) hl
    exact isClean_ofText hraw h
  | int n =>
    simp only [ofLiteral] at h
    generalize (if negative = true then -n else n) = signed at h
    split at h
    · cases h
    · exact isClean_ofNumber (isClean_of_isTextless rfl) (noDollar_int signed) h
  | float x => exact isClean_ofNumber (isClean_of_isTextless rfl) (noDollar_double _) h
  | bool b =>
    have hword : NoDollar (if b then "true" else "false") := by cases b <;> decide
    simp only [ofLiteral] at h
    split at h
    · exact Except.ok.inj h ▸ .string hword.not_holdsVariable
    · exact Except.ok.inj h ▸ isClean_of_isTextless rfl
  | _ => exact Except.ok.inj h ▸ isClean_of_isTextless rfl

/-- Without aliases a column is the text of its path. -/
theorem ofColumn_none (type : FieldType) (c : Column) :
    ofColumn type none c = ofText type (Expr.column c).stringValue := by
  rw [ofColumn, Expr.stringValue]
  cases c.quoted with
  | true => rw [if_pos rfl, if_pos rfl]
  | false =>
    rw [if_neg Bool.false_ne_true, if_neg Bool.false_ne_true]
    cases ofText type c.fullName with
    | error fault => rfl
    | ok v => cases v <;> rfl

/-- **The variables in the value of an operand.**  The induction is on the signs in front. -/
theorem shows_signedValue {negative : Bool} {e : Expr} (he : e.HasVariables names)
    (h : signedValue type none negative e = .ok v) :
    v.Shows (Filter.RefersTo names) ((inside = false ∧ KeepsText type) ∧
      e.ReadsVariable) inside := by
  induction negative, e using Operand.signedValue.induct with
  | case1 negative minus e ih =>
    rw [signedValue] at h
    exact ih (he.of_mem_children List.mem_cons_self) h
  | case2 negative l =>
    refine (isClean_ofLiteral he.noDollar_literal h).shows.congr (iff_of_false id ?_)
    rintro ⟨-, c, hc, -⟩
    exact absurd hc List.not_mem_nil
  | case3 negative c =>
    rw [signedValue, ofColumn_none] at h
    rw [Expr.readsVariable_column_iff]
    rcases he.column_cases with ⟨name, hname, rfl⟩ | ⟨hplain, htext⟩
    · exact (shows_ofText hname h).congr
        (and_iff_left (⟨name, rfl⟩ : Column.IsVariable _)).symm
    · exact (isClean_ofText htext h).shows.congr (iff_of_false id fun hall => hplain hall.2)
  | case4 negative e hsigned hliteral hcolumn =>
    rw [signedValue] at h
    · cases h
    all_goals assumption

end Operand

namespace Filter

open Value

variable {types : FieldTypes} {names : String → Prop} {inside : Bool} {e l r x : Expr}
  {v : Value}
  {f : Document}

/-- An expression with a value goes astray as a text. -/
theorem strays_iff_of_value {role : Role} {counterpart : Option Expr}
    (h : Operand.value types none counterpart e = .ok v) :
    Strays types role inside e ↔ role.Leaves types inside ∧ e.ReadsVariable := by
  cases e with
  | column c => rw [strays_column_iff, Expr.readsVariable_column_iff]
  | signed negative e => exact strays_signed_iff
  | literal l =>
    refine iff_of_false (fun hstrays => by cases hstrays) ?_
    rintro ⟨-, c, hc, -⟩
    exact absurd hc List.not_mem_nil
  | _ => cases h

theorem shows_beside (he : e.HasVariables names)
    (h : Operand.value types none (some x) e = .ok v) :
    v.Shows (RefersTo names) (Strays types (.beside x) inside e) inside := by
  rw [strays_iff_of_value h]
  exact Operand.shows_signedValue he h

theorem shows_value (he : e.HasVariables names)
    (h : Operand.value types none none e = .ok v) :
    v.Shows (RefersTo names) (Strays types .operand inside e) inside := by
  rw [strays_iff_of_value h]
  exact (Operand.shows_signedValue he h).congr (and_congr_left' (and_iff_left (.inr rfl)))

/-- A column that is referred to. -/
theorem shows_reference {c : Column} (he : (Expr.column c).HasVariables names)
    (hquoted : c.quoted = false) :
    (columnReference (.between types) c).Shows (RefersTo names)
      (Strays types .operand inside (.column c)) inside := by
  rw [strays_column_iff]
  rcases he.column_cases with ⟨name, hname, rfl⟩ | ⟨hplain, htext⟩
  · have hvalue : columnReference (.between types) (.bare ("$$" ++ name)) =
        .string ("$$" ++ name) :=
      congrArg _ (fieldReference_variable name)
    rw [hvalue]
    exact (Shows.reference (holdsVariable_variable name) ⟨name, hname, .inl rfl⟩).congr
      (and_iff_left (⟨name, rfl⟩ : Column.IsVariable _)).symm
  · rw [Expr.stringValue, if_neg (by simp [hquoted])] at htext
    have hclean : (columnReference (.between types) c).IsClean := .string htext.fieldReference
    exact hclean.shows.congr (iff_of_false id fun h => hplain h.2)

/-! ### Calls -/

theorem shows_packed {values : List Value} {bound : String → Prop} {astray : Prop}
    (h : (Value.array values).Shows bound astray inside) :
    (packed values).Shows bound astray inside := by
  unfold packed
  split
  · exact h.congr_value fun text evaluated _ => by simp [occurs_array_iff]
  · exact h

/-- **A call is an identifier or an operator on its parameters.** -/
theorem callWith_cases {c : Call} {parameters : Except Fault (List Value)}
    (h : callWith (.between types) c parameters = .ok v) :
    (isIdentityCall c = true ∧ ∃ id, v = .objectId id) ∨
      (isIdentityCall c = false ∧ ∃ values, parameters = .ok values ∧
        v = .document (.single ("$" ++ Aggregate.operatorName c.name) (packed values))) := by
  simp only [callWith, Context.between] at h
  obtain ⟨id?, hid, h⟩ := Outcome.bind_eq_ok.mp h
  unfold Identity.standalone? at hid
  split at hid
  · rename_i hidentity
    split at hid
    · obtain ⟨id, -, hid⟩ := Outcome.bind_eq_ok.mp hid
      cases Outcome.pure_eq_ok.mp hid
      exact .inl ⟨hidentity, id, (Outcome.pure_eq_ok.mp h).symm⟩
    · cases hid
  · rename_i hidentity
    cases hid
    obtain ⟨values, hvalues, h⟩ := Outcome.bind_eq_ok.mp h
    exact .inr ⟨Bool.eq_false_iff.mpr hidentity, values, hvalues,
      (Outcome.pure_eq_ok.mp h).symm⟩

theorem shows_callWith {name : String} {distinct : Bool} {args : List Expr}
    {parameters : Except Fault (List Value)}
    (he : (Expr.call name distinct args).HasVariables names)
    (hparameters : ∀ inside values, parameters = .ok values → (Value.array values).Shows
      (RefersTo names) (∃ x ∈ args, Strays types .operand inside x) inside)
    (h : callWith (.between types) ⟨name, distinct, args⟩ parameters = .ok v) :
    v.Shows (RefersTo names) (Strays types .operand inside (.call name distinct args))
      inside := by
  rw [strays_call_iff]
  rcases callWith_cases h with ⟨hid, id, rfl⟩ | ⟨hid, values, hvalues, rfl⟩
  · have hclean : (Value.objectId id).IsClean := isClean_of_isTextless rfl
    exact hclean.shows.congr (iff_of_false not_false fun h =>
      Bool.false_ne_true (h.1.symm.trans hid))
  · rw [and_iff_right hid]
    exact .operator he.noDollar_call.operatorName.not_holdsVariable_reference
      (shows_packed (hparameters _ values hvalues))

/-- **The variables in the parameters of calls.** -/
theorem shows_parameter :
    (∀ e : Expr, e.HasVariables names → ∀ inside v, parameter (.between types) e = .ok v →
      v.Shows (RefersTo names) (Strays types .operand inside e) inside) ∧
    ∀ args : List Expr, (∀ x ∈ args, x.HasVariables names) → ∀ inside values,
      parameters (.between types) args = .ok values →
        (Value.array values).Shows (RefersTo names)
        (∃ x ∈ args, Strays types .operand inside x) inside := by
  refine parameter.mutual_induct _ _ ?_ ?_ ?_ ?_ ?_ ?_ ?_
  · intro c hquoted he inside v h
    rw [parameter, if_pos hquoted] at h
    exact shows_value he h
  · intro c hquoted he inside v h
    rw [parameter, if_neg hquoted] at h
    cases h
    exact shows_reference he (Bool.eq_false_iff.mpr hquoted)
  · intro name distinct args ih he inside v h
    rw [parameter] at h
    exact shows_callWith he (ih fun x hx => he.of_mem_children hx) h
  · intro e hcolumn hcall he inside v h
    rw [parameter] at h
    · exact shows_value he h
    all_goals assumption
  · intro _ inside values h
    rw [parameters] at h
    cases h
    exact Shows.nil.congr (by simp)
  · intro rest ih hargs inside values h
    rw [parameters] at h
    refine (ih (fun x hx => hargs x (List.mem_cons_of_mem _ hx)) inside values h).congr ?_
    have hwildcard : ¬ Strays types .operand inside .wildcard := fun hstrays => by
      cases hstrays
    simp [hwildcard]
  · intro e rest hwildcard ihe ihrest hargs inside values h
    rw [parameters] at h
    · obtain ⟨v, hv, h⟩ := Outcome.bind_eq_ok.mp h
      obtain ⟨others, hothers, h⟩ := Outcome.bind_eq_ok.mp h
      cases Outcome.pure_eq_ok.mp h
      have hrest :=
        ihrest (fun x hx => hargs x (List.mem_cons_of_mem _ hx)) inside others hothers
      exact ((ihe (hargs e List.mem_cons_self) inside v hv).cons hrest).congr (by simp)
    · assumption

theorem shows_callValue {name : String} {distinct : Bool} {args : List Expr}
    (he : (Expr.call name distinct args).HasVariables names)
    (h : callValue (.between types) ⟨name, distinct, args⟩ = .ok v) :
    v.Shows (RefersTo names) (Strays types .operand inside (.call name distinct args))
      inside :=
  shows_callWith he (shows_parameter.2 args fun _ hx => he.of_mem_children hx) h

end Filter

end DocQuery
