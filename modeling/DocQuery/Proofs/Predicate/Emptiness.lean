import DocQuery.Predicate.Filter
import DocQuery.Proofs.Outcome

/-!
# Which filters are empty

A filter without fields is satisfied by every document.  `Filter.compile_eq_empty_iff`
says for which expressions such a filter comes out: for a negation, as the whole
expression, of something that has no negated form.

* `Operand.value_ne_document` — operands are never documents
* `Filter.comparison_ne_empty`, `Filter.likeTest_ne_empty`, `Filter.nullTest_ne_empty`,
  `Filter.membership_ne_empty`, `Filter.conjoin_ne_empty` — tests and runs have fields
* `Filter.HasNegation` — the expressions with a negated form
-/

namespace DocQuery

open Sql

namespace Document

@[simp] theorem single_ne_empty (key : String) (value : Value) :
    single key value ≠ empty := by
  intro h
  cases h

@[simp] theorem insert_ne_empty (d : Document) (key : String) (value : Value) :
    d.insert key value ≠ empty := by
  intro h
  have hentries : Entries.put key value d.entries = [] := congrArg entries h
  cases hd : d.entries with
  | nil => simp [hd] at hentries
  | cons entry rest =>
    rw [hd, Entries.put] at hentries
    split at hentries <;> cases hentries

end Document

/-! ### Operands -/

namespace Operand

/-- A text of a type is a string, a truth value, a number or a date. -/
theorem ofText_ne_document {type : FieldType} {raw : String} {v : Value}
    (h : ofText type raw = .ok v) (d : Document) : v ≠ .document d := by
  rintro rfl
  cases type with
  | string => cases h
  | boolean => cases h
  | unknown =>
    simp only [ofText] at h
    split at h <;> cases h
  | number =>
    simp only [ofText, readNumber] at h
    split at h
    · cases h
    · split at h
      · split at h <;> cases h
      · cases h
  | date =>
    simp only [ofText] at h
    cases hread : readDate (unquote raw) with
    | error fault => rw [hread] at h; cases h
    | ok instant => rw [hread] at h; cases h

/-- A number of a type is never a document. -/
theorem ofNumber_ne_document {type : FieldType} {number v : Value} {text : String}
    (hnumber : ∀ d, number ≠ .document d) (h : ofNumber type number text = .ok v)
    (d : Document) : v ≠ .document d := by
  rintro rfl
  cases type with
  | string => cases h
  | boolean => cases h
  | date => cases h
  | number => exact hnumber d (Except.ok.inj h)
  | unknown => exact hnumber d (Except.ok.inj h)

/-- The value of a literal is never a document. -/
theorem ofLiteral_ne_document {type : FieldType} {negative : Bool} {l : Literal} {v : Value}
    (h : ofLiteral type negative l = .ok v) (d : Document) : v ≠ .document d := by
  cases l with
  | string raw => exact ofText_ne_document h d
  | int n =>
    simp only [ofLiteral] at h
    generalize (if negative = true then -n else n) = signed at h
    split at h
    · cases h
    · exact ofNumber_ne_document (by simp) h d
  | float x => exact ofNumber_ne_document (by simp) h d
  | bool b =>
    rintro rfl
    simp only [ofLiteral] at h
    split at h <;> cases h
  | null => rintro rfl; cases h
  | date day => rintro rfl; cases h
  | timestamp t => rintro rfl; cases h

/-- The value of a column is never a document. -/
theorem ofColumn_ne_document {type : FieldType} {aliases : Option Aliases} {c : Column}
    {v : Value} (h : ofColumn type aliases c = .ok v) (d : Document) : v ≠ .document d := by
  unfold ofColumn at h
  split at h
  · exact ofText_ne_document h d
  · obtain ⟨text, htext, hvalue⟩ := Outcome.bind_eq_ok.mp h
    rintro rfl
    cases text with
    | document inner => exact ofText_ne_document htext inner rfl
    | _ => cases hvalue

/-- **The value of an operand is never a document.** -/
theorem value_ne_document {types : FieldTypes} {aliases : Option Aliases}
    {counterpart : Option Expr} {e : Expr} {v : Value}
    (h : value types aliases counterpart e = .ok v) (d : Document) : v ≠ .document d := by
  unfold value at h
  generalize types.ofCounterpart counterpart = type at h
  generalize false = negative at h
  fun_induction signedValue type aliases negative e with
  | case1 negative minus e ih => exact ih h
  | case2 negative l => exact ofLiteral_ne_document h d
  | case3 negative c => exact ofColumn_ne_document h d
  | case4 negative e _ _ _ => cases h

end Operand

/-! ### Tests -/

/-- A match has a field. -/
theorem Match.toDocument_ne_empty {m : Match} {d : Document} (h : m.toDocument = .ok d) :
    d ≠ .empty := by
  unfold Match.toDocument at h
  split at h
  · cases h
  all_goals
    cases h
    exact Document.single_ne_empty _ _

/-- A comparison with identifiers has a field. -/
theorem Identity.toDocument_ne_empty {i : Identity} {d : Document}
    (h : i.toDocument = .ok d) : d ≠ .empty := by
  cases i with
  | compare field op id text =>
    cases op with
    | eq =>
      obtain ⟨oid, -, hd⟩ := Outcome.bind_eq_ok.mp h
      exact Outcome.pure_eq_ok.mp hd ▸ Document.single_ne_empty _ _
    | ne =>
      obtain ⟨oid, -, hd⟩ := Outcome.bind_eq_ok.mp h
      exact Outcome.pure_eq_ok.mp hd ▸ Document.single_ne_empty _ _
    | _ => cases h
  | oneOf field ids negated =>
    obtain ⟨values, -, hd⟩ := Outcome.bind_eq_ok.mp h
    exact Outcome.pure_eq_ok.mp hd ▸ Document.single_ne_empty _ _

namespace Filter

theorem keyed_ne_empty (name : String) (op : Comparison) (v : Value) :
    keyed name op v ≠ .empty := by
  cases op <;> exact Document.single_ne_empty _ _

theorem applied_ne_empty (ctx : Context) (operator : String) (l r : Value) :
    applied ctx operator l r ≠ .empty := by
  unfold applied
  split <;> exact Document.single_ne_empty _ _

theorem conjoin_ne_empty (operator : String) (continues : Bool) (left right : Document) :
    conjoin operator continues left right ≠ .empty :=
  Document.single_ne_empty _ _

/-- A comparison that is none of the special ones has a field or an operator. -/
theorem plainComparison_ne_empty {ctx : Context} {op : Comparison} {left right : Expr}
    {leftNode rightNode : Except Fault Value} {d : Document}
    (h : plainComparison ctx op left right leftNode rightNode = .ok d) : d ≠ .empty := by
  have hpair : ∀ {d : Document}, (do
      let l ← operand ctx left leftNode
      let r ← operand ctx right rightNode
      return applied ctx (operator op) l r) = Except.ok d → d ≠ .empty := by
    intro d h
    obtain ⟨l, -, h⟩ := Outcome.bind_eq_ok.mp h
    obtain ⟨r, -, h⟩ := Outcome.bind_eq_ok.mp h
    exact Outcome.pure_eq_ok.mp h ▸ applied_ne_empty _ _ _ _
  -- what the value of the left side is compiled to depends on its shape; both forms have
  -- a field
  have hgeneral : ∀ {form : Value → Value → Except Fault Document},
      (∀ l r, form l r = .ok d → d ≠ .empty) → (do
        let l ← leftNode
        let r ← operand ctx right rightNode
        form l r) = Except.ok d → d ≠ .empty := by
    intro form hform h
    obtain ⟨l, -, h⟩ := Outcome.bind_eq_ok.mp h
    obtain ⟨r, -, h⟩ := Outcome.bind_eq_ok.mp h
    exact hform l r h
  unfold plainComparison at h
  split at h
  · exact hpair h
  · split at h
    · split at h
      · exact hpair h
      · exact Except.ok.inj h ▸ keyed_ne_empty _ _ _
    · split at h
      · obtain ⟨v, -, h⟩ := Outcome.bind_eq_ok.mp h
        split at h
        · exact Outcome.pure_eq_ok.mp h ▸ applied_ne_empty _ _ _ _
        · exact Outcome.pure_eq_ok.mp h ▸ keyed_ne_empty _ _ _
      · refine hgeneral (fun l r h => ?_) h
        split at h
        · exact Outcome.pure_eq_ok.mp h ▸ keyed_ne_empty _ _ _
        · exact Outcome.pure_eq_ok.mp h ▸ applied_ne_empty _ _ _ _
    · refine hgeneral (fun l r h => ?_) h
      split at h
      · exact Outcome.pure_eq_ok.mp h ▸ keyed_ne_empty _ _ _
      · exact Outcome.pure_eq_ok.mp h ▸ applied_ne_empty _ _ _ _

/-- A comparison has a field or an operator. -/
theorem comparison_ne_empty {ctx : Context} {op : Comparison} {left right : Expr}
    {leftNode rightNode : Except Fault Value} {d : Document}
    (h : comparison ctx op left right leftNode rightNode = .ok d) : d ≠ .empty := by
  obtain ⟨m?, -, h⟩ := Outcome.bind_eq_ok.mp h
  cases m? with
  | some m => exact Match.toDocument_ne_empty h
  | none =>
    obtain ⟨moment?, -, h⟩ := Outcome.bind_eq_ok.mp h
    cases moment? with
    | some moment => exact Outcome.pure_eq_ok.mp h ▸ Document.single_ne_empty _ _
    | none =>
      dsimp only at h
      split at h
      · exact Identity.toDocument_ne_empty h
      · exact plainComparison_ne_empty h

/-- A LIKE test has a field. -/
theorem likeTest_ne_empty {ctx : Context} {negated : Bool} {target pattern : Expr}
    {d : Document} (h : likeTest ctx negated target pattern = .ok d) : d ≠ .empty := by
  unfold likeTest at h
  dsimp only at h
  split at h
  · exact Except.ok.inj h ▸ Document.single_ne_empty _ _
  · cases h

/-- A test for a missing value has a field. -/
theorem nullTest_ne_empty {ctx : Context} {negated : Bool} {target : Expr} {d : Document}
    (h : nullTest ctx negated target = .ok d) : d ≠ .empty := by
  unfold nullTest at h
  dsimp only at h
  split at h
  · obtain ⟨v, -, h⟩ := Outcome.bind_eq_ok.mp h
    split at h
    · exact Outcome.pure_eq_ok.mp h ▸ Document.insert_ne_empty _ _ _
    · exact Outcome.pure_eq_ok.mp h ▸ Document.single_ne_empty _ _
  · split at h
    · exact Except.ok.inj h ▸ Document.single_ne_empty _ _
    · cases h

/-- A test for membership has a field or an operator. -/
theorem membership_ne_empty {ctx : Context} {negated : Bool} {target : Expr}
    {items : List Expr} {targetNode : Except Fault Value} {values : Except Fault (List Value)}
    {d : Document} (h : membership ctx negated target items targetNode values = .ok d) :
    d ≠ .empty := by
  obtain ⟨i?, -, h⟩ := Outcome.bind_eq_ok.mp h
  cases i? with
  | some i => exact Identity.toDocument_ne_empty h
  | none =>
    obtain ⟨listed, -, h⟩ := Outcome.bind_eq_ok.mp h
    dsimp only at h
    split at h
    · obtain ⟨call, -, h⟩ := Outcome.bind_eq_ok.mp h
      exact Outcome.pure_eq_ok.mp h ▸ Document.single_ne_empty _ _
    · split at h
      · obtain ⟨l, -, h⟩ := Outcome.bind_eq_ok.mp h
        exact Outcome.pure_eq_ok.mp h ▸ applied_ne_empty _ _ _ _
      · split at h
        · exact Outcome.pure_eq_ok.mp h ▸ Document.single_ne_empty _ _
        · exact Outcome.pure_eq_ok.mp h ▸ Document.single_ne_empty _ _

/-! ### Calls -/

/-- An identifier is not a document. -/
theorem standalone?_ne_document {c : Call} {v : Value}
    (h : Identity.standalone? c = .ok (some v)) (d : Document) : v ≠ .document d := by
  rintro rfl
  unfold Identity.standalone? at h
  split at h
  · split at h
    · obtain ⟨id, -, h⟩ := Outcome.bind_eq_ok.mp h
      cases Outcome.pure_eq_ok.mp h
    · cases h
  · cases h

/-- A call is an identifier, a stored result, or an operator on its parameters. -/
theorem callValue_ne_empty {ctx : Context} {c : Call} {d : Document}
    (h : callValue ctx c = .ok (.document d)) : d ≠ .empty := by
  have hplain : ∀ {parameters : Except Fault (List Value)}
    {form : Option Value → Except Fault Value},
      (∀ id, form (some id) = .ok id) →
      (form none = do
        return .document (.single ("$" ++
          Aggregate.operatorName c.name) (packed (← parameters)))) →
      (Identity.standalone? c >>= form) = .ok (.document d) → d ≠ .empty := by
    intro parameters form hsome hnone h
    obtain ⟨id?, hid, h⟩ := Outcome.bind_eq_ok.mp h
    cases id? with
    | some id =>
      have hdocument : id = .document d := Except.ok.inj ((hsome id).symm.trans h)
      exact absurd hdocument (standalone?_ne_document hid d)
    | none =>
      rw [hnone] at h
      obtain ⟨values, -, h⟩ := Outcome.bind_eq_ok.mp h
      cases Outcome.pure_eq_ok.mp h
      exact Document.single_ne_empty _ _
  unfold callValue callWith at h
  dsimp only at h
  split at h
  · split at h
    · obtain ⟨name, -, h⟩ := Outcome.bind_eq_ok.mp h
      cases Outcome.pure_eq_ok.mp h
    · exact hplain (fun id => rfl) rfl h
  · exact hplain (fun id => rfl) rfl h

/-- A call that stands on its own has a field or an operator. -/
theorem standalone_ne_empty {ctx : Context} {c : Call} {d : Document}
    (h : standalone ctx c = .ok (.document d)) : d ≠ .empty := by
  obtain ⟨m?, -, h⟩ := Outcome.bind_eq_ok.mp h
  cases m? with
  | some m =>
    obtain ⟨f, hf, h⟩ := Outcome.bind_eq_ok.mp h
    cases Outcome.pure_eq_ok.mp h
    exact Match.toDocument_ne_empty hf
  | none =>
    obtain ⟨id?, hid, h⟩ := Outcome.bind_eq_ok.mp h
    cases id? with
    | some id => exact absurd (Outcome.pure_eq_ok.mp h) (standalone?_ne_document hid d)
    | none => exact callValue_ne_empty h

/-! ### Filters -/

/-- **The expressions with a negated form**: a field, and a comparison whose own filter
starts with an operator under a key. -/
def HasNegation (ctx : Context) (e : Expr) : Prop :=
  (∃ c, e = .column c ∧ c.quoted = false) ∨
  ∃ op l r d key inner, e = .compare op l r ∧ compile ctx e = .ok d ∧
    d.first? = some (key, .document inner)

/-- A filter that was wrapped into a value is the value's document. -/
theorem ok_of_document {x : Except Fault Document} {d : Document}
    (h : (do return Value.document (← x)) = Except.ok (.document d)) : x = .ok d := by
  obtain ⟨f, hf, h⟩ := Outcome.bind_eq_ok.mp h
  cases Outcome.pure_eq_ok.mp h
  exact hf

/-- **A node that is no negation and is a filter has fields.** -/
theorem node_ne_empty {ctx : Context} {counterpart : Option Expr} {e : Expr} {d : Document}
    (h : node ctx counterpart e = .ok (.document d)) (hnot : ∀ x, e ≠ .not x) :
    d ≠ .empty := by
  cases e with
  | compare op l r =>
    rw [node] at h
    exact comparison_ne_empty (ok_of_document h)
  | like negated e p =>
    rw [node] at h
    exact likeTest_ne_empty (ok_of_document h)
  | isNull negated e =>
    rw [node] at h
    exact nullTest_ne_empty (ok_of_document h)
  | inList negated e items =>
    rw [node] at h
    exact membership_ne_empty (ok_of_document h)
  | between negated e low high =>
    rw [node] at h
    obtain ⟨least, -, h⟩ := Outcome.bind_eq_ok.mp h
    obtain ⟨greatest, -, h⟩ := Outcome.bind_eq_ok.mp h
    cases Outcome.pure_eq_ok.mp h
    exact conjoin_ne_empty _ _ _ _
  | and l r =>
    rw [node] at h
    obtain ⟨left, -, h⟩ := Outcome.bind_eq_ok.mp h
    obtain ⟨right, -, h⟩ := Outcome.bind_eq_ok.mp h
    cases Outcome.pure_eq_ok.mp h
    exact conjoin_ne_empty _ _ _ _
  | or l r =>
    rw [node] at h
    obtain ⟨left, -, h⟩ := Outcome.bind_eq_ok.mp h
    obtain ⟨right, -, h⟩ := Outcome.bind_eq_ok.mp h
    cases Outcome.pure_eq_ok.mp h
    exact conjoin_ne_empty _ _ _ _
  | not x => exact absurd rfl (hnot x)
  | call name distinct args =>
    rw [node] at h
    exact standalone_ne_empty h
  | column c =>
    rw [node] at h
    split at h
    · cases h
      exact Document.single_ne_empty _ _
    · exact absurd rfl (Operand.value_ne_document h d)
  | subquery q =>
    rw [node] at h
    cases h
  | _ =>
    -- what is left are operands
    rw [node] at h
    · exact absurd rfl (Operand.value_ne_document h d)
    all_goals simp

theorem negated_eq_empty_iff (d : Document) :
    negated d = .empty ↔ ¬ ∃ key inner, d.first? = some (key, .document inner) := by
  unfold negated
  split
  · rename_i key inner hfirst
    simp [hfirst]
  · rename_i hfirst
    simp only [true_iff]
    rintro ⟨key, inner, heq⟩
    exact hfirst key inner heq

/-- **A negation is empty if its operand has no negated form.** -/
theorem negation_eq_empty_iff {ctx : Context} {x : Expr} {d : Document}
    (h : negation ctx x (node ctx none x) = .ok d) : d = .empty ↔ ¬ HasNegation ctx x := by
  cases x with
  | column c =>
    simp only [negation] at h
    split at h
    · rename_i hquoted
      cases h
      simp only [true_iff]
      rintro (⟨c', heq, hc'⟩ | ⟨op, l, r, d, key, inner, heq, -⟩)
      · cases heq
        simp [hquoted] at hc'
      · cases heq
    · rename_i hquoted
      cases h
      have hform : HasNegation ctx (.column c) := .inl ⟨c, rfl, by simpa using hquoted⟩
      simp [hform]
  | compare op l r =>
    obtain ⟨v, hv, h⟩ := Outcome.bind_eq_ok.mp h
    cases Outcome.pure_eq_ok.mp h
    have hcompile : compile ctx (.compare op l r) = .ok (filterOf (.compare op l r) v) :=
      Outcome.bind_eq_ok.mpr ⟨v, hv, rfl⟩
    rw [negated_eq_empty_iff]
    refine not_congr ⟨?_, ?_⟩
    · rintro ⟨key, inner, hfirst⟩
      exact .inr ⟨op, l, r, _, key, inner, rfl, hcompile, hfirst⟩
    · rintro (⟨c, heq, -⟩ | ⟨op', l', r', d, key, inner, -, hd, hfirst⟩)
      · cases heq
      · rw [hcompile] at hd
        cases hd
        exact ⟨key, inner, hfirst⟩
  | _ =>
    cases h
    simp only [true_iff]
    rintro (⟨c, heq, -⟩ | ⟨op, l, r, d, key, inner, heq, -⟩) <;> cases heq

/-- **The filter of an expression is empty if the expression is a negation and its operand
has no negated form.**  Inside a larger expression such a negation leaves an empty
operand, never an empty filter. -/
theorem compile_eq_empty_iff {ctx : Context} {e : Expr} {f : Document}
    (h : compile ctx e = .ok f) : f = .empty ↔ ∃ x, e = .not x ∧ ¬ HasNegation ctx x := by
  obtain ⟨v, hv, h⟩ := Outcome.bind_eq_ok.mp h
  cases Outcome.pure_eq_ok.mp h
  by_cases hnot : ∃ x, e = .not x
  · obtain ⟨x, rfl⟩ := hnot
    rw [node] at hv
    obtain ⟨d, hd, hv⟩ := Outcome.bind_eq_ok.mp hv
    cases Outcome.pure_eq_ok.mp hv
    exact (negation_eq_empty_iff hd).trans (by simp)
  · have hnone : ¬ ∃ x, e = .not x ∧ ¬ HasNegation ctx x := by
      rintro ⟨x, rfl, -⟩
      exact hnot ⟨x, rfl⟩
    refine iff_of_false ?_ hnone
    cases v with
    | document d => exact node_ne_empty hv fun x hx => hnot ⟨x, hx⟩
    | _ => exact Document.single_ne_empty _ _

end Filter

end DocQuery
