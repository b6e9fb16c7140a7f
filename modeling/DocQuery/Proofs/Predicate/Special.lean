import DocQuery.Predicate.Filter
import DocQuery.Proofs.Document.Places
import DocQuery.Proofs.Outcome
import DocQuery.Proofs.Sql.Written

/-!
# Special comparisons

A comparison with a pattern, a point in time or an identifier is a test of one field.  The
field goes into the filter as a key, by its written form.  All other comparisons apply an
operator to two sides.

* `Match.exists_test_of_toDocument`, `Identity.exists_test_of_toDocument` — tests of one field
* `Filter.specialField?` — the field of a special comparison
* `Filter.comparison_cases` — a comparison is the test of one field, or a plain one
-/

namespace DocQuery

open Sql Text

/-! ### Special comparisons -/

namespace Match

/-- The parts of a match are arguments of the call. -/
theorem mem_of_parts? {c : Call} {field : Expr} {raw : String} {options : Option String}
    (h : parts? c = some (field, raw, options)) :
    field ∈ c.args ∧ .literal (.string raw) ∈ c.args ∧
      ∀ o ∈ options, .literal (.string o) ∈ c.args := by
  unfold parts? at h
  split at h
  · split at h
    · rename_i hargs
      cases h
      rw [hargs]
      simp
    · rename_i o hargs
      cases h
      rw [hargs]
      refine ⟨by simp, by simp, fun text htext => ?_⟩
      have hliteral : o = .literal (.string text) := by
        unfold literal? at htext
        split at htext
        · cases htext
          rfl
        · cases htext
      simp [hliteral]
    · cases h
  · cases h

theorem eq_of_make {c : Call} {field : Expr} {raw : String} {options : Option String}
    {m : Match} (h : make c field raw options = .ok m) :
    m.field = field.stringValue ∧ m.pattern = Operand.unquote raw ∧ m.options = options := by
  unfold make at h
  dsimp only at h
  split at h
  · cases h
    exact ⟨rfl, rfl, rfl⟩
  · cases h
  · cases h

/-- What a match is made of, where strings are written without dollar signs. -/
theorem noDollar_of_make {c : Call} {field : Expr} {raw : String} {options : Option String}
    {m : Match} (hc : ∀ text, .literal (.string text) ∈ c.args → NoDollar text)
    (hparts : parts? c = some (field, raw, options)) (h : make c field raw options = .ok m) :
    m.field = field.stringValue ∧ NoDollar m.pattern ∧ ∀ o ∈ m.options, NoDollar o := by
  obtain ⟨hfield, hpattern, hoptions⟩ := eq_of_make h
  obtain ⟨-, hraw, htexts⟩ := mem_of_parts? hparts
  refine ⟨hfield, ?_, fun o ho => hc o (htexts o (hoptions ▸ ho))⟩
  rw [hpattern]
  exact (hc raw hraw).unquote

/-- A match is a test of its field. -/
theorem exists_test_of_toDocument {m : Match} {f : Document} (hpattern : NoDollar m.pattern)
    (hoptions : ∀ o ∈ m.options, NoDollar o) (h : m.toDocument = .ok f) :
    ∃ inner, f = .single m.field (.document inner) ∧ (Value.document inner).IsClean := by
  have hregex : (Value.document (.single "$regex" (.string m.pattern))).IsClean :=
    .single (by decide) (.string hpattern.not_holdsVariable)
  unfold toDocument at h
  split at h
  · cases h
  · rename_i options hsome _
    cases h
    refine ⟨_, rfl, hregex.insert (by decide) (.single (by decide) (.string ?_))⟩
    exact (hoptions options hsome).not_holdsVariable
  · cases h
    exact ⟨_, rfl, .single (by decide) hregex⟩
  · cases h
    exact ⟨_, rfl, hregex⟩

end Match

/-- A comparison with identifiers is a test of its field. -/
theorem Identity.exists_test_of_toDocument {i : Identity} {f : Document}
    (h : i.toDocument = .ok f) :
    ∃ inner, f = .single i.field (.document inner) ∧ (Value.document inner).IsClean := by
  cases i with
  | compare field op id text =>
    cases op with
    | eq =>
      obtain ⟨oid, -, h⟩ := Outcome.bind_eq_ok.mp h
      exact ⟨_, (Outcome.pure_eq_ok.mp h).symm,
        .single (by decide) (Value.isClean_of_isTextless rfl)⟩
    | ne =>
      obtain ⟨oid, -, h⟩ := Outcome.bind_eq_ok.mp h
      exact ⟨_, (Outcome.pure_eq_ok.mp h).symm,
        .single (by decide) (Value.isClean_of_isTextless rfl)⟩
    | _ => cases h
  | oneOf field ids negated =>
    obtain ⟨values, hvalues, h⟩ := Outcome.bind_eq_ok.mp h
    have hoperator : ¬ HoldsVariable (if negated then "$nin" else "$in") := by
      cases negated <;> decide
    refine ⟨_, (Outcome.pure_eq_ok.mp h).symm, .single hoperator (.array fun v hv => ?_)⟩
    obtain ⟨id, -, hid⟩ := Outcome.exists_of_mem_mapM hvalues hv
    obtain ⟨oid, -, hid⟩ := Outcome.bind_eq_ok.mp hid
    exact Outcome.pure_eq_ok.mp hid ▸ Value.isClean_of_isTextless rfl

namespace Filter

variable {types : FieldTypes} {op : Comparison} {l r : Expr} {f : Document}

/-- The field that is matched with a pattern. -/
def matchField? : Expr → Option Expr
  | .call name distinct args => (Match.parts? ⟨name, distinct, args⟩).map Prod.fst
  | _ => none

/-- The field that is compared with a point in time. -/
def momentField? : Expr → Option Expr
  | .call name distinct args => (Moment.parts? ⟨name, distinct, args⟩).map Prod.fst
  | _ => none

/-- The field that is compared with an identifier. -/
def identityField? (l r : Expr) : Option Expr :=
  match Identity.argument? l with
  | some argument => argument
  | none => if (Identity.argument? r).join.isSome then some l else none

/-- **The field of a special comparison**, which is a test of that field and not an
operator on two sides. -/
def specialField? (op : Comparison) (l r : Expr) : Option Expr :=
  (if op = .eq then matchField? l else none).or ((momentField? l).or (identityField? l r))

theorem match_cases {m? : Option Match}
    (hl : ∀ text, (Expr.literal (.string text)).Within l → NoDollar text)
    (h : Match.ofComparison? op l r = .ok m?) :
    (m? = none ∧ (if op = .eq then matchField? l else none) = none) ∨
      ∃ m field, m? = some m ∧ (if op = .eq then matchField? l else none) = some field ∧
        m.field = field.stringValue ∧ NoDollar m.pattern ∧ ∀ o ∈ m.options, NoDollar o := by
  unfold Match.ofComparison? at h
  split at h
  · rename_i name distinct args
    rw [if_pos rfl, matchField?]
    split at h
    · rename_i field raw options hparts
      split at h
      · cases hmake : Match.make ⟨name, distinct, args⟩ field raw options with
        | error fault => rw [hmake] at h; cases h
        | ok m =>
          rw [hmake] at h
          cases h
          refine .inr ⟨m, field, rfl, by rw [hparts]; rfl,
            Match.noDollar_of_make ?_ hparts hmake⟩
          exact fun text hmem => hl text (Expr.within_iff.mpr (.inr ⟨_, hmem, .refl⟩))
      · cases h
    · rename_i hparts
      cases h
      exact .inl ⟨rfl, by rw [hparts]; rfl⟩
  · rename_i hcase
    cases h
    refine .inl ⟨rfl, ?_⟩
    split
    · rename_i hop
      cases l with
      | call name distinct args => exact absurd hop (fun heq => hcase _ _ _ heq rfl)
      | _ => rfl
    · rfl

theorem moment_cases {m? : Option Moment} (h : Moment.ofComparison? op l r = .ok m?) :
    (m? = none ∧ momentField? l = none) ∨
      ∃ m field, m? = some m ∧ momentField? l = some field ∧ m.field = field.stringValue := by
  unfold Moment.ofComparison? at h
  split at h
  · rw [momentField?]
    split at h
    · rename_i field pattern hparts
      split at h
      · obtain ⟨instant, -, h⟩ := Outcome.bind_eq_ok.mp h
        split at h
        · cases h
        · cases Outcome.pure_eq_ok.mp h
          exact .inr ⟨_, field, rfl, by rw [hparts]; rfl, rfl⟩
      · cases h
    · rename_i hparts
      cases h
      exact .inl ⟨rfl, by rw [hparts]; rfl⟩
  · rename_i hcall
    cases h
    refine .inl ⟨rfl, ?_⟩
    cases l with
    | call name distinct args => exact absurd rfl (hcall _ _ _)
    | _ => rfl

theorem identity_cases (op : Comparison) (l r : Expr) :
    (Identity.ofComparison? op l r = none ∧ identityField? l r = none) ∨
      ∃ i field, Identity.ofComparison? op l r = some i ∧ identityField? l r = some field ∧
        i.field = field.stringValue := by
  unfold Identity.ofComparison? identityField?
  cases Identity.argument? l with
  | some argument =>
    cases argument with
    | none => exact .inl ⟨rfl, rfl⟩
    | some field => exact .inr ⟨_, field, rfl, rfl, rfl⟩
  | none =>
    cases Identity.argument? r with
    | none => exact .inl ⟨rfl, rfl⟩
    | some argument =>
      cases argument with
      | none => exact .inl ⟨rfl, rfl⟩
      | some id => exact .inr ⟨_, l, rfl, rfl, rfl⟩

/-- **A comparison is the test of one field, or a plain one.** -/
theorem comparison_cases {leftNode rightNode : Except Fault Value}
    (hl : ∀ text, (Expr.literal (.string text)).Within l → NoDollar text)
    (h : comparison (.between types) op l r leftNode rightNode = .ok f) :
    (∃ field inner, specialField? op l r = some field ∧
      f = .single field.stringValue (.document inner) ∧ (Value.document inner).IsClean) ∨
    (specialField? op l r = none ∧
      plainComparison (.between types) op l r leftNode rightNode = .ok f) := by
  rw [specialField?]
  obtain ⟨m?, hm, h⟩ := Outcome.bind_eq_ok.mp h
  rcases match_cases hl hm with ⟨rfl, hmatch⟩ | ⟨m, field, rfl, hmatch, hfield, hpattern,
    hoptions⟩
  · rw [hmatch, Option.none_or]
    obtain ⟨moment?, hmoment, h⟩ := Outcome.bind_eq_ok.mp h
    rcases moment_cases hmoment with ⟨rfl, hnone⟩ | ⟨moment, field, rfl, hsome, hfield⟩
    · rw [hnone, Option.none_or]
      dsimp only at h
      rcases identity_cases op l r with ⟨hidentity, hnone⟩ | ⟨i, field, hidentity,
        hsome, hfield⟩
      · rw [hidentity] at h
        exact .inr ⟨hnone, h⟩
      · rw [hidentity] at h
        obtain ⟨inner, rfl, hinner⟩ := Identity.exists_test_of_toDocument h
        exact .inl ⟨field, inner, hsome, by rw [hfield], hinner⟩
    · have hoperator : ¬ HoldsVariable ("$" ++ moment.op.operatorName) := by
        cases moment.op <;> decide
      have hf : f = .single field.stringValue
          (.document (.single ("$" ++ moment.op.operatorName) (.date moment.instant))) := by
        rw [← hfield]
        exact (Outcome.pure_eq_ok.mp h).symm
      refine .inl ⟨field, _, by rw [hsome]; rfl, hf, ?_⟩
      exact .single hoperator (Value.isClean_of_isTextless rfl)
  · obtain ⟨inner, rfl, hinner⟩ := Match.exists_test_of_toDocument hpattern hoptions h
    exact .inl ⟨field, inner, by rw [hmatch]; rfl, by rw [hfield], hinner⟩

/-- The field of a special comparison occurs on the left side. -/
theorem within_of_specialField? {field : Expr} (h : specialField? op l r = some field) :
    field.Within l := by
  have hargument : ∀ name distinct args, field ∈ args →
      field.Within (.call name distinct args) :=
    fun name distinct args hmem => Expr.within_iff.mpr (.inr ⟨field, hmem, .refl⟩)
  rw [specialField?, Option.or_eq_some_iff, Option.or_eq_some_iff] at h
  rcases h with h | ⟨-, h | ⟨-, h⟩⟩
  · split at h
    · unfold matchField? at h
      split at h
      · obtain ⟨⟨first, raw, options⟩, hparts, rfl⟩ := Option.map_eq_some_iff.mp h
        exact hargument _ _ _ (Match.mem_of_parts? hparts).1
      · cases h
    · cases h
  · unfold momentField? at h
    split at h
    · obtain ⟨⟨first, pattern⟩, hparts, rfl⟩ := Option.map_eq_some_iff.mp h
      unfold Moment.parts? at hparts
      split at hparts
      · rename_i hargs
        split at hparts
        · cases hparts
          exact hargument _ _ _ (hargs.symm ▸ List.mem_cons_self : first ∈ Call.args _)
        · cases hparts
      · cases hparts
    · cases h
  · unfold identityField? at h
    split at h
    · rename_i hfirst
      unfold Identity.argument? at hfirst
      split at hfirst
      · split at hfirst
        · cases hfirst
          exact hargument _ _ _ (List.mem_of_head? h)
        · cases hfirst
      · cases hfirst
    · split at h
      · cases h
        exact .refl
      · cases h

/-! ### Calls and lists -/

/-- A call that stands on its own is a match, or none of its parts is looked at. -/
theorem match_call_cases {c : Call} {m? : Option Match}
    (hc : ∀ text, .literal (.string text) ∈ c.args → NoDollar text)
    (h : Match.ofCall? c = .ok m?) :
    (m? = none ∧ Match.parts? c = none) ∨
      ∃ m field raw options, m? = some m ∧ Match.parts? c = some (field, raw, options) ∧
        m.field = field.stringValue ∧ NoDollar m.pattern ∧ ∀ o ∈ m.options, NoDollar o := by
  unfold Match.ofCall? at h
  split at h
  · rename_i field raw options hparts
    cases hmake : Match.make c field raw options with
    | error fault => rw [hmake] at h; cases h
    | ok m =>
      rw [hmake] at h
      cases h
      exact .inr ⟨m, field, raw, options, rfl, hparts, Match.noDollar_of_make hc hparts hmake⟩
  · rename_i hparts
    cases h
    exact .inl ⟨rfl, hparts⟩

/-- The field of a test for membership among identifiers. -/
def listField? : Expr → Option Expr
  | .call name distinct [field] =>
    if isIdentityCall ⟨name, distinct, [field]⟩ then some field else none
  | _ => none

theorem list_cases {negated : Bool} {e : Expr} {items : List Expr} {i? : Option Identity}
    (h : Identity.ofList? negated e items = .ok i?) :
    (i? = none ∧ listField? e = none) ∨
      ∃ i field, i? = some i ∧ listField? e = some field ∧ i.field = field.stringValue := by
  unfold Identity.ofList? at h
  split at h
  · rename_i name distinct field
    rw [listField?]
    split at h
    · rename_i hid
      obtain ⟨ids, -, h⟩ := Outcome.bind_eq_ok.mp h
      cases Outcome.pure_eq_ok.mp h
      exact .inr ⟨_, field, rfl, if_pos hid, rfl⟩
    · rename_i hid
      cases h
      exact .inl ⟨rfl, if_neg hid⟩
  · rename_i hcall
    cases h
    refine .inl ⟨rfl, ?_⟩
    unfold listField?
    split
    · exact absurd rfl (hcall _ _ _)
    · rfl

/-- The field of a special membership test occurs in what is tested. -/
theorem within_of_listField? {e field : Expr} (h : listField? e = some field) :
    field.Within e := by
  unfold listField? at h
  split at h
  · obtain ⟨-, hsome⟩ := Option.ite_none_right_eq_some.mp h
    cases hsome
    exact Expr.within_iff.mpr (.inr ⟨field, List.mem_singleton_self field, .refl⟩)
  · cases h

end Filter

end DocQuery
