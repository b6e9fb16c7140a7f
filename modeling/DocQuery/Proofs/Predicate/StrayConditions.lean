import DocQuery.Proofs.Predicate.Emptiness
import DocQuery.Proofs.Predicate.Joined
import DocQuery.Proofs.Predicate.StrayTests

/-!
# Variables in whole conditions

Tests are joined and negated, and ranges are made of two comparisons.  Expressions that
are no tests become filters as well.

* `Filter.shows_conjoin`, `Filter.shows_negated` — the steps for logical operators
* `Filter.traced` — the run: where the variables of any expression stand

### What is load-bearing

Runs of one operator are flattened.  The filter on the left is opened only where it is a
run itself, and then holds nothing but its operands.
-/

namespace DocQuery.Filter

open Sql Text Value

variable {types : FieldTypes} {names : String → Prop} {inside : Bool} {e l r x : Expr}
  {v : Value}
  {f : Document}

/-! ### Logical operators -/

/-- **Step.**  Two filters joined by a logical operator have the variables of both. -/
theorem shows_conjoin {operator : String} {continues : Bool} {left right : Document}
    {bound : String → Prop} {astray astray' : Prop}
    (hoperator : operator = "$and" ∨ operator = "$or")
    (hleft : (Value.document left).Shows bound astray inside)
    (hright : (Value.document right).Shows bound astray' inside)
    (hrun : continues = true → ∃ items, left = .single operator (.array items)) :
    (Value.document (conjoin operator continues left right)).Shows bound (astray ∨ astray')
      inside := by
  have hclean : ¬ HoldsVariable operator := by rcases hoperator with rfl | rfl <;> decide
  have hinside : isInside inside operator = inside := by
    rcases hoperator with rfl | rfl <;> exact isInside_of_ne (by decide) (by decide)
  refine .operator hclean ?_
  rw [hinside]
  refine .append ?_ hright.singleton
  -- a run is opened, and its operands stand where the run itself would
  cases continues with
  | false => exact hleft.singleton
  | true =>
    obtain ⟨items, rfl⟩ := hrun rfl
    rw [if_pos rfl, operands_single]
    exact hinside ▸ hleft.of_operator hclean

theorem shows_and (hl : Traced types names l) (hr : Traced types names r)
    (h : compile (.between types) (.and l r) = .ok f) :
    (Value.document f).Shows (RefersTo names) (Strays types .test inside (.and l r))
      inside := by
  rw [compile_and] at h
  obtain ⟨left, hleft, h⟩ := Outcome.bind_eq_ok.mp h
  obtain ⟨right, hright, h⟩ := Outcome.bind_eq_ok.mp h
  cases Outcome.pure_eq_ok.mp h
  rw [strays_and_iff]
  refine shows_conjoin (.inl rfl) (hl.test inside left hleft) (hr.test inside right hright) ?_
  exact fun hcontinues => compile_of_isAndRun (Bool.and_eq_true_iff.mp hcontinues).1 hleft

theorem shows_or (hl : Traced types names l) (hr : Traced types names r)
    (h : compile (.between types) (.or l r) = .ok f) :
    (Value.document f).Shows (RefersTo names) (Strays types .test inside (.or l r))
      inside := by
  rw [compile_or] at h
  obtain ⟨left, hleft, h⟩ := Outcome.bind_eq_ok.mp h
  obtain ⟨right, hright, h⟩ := Outcome.bind_eq_ok.mp h
  cases Outcome.pure_eq_ok.mp h
  rw [strays_or_iff]
  refine shows_conjoin (.inr rfl) (hl.test inside left hleft) (hr.test inside right hright) ?_
  exact fun hcontinues => compile_of_isOrRun (Bool.and_eq_true_iff.mp hcontinues).1 hleft

/-- Negating an operator leaves variables where they are. -/
theorem shows_negated {key : String} {inner : Document} {bound : String → Prop}
    {astray : Prop}
    (h : (Value.document (.single key (.document inner))).Shows bound astray inside) :
    (Value.document (negated (.single key (.document inner)))).Shows bound astray inside := by
  have hnegated : negated (.single key (.document inner)) =
      .single key (.document (.single "$not" (.document inner))) := rfl
  rw [hnegated]
  refine h.congr_value fun text evaluated ht => ?_
  have hne : text ≠ "$not" := fun heq => absurd (heq ▸ ht) (by decide)
  have hinside : isInside (isInside inside key) "$not" = isInside inside key :=
    isInside_of_ne (by decide) (by decide)
  simp [occurs_single_iff, hne, hinside]

/-- **The variables in a test for a range**, which is made of two comparisons. -/
theorem shows_between {negated : Bool} {low high : Expr}
    (he : (Expr.between negated e low high).HasVariables names) (hte : Traced types names e)
    (hlow : Traced types names low) (hhigh : Traced types names high)
    (h : compile (.between types) (.between negated e low high) = .ok f) :
    (Value.document f).Shows (RefersTo names)
      (Strays types .test inside (.between negated e low high)) inside := by
  have hee : e.HasVariables names := he.of_mem_children (by simp [Expr.children])
  have helow : low.HasVariables names := he.of_mem_children (by simp [Expr.children])
  have hehigh : high.HasVariables names := he.of_mem_children (by simp [Expr.children])
  obtain ⟨v, hv, h⟩ := Outcome.bind_eq_ok.mp h
  rw [node] at hv
  obtain ⟨least, hleast, hv⟩ := Outcome.bind_eq_ok.mp hv
  obtain ⟨greatest, hgreatest, hv⟩ := Outcome.bind_eq_ok.mp hv
  cases Outcome.pure_eq_ok.mp hv
  cases Outcome.pure_eq_ok.mp h
  obtain ⟨key, inner, rfl⟩ := exists_single_of_comparison hee hleast
  obtain ⟨key', inner', rfl⟩ := exists_single_of_comparison hee hgreatest
  have hshows : (Value.document (.single key (.document inner))).Shows (RefersTo names)
      (Strays types .test inside (.compare .ge e low)) inside :=
    shows_comparison hee helow hte hlow hleast
  have hshows' : (Value.document (.single key' (.document inner'))).Shows (RefersTo names)
      (Strays types .test inside (.compare .le e high)) inside :=
    shows_comparison hee hehigh hte hhigh hgreatest
  rw [strays_between_iff]
  cases negated with
  | false => exact shows_conjoin (.inl rfl) hshows hshows' (fun h => by cases h)
  | true =>
    exact shows_conjoin (.inl rfl) (shows_negated hshows) (shows_negated hshows') (fun h =>
      by cases h)

/-- **The variables in a negated test.** -/
theorem shows_negation (he : (Expr.not e).HasVariables names) (hte : Traced types names e)
    (h : negation (.between types) e (node (.between types) none e) = .ok f) :
    (Value.document f).Shows (RefersTo names) (Strays types .test inside (.not e))
      inside := by
  have hee : e.HasVariables names := he.of_mem_children List.mem_cons_self
  have hempty : (Value.document .empty).IsClean := by
    intro text evaluated inside ht hoccurs
    cases hoccurs with
    | key _ hentry => exact absurd hentry List.not_mem_nil
    | entry hentry => exact absurd hentry List.not_mem_nil
  cases e with
  | column c =>
    rw [strays_not_column_iff]
    rw [negation] at h
    split at h
    · rename_i hquoted
      cases h
      refine hempty.shows.congr (iff_of_false not_false ?_)
      rintro ⟨name, rfl⟩
      cases hquoted
    · rename_i hquoted
      cases h
      have hclean : (Value.document (.single "$ne" (.bool true))).IsClean :=
        .single (by decide) (isClean_of_isTextless rfl)
      exact (shows_fieldTest hee (Bool.eq_false_iff.mpr hquoted) hclean.shows).congr
        (or_iff_left not_false)
  | compare op l r =>
    rw [strays_not_compare_iff]
    obtain ⟨v, hv, h⟩ := Outcome.bind_eq_ok.mp h
    rw [node] at hv
    obtain ⟨test, htest, hv⟩ := Outcome.bind_eq_ok.mp hv
    cases Outcome.pure_eq_ok.mp hv
    cases Outcome.pure_eq_ok.mp h
    obtain ⟨key, inner, rfl⟩ :=
      exists_single_of_comparison (hee.of_mem_children List.mem_cons_self) htest
    exact shows_negated (hte.test inside _ ((compile_of_node rfl).trans htest))
  | _ =>
    -- everything else becomes the empty filter when it is negated
    cases h
    exact hempty.shows.congr (iff_of_false not_false fun hstrays => by cases hstrays)

/-! ### Whole conditions -/

/-- The value of a test is its filter, beside any counterpart. -/
theorem exists_filter_of_isTest {ctx : Context} {counterpart : Option Expr}
    (htest : e.isTest = true) (h : node ctx counterpart e = .ok v) :
    ∃ f, v = .document f ∧ compile ctx e = .ok f := by
  have hsame : node ctx none e = node ctx counterpart e := by
    cases e with
    | compare | like | isNull | inList | between | and | or | not => simp only [node]
    | _ => cases htest
  have hdocument : ∃ f, v = .document f := by
    cases e with
    | compare | like | isNull | inList | not =>
      rw [node] at h
      obtain ⟨f, -, h⟩ := Outcome.bind_eq_ok.mp h
      exact ⟨f, (Outcome.pure_eq_ok.mp h).symm⟩
    | between | and | or =>
      rw [node] at h
      obtain ⟨left, -, h⟩ := Outcome.bind_eq_ok.mp h
      obtain ⟨right, -, h⟩ := Outcome.bind_eq_ok.mp h
      exact ⟨_, (Outcome.pure_eq_ok.mp h).symm⟩
    | _ => cases htest
  obtain ⟨f, rfl⟩ := hdocument
  refine ⟨f, rfl, ?_⟩
  rw [compile, hsame, h]
  rfl

theorem Traced.of_isTest (htest : e.isTest = true)
    (h : ∀ inside f, compile (.between types) e = .ok f →
      (Value.document f).Shows (RefersTo names) (Strays types .test inside e) inside) :
    Traced types names e where
  beside := by
    intro x inside v hv
    obtain ⟨f, rfl, hf⟩ := exists_filter_of_isTest htest hv
    exact (h inside f hf).congr (strays_congr_of_isTest htest)
  test := h

/-- The filter of a value that is no filter names the text of the expression. -/
theorem shows_filterOf (he : e.HasVariables names) (hv : ∀ d, v ≠ .document d) :
    (Value.document (filterOf e v)).Shows (RefersTo names) e.ReadsVariable inside := by
  have hfilter : filterOf e v = .single e.stringValue (.bool true) := by
    cases v with
    | document d => exact absurd rfl (hv d)
    | _ => rfl
  rw [hfilter]
  exact (Shows.field (isClean_of_isTextless rfl)).congr he.holdsVariable_stringValue_iff

/-- An expression that is its value, on its own and beside a counterpart. -/
theorem traced_value (he : e.HasVariables names)
    (hnode : ∀ counterpart, node (.between types) counterpart e =
      Operand.value types none counterpart e) :
    Traced types names e where
  beside := fun x inside v h => shows_beside he ((hnode _).symm.trans h)
  test := by
    intro inside f h
    obtain ⟨v, hv, h⟩ := Outcome.bind_eq_ok.mp h
    rw [hnode] at hv
    cases Outcome.pure_eq_ok.mp h
    refine (shows_filterOf he (Operand.value_ne_document hv)).congr ?_
    rw [strays_iff_of_value hv]
    exact (and_iff_right trivial).symm

/-- A column that is tested is the name of a field. -/
theorem traced_column {c : Column} (he : (Expr.column c).HasVariables names) :
    Traced types names (.column c) := by
  cases hquoted : c.quoted with
  | true =>
    refine traced_value he fun counterpart => ?_
    rw [node, hquoted]
    rfl
  | false =>
    constructor
    · intro x inside v h
      rw [node, Option.isNone_some, Bool.and_false] at h
      exact shows_beside he h
    · intro inside f h
      have hnode : node (.between types) none (.column c) =
          .ok (.document (.single ((Context.between types).fieldName c) (.bool true))) := by
        rw [node, hquoted]
        rfl
      rw [compile, hnode] at h
      cases Outcome.pure_eq_ok.mp h
      have hclean : (Value.bool true).IsClean := isClean_of_isTextless rfl
      refine (shows_fieldTest he hquoted hclean.shows).congr
        ((or_iff_left not_false).trans ?_)
      rw [strays_column_iff]
      exact (and_iff_right trivial).symm

/-- **A call that stands on its own** is a match, an identifier or an operator. -/
theorem standalone_cases {name : String} {distinct : Bool} {args : List Expr}
    (he : (Expr.call name distinct args).HasVariables names)
    (h : standalone (.between types) ⟨name, distinct, args⟩ = .ok v) :
    (∃ parts inner, Match.parts? ⟨name, distinct, args⟩ = some parts ∧
      v = .document (.single parts.1.stringValue (.document inner)) ∧
      (Value.document inner).IsClean) ∨
    (Match.parts? ⟨name, distinct, args⟩ = none ∧
      callValue (.between types) ⟨name, distinct, args⟩ = .ok v) := by
  obtain ⟨m?, hm, h⟩ := Outcome.bind_eq_ok.mp h
  have hstrings : ∀ text, .literal (.string text) ∈ args → NoDollar text :=
    fun text hmem => he.noDollar_string (Expr.within_iff.mpr (.inr ⟨_, hmem, .refl⟩))
  rcases match_call_cases hstrings hm with
    ⟨rfl, hparts⟩ | ⟨m, field, raw, options, rfl, hparts, hfield, hpattern, hoptions⟩
  · refine .inr ⟨hparts, ?_⟩
    obtain ⟨id?, hid, h⟩ := Outcome.bind_eq_ok.mp h
    -- an identifier is looked for twice, with the same result
    cases id? with
    | none => exact h
    | some id =>
      simp only [callValue, callWith, Context.between]
      exact Outcome.bind_eq_ok.mpr ⟨some id, hid, h⟩
  · obtain ⟨test, htest, h⟩ := Outcome.bind_eq_ok.mp h
    obtain ⟨inner, rfl, hinner⟩ := Match.exists_test_of_toDocument hpattern hoptions htest
    refine .inl ⟨_, inner, hparts, ?_, hinner⟩
    rw [← hfield]
    exact (Outcome.pure_eq_ok.mp h).symm

theorem traced_call {name : String} {distinct : Bool} {args : List Expr}
    (he : (Expr.call name distinct args).HasVariables names) :
    Traced types names (.call name distinct args) := by
  have hfield : ∀ {parts : Expr × String × Option String},
      Match.parts? ⟨name, distinct, args⟩ = some parts → parts.1.HasVariables names :=
    fun hparts => he.of_mem_children (Match.mem_of_parts? hparts).1
  constructor
  · intro x inside v h
    rcases standalone_cases he h with ⟨parts, inner, hparts, rfl, hinner⟩ | ⟨hparts, h⟩
    · rw [strays_matched_iff (by simp) hparts]
      exact shows_test (hfield hparts) hinner
    · rw [strays_plainCall_iff hparts (.inl (by simp))]
      exact shows_callValue he h
  · intro inside f h
    obtain ⟨v, hv, h⟩ := Outcome.bind_eq_ok.mp h
    cases Outcome.pure_eq_ok.mp h
    rcases standalone_cases he hv with ⟨parts, inner, hparts, rfl, hinner⟩ | ⟨hparts, hv⟩
    · rw [strays_matched_iff (by simp) hparts]
      exact shows_test (hfield hparts) hinner
    · have hshows : v.Shows (RefersTo names)
        (Strays types .operand inside (.call name distinct args))
          inside := shows_callValue he hv
      rcases callWith_cases hv with ⟨hid, id, rfl⟩ | ⟨hid, values, -, rfl⟩
      · rw [strays_identity_iff hparts hid]
        exact shows_filterOf he (by simp)
      · rw [strays_plainCall_iff hparts (.inr hid)]
        exact hshows

/-- **Run.**  The induction is on the parts of the expression. -/
theorem traced (he : e.HasVariables names) : Traced types names e := by
  induction e using Expr.induction_on_children with
  | step e ih =>
    replace ih : ∀ x ∈ e.children, Traced types names x :=
      fun x hx => ih x hx (he.of_mem_children hx)
    cases e with
    | compare op l r =>
      refine .of_isTest rfl fun inside f h => ?_
      rw [compile_of_node rfl] at h
      have hl : l ∈ (Expr.compare op l r).children := by simp [Expr.children]
      have hr : r ∈ (Expr.compare op l r).children := by simp [Expr.children]
      exact shows_comparison (he.of_mem_children hl) (he.of_mem_children hr) (ih l hl)
        (ih r hr) h
    | like negated e pattern =>
      refine .of_isTest rfl fun inside f h => ?_
      rw [compile_of_node rfl] at h
      exact shows_likeTest he h
    | isNull negated e =>
      refine .of_isTest rfl fun inside f h => ?_
      rw [compile_of_node rfl] at h
      exact shows_nullTest he h
    | inList negated e items =>
      refine .of_isTest rfl fun inside f h => ?_
      rw [compile_of_node rfl] at h
      exact shows_membership he (ih e List.mem_cons_self)
        (fun x hx => ih x (List.mem_cons_of_mem _ hx)) h
    | between negated e low high =>
      exact .of_isTest rfl fun inside f h => shows_between he (ih e (by simp [Expr.children]))
        (ih low (by simp [Expr.children])) (ih high (by simp [Expr.children])) h
    | and l r =>
      exact .of_isTest rfl fun inside f h =>
        shows_and (ih l (by simp [Expr.children])) (ih r (by simp [Expr.children])) h
    | or l r =>
      exact .of_isTest rfl fun inside f h =>
        shows_or (ih l (by simp [Expr.children])) (ih r (by simp [Expr.children])) h
    | not e =>
      refine .of_isTest rfl fun inside f h => ?_
      rw [compile_of_node rfl] at h
      exact shows_negation he (ih e List.mem_cons_self) h
    | call name distinct args => exact traced_call he
    | column c => exact traced_column he
    | literal l => exact traced_value he fun counterpart => rfl
    | signed negative e => exact traced_value he fun counterpart => rfl
    | wildcard => exact traced_value he fun counterpart => rfl
    | qualifiedWildcard table => exact traced_value he fun counterpart => rfl
    | arithmetic op l r => exact traced_value he fun counterpart => rfl
    | subquery q => exact ⟨fun x inside v h => (by cases h), fun inside f h => (by cases h)⟩

end DocQuery.Filter
