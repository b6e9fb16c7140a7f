import DocQuery.Proofs.Predicate.Strays

/-!
# Variables in single tests

Which variables of a test go astray, given where those of its parts stand.

* `Filter.Traced` — where the variables of an expression stand is known
* `Filter.exists_sides_of_plainComparison` — a plain comparison applies its operator to
  its sides
* `Filter.shows_comparison`, `Filter.shows_likeTest`, `Filter.shows_nullTest`,
  `Filter.shows_membership` — the tests
-/

namespace DocQuery.Filter

open Sql Text Value

variable {types : FieldTypes} {names : String → Prop} {inside : Bool} {e l r x : Expr}
  {v : Value}
  {f : Document}

/-! ### Sides of comparisons -/

/-- Inside an expression, a side goes astray in one role if it does in another. -/
theorem strays_operand_iff_beside (hcall : isCall e = false) :
    Strays types .operand true e ↔ Strays types (.beside x) true e := by
  -- inside an expression no role leaves a column as a text, and tests do not depend on
  -- their role
  cases e with
  | column c =>
    rw [strays_column_iff, strays_column_iff]
    exact iff_of_false (fun h => Bool.noConfusion h.1) (fun h => Bool.noConfusion h.1.1)
  | signed negative e =>
    rw [strays_signed_iff, strays_signed_iff]
    exact iff_of_false (fun h => Bool.noConfusion h.1) (fun h => Bool.noConfusion h.1.1)
  | call name distinct args => cases hcall
  | literal | wildcard | qualifiedWildcard | arithmetic | subquery =>
    exact iff_of_false (fun h => by cases h) (fun h => by cases h)
  | _ => exact strays_congr_of_isTest rfl

/-- **What is to be shown of an expression**: where the variables stand in its value
beside a counterpart, and in its filter. -/
structure Traced (types : FieldTypes) (names : String → Prop) (e : Expr) : Prop where
  beside : ∀ x inside v, node (.between types) (some x) e = .ok v →
    v.Shows (RefersTo names) (Strays types (.beside x) inside e) inside
  test : ∀ inside f, compile (.between types) e = .ok f →
    (Value.document f).Shows (RefersTo names) (Strays types .test inside e) inside

theorem shows_operand {inner : Except Fault Value} (he : e.HasVariables names)
    (hinner : isCall e = false → field? e = none → ∀ v, inner = .ok v →
      v.Shows (RefersTo names) (Strays types .operand true e) true)
    (h : operand (.between types) e inner = .ok v) :
    v.Shows (RefersTo names) (Strays types .operand true e) true := by
  cases e with
  | call name distinct args => exact shows_callValue he h
  | column c =>
    rw [operand] at h
    split at h
    · rename_i hquoted
      exact hinner rfl (if_pos hquoted) v h
    · rename_i hquoted
      cases h
      exact shows_reference he (Bool.eq_false_iff.mpr hquoted)
  | _ => exact hinner rfl rfl v h

theorem Traced.shows_side (ht : Traced types names e) (he : e.HasVariables names)
    (h : operand (.between types) e (node (.between types) (some x) e) = .ok v ∨
      isCall e = false ∧ node (.between types) (some x) e = .ok v) :
    v.Shows (RefersTo names) (Strays types .operand true e) true := by
  have hnode : isCall e = false → ∀ v, node (.between types) (some x) e = .ok v →
      v.Shows (RefersTo names) (Strays types .operand true e) true := by
    intro hcall v hv
    exact (ht.beside x true v hv).congr (strays_operand_iff_beside hcall).symm
  rcases h with h | ⟨hcall, h⟩
  · exact shows_operand he (fun hcall _ => hnode hcall) h
  · exact hnode hcall v h

/-- **A plain comparison applies its operator to its sides.**  A column on the left that
is compared with a test is taken for a text, in all other places it is a reference. -/
theorem exists_sides_of_plainComparison {op : Comparison}
    (h : plainComparison (.between types) op l r (node (.between types) (some r) l)
      (node (.between types) (some l) r) = .ok f) :
    ∃ a b, f = applied (.between types) (operator op) a b ∧
      (operand (.between types) l (node (.between types) (some r) l) = .ok a ∨
        isCall l = false ∧ node (.between types) (some r) l = .ok a) ∧
      (operand (.between types) r (node (.between types) (some l) r) = .ok b ∨
        isCall r = false ∧ node (.between types) (some l) r = .ok b) := by
  -- a constant has the same value as a node and as an operand
  have hconstant : isConstant r = true → isCall r = false ∧
      node (.between types) (some l) r = (Context.between types).value (some l) r := by
    intro hr
    cases r with
    | column c =>
      rw [node, show c.quoted = true from hr]
      exact ⟨rfl, rfl⟩
    | literal l => exact ⟨rfl, rfl⟩
    | signed negative e => exact ⟨rfl, rfl⟩
    | _ => cases hr
  generalize node (.between types) (some r) l = leftNode at h ⊢
  generalize node (.between types) (some l) r = rightNode at h hconstant ⊢
  unfold plainComparison at h
  split at h
  · obtain ⟨a, ha, h⟩ := Outcome.bind_eq_ok.mp h
    obtain ⟨b, hb, h⟩ := Outcome.bind_eq_ok.mp h
    exact ⟨a, b, (Outcome.pure_eq_ok.mp h).symm, .inl ha, .inl hb⟩
  · rename_i hcalls
    obtain ⟨hleft, -⟩ : isCall l = false ∧ isCall r = false := by simpa using hcalls
    split at h
    · obtain ⟨a, ha, h⟩ := Outcome.bind_eq_ok.mp h
      obtain ⟨b, hb, h⟩ := Outcome.bind_eq_ok.mp h
      exact ⟨a, b, (Outcome.pure_eq_ok.mp h).symm, .inl ha, .inl hb⟩
    · rename_i c hfield _
      split at h
      · rename_i hr
        obtain ⟨b, hb, h⟩ := Outcome.bind_eq_ok.mp h
        refine ⟨_, b, (Outcome.pure_eq_ok.mp h).symm, .inl ?_, .inr ⟨(hconstant hr).1, ?_⟩⟩
        · cases l with
          | column c' =>
            obtain ⟨hquoted, heq⟩ := Option.ite_none_left_eq_some.mp hfield
            cases heq
            exact if_neg hquoted
          | _ => cases hfield
        · rw [(hconstant hr).2, hb]
      · obtain ⟨a, ha, h⟩ := Outcome.bind_eq_ok.mp h
        obtain ⟨b, hb, h⟩ := Outcome.bind_eq_ok.mp h
        exact ⟨a, b, (Outcome.pure_eq_ok.mp h).symm, .inr ⟨hleft, ha⟩, .inl hb⟩
    · obtain ⟨a, ha, h⟩ := Outcome.bind_eq_ok.mp h
      obtain ⟨b, hb, h⟩ := Outcome.bind_eq_ok.mp h
      exact ⟨a, b, (Outcome.pure_eq_ok.mp h).symm, .inr ⟨hleft, ha⟩, .inl hb⟩

/-! ### Tests -/

/-- An operator on two sides is an expression. -/
theorem shows_applied {operator : String} {a b : Value} {bound : String → Prop}
    {left right : Prop} (hoperator : ¬ HoldsVariable operator) (hregex : operator ≠ "$regex")
    (ha : a.Shows bound left true) (hb : b.Shows bound right true) :
    (Value.document (applied (.between types) operator a b)).Shows bound (left ∨
      right) inside := by
  have hinside : isInside true operator = true := by
    rw [isInside, bne_iff_ne.mpr hregex]
    rfl
  have hexpr : ¬ HoldsVariable "$expr" := by decide
  refine .operator hexpr ?_
  rw [isInside_expr]
  refine .operator hoperator ?_
  rw [hinside]
  exact ha.pair hb

/-- A test of one field names that field. -/
theorem shows_test {field : Expr} {inner : Document} (he : field.HasVariables names)
    (hinner : (Value.document inner).IsClean) :
    (Value.document (.single field.stringValue (.document inner))).Shows (RefersTo names)
      field.ReadsVariable inside :=
  (Shows.field hinner).congr he.holdsVariable_stringValue_iff

/-- A comparison is a test under one key. -/
theorem exists_single_of_comparison {op : Comparison} (hl : l.HasVariables names)
    (h : comparison (.between types) op l r (node (.between types) (some r) l)
      (node (.between types) (some l) r) = .ok f) :
    ∃ key inner, f = .single key (.document inner) := by
  rcases comparison_cases (fun text => hl.noDollar_string) h with ⟨field, inner, -, rfl,
    -⟩ | ⟨-, h⟩
  · exact ⟨_, inner, rfl⟩
  · obtain ⟨a, b, rfl, -, -⟩ := exists_sides_of_plainComparison h
    exact ⟨_, _, rfl⟩

/-- **The variables in a comparison.** -/
theorem shows_comparison {op : Comparison} (hel : l.HasVariables names)
    (her : r.HasVariables names) (hl : Traced types names l) (hr : Traced types names r)
    (h : comparison (.between types) op l r (node (.between types) (some r) l)
      (node (.between types) (some l) r) = .ok f) :
    (Value.document f).Shows (RefersTo names) (Strays types .test inside (.compare op l r))
      inside := by
  rcases comparison_cases (fun text => hel.noDollar_string) h with
    ⟨field, inner, hfield, rfl, hinner⟩ | ⟨hplain, h⟩
  · rw [strays_special_iff hfield]
    exact shows_test (hel.of_within (within_of_specialField? hfield)) hinner
  · obtain ⟨a, b, rfl, ha, hb⟩ := exists_sides_of_plainComparison h
    have hoperator : ¬ HoldsVariable (operator op) := by cases op <;> decide
    have hregex : operator op ≠ "$regex" := by cases op <;> decide
    rw [strays_compare_iff hplain]
    exact shows_applied hoperator hregex (hl.shows_side hel ha) (hr.shows_side her hb)

theorem field?_eq_some_iff {c : Column} :
    field? e = some c ↔ e = .column c ∧ c.quoted = false := by
  cases e with
  | column c' =>
    rw [field?, Option.ite_none_left_eq_some]
    simp only [Option.some.injEq, Expr.column.injEq, Bool.not_eq_true]
    constructor
    · rintro ⟨hquoted, rfl⟩
      exact ⟨rfl, hquoted⟩
    · rintro ⟨rfl, hquoted⟩
      exact ⟨hquoted, rfl⟩
  | _ => simp [field?]

/-- A field that is tested is named by its path. -/
theorem shows_fieldTest {c : Column} {v : Value} {astray : Prop}
    (he : (Expr.column c).HasVariables names) (hquoted : c.quoted = false)
    (hv : v.Shows (RefersTo names) astray (isInside inside c.fullName)) :
    (Value.document (.single ((Context.between types).fieldName c) v)).Shows (RefersTo names)
      (c.IsVariable ∨ astray) inside := by
  have htext : (Expr.column c).stringValue = c.fullName := if_neg (by simp [hquoted])
  have hiff := he.holdsVariable_stringValue_iff
  rw [htext, Expr.readsVariable_column_iff] at hiff
  exact hv.single.congr (or_congr_left hiff)

/-- The regular expression of a pattern that is a variable holds the variable. -/
theorem holdsVariable_toRegex_iff (he : e.HasVariables names) {text : String}
    (htext : (∃ raw, e = .literal (.string raw) ∧ text = Operand.unquote raw) ∨
      (∃ c, e = .column c ∧ text = e.stringValue)) :
    HoldsVariable (Like.toRegex text) ↔ e.ReadsVariable := by
  rcases htext with ⟨raw, rfl, rfl⟩ | ⟨c, rfl, rfl⟩
  · have hraw : NoDollar raw := he.noDollar_string .refl
    refine iff_of_false hraw.unquote.toRegex ?_
    rintro ⟨c, hc, -⟩
    exact absurd hc List.not_mem_nil
  · rw [Expr.readsVariable_column_iff]
    rcases he.column_cases with ⟨name, -, rfl⟩ | ⟨hplain, hvalue⟩
    · exact iff_of_true (holdsVariable_toRegex name) ⟨name, rfl⟩
    · exact iff_of_false hvalue.toRegex hplain

/-- **The variables in a LIKE test.** -/
theorem shows_likeTest {negated : Bool} {pattern : Expr}
    (he : (Expr.like negated e pattern).HasVariables names)
    (h : likeTest (.between types) negated e pattern = .ok f) :
    (Value.document f).Shows (RefersTo names)
      (Strays types .test inside (.like negated e pattern))
      inside := by
  rw [strays_like_iff]
  have hee : e.HasVariables names := he.of_mem_children List.mem_cons_self
  have hpattern : pattern.HasVariables names :=
    he.of_mem_children (List.mem_cons_of_mem _ List.mem_cons_self)
  unfold likeTest at h
  dsimp only at h
  split at h
  · rename_i c text hfield htext
    obtain ⟨rfl, hquoted⟩ := field?_eq_some_iff.mp hfield
    cases h
    have hregex : ∀ inside,
      (Value.document (.single "$regex" (.string (Like.toRegex text)))).Shows
        (RefersTo names) pattern.ReadsVariable inside := by
      intro inside
      refine .operator (by decide) ((Shows.outside _).congr
        (holdsVariable_toRegex_iff hpattern ?_))
      split at htext
      · cases htext
        exact .inl ⟨_, rfl, rfl⟩
      · cases htext
        exact .inr ⟨_, rfl, rfl⟩
      · cases htext
    rw [Expr.readsVariable_column_iff]
    refine shows_fieldTest hee hquoted ?_
    split
    · exact .operator (by decide) (hregex _)
    · exact hregex _
  · cases h

/-- **The variables in a test for a missing value.** -/
theorem shows_nullTest {negated : Bool} (he : (Expr.isNull negated e).HasVariables names)
    (h : nullTest (.between types) negated e = .ok f) :
    (Value.document f).Shows (RefersTo names) (Strays types .test inside (.isNull negated e))
      inside := by
  have hee : e.HasVariables names := he.of_mem_children List.mem_cons_self
  have hbool : (Value.bool negated).IsClean := isClean_of_isTextless rfl
  have hclean : (Value.document (.single "$exists" (.bool negated))).IsClean :=
    .single (by decide) hbool
  unfold nullTest at h
  dsimp only at h
  split at h
  · rename_i name distinct args
    obtain ⟨v, hv, h⟩ := Outcome.bind_eq_ok.mp h
    have hshows : v.Shows (RefersTo names)
      (Strays types .operand inside (.call name distinct args))
        inside := shows_callValue hee hv
    rcases callWith_cases hv with ⟨hid, id, rfl⟩ | ⟨hid, values, -, rfl⟩
    · cases Outcome.pure_eq_ok.mp h
      rw [strays_isNull_identity_iff hid]
      exact shows_test hee hclean
    · cases Outcome.pure_eq_ok.mp h
      rw [strays_isNull_call_iff hid]
      by_cases hname : Aggregate.operatorName name = "exists"
      · -- the operator of the call is the one that is added, and is overwritten
        have hover : (Document.single ("$" ++
          Aggregate.operatorName name) (packed values)).insert
            "$exists" (.bool negated) = .single "$exists" (.bool negated) := by
          rw [hname]
          rfl
        rw [hover]
        exact hclean.shows.congr (iff_of_false not_false fun hstrays => hstrays.1 hname)
      · have hne : "$" ++ Aggregate.operatorName name ≠ "$exists" :=
          fun heq => hname ((String.append_right_inj "$").mp heq)
        rw [and_iff_right hname]
        exact (Shows.insert hne hshows hclean.shows).congr (or_iff_left not_false)
  · split at h
    · rename_i c hfield
      obtain ⟨rfl, hquoted⟩ := field?_eq_some_iff.mp hfield
      cases h
      rw [strays_isNull_iff rfl, Expr.readsVariable_column_iff]
      exact (shows_fieldTest hee hquoted hclean.shows).congr (or_iff_left not_false)
    · cases h

/-- The variables in listed items. -/
theorem shows_nodes {target : Expr} {items : List Expr}
    (hitems : ∀ x ∈ items, Traced types names x) {values : List Value}
    (h : nodes (.between types) target items = .ok values) :
    (Value.array values).Shows (RefersTo names)
      (∃ x ∈ items, Strays types (.beside target) inside x) inside := by
  induction items generalizing values with
  | nil =>
    rw [nodes] at h
    cases h
    exact Shows.nil.congr (by simp)
  | cons first rest ih =>
    rw [nodes] at h
    obtain ⟨v, hv, h⟩ := Outcome.bind_eq_ok.mp h
    obtain ⟨others, hothers, h⟩ := Outcome.bind_eq_ok.mp h
    cases Outcome.pure_eq_ok.mp h
    have hnode : node (.between types) (some target) first = .ok v := by
      unfold listedItem at hv
      split at hv
      · cases hv
      · exact hv
    have hfirst := (hitems first List.mem_cons_self).beside target inside v hnode
    exact (hfirst.cons (ih (fun x hx => hitems x (List.mem_cons_of_mem _ hx)) hothers)).congr
      (by simp)

/-- A target that is no call is a side of an expression. -/
theorem Traced.shows_target (ht : Traced types names e) (he : e.HasVariables names)
    (h : operand (.between types) e (node (.between types) none e) = .ok v) :
    v.Shows (RefersTo names) (Strays types .operand true e) true := by
  refine shows_operand he (fun hcall hfield v hv => ?_) h
  cases e with
  | call name distinct args => cases hcall
  | column c =>
    have hquoted : c.quoted = true := by
      by_contra hquoted
      exact absurd hfield (by simp [field?, hquoted])
    rw [node, hquoted] at hv
    exact shows_value he hv
  | literal l => exact shows_value he hv
  | signed negative e => exact shows_value he hv
  | wildcard | qualifiedWildcard | arithmetic | subquery => cases hv
  | _ => exact (ht.beside .wildcard true v hv).congr (strays_operand_iff_beside rfl).symm

/-- **The variables in a test for membership.** -/
theorem shows_membership {negated : Bool} {items : List Expr}
    (he : (Expr.inList negated e items).HasVariables names) (hte : Traced types names e)
    (hitems : ∀ x ∈ items, Traced types names x)
    (h : membership (.between types) negated e items (node (.between types) none e)
      (nodes (.between types) e items) = .ok f) :
    (Value.document f).Shows (RefersTo names)
      (Strays types .test inside (.inList negated e items))
      inside := by
  have hee : e.HasVariables names := he.of_mem_children List.mem_cons_self
  obtain ⟨i?, hi, h⟩ := Outcome.bind_eq_ok.mp h
  rcases list_cases hi with ⟨rfl, hplain⟩ | ⟨i, field, rfl, hfield, hname⟩
  · rw [strays_inList_iff hplain]
    obtain ⟨values, hvalues, h⟩ := Outcome.bind_eq_ok.mp h
    have hfunction : (if negated then "$fnin" else "$fin") = "$fnin" ∨
        (if negated then "$fnin" else "$fin") = "$fin" := by cases negated <;> simp
    have hoperator : (if negated then "$nin" else "$in") = "$nin" ∨
        (if negated then "$nin" else "$in") = "$in" := by cases negated <;> simp
    generalize (if negated then "$fnin" else "$fin") = function at h hfunction
    generalize (if negated then "$nin" else "$in") = operator at h hoperator
    split at h
    · rename_i name distinct args
      obtain ⟨call, hcall, h⟩ := Outcome.bind_eq_ok.mp h
      cases Outcome.pure_eq_ok.mp h
      have hclean : ¬ HoldsVariable function := by rcases hfunction with rfl | rfl <;> decide
      have hinside : ∀ key, key ∈ [function, "function", "list"] →
          isInside inside key = inside := by
        intro key hkey
        simp only [List.mem_cons, List.not_mem_nil, or_false] at hkey
        rcases hfunction with rfl | rfl <;> rcases hkey with rfl | rfl | rfl <;>
          exact isInside_of_ne (by decide) (by decide)
      rw [isCall, Bool.not_true, Bool.or_false]
      refine .operator hclean ?_
      rw [hinside function (by simp)]
      refine Shows.insert (by decide) (.operator (by decide) ?_) (.operator (by decide) ?_)
      · rw [hinside "function" (by simp)]
        exact shows_callValue hee hcall
      · rw [hinside "list" (by simp)]
        exact shows_nodes hitems hvalues
    · rename_i hnot
      have hcall : isCall e = false := by
        cases e with
        | call name distinct args => exact absurd rfl (hnot name distinct args)
        | _ => rfl
      have hclean : ¬ HoldsVariable operator := by rcases hoperator with rfl | rfl <;> decide
      have hregex : operator ≠ "$regex" := by rcases hoperator with rfl | rfl <;> decide
      obtain ⟨target, htarget, h⟩ := Outcome.bind_eq_ok.mp h
      cases Outcome.pure_eq_ok.mp h
      rw [hcall, Bool.not_false, Bool.or_true]
      exact shows_applied hclean hregex (hte.shows_target hee htarget)
        (shows_nodes hitems hvalues)
  · obtain ⟨inner, rfl, hinner⟩ := Identity.exists_test_of_toDocument h
    rw [hname, strays_listed_iff hfield]
    exact shows_test (hee.of_within (within_of_listField? hfield)) hinner

end DocQuery.Filter
