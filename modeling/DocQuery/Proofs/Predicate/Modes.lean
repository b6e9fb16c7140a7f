import DocQuery.Proofs.Predicate.Comparison
import DocQuery.Proofs.Predicate.Joined

/-!
# Flat filters and filters between stages

The same condition is compiled flat for a plain query, and with expressions as soon as the
query has stages.  The two filters select the same documents unless a literal of the
condition is read as a reference.

* `Filter.RangeTest` — comparisons of a field with a literal, and ranges
* `Filter.ModesAgree` — the same fault, or filters that accept the same documents
* `Filter.selects_eq_of_rangeTest` — one test without references
* `Document.nest` — a document with one value at a path
* `Filter.not_modesAgree_of_isReference` — a comparison with a reference
* `Filter.modesAgree_of_no_reference` — whole conditions

### What is load-bearing

In an expression a string that begins with a dollar sign is a path.  Such a literal is
written into the expression as it is, so the field is compared with another field (or with
itself) and no longer with the text.  On a document that holds nothing but the tested
field, that comparison comes out the same whatever the field holds, while the comparison
with the text does not.
-/

namespace DocQuery

open Sql

/-! ### Tests and documents -/

/-- Whether two values are there and of one kind. -/
def Value.oneKind : Option Value → Option Value → Bool
  | some a, some b => (a.order? b).isSome
  | _, _ => false

/-- Whether the field of a test has the kind of every literal that it is compared with. -/
def Document.kindsAgree (d : Document) : Expr → Bool
  | .compare _ (.column c) e => Value.oneKind (d.at? c.fullName) e.constant?
  | .between _ (.column c) low high =>
    Value.oneKind (d.at? c.fullName) low.constant? &&
      Value.oneKind (d.at? c.fullName) high.constant?
  | _ => true

namespace Sql.Expr

/-- Whether an expression is a literal that is read as a reference. -/
def isReference (e : Expr) : Bool :=
  e.constant?.any Value.isReference

/-- Whether one of the literals of a test is read as a reference. -/
def hasReference : Expr → Bool
  | .compare _ _ e => e.isReference
  | .between _ _ low high => low.isReference || high.isReference
  | _ => false

end Sql.Expr

theorem Value.exists_of_oneKind {a? : Option Value} {v : Value}
    (h : Value.oneKind a? (some v) = true) :
    ∃ a, a? = some a ∧ (a.order? v).isSome = true := by
  cases a? with
  | none => cases h
  | some a => exact ⟨a, rfl, h⟩

namespace Filter

/-- **Comparisons of a field with a literal, and ranges of literals.** -/
inductive RangeTest : Expr → Prop
  | compare (op : Comparison) {c : Column} {e : Expr} (hc : c.IsField)
    (he : e.IsLiteral fun _ => True) : RangeTest (.compare op (.column c) e)
  | between (complement : Bool) {c : Column} {low high : Expr} (hc : c.IsField)
    (hlow : low.IsLiteral fun _ => True) (hhigh : high.IsLiteral fun _ => True) :
    RangeTest (.between complement (.column c) low high)

/-- **The two compilations of a condition agree**: they fail with one fault, or their
filters accept the same documents among those whose fields have the kinds of the literals. -/
def ModesAgree (e : Expr) : Prop :=
  (∃ fault, compile (.between {}) e = .error fault ∧ compile (.flat {}) e = .error fault) ∨
  ∃ f g, compile (.between {}) e = .ok f ∧ compile (.flat {}) e = .ok g ∧
    ∀ d : Document, (∀ x ∈ e.tests, d.kindsAgree x = true) →
      (accepts d f = true ↔ accepts d g = true)

/-! ### Conditions without references -/

/-- Operands have the same values in both compilations. -/
theorem value_between (types : FieldTypes) (counterpart : Option Expr) (e : Expr) :
    (Context.between types).value counterpart e =
      (Context.flat types).value counterpart e := rfl

/-- A test fails in both compilations or in none. -/
theorem fault?_compile_rangeTest {x : Expr} (hx : RangeTest x) :
    Outcome.fault? (compile (.between {}) x) = Outcome.fault? (compile (.flat {}) x) := by
  cases hx with
  | @compare op c e hc he =>
    rw [compile_compare op hc.unquoted he.isConstant,
      compile_compare op hc.unquoted he.isConstant, value_between]
    cases (Context.flat {}).value (some (.column c)) e <;> rfl
  | @between complement c low high hc hlow hhigh =>
    rw [compile_between complement hc.unquoted hlow.isConstant hhigh.isConstant,
      compile_between complement hc.unquoted hlow.isConstant hhigh.isConstant, value_between,
      value_between]
    cases (Context.flat {}).value (some (.column c)) low with
    | error fault => rfl
    | ok least => cases (Context.flat {}).value (some (.column c)) high <;> rfl

section Literal

variable {d : Document} {c : Column} {e : Expr} {v : Value}

/-- One comparison, in both forms. -/
theorem accepts_fieldTest_eq (hc : c.IsField) (he : e.IsLiteral fun _ => True)
    (hv : (Context.flat {}).value (some (.column c)) e = .ok v) (href : e.isReference = false)
    (hkind : Value.oneKind (d.at? c.fullName) e.constant? = true) (op : Comparison) :
    accepts d (fieldTest (.between {}) c op v) = accepts d (fieldTest (.flat {}) c op v) := by
  obtain ⟨hconstant, hbasic⟩ := Operand.constant?_of_value he hv
  rw [hconstant] at hkind
  obtain ⟨a, ha, horder⟩ := Value.exists_of_oneKind hkind
  have hplain : v.isReference = false := by simpa [Expr.isReference, hconstant] using href
  rw [accepts_fieldTest_between_of_order? hc hplain ha horder,
    accepts_fieldTest_flat hc hbasic ha]

/-- One negated comparison, in both forms. -/
theorem accepts_negated_fieldTest_eq (hc : c.IsField) (he : e.IsLiteral fun _ => True)
    (hv : (Context.flat {}).value (some (.column c)) e = .ok v) (href : e.isReference = false)
    (hkind : Value.oneKind (d.at? c.fullName) e.constant? = true) (op : Comparison)
    (hop : op ≠ .eq) :
    accepts d (negated (fieldTest (.between {}) c op v)) =
      accepts d (negated (fieldTest (.flat {}) c op v)) := by
  rw [accepts_negated_fieldTest_between, accepts_fieldTest_eq hc he hv href hkind]
  obtain ⟨hconstant, hbasic⟩ := Operand.constant?_of_value he hv
  rw [hconstant] at hkind
  obtain ⟨a, ha, -⟩ := Value.exists_of_oneKind hkind
  rw [accepts_fieldTest_flat hc hbasic ha, accepts_negated_fieldTest_flat hc hbasic ha hop]

end Literal

/-- **A test without references selects the same documents in both compilations.** -/
theorem selects_eq_of_rangeTest {x : Expr} (hx : RangeTest x) (href : x.hasReference = false)
    {d : Document} (hkind : d.kindsAgree x = true) :
    selects (.between {}) d x = selects (.flat {}) d x := by
  cases hx with
  | @compare op c e hc he =>
    unfold selects
    rw [compile_compare op hc.unquoted he.isConstant,
      compile_compare op hc.unquoted he.isConstant, value_between]
    cases hv : (Context.flat {}).value (some (.column c)) e with
    | error fault => rfl
    | ok v => exact accepts_fieldTest_eq hc he hv href hkind op
  | @between complement c low high hc hlow hhigh =>
    obtain ⟨hlowRef, hhighRef⟩ := Bool.or_eq_false_iff.mp href
    obtain ⟨hlowKind, hhighKind⟩ := Bool.and_eq_true_iff.mp hkind
    unfold selects
    rw [compile_between complement hc.unquoted hlow.isConstant hhigh.isConstant,
      compile_between complement hc.unquoted hlow.isConstant hhigh.isConstant, value_between,
      value_between]
    cases hleast : (Context.flat {}).value (some (.column c)) low with
    | error fault => rfl
    | ok least =>
      cases hgreatest : (Context.flat {}).value (some (.column c)) high with
      | error fault => rfl
      | ok greatest =>
        -- a negated range negates its two legs, so the legs are compared one by one
        refine (accepts_conjoin_legs d _ _).trans
          (Eq.trans ?_ (accepts_conjoin_legs d _ _).symm)
        cases complement with
        | false =>
          have hge := accepts_fieldTest_eq hc hlow hleast hlowRef hlowKind .ge
          have hle := accepts_fieldTest_eq hc hhigh hgreatest hhighRef hhighKind .le
          exact congr (congrArg and hge) hle
        | true =>
          have hge :=
            accepts_negated_fieldTest_eq hc hlow hleast hlowRef hlowKind .ge (by decide)
          have hle :=
            accepts_negated_fieldTest_eq hc hhigh hgreatest hhighRef hhighKind .le (by decide)
          exact congr (congrArg and hge) hle

/-- Without references the two compilations of a condition agree. -/
theorem modesAgree_of_tests {e : Expr} (he : ∀ x ∈ e.tests, RangeTest x)
    (href : ∀ x ∈ e.tests, x.hasReference = false) : ModesAgree e := by
  have hfault : Outcome.fault? (compile (.between {}) e) =
      Outcome.fault? (compile (.flat {}) e) :=
    fault?_compile_congr fun x hx => fault?_compile_rangeTest (he x hx)
  -- equal faults: both compilations fail, or both have a filter
  cases hbetween : compile (.between {}) e with
  | error fault =>
    cases hflat : compile (.flat {}) e with
    | error fault' =>
      rw [hbetween, hflat] at hfault
      exact .inl ⟨fault, hbetween, hflat.trans (congrArg _ (Option.some.inj hfault).symm)⟩
    | ok g => rw [hbetween, hflat] at hfault; cases hfault
  | ok f =>
    cases hflat : compile (.flat {}) e with
    | error fault => rw [hbetween, hflat] at hfault; cases hfault
    | ok g =>
      refine .inr ⟨f, g, hbetween, hflat, fun d hkinds => ?_⟩
      rw [accepts_compile hbetween, accepts_compile hflat, Expr.joined_congr fun x hx =>
        selects_eq_of_rangeTest (he x hx) (href x hx) (hkinds x hx)]

end Filter

/-! ### Documents with one value -/

namespace Document

/-- The document that holds nothing but a value at a path. -/
def nest (v : Value) : List (List Char) → Document
  | [] => .empty
  | [part] => .single (String.ofList part) v
  | part :: next :: rest => .single (String.ofList part) (.document (nest v (next :: rest)))

theorem get?_single (part key : List Char) (v : Value) :
    (single (String.ofList part) v).get? (String.ofList key) =
      if part = key then some v else none := by
  by_cases h : part = key
  · subst h
    simp [single, get?, Entries.get?]
  · have hne : String.ofList part ≠ String.ofList key :=
      fun heq => h (String.ofList_inj.mp heq)
    simp [single, get?, Entries.get?, h, hne]

/-- The value is at the path. -/
theorem follow_nest (v : Value) {parts : List (List Char)} (h : parts ≠ []) :
    (nest v parts).follow parts = some v := by
  fun_induction nest v parts with
  | case1 => exact absurd rfl h
  | case2 part => rw [follow, get?_single, if_pos rfl]
  | case3 part next rest ih =>
    rw [follow, get?_single, if_pos rfl]
    exact ih (List.cons_ne_nil next rest)

/-- **Every other path leads nowhere or to a document**, whichever string is stored. -/
theorem follow_nest_of_ne {parts others : List (List Char)} (h : others ≠ parts) :
    (∀ s, (nest (.string s) parts).follow others = none) ∨
      ∀ s, ∃ inner, (nest (.string s) parts).follow others = some (.document inner) := by
  induction parts generalizing others with
  | nil =>
    refine .inl fun s => ?_
    cases others with
    | nil => rfl
    | cons other rest => cases rest <;> rfl
  | cons part rest ih =>
    cases others with
    | nil => exact .inl fun s => by cases rest <;> rfl
    | cons other tail =>
      by_cases hpart : part = other
      · subst hpart
        cases rest with
        | nil =>
          -- the value itself is a string, and no path goes on from there
          cases tail with
          | nil => exact absurd rfl h
          | cons next tail =>
            refine .inl fun s => ?_
            rw [nest, follow, get?_single, if_pos rfl]
        | cons next' rest =>
          cases tail with
          | nil =>
            refine .inr fun s => ⟨nest (.string s) (next' :: rest), ?_⟩
            rw [nest, follow, get?_single, if_pos rfl]
          | cons next tail =>
            have hrest : next :: tail ≠ next' :: rest := fun heq => h (by rw [heq])
            refine (ih hrest).imp ?_ ?_
            · intro hnone s
              rw [nest, follow, get?_single, if_pos rfl]
              exact hnone s
            · intro hsome s
              rw [nest, follow, get?_single, if_pos rfl]
              exact hsome s
      · refine .inl fun s => ?_
        have hget : (nest (.string s) (part :: rest)).get? (String.ofList other) = none := by
          cases rest with
          | nil => rw [nest, get?_single, if_neg hpart]
          | cons next rest => rw [nest, get?_single, if_neg hpart]
        cases tail with
        | nil => rw [follow, hget]
        | cons next tail => rw [follow, hget]

/-- The document that holds nothing but a string at a dotted path. -/
def holding (name s : String) : Document :=
  nest (.string s) (name.toList.splitOn '.')

theorem at?_holding (name s : String) : (holding name s).at? name = some (.string s) :=
  follow_nest _ (List.splitOn_ne_nil _ _)

/-- Every other path leads nowhere or to a document. -/
theorem at?_holding_of_ne {name path : String} (h : path ≠ name) :
    (∀ s, (holding name s).at? path = none) ∨
      ∀ s, ∃ inner, (holding name s).at? path = some (.document inner) := by
  refine follow_nest_of_ne fun heq => ?_
  -- the parts put together again give back the path
  have hjoined := congrArg (['.'].intercalate ·) heq
  simp only [List.intercalate_splitOn] at hjoined
  exact h (String.toList_inj.mp hjoined)

end Document

/-! ### Comparisons with a reference -/

/-- Behind the dollar sign of a text stands a path. -/
theorem Text.exists_path_of_isDollar {text : String} (h : Text.isDollar text = true) :
    ∃ path, text = "$" ++ path := by
  have hhead : text.toList.head? = some '$' := by simpa [Text.isDollar] using h
  obtain ⟨rest, hrest⟩ := List.head?_eq_some_iff.mp hhead
  refine ⟨String.ofList rest, ?_⟩
  rw [← String.toList_inj, hrest]
  simp

/-- A text that begins with a dollar sign is below, equal to and above some text. -/
theorem Text.exists_compare_eq {text : String} (h : Text.isDollar text = true)
    (o : Ordering) : ∃ s : String, compare s text = o := by
  obtain ⟨path, rfl⟩ := Text.exists_path_of_isDollar h
  cases o with
  | lt =>
    refine ⟨"", ?_⟩
    have hlt : "" < "$" ++ path := by
      rw [String.lt_iff]
      simp
    exact if_pos hlt
  | eq => exact ⟨"$" ++ path, Std.ReflCmp.compare_self⟩
  | gt =>
    refine ⟨"%", ?_⟩
    have hge : ¬ "%" < "$" ++ path := by
      rw [String.lt_iff, String.toList_append]
      intro hlt
      rcases List.cons_lt_cons_iff.mp hlt with hhead | ⟨hhead, -⟩
      · exact absurd hhead (by decide)
      · exact absurd hhead (by decide)
    have hne : "%" ≠ "$" ++ path := by
      intro heq
      have htoList := congrArg String.toList heq
      simp at htoList
    exact (if_neg hge).trans (if_neg hne)

/-- No operator fits all orders or none. -/
theorem Sql.Comparison.exists_fits_ne (op : Comparison) (o : Ordering) :
    ∃ o', op.fits o' ≠ op.fits o := by
  cases op <;> cases o <;>
    first | exact ⟨.lt, by decide⟩ | exact ⟨.eq, by decide⟩ | exact ⟨.gt, by decide⟩

namespace Filter

/-- **In a document that holds nothing else, a field and a reference are always in the
same order**: a missing field is below every string, a document above, and the field is
equal to itself. -/
theorem expressionOrder?_holding (name path : String) :
    ∃ o, ∀ s, expressionOrder? ((Document.holding name s).at? name)
      ((Document.holding name s).at? path) = some o := by
  by_cases hpath : path = name
  · subst hpath
    refine ⟨.eq, fun s => ?_⟩
    have hself : compare s s = .eq := Std.ReflCmp.compare_self
    rw [Document.at?_holding, expressionOrder?_of_order? rfl, Value.order?, hself]
  · rcases Document.at?_holding_of_ne hpath with hnone | hsome
    · refine ⟨.gt, fun s => ?_⟩
      rw [Document.at?_holding, hnone s]
      rfl
    · refine ⟨.lt, fun s => ?_⟩
      obtain ⟨inner, hinner⟩ := hsome s
      rw [Document.at?_holding, hinner]
      rfl

/-- A number is never read as a reference. -/
theorem isReference_of_isNumber {range : Int → Prop} {e : Expr} (he : e.IsNumber range) :
    e.isReference = false := by
  cases he with
  | digits hn => rfl
  | signed negative he =>
    simp only [Expr.isReference, Expr.constant?]
    split <;> rfl

/-- **A comparison with a reference tells the two compilations apart.**  Of the strings
below, equal to and above the literal, one gives the flat filter the answer that the other
filter never gives. -/
theorem not_modesAgree_of_isReference (op : Comparison) {c : Column} (hc : c.IsField)
    {e : Expr} (he : e.IsLiteral fun _ => True) (href : e.isReference = true) :
    ¬ ModesAgree (.compare op (.column c) e) := by
  cases he with
  | number he => rw [isReference_of_isNumber he] at href; cases href
  | @text raw hraw =>
    have hbetween : compile (.between {}) (.compare op (.column c) (.literal (.string raw))) =
        .ok (fieldTest (.between {}) c op (.string (Operand.unquote raw))) := by
      rw [compile_compare op hc.unquoted rfl]
      exact Outcome.bind_eq_ok.mpr ⟨_, Operand.value_text hraw, rfl⟩
    have hflat : compile (.flat {}) (.compare op (.column c) (.literal (.string raw))) =
        .ok (fieldTest (.flat {}) c op (.string (Operand.unquote raw))) := by
      rw [compile_compare op hc.unquoted rfl]
      exact Outcome.bind_eq_ok.mpr ⟨_, Operand.value_text hraw, rfl⟩
    have hdollar : Text.isDollar (Operand.unquote raw) = true := href
    obtain ⟨path, hpath⟩ := Text.exists_path_of_isDollar hdollar
    -- the expression finds one order for all strings, so a string with another one is
    -- looked for
    obtain ⟨o, ho⟩ := expressionOrder?_holding c.fullName path
    obtain ⟨o', hfits⟩ := op.exists_fits_ne o
    obtain ⟨s, hs⟩ := Text.exists_compare_eq hdollar o'
    have hat : (Document.holding c.fullName s).at? c.fullName = some (.string s) :=
      Document.at?_holding c.fullName s
    have hstaged : accepts (.holding c.fullName s)
        (fieldTest (.between {}) c op (.string (Operand.unquote raw))) = op.fits o := by
      rw [accepts_fieldTest_between hc, hpath, operandIn_reference, ho, Option.any_some]
    have hplain : accepts (.holding c.fullName s)
        (fieldTest (.flat {}) c op (.string (Operand.unquote raw))) = op.fits o' := by
      rw [accepts_fieldTest_flat hc rfl hat, Comparison.isTrueOf, Value.order?, hs]
    rintro (⟨fault, hfault, -⟩ | ⟨f, g, hf, hg, hagree⟩)
    · rw [hbetween] at hfault
      cases hfault
    · cases hbetween.symm.trans hf
      cases hflat.symm.trans hg
      have hkinds : ∀ x ∈ (Expr.compare op (.column c) (.literal (.string raw))).tests,
          (Document.holding c.fullName s).kindsAgree x = true := by
        intro x hx
        rw [List.mem_singleton.mp hx, Document.kindsAgree, hat]
        rfl
      have hiff := hagree _ hkinds
      rw [hstaged, hplain, ← Bool.eq_iff_iff] at hiff
      exact hfits hiff.symm

/-! ### Conditions -/

/-- **The two compilations of a condition agree if no literal is read as a reference.**
For a single comparison this is the exact condition: with a reference the compilations
differ on some document. -/
theorem modesAgree_of_no_reference {e : Expr} (he : ∀ x ∈ e.tests, RangeTest x) :
    ((∀ x ∈ e.tests, x.hasReference = false) → ModesAgree e) ∧
      ∀ op l r, e = .compare op l r → (ModesAgree e ↔ e.hasReference = false) := by
  refine ⟨modesAgree_of_tests he, ?_⟩
  rintro op l r rfl
  have hmem : ∀ x ∈ (Expr.compare op l r).tests, x = .compare op l r := fun x hx =>
    List.mem_singleton.mp hx
  constructor
  · intro hagree
    cases he _ List.mem_cons_self with
    | @compare op c e hc hliteral =>
      rw [← Bool.not_eq_true]
      intro href
      exact not_modesAgree_of_isReference op hc hliteral href hagree
  · intro href
    refine modesAgree_of_tests he fun x hx => ?_
    rw [hmem x hx]
    exact href

/-- Names outside a range, or another name and a low price. -/
def priceCondition : Expr :=
  .or
    (.between true (.column (.bare "name")) (.literal (.string "a"))
      (.literal (.string "O''Hara")))
    (.and (.compare .ne (.column (.qualified "item" "name")) (.literal (.string "")))
      (.compare .lt (.column (.bare "price")) (.signed true (.literal (.int 3)))))

/-- A name compared with the text of a path. -/
def pathComparison : Expr :=
  .compare .eq (.column (.bare "name")) (.literal (.string "$age"))

/-- The two compilations agree on a condition without references, and disagree on a
comparison with the text of a path. -/
theorem modesAgree_of_no_reference_price :
    (∀ x ∈ priceCondition.tests, RangeTest x ∧ x.hasReference = false) ∧
      ModesAgree priceCondition ∧
      (∀ x ∈ pathComparison.tests, RangeTest x) ∧ ¬ ModesAgree pathComparison := by
  have hprice : ∀ x ∈ priceCondition.tests, RangeTest x ∧ x.hasReference = false := by
    intro x hx
    simp only [priceCondition, Expr.tests, List.cons_append, List.nil_append, List.mem_cons,
      List.not_mem_nil, or_false] at hx
    rcases hx with rfl | rfl | rfl
    · exact ⟨.between true ⟨rfl, rfl⟩ (.text (by decide)) (.text (by decide)), by decide⟩
    · exact ⟨.compare .ne ⟨rfl, rfl⟩ (.text (by decide)), by decide⟩
    · exact ⟨.compare .lt ⟨rfl, rfl⟩ (.number (.signed true (.digits trivial))), by decide⟩
  have hpath : ∀ x ∈ pathComparison.tests, RangeTest x := by
    intro x hx
    rw [List.mem_singleton.mp hx]
    exact .compare .eq ⟨rfl, rfl⟩ (.text (by decide))
  refine ⟨hprice, ?_, hpath, ?_⟩
  · exact (modesAgree_of_no_reference fun x hx => (hprice x hx).1).1 fun x hx =>
      (hprice x hx).2
  · have hreference : pathComparison.hasReference = true := by decide
    rw [(modesAgree_of_no_reference hpath).2 _ _ _ rfl, hreference]
    exact Bool.noConfusion

example :
    selects (.flat {}) (.single "name" (.string "$age")) pathComparison = true ∧
      selects (.between {}) (.single "name" (.string "$age")) pathComparison = false := by
  decide

end Filter

end DocQuery
