import DocQuery.Aggregate.Name
import DocQuery.Decimal.Layout
import DocQuery.Operand
import DocQuery.Predicate.Call
import DocQuery.Predicate.Like
import Mathlib.Data.List.Infix

/-!
# Texts and variables

Variables are marked by two dollar signs.  Whatever a text is turned into on its way into
a document, it holds a variable afterwards exactly if it did before.

* `Text.HoldsVariable` — two dollar signs next to each other, escaped or not
* `Text.not_holdsVariable_of_count` — a text with one dollar sign holds no variable
* `Text.NoDollar` — texts without dollar signs, and what is made of them
* `Text.holdsVariable_toRegex` — a variable that was taken for a LIKE pattern
-/

namespace DocQuery.Text

/-- A text that holds a variable: two dollar signs next to each other.  In a regular
expression dollar signs are escaped, so the backslashes do not count. -/
def HoldsVariable (s : String) : Prop :=
  ['$', '$'] <:+: s.toList.filter (· ≠ '\\')

instance (s : String) : Decidable (HoldsVariable s) :=
  inferInstanceAs (Decidable (['$', '$'] <:+: s.toList.filter (· ≠ '\\')))

/-- A text without dollar signs. -/
def NoDollar (s : String) : Prop :=
  '$' ∉ s.toList

instance (s : String) : Decidable (NoDollar s) :=
  inferInstanceAs (Decidable ('$' ∉ s.toList))

theorem holdsVariable_variable (v : String) : HoldsVariable ("$$" ++ v) := by
  refine ⟨[], v.toList.filter (· ≠ '\\'), ?_⟩
  rw [String.toList_append, List.filter_append]
  rfl

theorem HoldsVariable.append {s : String} (h : HoldsVariable s) (t : String) :
    HoldsVariable (s ++ t) := by
  rw [HoldsVariable, String.toList_append, List.filter_append]
  exact h.trans (List.prefix_append _ _).isInfix

theorem HoldsVariable.append_left {s : String} (h : HoldsVariable s) (t : String) :
    HoldsVariable (t ++ s) := by
  rw [HoldsVariable, String.toList_append, List.filter_append]
  exact h.trans (List.suffix_append _ _).isInfix

/-- A text with one dollar sign holds no variable. -/
theorem not_holdsVariable_of_count {s : String} (h : s.toList.count '$' ≤ 1) :
    ¬ HoldsVariable s := by
  intro hholds
  have htwo : ['$', '$'].count '$' ≤ (s.toList.filter (· ≠ '\\')).count '$' :=
    hholds.sublist.count_le '$'
  have hkept : (s.toList.filter (· ≠ '\\')).count '$' ≤ s.toList.count '$' :=
    List.filter_sublist.count_le '$'
  have hcount : ['$', '$'].count '$' = 2 := rfl
  omega

theorem NoDollar.not_holdsVariable {s : String} (h : NoDollar s) : ¬ HoldsVariable s :=
  not_holdsVariable_of_count (by rw [List.count_eq_zero_of_not_mem h]; exact Nat.zero_le 1)

/-- A dollar sign in front of a text without one does not make a variable. -/
theorem NoDollar.not_holdsVariable_reference {s : String} (h : NoDollar s) :
    ¬ HoldsVariable ("$" ++ s) := by
  refine not_holdsVariable_of_count ?_
  rw [String.toList_append, List.count_append, List.count_eq_zero_of_not_mem h]
  exact Nat.le_refl 1

/-! ### References -/

theorem NoDollar.fieldReference {name : String} (h : NoDollar name) :
    ¬ HoldsVariable (Filter.fieldReference name) := by
  rw [Filter.fieldReference]
  split
  · exact h.not_holdsVariable
  · exact h.not_holdsVariable_reference

@[simp] theorem fieldReference_variable (v : String) :
    Filter.fieldReference ("$$" ++ v) = "$$" ++ v := by
  refine if_pos ?_
  rw [String.toList_append]
  rfl

/-- The operator of a function has no second dollar sign. -/
theorem NoDollar.operatorName {name : String} (h : NoDollar name) :
    NoDollar (Aggregate.operatorName name) := by
  unfold Aggregate.operatorName
  split
  · rename_i entry hentry
    have hall : ∀ entry ∈ Aggregate.renamed, NoDollar entry.2 := by decide
    exact hall entry (List.mem_of_find?_eq_some hentry)
  · exact h

/-! ### Quotes -/

theorem mem_of_mem_undoubleChars {q c : Char} {cs : List Char} (h : c ∈ undoubleChars q cs) :
    c ∈ cs := by
  induction cs using undoubleChars.induct q with
  | case1 a b rest hpair ih =>
    rw [undoubleChars, if_pos hpair] at h
    rcases List.mem_cons.mp h with rfl | h
    · obtain ⟨ha, -⟩ := Bool.and_eq_true_iff.mp hpair
      exact beq_iff_eq.mp ha ▸ List.mem_cons_self
    · exact List.mem_cons_of_mem a (List.mem_cons_of_mem b (ih h))
  | case2 a b rest hpair ih =>
    rw [undoubleChars, if_neg hpair] at h
    rcases List.mem_cons.mp h with rfl | h
    · exact List.mem_cons_self
    · exact List.mem_cons_of_mem a (ih h)
  | case3 cs hcs =>
    rw [undoubleChars] at h
    · exact h
    · exact hcs

theorem NoDollar.unquote {s : String} (h : NoDollar s) : NoDollar (Operand.unquote s) := by
  intro hmem
  rw [Operand.unquote, undouble, String.toList_ofList] at hmem
  exact h (mem_of_mem_undoubleChars hmem)

/-- The quotes of a variable are those of its name. -/
theorem unquote_variable (v : String) :
    Operand.unquote ("$$" ++ v) = "$$" ++ Operand.unquote v := by
  have hchars : undoubleChars '\'' ('$' :: '$' :: v.toList) =
      '$' :: '$' :: undoubleChars '\'' v.toList := by
    cases v.toList <;> rfl
  refine String.toList_inj.mp ?_
  simp [Operand.unquote, undouble, hchars]

/-! ### Patterns -/

theorem mem_of_splitAt? {mark c : Char} {cs before after : List Char}
    (h : splitAt? mark cs = some (before, after)) (hc : c ∈ before ∨ c ∈ after) : c ∈ cs := by
  induction cs generalizing before after with
  | nil => cases h
  | cons a rest ih =>
    rw [splitAt?] at h
    split at h
    · cases h
      exact List.mem_cons_of_mem a (hc.resolve_left List.not_mem_nil)
    · obtain ⟨⟨front, back⟩, hsplit, heq⟩ := Option.map_eq_some_iff.mp h
      cases heq
      rcases hc with hc | hc
      · rcases List.mem_cons.mp hc with rfl | hc
        · exact List.mem_cons_self
        · exact List.mem_cons_of_mem a (ih hsplit (.inl hc))
      · exact List.mem_cons_of_mem a (ih hsplit (.inr hc))

theorem notMem_escape {cs : List Char} (h : '$' ∉ cs) : '$' ∉ Like.escape cs := by
  intro hmem
  obtain ⟨c, hc, hmem⟩ := List.mem_flatMap.mp hmem
  have hne : '$' ≠ c := fun heq => h (heq ▸ hc)
  rw [Like.escapeChar] at hmem
  split at hmem <;> simp [hne] at hmem

/-- A pattern without dollar signs becomes a regular expression without them. -/
theorem notMem_body {cs : List Char} (fuel : Nat) (h : '$' ∉ cs) :
    '$' ∉ Like.body fuel cs := by
  induction fuel generalizing cs with
  | zero => cases cs <;> simp [Like.body]
  | succ fuel ih =>
    cases cs with
    | nil => simp [Like.body]
    | cons c rest =>
      obtain ⟨hc, hrest⟩ : '$' ≠ c ∧ '$' ∉ rest := by simpa using h
      rw [Like.body]
      split
      · simpa using ih hrest
      · split
        · simpa using ih hrest
        · split
          · split
            · rename_i members after hsplit
              have hmembers : '$' ∉ members :=
                fun hm => hrest (mem_of_splitAt? hsplit (.inl hm))
              have hafter : '$' ∉ after := fun hm => hrest (mem_of_splitAt? hsplit (.inr hm))
              simpa [hmembers] using ih hafter
            · exact notMem_escape h
          · rw [List.mem_append]
            rintro (hmem | hmem)
            · exact @notMem_escape [c] (by simpa using hc) (by simpa [Like.escape] using hmem)
            · exact ih hrest hmem

theorem NoDollar.toRegex {s : String} (h : NoDollar s) :
    ¬ HoldsVariable (Like.toRegex s) := by
  refine not_holdsVariable_of_count ?_
  rw [Like.toRegex, String.toList_ofList, List.cons_append, List.count_cons,
    List.count_append, List.count_eq_zero_of_not_mem (notMem_body _ h)]
  decide

/-- **A variable that is taken for a pattern** stands escaped in the regular expression. -/
theorem holdsVariable_toRegex (v : String) : HoldsVariable (Like.toRegex ("$$" ++ v)) := by
  have hlength : ("$$" ++ v).length = v.length + 2 := by
    rw [String.length_append]
    exact Nat.add_comm _ _
  have hbody : Like.body (v.length + 2) ("$$" ++ v).toList =
      '\\' :: '$' :: '\\' :: '$' :: Like.body v.length v.toList := by
    rw [String.toList_append]
    rfl
  refine ⟨['^'], (Like.body v.length v.toList ++ ['$']).filter (· ≠ '\\'), ?_⟩
  rw [Like.toRegex, String.toList_ofList, hlength, hbody]
  rfl

/-! ### Numbers -/

theorem noDollar_append {s t : String} (hs : NoDollar s) (ht : NoDollar t) :
    NoDollar (s ++ t) := by
  rw [NoDollar, String.toList_append, List.mem_append]
  exact fun h => h.elim hs ht

theorem notMem_toDigits (n : Nat) : '$' ∉ Nat.toDigits 10 n := by
  intro h
  have hdigit : '$'.isDigit = true := Nat.isDigit_of_mem_toDigits (by decide) (by decide) h
  exact absurd hdigit (by decide)

theorem noDollar_int (n : Int) : NoDollar (toString n) := by
  have hnat : ∀ m : Nat, NoDollar (Nat.repr m) := by
    intro m
    rw [NoDollar, Nat.repr, String.toList_ofList]
    exact notMem_toDigits m
  cases n with
  | ofNat m => exact hnat m
  | negSucc m => exact noDollar_append (s := "-") (by decide) (hnat (m + 1))

section Doubles

open Decimal

variable {digits : List Char} (layout : Layout)

theorem noDollar_positional (h : '$' ∉ digits) (exponent : Int) :
    NoDollar (layout.positional digits exponent) := by
  rw [Layout.positional]
  split
  · have hwhole : NoDollar (String.ofList (digits ++ List.replicate exponent.toNat '0')) := by
      rw [NoDollar, String.toList_ofList, List.mem_append]
      exact fun hmem => hmem.elim h fun hzero =>
        absurd (List.eq_of_mem_replicate hzero) (by decide)
    dsimp only
    split
    · exact noDollar_append hwhole (by decide)
    · exact hwhole
  · have hpadded : ∀ n, '$' ∉ List.replicate n '0' ++ digits := by
      intro n hmem
      rcases List.mem_append.mp hmem with hzero | hdigit
      · exact absurd (List.eq_of_mem_replicate hzero) (by decide)
      · exact h hdigit
    rw [NoDollar, String.toList_ofList]
    intro hmem
    rcases List.mem_append.mp hmem with hfront | hback
    · exact hpadded _ (List.mem_of_mem_take hfront)
    · rcases List.mem_cons.mp hback with hpoint | hback
      · exact absurd hpoint (by decide)
      · exact hpadded _ (List.mem_of_mem_drop hback)

theorem noDollar_scientific (h : '$' ∉ digits) (leading : Int) :
    NoDollar (layout.scientific digits leading) := by
  have hfraction : '$' ∉ digits.take 1 ++
      (if digits.length ≤ 1 then [] else '.' :: digits.drop 1) := by
    intro hmem
    rcases List.mem_append.mp hmem with hfront | hback
    · exact h (List.mem_of_mem_take hfront)
    · split at hback
      · exact absurd hback List.not_mem_nil
      · rcases List.mem_cons.mp hback with hpoint | hback
        · exact absurd hpoint (by decide)
        · exact h (List.mem_of_mem_drop hback)
  have hmark : ∀ signed : Bool, NoDollar (if signed then "e+" else "e") := by decide
  rw [Layout.scientific]
  refine noDollar_append (noDollar_append ?_ (hmark _)) (noDollar_int leading)
  rwa [NoDollar, String.toList_ofList]

/-- Doubles are written without dollar signs. -/
theorem noDollar_double (x : Float) : NoDollar (literal.write x) := by
  have hsigned : ∀ (negative : Bool) {text : String}, NoDollar text →
      NoDollar (if negative then "-" ++ text else text) := by
    intro negative text h
    cases negative with
    | true => exact noDollar_append (by decide) h
    | false => exact h
  rw [Layout.write]
  split
  · decide
  · rename_i negative _
    have hinfinite : ∀ negative, NoDollar (literal.infinite negative) := by decide
    exact hinfinite negative
  · exact hsigned _ (by decide)
  · rename_i b _
    refine hsigned _ ?_
    rw [Layout.magnitude]
    split
    · exact noDollar_positional _ (notMem_toDigits _) _
    · exact noDollar_scientific _ (notMem_toDigits _) _

end Doubles

end DocQuery.Text
