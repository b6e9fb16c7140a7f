import DocQuery.Proofs.Sql.Parts
import DocQuery.Proofs.Text.Dollars

/-!
# Dollar signs in the written form of expressions

The written form of an expression is made of the texts of what occurs in it and of fixed
words.  The fixed words have no dollar signs.

* `Expr.ownText` — the text that an expression brings in itself
* `Expr.noDollar_display_iff` — where the dollar signs of a written form come from
* `Expr.HasVariables` — all that is written with dollar signs are variables
* `Expr.HasVariables.holdsVariable_stringValue_iff` — whether the text of an expression
  holds a variable
-/

namespace DocQuery.Sql

open Text

theorem holdsVariable_intercalate {separator text : String} {texts : List String}
    (hmem : text ∈ texts) (h : HoldsVariable text) :
    HoldsVariable (String.intercalate separator texts) := by
  induction texts with
  | nil => exact absurd hmem List.not_mem_nil
  | cons first rest ih =>
    cases rest with
    | nil =>
      rw [List.mem_singleton.mp hmem] at h
      simpa using h
    | cons next rest =>
      rw [String.intercalate_cons_cons]
      rcases List.mem_cons.mp hmem with rfl | hmem
      · exact (h.append _).append _
      · exact (ih hmem).append_left _

theorem mem_intercalate_iff {c : Char} {texts : List String} {separator : String}
    (h : c ∉ separator.toList) :
    c ∈ (String.intercalate separator texts).toList ↔ ∃ t ∈ texts, c ∈ t.toList := by
  rw [String.toList_intercalate]
  induction texts with
  | nil => simp
  | cons t rest ih =>
    cases rest with
    | nil => simp
    | cons next rest =>
      rw [List.map_cons] at ih ⊢
      rw [List.map_cons, List.intercalate_cons_cons, List.mem_append, List.mem_append, ih]
      simp [h]

namespace Expr

/-- The text that an expression brings in itself, not through its parts. -/
def ownText : Expr → String
  | .column c => c.display
  | .literal l => l.display
  | .call name _ _ => name
  | .qualifiedWildcard table => table
  | _ => ""

/-- **Step.**  A written form has no dollar sign if neither the expression nor its parts
bring one in. -/
theorem noDollar_display_step (e : Expr) :
    NoDollar e.display ↔ NoDollar e.ownText ∧ ∀ x ∈ e.children, NoDollar x.display := by
  have hgrouped : ∀ (needed : Bool) (text : String), '$' ∈ (grouped needed text).toList ↔
      '$' ∈ text.toList := by
    intro needed text
    cases needed <;> simp [grouped]
  have hword : ∀ negated, '$' ∉ (negationWord negated).toList := by decide
  have hsymbol : ∀ op : Comparison, '$' ∉ op.symbol.toList := by intro op; cases op <;> decide
  have harithmetic : ∀ op : Arithmetic, '$' ≠ op.symbol := by intro op; cases op <;> decide
  cases e with
  | call name distinct args =>
    have hlist := @mem_intercalate_iff '$' (args.map display) ", " (by decide)
    have hdistinct : '$' ∉ (if distinct then "DISTINCT " else "").toList := by
      cases distinct <;> decide
    simp only [NoDollar, display, callText, displayAll_eq_map, String.toList_append,
      List.mem_append, hlist, hdistinct]
    simp [ownText, children]
  | inList negated e items =>
    have hlist := @mem_intercalate_iff '$' (items.map display) ", " (by decide)
    simp only [NoDollar, display, displayAll_eq_map, String.toList_append,
      List.mem_append, hlist, hword]
    simp [ownText, children]
  | signed negative e => cases negative <;> simp [NoDollar, display, ownText, children]
  | _ => simp [NoDollar, display, ownText, children, hgrouped, hword, hsymbol, harithmetic]

/-- **Run.**  A written form has no dollar sign if nothing that occurs in it brings one in. -/
theorem noDollar_display_iff (e : Expr) :
    NoDollar e.display ↔ ∀ x : Expr, x.Within e → NoDollar x.ownText := by
  induction e using induction_on_children with
  | step e ih =>
    rw [noDollar_display_step]
    constructor
    · rintro ⟨hown, hparts⟩ x hx
      rcases within_iff.mp hx with rfl | ⟨part, hpart, hwithin⟩
      · exact hown
      · exact (ih part hpart).mp (hparts part hpart) x hwithin
    · intro h
      refine ⟨h e .refl, fun part hpart => (ih part hpart).mpr fun x hx => ?_⟩
      exact h x (within_iff.mpr (.inr ⟨part, hpart, hx⟩))

theorem noDollar_display_of_within {x e : Expr} (h : NoDollar e.display) (hx : x.Within e) :
    NoDollar x.display := by
  rw [noDollar_display_iff] at h ⊢
  exact fun y hy => h y (hy.trans hx)

/-- The path of a column without dollar signs has none. -/
theorem noDollar_stringValue {e : Expr} (h : NoDollar e.display) :
    NoDollar e.stringValue := by
  cases e with
  | literal l =>
    cases l with
    | string raw =>
      intro hmem
      have hraw : '$' ∈ raw.toList := hmem
      exact h (by simp [display, Literal.display, hraw])
    | _ => exact h
  | column c =>
    rw [display, Column.display] at h
    rw [stringValue]
    split
    · rename_i hquoted
      rw [if_pos hquoted] at h
      exact fun hmem => h (by simp [hmem])
    · rename_i hquoted
      rwa [if_neg hquoted] at h
  | _ => exact h

/-! ### Variables -/

/-- **Step.**  A variable in a part is a variable in the whole. -/
theorem holdsVariable_display_of_mem_children {x e : Expr} (hx : x ∈ e.children)
    (h : HoldsVariable x.display) : HoldsVariable e.display := by
  have hgrouped : ∀ needed, HoldsVariable (grouped needed x.display) := by
    intro needed
    cases needed with
    | true => exact (h.append_left _).append _
    | false => exact h
  cases e with
  | call name distinct args =>
    rw [display, callText, displayAll_eq_map]
    exact ((holdsVariable_intercalate (List.mem_map_of_mem hx) h).append_left _).append _
  | inList negated target items =>
    rw [display, displayAll_eq_map]
    rcases List.mem_cons.mp hx with rfl | hx
    · exact ((((h.append _).append _).append _).append _).append _
    · exact ((holdsVariable_intercalate (List.mem_map_of_mem hx) h).append_left _).append _
  | between negated target low high =>
    rw [display]
    simp only [children, List.mem_cons, List.not_mem_nil, or_false] at hx
    rcases hx with rfl | rfl | rfl
    · exact (((((h.append _).append _).append _).append _).append _).append _
    · exact ((h.append_left _).append _).append _
    · exact h.append_left _
  | signed negative target =>
    cases List.mem_singleton.mp hx
    rw [display]
    exact h.append_left _
  | isNull negated target =>
    cases List.mem_singleton.mp hx
    rw [display]
    exact ((h.append _).append _).append _
  | not target =>
    cases List.mem_singleton.mp hx
    rw [display]
    exact (hgrouped _).append_left _
  | arithmetic op l r =>
    rw [display]
    rcases List.mem_pair.mp hx with rfl | rfl
    · exact (((h.append _).append _).append _).append _
    · exact h.append_left _
  | compare op l r =>
    rw [display]
    rcases List.mem_pair.mp hx with rfl | rfl
    · exact (((h.append _).append _).append _).append _
    · exact h.append_left _
  | like negated l r =>
    rw [display]
    rcases List.mem_pair.mp hx with rfl | rfl
    · exact (((h.append _).append _).append _).append _
    · exact h.append_left _
  | and l r =>
    rw [display]
    rcases List.mem_pair.mp hx with rfl | rfl
    · exact ((hgrouped _).append _).append _
    · exact (hgrouped _).append_left _
  | or l r =>
    rw [display]
    rcases List.mem_pair.mp hx with rfl | rfl
    · exact (h.append _).append _
    · exact (hgrouped _).append_left _
  | _ => exact absurd hx List.not_mem_nil

/-- **Run.**  A variable anywhere in an expression is written out. -/
theorem holdsVariable_display_of_within {x e : Expr} (hx : x.Within e)
    (h : HoldsVariable x.display) : HoldsVariable e.display := by
  induction hx with
  | refl => exact h
  | tail _ hpart ih => exact holdsVariable_display_of_mem_children hpart ih

end Expr

/-! ### Expressions with variables -/

/-- A column that is a variable. -/
def Column.IsVariable (c : Column) : Prop :=
  ∃ v, c = .bare ("$$" ++ v)

namespace Expr

/-- A variable occurs in the expression. -/
def ReadsVariable (e : Expr) : Prop :=
  ∃ c ∈ e.columns, c.IsVariable

/-- **All that is written with dollar signs are variables**, of certain names. -/
def HasVariables (names : String → Prop) (e : Expr) : Prop :=
  ∀ x : Expr, x.Within e → NoDollar x.ownText ∨ ∃ v, names v ∧ x = .column (.bare ("$$" ++ v))

variable {names : String → Prop} {x e : Expr}

theorem HasVariables.of_within (h : e.HasVariables names) (hx : x.Within e) :
    x.HasVariables names :=
  fun y hy => h y (hy.trans hx)

theorem HasVariables.of_mem_children (h : e.HasVariables names) (hx : x ∈ e.children) :
    x.HasVariables names :=
  h.of_within (within_iff.mpr (.inr ⟨x, hx, .refl⟩))

theorem HasVariables.noDollar_literal {l : Literal} (h : (literal l).HasVariables names) :
    NoDollar l.display := by
  rcases h _ .refl with htext | ⟨v, -, heq⟩
  · exact htext
  · cases heq

theorem HasVariables.noDollar_string {text : String} (h : e.HasVariables names)
    (hx : (literal (.string text)).Within e) : NoDollar text :=
  noDollar_stringValue (e := .literal (.string text)) (h.of_within hx).noDollar_literal

theorem HasVariables.noDollar_call {name : String} {distinct : Bool} {args : List Expr}
    (h : (call name distinct args).HasVariables names) : NoDollar name := by
  rcases h _ .refl with htext | ⟨v, -, heq⟩
  · exact htext
  · cases heq

/-- A column is a variable or has no dollar signs. -/
theorem HasVariables.column_cases {c : Column} (h : (column c).HasVariables names) :
    (∃ v, names v ∧ c = .bare ("$$" ++ v)) ∨
      (¬ c.IsVariable ∧ NoDollar (column c).stringValue) := by
  rcases h _ .refl with htext | ⟨v, hv, heq⟩
  · have hvalue := noDollar_stringValue (e := .column c) htext
    refine .inr ⟨?_, hvalue⟩
    rintro ⟨v, rfl⟩
    exact hvalue.not_holdsVariable (holdsVariable_variable v)
  · cases heq
    exact .inl ⟨v, hv, rfl⟩

theorem readsVariable_column_iff {c : Column} : (column c).ReadsVariable ↔ c.IsVariable := by
  simp [ReadsVariable, columns]

/-- **The text of an expression holds a variable exactly if one occurs in the expression.** -/
theorem HasVariables.holdsVariable_stringValue_iff (h : e.HasVariables names) :
    HoldsVariable e.stringValue ↔ e.ReadsVariable := by
  constructor
  · intro hholds
    by_contra hreads
    -- without a variable nothing that occurs in the expression brings in a dollar sign
    refine (noDollar_stringValue ((noDollar_display_iff e).mpr fun x
      hx => ?_)).not_holdsVariable hholds
    refine (h x hx).resolve_right ?_
    rintro ⟨v, -, rfl⟩
    exact hreads ⟨_, within_column_iff.mp hx, v, rfl⟩
  · rintro ⟨c, hc, v, rfl⟩
    have hdisplay : HoldsVariable e.display :=
      holdsVariable_display_of_within (within_column_iff.mpr hc) (holdsVariable_variable v)
    cases e with
    | column c =>
      cases List.mem_singleton.mp hc
      exact holdsVariable_variable v
    | literal l => exact absurd hc List.not_mem_nil
    | _ => exact hdisplay

end Expr

end DocQuery.Sql
