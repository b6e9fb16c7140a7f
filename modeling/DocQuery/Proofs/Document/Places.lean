import DocQuery.Document.Basic
import DocQuery.Proofs.Text.Dollars

/-!
# Where texts stand in a document

A filter is a document, and the database evaluates a part of its strings only: those
inside an expression.  Keys, strings outside of expressions and regular expressions are
taken as they are.

* `Value.Occurs` — a text occurs in a value, where it is evaluated or where it is not
* `Value.IsClean` — no variable occurs in a value
* `Value.Shows` — the evaluated variables of a value are known, and so is whether others
  go astray

### What is load-bearing

`Value.Shows` gives the variables that are evaluated as a bound and those that are not as
an equivalence.  Both go through documents and arrays in the same way, so the rules for
building values carry them together.
-/

namespace DocQuery

open Text

/-- Whether the values under a key stand inside an expression. -/
def Value.isInside (inside : Bool) (key : String) : Bool :=
  key != "$regex" && (inside || key == "$expr")

@[simp] theorem Value.isInside_expr (inside : Bool) : isInside inside "$expr" = true := by
  cases inside <;> rfl

/-- All other keys leave a value where it is. -/
theorem Value.isInside_of_ne {inside : Bool} {key : String} (hregex : key ≠ "$regex")
    (hexpr : key ≠ "$expr") : isInside inside key = inside := by
  rw [isInside, bne_iff_ne.mpr hregex, beq_false_of_ne hexpr, Bool.true_and, Bool.or_false]

/-- **A text occurs in a value**, which itself stands inside an expression or not.  The
strings inside an expression are evaluated, but for regular expressions; keys and all
other strings are not. -/
inductive Value.Occurs (text : String) (evaluated : Bool) : Bool → Value → Prop
  | string : Occurs text evaluated evaluated (.string text)
  | item {inside : Bool} {v : Value} {items : List Value} (hv : v ∈ items)
    (h : Occurs text evaluated inside v) : Occurs text evaluated inside (.array items)
  | key {inside : Bool} {d : Document} {v : Value} (hevaluated : evaluated = false)
    (hentry : (text, v) ∈ d.entries) : Occurs text evaluated inside (.document d)
  | entry {inside : Bool} {d : Document} {key : String} {v : Value}
    (hentry : (key, v) ∈ d.entries)
    (h : Occurs text evaluated (Value.isInside inside key) v) :
    Occurs text evaluated inside (.document d)

/-- A text occurs in a filter. -/
def Document.Occurs (d : Document) (text : String) (evaluated : Bool) : Prop :=
  Value.Occurs text evaluated false (.document d)

namespace Value

variable {text : String} {evaluated inside : Bool}

/-! ### Occurrences -/

theorem occurs_string_iff {s : String} :
    Occurs text evaluated inside (.string s) ↔ text = s ∧ evaluated = inside := by
  constructor
  · rintro ⟨⟩
    exact ⟨rfl, rfl⟩
  · rintro ⟨rfl, rfl⟩
    exact .string

theorem occurs_array_iff {items : List Value} :
    Occurs text evaluated inside (.array items) ↔
      ∃ v ∈ items, Occurs text evaluated inside v := by
  constructor
  · intro h
    cases h with
    | item hv h => exact ⟨_, hv, h⟩
  · rintro ⟨v, hv, h⟩
    exact .item hv h

theorem occurs_single_iff {key : String} {v : Value} :
    Occurs text evaluated inside (.document (.single key v)) ↔
      (evaluated = false ∧ text = key) ∨ Occurs text evaluated (isInside inside key) v := by
  constructor
  · intro h
    cases h with
    | key hevaluated hentry =>
      cases List.mem_singleton.mp hentry
      exact .inl ⟨hevaluated, rfl⟩
    | entry hentry h =>
      cases List.mem_singleton.mp hentry
      exact .inr h
  · rintro (⟨hevaluated, rfl⟩ | h)
    · exact .key hevaluated List.mem_cons_self
    · exact .entry List.mem_cons_self h

/-- What occurs in a document with two entries occurs in one of them. -/
theorem occurs_insert_iff {key key' : String} {v w : Value} (hne : key ≠ key') :
    Occurs text evaluated inside (.document ((Document.single key v).insert key' w)) ↔
      Occurs text evaluated inside (.document (.single key v)) ∨
        Occurs text evaluated inside (.document (.single key' w)) := by
  -- a new key is stored behind the old one
  have hentries : ((Document.single key v).insert key' w).entries =
      [(key, v), (key', w)] := by
    simp [Document.single, Document.insert, Entries.put, hne]
  constructor
  · intro h
    cases h with
    | key hevaluated hentry =>
      rcases List.mem_pair.mp (hentries ▸ hentry) with heq | heq
      · cases heq
        exact .inl (.key hevaluated List.mem_cons_self)
      · cases heq
        exact .inr (.key hevaluated List.mem_cons_self)
    | entry hentry h =>
      rcases List.mem_pair.mp (hentries ▸ hentry) with heq | heq
      · cases heq
        exact .inl (.entry List.mem_cons_self h)
      · cases heq
        exact .inr (.entry List.mem_cons_self h)
  · have hleft : (key, v) ∈ ((Document.single key v).insert key' w).entries := by
      rw [hentries]; simp
    have hright : (key', w) ∈ ((Document.single key v).insert key' w).entries := by
      rw [hentries]; simp
    rintro (h | h)
    · rcases occurs_single_iff.mp h with ⟨hevaluated, rfl⟩ | h
      · exact .key hevaluated hleft
      · exact .entry hleft h
    · rcases occurs_single_iff.mp h with ⟨hevaluated, rfl⟩ | h
      · exact .key hevaluated hright
      · exact .entry hright h

/-! ### Values without variables -/

/-- A value in which no variable occurs, wherever the value stands. -/
def IsClean (v : Value) : Prop :=
  ∀ text evaluated inside, HoldsVariable text → ¬ Occurs text evaluated inside v

namespace IsClean

theorem string {s : String} (hs : ¬ HoldsVariable s) : IsClean (.string s) := by
  intro text evaluated inside ht h
  obtain ⟨rfl, -⟩ := occurs_string_iff.mp h
  exact hs ht

theorem array {items : List Value} (h : ∀ v ∈ items, v.IsClean) : IsClean (.array items) := by
  intro text evaluated inside ht hoccurs
  obtain ⟨v, hv, hoccurs⟩ := occurs_array_iff.mp hoccurs
  exact h v hv text evaluated inside ht hoccurs

theorem single {key : String} {v : Value} (hkey : ¬ HoldsVariable key) (hv : v.IsClean) :
    IsClean (.document (.single key v)) := by
  intro text evaluated inside ht h
  rcases occurs_single_iff.mp h with ⟨-, rfl⟩ | h
  · exact hkey ht
  · exact hv text evaluated _ ht h

theorem insert {key key' : String} {v w : Value} (hne : key ≠ key')
    (h : IsClean (.document (.single key v))) (h' : IsClean (.document (.single key' w))) :
    IsClean (.document ((Document.single key v).insert key' w)) := by
  intro text evaluated inside ht hoccurs
  rcases (occurs_insert_iff hne).mp hoccurs with hoccurs | hoccurs
  · exact h text evaluated inside ht hoccurs
  · exact h' text evaluated inside ht hoccurs

end IsClean

/-- A value that holds no texts. -/
def isTextless : Value → Bool
  | .string _ | .array _ | .document _ => false
  | _ => true

theorem isClean_of_isTextless {v : Value} (hv : v.isTextless = true) : v.IsClean := by
  intro text evaluated inside ht h
  cases h <;> cases hv

/-! ### Values with variables -/

/-- **The variables of a value**, which stands inside an expression or not: those that are
evaluated are bound, and others occur exactly if some go astray. -/
structure Shows (bound : String → Prop) (astray : Prop) (inside : Bool) (v : Value) :
    Prop where
  bound : ∀ text, HoldsVariable text → Occurs text true inside v → bound text
  astray_iff : (∃ text, HoldsVariable text ∧ Occurs text false inside v) ↔ astray

variable {bound : String → Prop} {astray astray' : Prop} {v w : Value}

theorem IsClean.shows (h : v.IsClean) : v.Shows bound False inside where
  bound := fun text ht hoccurs => absurd hoccurs (h text true inside ht)
  astray_iff := ⟨fun ⟨text, ht, hoccurs⟩ => h text false inside ht hoccurs, False.elim⟩

namespace Shows

theorem congr (h : v.Shows bound astray inside) (hiff : astray ↔ astray') :
    v.Shows bound astray' inside :=
  ⟨h.bound, h.astray_iff.trans hiff⟩

/-- Only the variables that occur count. -/
theorem congr_value {inside' : Bool} (h : v.Shows bound astray inside)
    (hvalue : ∀ text evaluated, HoldsVariable text →
      (Occurs text evaluated inside v ↔ Occurs text evaluated inside' w)) :
    w.Shows bound astray inside' where
  bound := fun text ht hoccurs => h.bound text ht ((hvalue text true ht).mpr hoccurs)
  astray_iff := by
    rw [← h.astray_iff]
    exact exists_congr fun text => and_congr_right fun ht => (hvalue text false ht).symm

/-- A variable goes astray unless it stands inside an expression. -/
theorem reference {s : String} (hs : HoldsVariable s) (hbound : bound s) :
    (Value.string s).Shows bound (inside = false) inside where
  bound := fun text _ hoccurs => (occurs_string_iff.mp hoccurs).1 ▸ hbound
  astray_iff := by
    constructor
    · rintro ⟨text, -, hoccurs⟩
      exact (occurs_string_iff.mp hoccurs).2.symm
    · rintro rfl
      exact ⟨s, hs, .string⟩

/-- Outside of expressions nothing is evaluated. -/
theorem outside (s : String) : (Value.string s).Shows bound (HoldsVariable s) false where
  bound := fun text _ hoccurs => absurd (occurs_string_iff.mp hoccurs).2 (by decide)
  astray_iff := by
    constructor
    · rintro ⟨text, ht, hoccurs⟩
      exact (occurs_string_iff.mp hoccurs).1 ▸ ht
    · exact fun hs => ⟨s, hs, .string⟩

theorem nil : (Value.array []).Shows bound False inside :=
  (IsClean.array fun _ hv => absurd hv List.not_mem_nil).shows

theorem append {items items' : List Value} (h : (Value.array items).Shows bound astray inside)
    (h' : (Value.array items').Shows bound astray' inside) :
    (Value.array (items ++ items')).Shows bound (astray ∨ astray') inside := by
  have hsplit : ∀ text evaluated, Occurs text evaluated inside (.array (items ++ items')) ↔
      Occurs text evaluated inside (.array items) ∨
        Occurs text evaluated inside (.array items') := by
    intro text evaluated
    simp only [occurs_array_iff, List.mem_append, or_and_right, exists_or]
  constructor
  · intro text ht hoccurs
    exact ((hsplit text true).mp hoccurs).elim (h.bound text ht) (h'.bound text ht)
  · rw [← h.astray_iff, ← h'.astray_iff]
    simp only [hsplit, and_or_left, exists_or]

theorem singleton (h : v.Shows bound astray inside) :
    (Value.array [v]).Shows bound astray inside :=
  h.congr_value fun text evaluated _ => by simp [occurs_array_iff]

theorem cons {items : List Value} (h : v.Shows bound astray inside)
    (h' : (Value.array items).Shows bound astray' inside) :
    (Value.array (v :: items)).Shows bound (astray ∨ astray') inside :=
  h.singleton.append h'

theorem pair (h : v.Shows bound astray inside) (h' : w.Shows bound astray' inside) :
    (Value.array [v, w]).Shows bound (astray ∨ astray') inside :=
  h.cons h'.singleton

/-- A value under a key: a variable in the place of the key goes astray. -/
theorem single {key : String} (h : v.Shows bound astray (isInside inside key)) :
    (Value.document (.single key v)).Shows bound (HoldsVariable key ∨ astray) inside where
  bound := by
    intro text ht hoccurs
    rcases occurs_single_iff.mp hoccurs with ⟨hfalse, -⟩ | hoccurs
    · cases hfalse
    · exact h.bound text ht hoccurs
  astray_iff := by
    rw [← h.astray_iff]
    constructor
    · rintro ⟨text, ht, hoccurs⟩
      rcases occurs_single_iff.mp hoccurs with ⟨-, rfl⟩ | hoccurs
      · exact .inl ht
      · exact .inr ⟨text, ht, hoccurs⟩
    · rintro (hkey | ⟨text, ht, hoccurs⟩)
      · exact ⟨key, hkey, occurs_single_iff.mpr (.inl ⟨rfl, rfl⟩)⟩
      · exact ⟨text, ht, occurs_single_iff.mpr (.inr hoccurs)⟩

/-- A value under an operator. -/
theorem operator {key : String} (hkey : ¬ HoldsVariable key)
    (h : v.Shows bound astray (isInside inside key)) :
    (Value.document (.single key v)).Shows bound astray inside :=
  h.single.congr (or_iff_right hkey)

/-- A test of a field. -/
theorem field {key : String} (hv : v.IsClean) :
    (Value.document (.single key v)).Shows bound (HoldsVariable key) inside :=
  hv.shows.single.congr (or_iff_left id)

theorem of_operator {key : String} (hkey : ¬ HoldsVariable key)
    (h : (Value.document (.single key v)).Shows bound astray inside) :
    v.Shows bound astray (isInside inside key) := by
  refine h.congr_value fun text evaluated ht => ?_
  have hne : text ≠ key := fun heq => hkey (heq ▸ ht)
  simp [occurs_single_iff, hne]

/-- Two entries. -/
theorem insert {key key' : String} (hne : key ≠ key')
    (h : (Value.document (.single key v)).Shows bound astray inside)
    (h' : (Value.document (.single key' w)).Shows bound astray' inside) :
    (Value.document ((Document.single key v).insert key' w)).Shows bound (astray ∨
      astray') inside where
  bound := by
    intro text ht hoccurs
    exact ((occurs_insert_iff hne).mp hoccurs).elim (h.bound text ht) (h'.bound text ht)
  astray_iff := by
    rw [← h.astray_iff, ← h'.astray_iff]
    simp only [occurs_insert_iff hne, and_or_left, exists_or]

end Shows

end Value

end DocQuery
