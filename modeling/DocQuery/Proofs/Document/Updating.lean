import DocQuery.Proofs.Document.Storing

/-!
# Fields are stored and removed

A document is changed at dotted paths: a value is stored there, or what is there is
removed.  Changes are made one after the other, or all at once by an update document,
which has to keep its paths apart.

* `Content`, `Content.write` — what a field holds, and how a change at a path affects it
* `Independent` — paths that do not meet
* `Content.write_remove_comm`, `Content.write_cover` — which changes can be exchanged, and
  which cover each other
* `Content.writeAll_put`, `Content.writeAll_remove_comm` — the same of lists of changes
* `Content.read_of_write`, `Content.read_of_write_independent` — what is read after a change
* `Document.updated?` — what an update document makes of a document

### What is load-bearing

Fields keep the order in which they were first stored, so two fields that are new cannot
be stored in the other order.  But a field that is there already keeps its place: to store
it once more is the same as to have stored the new value at first, whatever has changed at
other paths since.
-/

namespace DocQuery

/-! ### Fields of a document -/

/-- What a field holds: a value, or nothing. -/
abbrev Content := Option Value

namespace Document

variable {key other : String}

/-- Gives a field its content. -/
def set (d : Document) (key : String) : Content → Document
  | some v => d.insert key v
  | none => d.erase key

theorem get?_set (d : Document) (key other : String) (x : Content) :
    (d.set key x).get? other = if other == key then x else d.get? other := by
  cases x with
  | none => exact Entries.get?_erase d.entries key other
  | some v => exact Entries.get?_put d.entries key other v

/-- The content given last stays, and its place does not change unless the field is
removed. -/
theorem set_set_self (d : Document) (key : String) {x z : Content}
    (h : z.isSome = true → x.isSome = true ∨ d.get? key = none) :
    (d.set key x).set key z = d.set key z := by
  cases x with
  | some v =>
    cases z with
    | none => exact congrArg mk (Entries.erase_put_self key v d.entries)
    | some w => exact congrArg mk (Entries.put_put_self key v w d.entries)
  | none =>
    cases z with
    | none => simp [set, erase, Entries.erase]
    | some w =>
      have hmissing : d.get? key = none := (h rfl).resolve_left Bool.false_ne_true
      exact congrArg (fun entries => Document.insert ⟨entries⟩ key w)
        (Entries.erase_of_get? hmissing)

/-- Two fields are given their contents in any order, if this adds no field for the second
one. -/
theorem set_set_comm (d : Document) (hne : key ≠ other) (x : Content) {y : Content}
    (hy : y.isSome = true → (d.get? other).isSome = true) :
    (d.set key x).set other y = (d.set other y).set key x := by
  cases y with
  | none =>
    cases x with
    | none => simp [set, erase, Entries.erase, Bool.and_comm]
    | some v => exact congrArg mk (Entries.erase_put_comm hne v d.entries)
  | some w =>
    cases x with
    | none => exact congrArg mk (Entries.erase_put_comm (Ne.symm hne) w d.entries).symm
    | some v => exact congrArg mk (Entries.put_put_comm (Ne.symm hne) w v (hy rfl))

end Document

/-! ### Changes at a path -/

/-- Two paths that do not meet: neither leads through the other. -/
def Independent (f g : List String) : Prop :=
  ¬ f <+: g ∧ ¬ g <+: f

instance : DecidableRel Independent :=
  fun f g => inferInstanceAs (Decidable (¬ f <+: g ∧ ¬ g <+: f))

namespace Independent

variable {f g : List String} {part : String}

theorem symm (h : Independent f g) : Independent g f :=
  ⟨h.2, h.1⟩

theorem irrefl (f : List String) : ¬ Independent f f :=
  fun h => h.1 (List.prefix_refl f)

theorem not_nil (g : List String) : ¬ Independent [] g :=
  fun h => h.1 List.nil_prefix

theorem of_cons (h : Independent (part :: f) (part :: g)) : Independent f g :=
  ⟨fun hfg => h.1 (List.cons_prefix_cons.mpr ⟨rfl, hfg⟩),
    fun hgf => h.2 (List.cons_prefix_cons.mpr ⟨rfl, hgf⟩)⟩

end Independent

namespace Content

/-- **A change at a path.**  Documents that are missing on the way are made where
something is stored.  Other values on the way refuse to be stored into, and have nothing
to remove. -/
def write (x : Content) : List String → Content → Option Content
  | [], _ => some x
  | part :: rest, some (.document d) =>
    (write x rest (d.get? part)).map fun y => some (.document (d.set part y))
  | part :: rest, none =>
    if x.isNone then some none
    else (write x rest none).map fun y => some (.document (Document.empty.set part y))
  | _ :: _, some v => if x.isNone then some (some v) else none

/-- The content behind a path. -/
def read : List String → Content → Content
  | [], y => y
  | part :: rest, some (.document d) => read rest (d.get? part)
  | _ :: _, _ => none

/-! ### Changes and their exchange -/

variable {x z : Content} {f g : List String} {part other : String}

/-- What a field may hold: nothing, a document, or some other value. -/
theorem cases_document (y : Content) :
    y = none ∨ (∃ d, y = some (.document d)) ∨ ∃ v, y = some v ∧ v.asDocument? = none := by
  cases y with
  | none => exact .inl rfl
  | some v =>
    cases v with
    | document d => exact .inr (.inl ⟨d, rfl⟩)
    | _ => exact .inr (.inr ⟨_, rfl, rfl⟩)

theorem write_document (x : Content) (part : String) (rest : List String) (d : Document) :
    write x (part :: rest) (some (.document d)) = (write x rest (d.get? part)).map fun y =>
      some (.document (d.set part y)) := by
  rw [write]

/-- Other values have nothing to remove. -/
theorem write_none_value (part : String) (rest : List String) {v : Value}
    (h : v.asDocument? = none) : write none (part :: rest) (some v) = some (some v) := by
  cases v with
  | document d => cases h
  | _ => rfl

/-- Other values refuse to be stored into. -/
theorem write_some_value (w : Value) (part : String) (rest : List String) {v : Value}
    (h : v.asDocument? = none) : write (some w) (part :: rest) (some v) = none := by
  cases v with
  | document d => cases h
  | _ => rfl

/-- From nothing, nothing is removed. -/
theorem write_none_none (f : List String) : write none f none = some none := by
  cases f with
  | nil => rfl
  | cons part rest => rw [write]; rfl

/-- Where something is stored, nothing is as good as an empty document. -/
theorem write_some_none (v : Value) (part : String) (rest : List String) :
    write (some v) (part :: rest) none =
      write (some v) (part :: rest) (some (.document .empty)) := by
  rw [write_document, write]
  rfl

/-- A change at a field that has just been given its content. -/
theorem write_set_self (x : Content) (part : String) (rest : List String) (d : Document)
    (y : Content) :
    write x (part :: rest) (some (.document (d.set part y))) =
      (write x rest y).map fun y' => some (.document ((d.set part y).set part y')) := by
  rw [write_document, Document.get?_set, beq_self_eq_true, if_pos rfl]

/-- A change at another field. -/
theorem write_set_of_ne (x : Content) (hne : part ≠ other) (rest : List String) (d : Document)
    (y : Content) :
    write x (part :: rest) (some (.document (d.set other y))) =
      (write x rest (d.get? part)).map fun y' =>
        some (.document ((d.set other y).set part y')) := by
  rw [write_document, Document.get?_set, beq_eq_false_iff_ne.mpr hne]
  rfl

/-- A removal always succeeds, and only at the end of its path it takes something away. -/
theorem exists_write_none (f : List String) (y : Content) :
    ∃ y', write none f y = some y' ∧ y'.isSome = (!f.isEmpty && y.isSome) := by
  induction f generalizing y with
  | nil => exact ⟨none, rfl, rfl⟩
  | cons part rest ih =>
    rcases cases_document y with rfl | ⟨d, rfl⟩ | ⟨v, rfl, hv⟩
    · exact ⟨none, write_none_none _, rfl⟩
    · obtain ⟨y', hy', -⟩ := ih (d.get? part)
      exact ⟨_, by rw [write_document, hy']; rfl, rfl⟩
    · exact ⟨some v, write_none_value _ _ hv, rfl⟩

/-- Where something is stored, there is something. -/
theorem isSome_of_write {v : Value} {y y' : Content} (h : write (some v) f y = some y') :
    y'.isSome = true := by
  cases f with
  | nil =>
    cases h
    rfl
  | cons part rest =>
    rcases cases_document y with rfl | ⟨d, rfl⟩ | ⟨w, rfl, hw⟩
    · rw [write_some_none, write_document] at h
      obtain ⟨y₀, -, rfl⟩ := Option.map_eq_some_iff.mp h
      rfl
    · rw [write_document] at h
      obtain ⟨y₀, -, rfl⟩ := Option.map_eq_some_iff.mp h
      rfl
    · rw [write_some_value _ _ _ hw] at h
      cases h

/-- Two changes of one kind: both remove, or both store. -/
theorem cases_kind (hkind : x.isSome = z.isSome) :
    (x = none ∧ z = none) ∨ ∃ v w, x = some v ∧ z = some w := by
  cases x with
  | none => exact .inl ⟨rfl, Option.isNone_iff_eq_none.mp (by simpa using hkind.symm)⟩
  | some v =>
    obtain ⟨w, rfl⟩ := Option.isSome_iff_exists.mp hkind.symm
    exact .inr ⟨v, w, rfl, rfl⟩

/-- Two changes of one kind leave something in the same cases. -/
theorem isSome_eq_of_write (hkind : x.isSome = z.isSome) {y y₁ y₂ : Content}
    (h₁ : write x f y = some y₁) (h₂ : write z f y = some y₂) : y₁.isSome = y₂.isSome := by
  rcases cases_kind hkind with ⟨rfl, rfl⟩ | ⟨v, w, rfl, rfl⟩
  · cases h₁.symm.trans h₂
    rfl
  · rw [isSome_of_write h₁, isSome_of_write h₂]

/-- **The second of two changes at one path covers the first**, if they are of one kind. -/
theorem write_write_self (hkind : x.isSome = z.isSome) (f : List String) (y : Content) :
    (write x f y).bind (write z f) = write z f y := by
  induction f generalizing y with
  | nil => rfl
  | cons part rest ih =>
    have hdocument : ∀ d : Document, (write x (part :: rest) (some (.document d))).bind
        (write z (part :: rest)) = write z (part :: rest) (some (.document d)) := by
      intro d
      have hinner := ih (d.get? part)
      rw [write_document, write_document]
      cases h₁ : write x rest (d.get? part) with
      | none =>
        rw [h₁] at hinner
        rw [← hinner]
        rfl
      | some y₁ =>
        rw [h₁, Option.bind_some] at hinner
        rw [Option.map_some, Option.bind_some, write_set_self, hinner]
        cases h₂ : write z rest (d.get? part) with
        | none => rfl
        | some y₂ =>
          have hset := d.set_set_self part (x := y₁) (z := y₂)
            fun h => .inl ((isSome_eq_of_write hkind h₁ h₂).trans h)
          rw [Option.map_some, Option.map_some, hset]
    rcases cases_document y with rfl | ⟨d, rfl⟩ | ⟨v, rfl, hv⟩
    · rcases cases_kind hkind with ⟨rfl, rfl⟩ | ⟨v, w, rfl, rfl⟩
      · rw [write_none_none, Option.bind_some, write_none_none]
      · rw [write_some_none, write_some_none, hdocument]
    · exact hdocument d
    · rcases cases_kind hkind with ⟨rfl, rfl⟩ | ⟨u, w, rfl, rfl⟩
      · rw [write_none_value _ _ hv, Option.bind_some, write_none_value _ _ hv]
      · rw [write_some_value _ _ _ hv, write_some_value _ _ _ hv, Option.bind_none]

/-- **Step.**  Inside a document, two fields do not notice each other, and changes in one
field are exchanged there. -/
theorem write_remove_comm_document (d : Document)
    (hsame : part = other → (write x f (d.get? part)).bind (write none g) =
      (write none g (d.get? part)).bind (write x f)) :
    (write x (part :: f) (some (.document d))).bind (write none (other :: g)) =
      (write none (other :: g) (some (.document d))).bind (write x (part :: f)) := by
  obtain ⟨y₂, h₂, hkeeps⟩ := exists_write_none g (d.get? other)
  rw [write_document, write_document, h₂, Option.map_some, Option.bind_some]
  by_cases hpart : part = other
  · subst hpart
    have hinner := hsame rfl
    rw [h₂, Option.bind_some] at hinner
    rw [write_set_self, ← hinner]
    cases h₁ : write x f (d.get? part) with
    | none => rfl
    | some y₁ =>
      obtain ⟨y₃, h₃, hkeeps'⟩ := exists_write_none g y₁
      have hleft : (d.set part y₁).set part y₃ = d.set part y₃ :=
        d.set_set_self _ fun h => .inl (Bool.and_eq_true_iff.mp (hkeeps'.symm.trans h)).2
      have hright : (d.set part y₂).set part y₃ = d.set part y₃ := by
        refine d.set_set_self _ fun h => ?_
        have hg := (Bool.and_eq_true_iff.mp (hkeeps'.symm.trans h)).1
        rw [hg, Bool.true_and] at hkeeps
        rw [hkeeps]
        cases d.get? part with
        | none => exact .inr rfl
        | some v => exact .inl rfl
      rw [Option.map_some, Option.bind_some, Option.bind_some, write_set_self, h₃,
        Option.map_some, Option.map_some, hleft, hright]
  · rw [write_set_of_ne _ hpart]
    cases h₁ : write x f (d.get? part) with
    | none => rfl
    | some y₁ =>
      have hcomm : (d.set part y₁).set other y₂ = (d.set other y₂).set part y₁ :=
        d.set_set_comm hpart y₁ fun h => (Bool.and_eq_true_iff.mp (hkeeps.symm.trans h)).2
      rw [Option.map_some, Option.bind_some, write_set_of_ne _ (Ne.symm hpart), h₂,
        Option.map_some, Option.map_some, hcomm]

/-- **Step.**  What has just been stored has nothing to remove at other paths. -/
theorem write_remove_nothing {v : Value}
    (hsame : part = other → (write (some v) f none).bind (write none g) =
      write (some v) f none) :
    (write (some v) (part :: f) none).bind (write none (other :: g)) =
      write (some v) (part :: f) none := by
  rw [write_some_none, write_document, Document.get?_empty]
  cases h₁ : write (some v) f none with
  | none => rfl
  | some y₁ =>
    rw [Option.map_some, Option.bind_some]
    by_cases hpart : part = other
    · subst hpart
      have hinner := hsame rfl
      rw [h₁, Option.bind_some] at hinner
      rw [write_set_self, hinner, Option.map_some, Document.set_set_self _ _ .inl]
    · rw [write_set_of_ne _ (Ne.symm hpart), Document.get?_empty, write_none_none,
        Option.map_some, Document.set_set_comm _ hpart _ (by simp)]
      rfl

/-- **A removal can be exchanged with a change at another path.** -/
theorem write_remove_comm (h : Independent f g) (x y : Content) :
    (write x f y).bind (write none g) = (write none g y).bind (write x f) := by
  induction f generalizing g y with
  | nil => exact absurd h (Independent.not_nil g)
  | cons part f ih =>
    cases g with
    | nil => exact absurd h.symm (Independent.not_nil _)
    | cons other g =>
      have hsame : ∀ y, part = other →
          (write x f y).bind (write none g) = (write none g y).bind (write x f) := by
        rintro y rfl
        exact ih h.of_cons y
      rcases cases_document y with rfl | ⟨d, rfl⟩ | ⟨v, rfl, hv⟩
      · rw [write_none_none, Option.bind_some]
        cases x with
        | none => rw [write_none_none, Option.bind_some, write_none_none]
        | some v =>
          refine write_remove_nothing fun hpart => ?_
          rw [hsame none hpart, write_none_none, Option.bind_some]
      · exact write_remove_comm_document d (hsame _)
      · rw [write_none_value _ _ hv, Option.bind_some]
        cases x with
        | none => rw [write_none_value _ _ hv, Option.bind_some, write_none_value _ _ hv]
        | some w => rw [write_some_value _ _ _ hv, Option.bind_none]

/-- Storing in a field that holds something. -/
theorem map_set_bind (u : Value) (d : Document) (part : String) (g : List String)
    {y : Option Content} (hy : ∀ y' ∈ y, y'.isSome = true) :
    (y.map fun y' => some (.document (d.set part y'))).bind (write (some u) (part :: g)) =
      (y.bind (write (some u) g)).map fun y' => some (.document (d.set part y')) := by
  cases y with
  | none => rfl
  | some y₁ =>
    rw [Option.map_some, Option.bind_some, Option.bind_some, write_set_self]
    exact congrArg (Option.map · _) (funext fun y' => by
      rw [d.set_set_self _ fun _ => .inl (hy y₁ rfl)])

/-- **Step.**  Inside a document, a field that is stored again keeps its place. -/
theorem write_write_write_document {u v w : Value} (d : Document)
    (hsame : part = other →
      ((write (some v) f (d.get? part)).bind (write (some u) g)).bind (write (some w) f) =
        (write (some w) f (d.get? part)).bind (write (some u) g)) :
    ((write (some v) (part :: f) (some (.document d))).bind
      (write (some u) (other :: g))).bind
        (write (some w) (part :: f)) =
      (write (some w) (part :: f) (some (.document d))).bind
      (write (some u) (other :: g)) := by
  have hsome : ∀ {t : Value} {h : List String} {y : Content}, ∀ y' ∈ write (some t) h y,
      y'.isSome = true := fun y' hy' => isSome_of_write (Option.mem_def.mp hy')
  rw [write_document, write_document]
  by_cases hpart : part = other
  · subst hpart
    have hboth : ∀ y' ∈ (write (some v) f (d.get? part)).bind (write (some u) g),
        y'.isSome = true := by
      intro y' hy'
      obtain ⟨y₁, -, hy'⟩ := Option.bind_eq_some_iff.mp hy'
      exact isSome_of_write hy'
    rw [map_set_bind u d part g hsome, map_set_bind w d part f hboth, hsame rfl,
      map_set_bind u d part g hsome]
  · have hcover := write_write_self (x := some v) (z := some w) rfl f (d.get? part)
    cases h₁ : write (some v) f (d.get? part) with
    | none =>
      rw [h₁] at hcover
      rw [← hcover]
      rfl
    | some y₁ =>
      rw [h₁, Option.bind_some] at hcover
      rw [Option.map_some, Option.bind_some, write_set_of_ne _ (Ne.symm hpart)]
      cases h₂ : write (some u) g (d.get? other) with
      | none =>
        cases write (some w) f (d.get? part) with
        | none => rfl
        | some y₃ =>
          rw [Option.map_some, Option.bind_some, write_set_of_ne _ (Ne.symm hpart), h₂]
          rfl
      | some y₂ =>
        rw [Option.map_some, Option.bind_some, write_set_of_ne _ hpart, Document.get?_set,
          beq_self_eq_true, if_pos rfl, hcover]
        cases h₃ : write (some w) f (d.get? part) with
        | none => rfl
        | some y₃ =>
          rw [Option.map_some, Option.map_some, Option.bind_some,
            write_set_of_ne _ (Ne.symm hpart), h₂, Option.map_some,
            Document.set_set_comm _ (Ne.symm hpart), Document.set_set_self]
          · exact fun _ => .inl (isSome_of_write h₁)
          · rw [Document.get?_set, beq_self_eq_true, if_pos rfl]
            exact fun _ => isSome_of_write h₁

/-- **A field that is stored again keeps its place**, whatever was stored at another path
meanwhile. -/
theorem write_write_write (h : Independent f g) (u v w : Value) (y : Content) :
    ((write (some v) f y).bind (write (some u) g)).bind (write (some w) f) =
      (write (some w) f y).bind (write (some u) g) := by
  induction f generalizing g y with
  | nil => exact absurd h (Independent.not_nil g)
  | cons part f ih =>
    cases g with
    | nil => exact absurd h.symm (Independent.not_nil _)
    | cons other g =>
      have hsame : ∀ y, part = other →
          ((write (some v) f y).bind (write (some u) g)).bind (write (some w) f) =
            (write (some w) f y).bind (write (some u) g) := by
        rintro y rfl
        exact ih h.of_cons y
      rcases cases_document y with rfl | ⟨d, rfl⟩ | ⟨t, rfl, ht⟩
      · rw [write_some_none, write_some_none]
        exact write_write_write_document .empty (hsame _)
      · exact write_write_write_document d (hsame _)
      · rw [write_some_value _ _ _ ht, write_some_value _ _ _ ht]
        rfl

/-- **A change covers an earlier one at its path**, if both are of one kind, whatever has
changed at another path meanwhile. -/
theorem write_cover (hkind : x.isSome = z.isSome) (h : Independent f g) (t y : Content) :
    ((write x f y).bind (write t g)).bind (write z f) = (write z f y).bind (write t g) := by
  rcases cases_kind hkind with ⟨rfl, rfl⟩ | ⟨v, w, rfl, rfl⟩
  · calc ((write none f y).bind (write t g)).bind (write none f)
        = (write none f y).bind fun y' => (write t g y').bind (write none f) :=
          Option.bind_assoc ..
      _ = (write none f y).bind fun y' => (write none f y').bind (write t g) := by
          simp only [write_remove_comm h.symm]
      _ = ((write none f y).bind (write none f)).bind (write t g) :=
        (Option.bind_assoc ..).symm
      _ = (write none f y).bind (write t g) := by rw [write_write_self rfl]
  · cases t with
    | some u => exact write_write_write h u v w y
    | none =>
      calc ((write (some v) f y).bind (write none g)).bind (write (some w) f)
          = (write (some v) f y).bind fun y' => (write none g y').bind (write (some w) f) :=
            Option.bind_assoc ..
        _ = (write (some v) f y).bind fun y' =>
          (write (some w) f y').bind (write none g) := by
            simp only [write_remove_comm h]
        _ = ((write (some v) f y).bind (write (some w) f)).bind (write none g) :=
            (Option.bind_assoc ..).symm
        _ = (write (some w) f y).bind (write none g) := by rw [write_write_self hkind]

/-! ### Lists of changes -/

/-- The parts of a dotted path. -/
def parts (field : String) : List String :=
  (field.toList.splitOn '.').map String.ofList

/-- **Changes, one after the other.** -/
def writeAll (changes : Entries Content) (y : Content) : Option Content :=
  changes.foldlM (fun y change => write change.2 (parts change.1) y) y

theorem writeAll_cons (change : String × Content) (changes : Entries Content) (y : Content) :
    writeAll (change :: changes) y =
      (write change.2 (parts change.1) y).bind (writeAll changes) :=
  List.foldlM_cons

theorem writeAll_append (changes more : Entries Content) (y : Content) :
    writeAll (changes ++ more) y = (writeAll changes y).bind (writeAll more) :=
  List.foldlM_append

theorem writeAll_singleton (field : String) (x y : Content) :
    writeAll [(field, x)] y = write x (parts field) y := by
  rw [writeAll_cons]
  exact Option.bind_fun_some _

/-- A list of removals can be exchanged with a change at another path. -/
theorem writeAll_remove_comm {changes : Entries Content} (x : Content)
    (hchanges : ∀ change ∈ changes, change.2 = none ∧ Independent f (parts change.1))
    (y : Content) :
    (writeAll changes y).bind (write x f) = (write x f y).bind (writeAll changes) := by
  induction changes generalizing y with
  | nil => exact (Option.bind_fun_some _).symm
  | cons change rest ih =>
    obtain ⟨hremove, hpath⟩ := hchanges change List.mem_cons_self
    have hrest := ih fun c hc => hchanges c (List.mem_cons_of_mem change hc)
    calc (writeAll (change :: rest) y).bind (write x f)
        = (write none (parts change.1) y).bind fun y' =>
          (writeAll rest y').bind (write x f) := by
          rw [writeAll_cons, hremove, Option.bind_assoc]
      _ = (write none (parts change.1) y).bind fun y' =>
        (write x f y').bind (writeAll rest) := by
          simp only [hrest]
      _ = ((write none (parts change.1) y).bind (write x f)).bind (writeAll rest) :=
          (Option.bind_assoc ..).symm
      _ = ((write x f y).bind (write none (parts change.1))).bind (writeAll rest) := by
          rw [write_remove_comm hpath]
      _ = (write x f y).bind (writeAll (change :: rest)) := by
          rw [Option.bind_assoc, funext (writeAll_cons change rest), hremove]

/-- **Run.**  A change that has been made can be replaced by one of its kind before or
after changes at other paths. -/
theorem writeAll_comm_of_written (hkind : x.isSome = z.isSome) {changes : Entries Content}
    (hchanges : ∀ change ∈ changes, Independent f (parts change.1)) {y : Content}
    (hy : write x f y = some y) :
    (writeAll changes y).bind (write z f) = (write z f y).bind (writeAll changes) := by
  induction changes generalizing y with
  | nil => exact (Option.bind_fun_some _).symm
  | cons change rest ih =>
    have hpath := hchanges change List.mem_cons_self
    have hrest := fun {y} => @ih (fun c hc => hchanges c (List.mem_cons_of_mem change hc)) y
    -- the first change keeps what has been written, and can be exchanged with it
    have hkeeps := write_cover (x := x) (z := x) rfl hpath change.2 y
    have hcomm := write_cover hkind hpath change.2 y
    rw [hy, Option.bind_some] at hkeeps hcomm
    rw [writeAll_cons]
    cases hchange : write change.2 (parts change.1) y with
    | none =>
      rw [hchange] at hcomm
      rw [funext (writeAll_cons change rest), ← Option.bind_assoc, ← hcomm]
      rfl
    | some y' =>
      rw [hchange, Option.bind_some] at hkeeps hcomm
      rw [Option.bind_some, hrest hkeeps, hcomm, Option.bind_assoc,
        funext (writeAll_cons change rest)]

/-- **A change can be put in the place of an earlier one at its path.** -/
theorem writeAll_put {changes : Entries Content} (hnames : (changes.map Prod.fst).Nodup)
    {field : String} (hkind : ∀ change ∈ changes, change.2.isSome = z.isSome)
    (hpaths : ∀ change ∈ changes, change.1 ≠ field →
      Independent (parts field) (parts change.1))
    (y : Content) :
    (writeAll changes y).bind (write z (parts field)) = writeAll (changes.put field z) y := by
  induction changes generalizing y with
  | nil => exact (writeAll_singleton field z y).symm
  | cons change rest ih =>
    rw [List.map_cons, List.nodup_cons] at hnames
    rw [writeAll_cons, Option.bind_assoc, Entries.put]
    split
    · rename_i hfield
      rw [beq_iff_eq] at hfield
      have hother : ∀ c ∈ rest, Independent (parts field) (parts c.1) := fun c hc =>
        hpaths c (List.mem_cons_of_mem change hc) fun heq =>
          hnames.1 (hfield.trans heq.symm ▸ List.mem_map_of_mem hc)
      have hchange := hkind change List.mem_cons_self
      have hcover := write_write_self hchange (parts field) y
      have hself := write_write_self (x := change.2) (z := change.2) rfl (parts field) y
      rw [hfield, writeAll_cons]
      cases hwritten : write change.2 (parts field) y with
      | none =>
        rw [hwritten] at hcover
        rw [← hcover]
        rfl
      | some y' =>
        rw [hwritten, Option.bind_some] at hcover hself
        rw [Option.bind_some, writeAll_comm_of_written hchange hother hself, hcover]
    · rw [writeAll_cons]
      refine congrArg _ (funext fun y' => ?_)
      exact ih hnames.2 (fun c hc => hkind c (List.mem_cons_of_mem change hc))
        (fun c hc => hpaths c (List.mem_cons_of_mem change hc)) y'

/-! ### Reading after changes -/

theorem read_none (f : List String) : read f none = none := by
  cases f <;> rfl

/-- What was written is read. -/
theorem read_of_write {y y' : Content} (h : write x f y = some y') : read f y' = x := by
  induction f generalizing y y' with
  | nil => exact (Option.some.inj h).symm
  | cons part rest ih =>
    have hdocument : ∀ d : Document, write x (part :: rest) (some (.document d)) = some y' →
        read (part :: rest) y' = x := by
      intro d h
      rw [write_document] at h
      obtain ⟨y₁, h₁, rfl⟩ := Option.map_eq_some_iff.mp h
      rw [read, Document.get?_set, beq_self_eq_true, if_pos rfl, ih h₁]
    rcases cases_document y with rfl | ⟨d, rfl⟩ | ⟨v, rfl, hv⟩
    · cases x with
      | none =>
        rw [write_none_none] at h
        cases h
        rfl
      | some v =>
        rw [write_some_none] at h
        exact hdocument .empty h
    · exact hdocument d h
    · cases x with
      | none =>
        rw [write_none_value _ _ hv] at h
        cases h
        cases v with
        | document d => cases hv
        | _ => rfl
      | some w =>
        rw [write_some_value _ _ _ hv] at h
        cases h

/-- Nothing else is read at other paths. -/
theorem read_of_write_independent (hpath : Independent f g) {y y' : Content}
    (h : write x f y = some y') : read g y' = read g y := by
  induction f generalizing g y y' with
  | nil => exact absurd hpath (Independent.not_nil g)
  | cons part f ih =>
    cases g with
    | nil => exact absurd hpath.symm (Independent.not_nil _)
    | cons other g =>
      have hdocument : ∀ d : Document, write x (part :: f) (some (.document d)) = some y' →
          read (other :: g) y' = read (other :: g) (some (.document d)) := by
        intro d h
        rw [write_document] at h
        obtain ⟨y₁, h₁, rfl⟩ := Option.map_eq_some_iff.mp h
        rw [read, read, Document.get?_set]
        by_cases hpart : part = other
        · subst hpart
          rw [beq_self_eq_true, if_pos rfl, ih hpath.of_cons h₁]
        · rw [beq_eq_false_iff_ne.mpr (Ne.symm hpart)]
          rfl
      rcases cases_document y with rfl | ⟨d, rfl⟩ | ⟨v, rfl, hv⟩
      · cases x with
        | none =>
          rw [write_none_none] at h
          cases h
          rfl
        | some v =>
          rw [write_some_none] at h
          rw [hdocument .empty h, read, Document.get?_empty, read_none, read_none]
      · exact hdocument d h
      · cases x with
        | none =>
          rw [write_none_value _ _ hv] at h
          cases h
          rfl
        | some w =>
          rw [write_some_value _ _ _ hv] at h
          cases h

/-- **Run.**  Changes at other paths change nothing that is read. -/
theorem read_of_writeAll {changes : Entries Content}
    (hpaths : ∀ change ∈ changes, Independent f (parts change.1)) {y y' : Content}
    (h : writeAll changes y = some y') : read f y' = read f y := by
  induction changes generalizing y with
  | nil =>
    cases h
    rfl
  | cons change rest ih =>
    rw [writeAll_cons] at h
    obtain ⟨y₁, h₁, h⟩ := Option.bind_eq_some_iff.mp h
    rw [ih (fun c hc => hpaths c (List.mem_cons_of_mem change hc)) h,
      read_of_write_independent (hpaths change List.mem_cons_self).symm h₁]

end Content

/-! ### Documents -/

namespace Document

/-- **A document after changes, one after the other.** -/
def assigned? (d : Document) (changes : Entries Content) : Option Document :=
  (Content.writeAll changes (some (.document d))).bind fun y => y.bind Value.asDocument?

/-- The fields under an operator of an update document. -/
def operands (update : Document) (operator : String) : Document :=
  match update.get? operator with
  | some (.document fields) => fields
  | _ => empty

/-- The changes of an update document: it stores fields, and then removes others. -/
def changes (update : Document) : Entries Content :=
  (update.operands "$set").entries.map (fun entry => (entry.1, some entry.2)) ++
    (update.operands "$unset").entries.map fun entry => (entry.1, none)

/-- **What an update document makes of a document.**  It is refused if two of its paths
meet. -/
def updated? (update d : Document) : Option Document :=
  if (update.changes.map fun change => Content.parts change.1).Pairwise Independent then
    d.assigned? update.changes
  else none

theorem follow_eq_read (d : Document) {f : List (List Char)} (hf : f ≠ []) :
    d.follow f = Content.read (f.map String.ofList) (some (.document d)) := by
  induction f generalizing d with
  | nil => exact absurd rfl hf
  | cons part rest ih =>
    cases rest with
    | nil => rfl
    | cons next rest =>
      rw [follow, List.map_cons, Content.read]
      rcases Content.cases_document (d.get? (String.ofList part)) with h | ⟨inner,
        h⟩ | ⟨v, h, hv⟩
      · rw [h]
        rfl
      · rw [h]
        exact ih inner (List.cons_ne_nil _ _)
      · rw [h]
        cases v with
        | document inner => cases hv
        | _ => rfl

/-- **A field holds what was assigned last**, if the changes behind are at other paths. -/
theorem at?_of_assigned? {d d' : Document} {before behind : Entries Content} {field : String}
    {x : Content}
    (hpaths : ∀ change ∈ behind, Independent (Content.parts field) (Content.parts change.1))
    (h : d.assigned? (before ++ (field, x) :: behind) = some d') : d'.at? field = x := by
  obtain ⟨y, hy, hd'⟩ := Option.bind_eq_some_iff.mp h
  obtain ⟨v, rfl, hv⟩ := Option.bind_eq_some_iff.mp hd'
  obtain rfl : v = .document d' := by
    cases v with
    | document d₀ => exact congrArg Value.document (Option.some.inj hv)
    | _ => cases hv
  rw [Content.writeAll_append] at hy
  obtain ⟨y₀, -, hy⟩ := Option.bind_eq_some_iff.mp hy
  rw [Content.writeAll_cons] at hy
  obtain ⟨y₁, hwrite, hy⟩ := Option.bind_eq_some_iff.mp hy
  rw [at?, follow_eq_read d' (List.splitOn_ne_nil _ _)]
  exact (Content.read_of_writeAll hpaths hy).trans (Content.read_of_write hwrite)

end Document

end DocQuery
