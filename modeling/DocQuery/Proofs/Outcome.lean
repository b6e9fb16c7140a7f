/-!
# Taking computations that can fail apart

Every compiler of this library runs in `Except`.  A proof about an outcome peels the
computation one step at a time; the lemmas for that stand here, once.

* `bind_eq_ok`, `pure_eq_ok` — a sequence succeeds if both of its parts do, and a returned
  value is the outcome
* `fault?` — the fault of a computation, and its rules
* `map_bind` — a change of the result passes through a sequence
* `exists_bind_pure_iff`, `exists_mapM_eq_ok_iff` — when a sequence or a computation on a
  list succeeds
* `exists_of_mem_mapM`, `map_eq_of_mapM`, `map_results_of_mapM` — a result comes from an item
* `fault?_mapM` — the first item with a fault decides
* `mapM_eq_of_map_eq` — a computation on a list is decided by its outcomes
* `foldlM_congr` — steps that agree make folds that agree
* `foldlM_map` — what every step of a fold commutes with, the fold commutes with
* `foldlM_preserves` — what every step of a fold preserves, the fold preserves
-/

namespace DocQuery.Outcome

variable {ε α β : Type}

/-- A sequence succeeds if its first part does and the rest does on the result. -/
theorem bind_eq_ok {x : Except ε α} {f : α → Except ε β} {b : β} :
    (x >>= f) = .ok b ↔ ∃ a, x = .ok a ∧ f a = .ok b := by
  constructor
  · intro h
    cases x with
    | error fault => cases h
    | ok a => exact ⟨a, rfl, h⟩
  · rintro ⟨a, rfl, h⟩
    exact h

/-- A returned value is the outcome. -/
theorem pure_eq_ok {a b : α} : (pure a : Except ε α) = .ok b ↔ a = b := by
  constructor
  · exact Except.ok.inj
  · exact congrArg _

/-- The fault that a computation ends with. -/
def fault? : Except ε α → Option ε
  | .error fault => some fault
  | .ok _ => none

@[simp] theorem fault?_ok (a : α) : fault? (.ok a : Except ε α) = none := rfl

@[simp] theorem fault?_error (fault : ε) :
    fault? (.error fault : Except ε α) = some fault := rfl

@[simp] theorem fault?_pure (a : α) : fault? (pure a : Except ε α) = none := rfl

/-- A computation without fault has a result. -/
theorem exists_ok_of_fault?_eq_none {x : Except ε α} (h : fault? x = none) :
    ∃ a, x = .ok a := by
  cases x with
  | error fault => cases h
  | ok a => exact ⟨a, rfl⟩

theorem fault?_eq_none_iff {x : Except ε α} : fault? x = none ↔ ∃ a, x = .ok a :=
  ⟨exists_ok_of_fault?_eq_none, fun ⟨a, h⟩ => h ▸ fault?_ok a⟩

theorem fault?_eq_some_iff {x : Except ε α} {fault : ε} :
    fault? x = some fault ↔ x = .error fault := by
  cases x <;> simp

/-- A rest that cannot fail adds no fault. -/
theorem fault?_bind_of_ok (x : Except ε α) {f : α → Except ε β}
    (hf : ∀ a, fault? (f a) = none) : fault? (x >>= f) = fault? x := by
  cases x with
  | error fault => rfl
  | ok a => exact hf a

/-- Sequences have the same fault if their first parts do, and their rests on all results. -/
theorem fault?_bind_congr {α' β' : Type} {x : Except ε α} {x' : Except ε α'}
    {f : α → Except ε β} {f' : α' → Except ε β'} (hx : fault? x = fault? x')
    (hf : ∀ a a', fault? (f a) = fault? (f' a')) :
    fault? (x >>= f) = fault? (x' >>= f') := by
  cases x with
  | error fault =>
    cases x' with
    | error fault' => exact hx
    | ok a' => cases hx
  | ok a =>
    cases x' with
    | error fault' => cases hx
    | ok a' => exact hf a a'

/-- A change of the result of a sequence is a change of the result of its last part. -/
theorem map_bind {γ : Type} (x : Except ε α) (f : α → Except ε β) (φ : β → γ) :
    (x >>= f).map φ = x >>= fun a => (f a).map φ := by
  cases x <;> rfl

/-- A sequence that ends with a returned value succeeds exactly if its first part does. -/
theorem exists_bind_pure_iff {x : Except ε α} {f : α → β} :
    (∃ b, (do return f (← x)) = .ok b) ↔ ∃ a, x = .ok a := by
  cases x with
  | error fault => exact iff_of_false (fun ⟨_, h⟩ => by cases h) (fun ⟨_, h⟩ => by cases h)
  | ok a => exact iff_of_true ⟨f a, rfl⟩ ⟨a, rfl⟩

/-- A computation succeeds on a list exactly if it does on each of its items. -/
theorem exists_mapM_eq_ok_iff {f : α → Except ε β} {items : List α} :
    (∃ results, items.mapM f = .ok results) ↔ ∀ a ∈ items, ∃ b, f a = .ok b := by
  induction items with
  | nil => exact ⟨fun _ _ ha => absurd ha List.not_mem_nil, fun _ => ⟨[], rfl⟩⟩
  | cons a rest ih =>
    rw [List.forall_mem_cons, ← ih]
    simp only [List.mapM_cons, bind_eq_ok, pure_eq_ok]
    constructor
    · rintro ⟨_, b, hb, results, hresults, -⟩
      exact ⟨⟨b, hb⟩, results, hresults⟩
    · rintro ⟨⟨b, hb⟩, results, hresults⟩
      exact ⟨_, b, hb, results, hresults, rfl⟩

/-- Every result of a list comes from one of its items. -/
theorem exists_of_mem_mapM {f : α → Except ε β} {items : List α} {results : List β}
    (h : items.mapM f = .ok results) {b : β} (hb : b ∈ results) :
    ∃ a ∈ items, f a = .ok b := by
  induction items generalizing results with
  | nil =>
    cases pure_eq_ok.mp h
    exact absurd hb List.not_mem_nil
  | cons first rest ih =>
    rw [List.mapM_cons] at h
    obtain ⟨b', hb', h⟩ := bind_eq_ok.mp h
    obtain ⟨others, hothers, h⟩ := bind_eq_ok.mp h
    cases pure_eq_ok.mp h
    rcases List.mem_cons.mp hb with rfl | hb
    · exact ⟨first, List.mem_cons_self, hb'⟩
    · obtain ⟨a, ha, hfa⟩ := ih hothers hb
      exact ⟨a, List.mem_cons_of_mem first ha, hfa⟩

/-- The results of a list are the outcomes of its items, in their order. -/
theorem map_eq_of_mapM {f : α → Except ε β} {items : List α} {results : List β}
    (h : items.mapM f = .ok results) : items.map f = results.map .ok := by
  induction items generalizing results with
  | nil =>
    cases pure_eq_ok.mp h
    rfl
  | cons first rest ih =>
    rw [List.mapM_cons] at h
    obtain ⟨b, hb, h⟩ := bind_eq_ok.mp h
    obtain ⟨others, hothers, h⟩ := bind_eq_ok.mp h
    cases pure_eq_ok.mp h
    rw [List.map_cons, List.map_cons, hb, ih hothers]

/-- What the results of a list show of its items, they show in their order. -/
theorem map_results_of_mapM {γ : Type} {f : α → Except ε β} {shown : β → γ} {meant : α → γ}
    (hstep : ∀ a b, f a = .ok b → shown b = meant a) {items : List α} {results : List β}
    (h : items.mapM f = .ok results) : results.map shown = items.map meant := by
  induction items generalizing results with
  | nil =>
    cases pure_eq_ok.mp h
    rfl
  | cons first rest ih =>
    rw [List.mapM_cons] at h
    obtain ⟨b, hb, h⟩ := bind_eq_ok.mp h
    obtain ⟨others, hothers, h⟩ := bind_eq_ok.mp h
    cases pure_eq_ok.mp h
    rw [List.map_cons, List.map_cons, hstep first b hb, ih hothers]

/-- The fault of a computation on a list is that of the first item that has one. -/
theorem fault?_mapM (f : α → Except ε β) (items : List α) :
    fault? (items.mapM f) = items.findSome? fun a => fault? (f a) := by
  induction items with
  | nil => rfl
  | cons first rest ih =>
    rw [List.mapM_cons, List.findSome?_cons]
    cases f first with
    | error fault => rfl
    | ok b => exact (fault?_bind_of_ok (rest.mapM f) fun _ => rfl).trans ih

/-- Computations with the same outcomes, item by item, agree on the lists. -/
theorem mapM_eq_of_map_eq {γ : Type} {f : α → Except ε β} {g : γ → Except ε β} {xs : List α}
    {ys : List γ} (h : xs.map f = ys.map g) : xs.mapM f = ys.mapM g := by
  induction xs generalizing ys with
  | nil =>
    rw [List.map_nil, eq_comm, List.map_eq_nil_iff] at h
    rw [h]
    rfl
  | cons x xs ih =>
    cases ys with
    | nil => cases h
    | cons y ys =>
      obtain ⟨hfirst, hrest⟩ := List.cons.inj h
      rw [List.mapM_cons, List.mapM_cons, hfirst, ih hrest]

/-- Steps that agree make folds that agree. -/
theorem foldlM_congr {f g : β → α → Except ε β} {items : List α}
    (hstep : ∀ a ∈ items, ∀ b, f b a = g b a) (b : β) :
    items.foldlM f b = items.foldlM g b := by
  induction items generalizing b with
  | nil => rfl
  | cons a rest ih =>
    rw [List.foldlM_cons, List.foldlM_cons, hstep a List.mem_cons_self]
    exact bind_congr fun next => ih (fun a' ha' => hstep a' (List.mem_cons_of_mem a ha')) next

/-- **Step to run.**  If every step commutes with a change of the state, the whole fold
does. -/
theorem foldlM_map {γ : Type} {f : γ → α → Except ε γ} {g : β → α → Except ε β} {φ : β → γ}
    {items : List α} (hstep : ∀ a ∈ items, ∀ b, f (φ b) a = (g b a).map φ) {b : β} :
    items.foldlM f (φ b) = (items.foldlM g b).map φ := by
  induction items generalizing b with
  | nil => rfl
  | cons a rest ih =>
    rw [List.foldlM_cons, List.foldlM_cons, hstep a List.mem_cons_self, map_bind]
    cases g b a with
    | error fault => rfl
    | ok next => exact ih fun a' ha' => hstep a' (List.mem_cons_of_mem a ha')

/-- **Step to run.**  What every step of a fold preserves, the whole fold preserves. -/
theorem foldlM_preserves {f : β → α → Except ε β} {P : β → Prop} {items : List α}
    (hstep : ∀ a ∈ items, ∀ b b', f b a = .ok b' → P b → P b') {b b' : β}
    (hrun : items.foldlM f b = .ok b') (hstart : P b) : P b' := by
  induction items generalizing b with
  | nil =>
    rw [List.foldlM_nil, pure_eq_ok] at hrun
    exact hrun ▸ hstart
  | cons a rest ih =>
    rw [List.foldlM_cons, bind_eq_ok] at hrun
    obtain ⟨next, hnext, hrest⟩ := hrun
    exact ih (fun a' ha' => hstep a' (List.mem_cons_of_mem a ha')) hrest
      (hstep a List.mem_cons_self b next hnext hstart)

end DocQuery.Outcome
