import DocQuery.Proofs.Aggregate.Stored
import DocQuery.Proofs.Predicate.Lookups

/-!
# The order in which names are enumerated

The table of names is a map, and a map has no order of its own.  Looking up an expression
by its text does not depend on the order in which the entries are enumerated.  Looking up
a call up to the case of its function does: the first entry that matches is taken, and
entries that match may have different names.

* `Aliases.Reordered` — the same entries, enumerated in another order
* `Aliases.Agrees` — all entries that match a call have the same name
* `Aliases.aliasOfCall?_reordered_iff` — when the name of a call does not depend on the order
* `Plan.withAliases`, `Plan.draft_withAliases` — when the draft of a plan does not depend
  on it
* `names_enumerated_in_any_order` — the two together

### What is load-bearing

Every text is stored once, so a look-up by text finds the same entry in every order.  A
call that is not stored under its own text is left to the enumeration, and any matching
entry can be made the first one.
-/

namespace DocQuery

open Sql

/-! ### Enumerations -/

namespace Aliases

/-- **The same table, enumerated in another order.** -/
structure Reordered (b a : Aliases) : Prop where
  aliasOf : b.aliasOf.Perm a.aliasOf
  fieldOf : b.fieldOf.Perm a.fieldOf

/-- No text is stored twice. -/
structure IsMap (a : Aliases) : Prop where
  aliasOf : (a.aliasOf.map Prod.fst).Nodup
  fieldOf : (a.fieldOf.map Prod.fst).Nodup

/-- All entries that match a call up to the case of its function have the same name. -/
def Agrees (a : Aliases) (call : String) : Prop :=
  ∀ x ∈ a.aliasOf, ∀ y ∈ a.aliasOf,
    callKey x.1 = callKey call → callKey y.1 = callKey call → x.2 = y.2

/-- **Step.**  Naming an expression stores no text twice. -/
theorem IsMap.insert {a : Aliases} (h : a.IsMap) (field label : String) :
    (a.insert field label).IsMap :=
  ⟨Entries.nodup_put h.aliasOf, Entries.nodup_put h.fieldOf⟩

/-- **Run.**  However many names are inserted, no text is stored twice. -/
theorem isMap_ofList (pairs : List (String × String)) : (ofList pairs).IsMap := by
  have hrun : ∀ a : Aliases, a.IsMap →
      (pairs.foldl (fun a pair => a.insert pair.1 pair.2) a).IsMap := by
    induction pairs with
    | nil => exact fun a ha => ha
    | cons pair rest ih => exact fun a ha => ih _ (ha.insert pair.1 pair.2)
  exact hrun empty ⟨List.nodup_nil, List.nodup_nil⟩

variable {a b : Aliases}

theorem aliasOf?_eq_of_reordered (ha : a.IsMap) (h : b.Reordered a) (name : String) :
    b.aliasOf? name = a.aliasOf? name :=
  Entries.get?_eq_of_perm ha.aliasOf h.aliasOf name

/-- The expression behind a name does not depend on the order. -/
theorem resolve_eq_of_reordered (ha : a.IsMap) (h : b.Reordered a) (name : String) :
    b.resolve name = a.resolve name := by
  have halias := Entries.get?_eq_of_perm ha.aliasOf h.aliasOf name
  have hfield := Entries.get?_eq_of_perm ha.fieldOf h.fieldOf name
  have hambiguous : b.isAmbiguous name = a.isAmbiguous name := by
    rw [isAmbiguous, isAmbiguous, halias, hfield]
  rw [resolve, resolve, hambiguous, hfield]

/-- A call that is stored under its own text goes by the name of that entry. -/
theorem aliasOfCall?_of_contains {call : String} (h : a.contains call = true) :
    a.aliasOfCall? call = a.aliasOf? call := by
  obtain ⟨label, hlabel⟩ := Option.isSome_iff_exists.mp h
  rw [aliasOfCall?, hlabel]

/-- Any other call goes by the name of the first entry that matches. -/
theorem aliasOfCall?_of_not_contains {call : String} (h : ¬ a.contains call = true) :
    a.aliasOfCall? call =
      (a.aliasOf.find? fun entry => callKey entry.1 == callKey call).map Prod.snd := by
  have hnone : a.aliasOf? call = none := by simpa [contains] using h
  rw [aliasOfCall?, hnone]

theorem contains_eq_of_reordered (ha : a.IsMap) (h : b.Reordered a) (call : String) :
    b.contains call = a.contains call := by
  rw [contains, contains, aliasOf?_eq_of_reordered ha h]

/-- If all entries that match have the same name, it does not matter which one comes first. -/
theorem find?_eq_of_agrees {call : String} (hagrees : a.Agrees call) (h : b.Reordered a) :
    (b.aliasOf.find? fun entry => callKey entry.1 == callKey call).map Prod.snd =
      (a.aliasOf.find? fun entry => callKey entry.1 == callKey call).map Prod.snd := by
  cases hfind : a.aliasOf.find? fun entry => callKey entry.1 == callKey call with
  | none =>
    have hnone : (b.aliasOf.find? fun entry => callKey entry.1 == callKey call) = none := by
      rw [List.find?_eq_none] at hfind ⊢
      exact fun x hx => hfind x (h.aliasOf.mem_iff.mp hx)
    rw [hnone]
  | some x =>
    have hx := List.mem_of_find?_eq_some hfind
    have hxkey : callKey x.1 = callKey call := by simpa using List.find?_some hfind
    -- the other order has a match too, perhaps not the same one
    obtain ⟨y, hy⟩ : ∃ y, b.aliasOf.find? (fun entry => callKey entry.1 == callKey call) =
        some y := by
      rw [← Option.isSome_iff_exists, List.find?_isSome]
      exact ⟨x, h.aliasOf.mem_iff.mpr hx, beq_iff_eq.mpr hxkey⟩
    have hykey : callKey y.1 = callKey call := by simpa using List.find?_some hy
    have hymem := h.aliasOf.mem_iff.mp (List.mem_of_find?_eq_some hy)
    rw [hy, Option.map_some, Option.map_some, hagrees y hymem x hx hykey hxkey]

/-- Any entry that matches a call can be made the first one. -/
theorem exists_reordered_aliasOfCall? {call : String} {x : String × String} (ha : a.IsMap)
    (hcontains : ¬ a.contains call = true) (hx : x ∈ a.aliasOf)
    (hkey : callKey x.1 = callKey call) :
    ∃ b : Aliases, b.Reordered a ∧ b.aliasOfCall? call = some x.2 := by
  have hreordered : Reordered ⟨x :: List.erase a.aliasOf x, a.fieldOf⟩ a :=
    ⟨(List.perm_cons_erase hx).symm, .refl a.fieldOf⟩
  refine ⟨_, hreordered, ?_⟩
  rw [← contains_eq_of_reordered ha hreordered] at hcontains
  rw [aliasOfCall?_of_not_contains hcontains]
  simp [hkey]

/-- **When the name of a call does not depend on the order**: the call is stored under its
own text, or all entries that match it have the same name. -/
theorem aliasOfCall?_reordered_iff (ha : a.IsMap) (call : String) :
    (∀ b : Aliases, b.Reordered a → b.aliasOfCall? call = a.aliasOfCall? call) ↔
      a.contains call = true ∨ a.Agrees call := by
  constructor
  · intro hall
    by_cases hcontains : a.contains call = true
    · exact .inl hcontains
    · right
      intro x hx y hy hxkey hykey
      obtain ⟨b, hb, hnamex⟩ := exists_reordered_aliasOfCall? ha hcontains hx hxkey
      obtain ⟨b', hb', hnamey⟩ := exists_reordered_aliasOfCall? ha hcontains hy hykey
      have hsame := (hall b hb).trans (hall b' hb').symm
      rw [hnamex, hnamey] at hsame
      exact Option.some.inj hsame
  · intro h b hb
    by_cases hcontains : a.contains call = true
    · have hcontains' := (contains_eq_of_reordered ha hb call).trans hcontains
      rw [aliasOfCall?_of_contains hcontains, aliasOfCall?_of_contains hcontains',
        aliasOf?_eq_of_reordered ha hb]
    · have hcontains' : ¬ b.contains call = true := by
        rwa [contains_eq_of_reordered ha hb]
      rw [aliasOfCall?_of_not_contains hcontains, aliasOfCall?_of_not_contains hcontains']
      exact find?_eq_of_agrees (h.resolve_left hcontains) hb

/-- A reordered table answers alike for the calls that do not depend on the order. -/
theorem alike_of_reordered {calls : List Call} (ha : a.IsMap) (hb : b.Reordered a)
    (hcalls : ∀ c ∈ calls, a.contains c.display = true ∨ a.Agrees c.display) :
    b.Alike a calls where
  aliasOf? := aliasOf?_eq_of_reordered ha hb
  resolve := resolve_eq_of_reordered ha hb
  aliasOfCall? := fun c hc => (aliasOfCall?_reordered_iff ha c.display).mpr (hcalls c hc) b hb

end Aliases

/-! ### Plans -/

namespace Plan

/-- The calls that are written in the filter on groups and in the order. -/
def groupCalls (p : Plan) : List Call :=
  p.selection.having.elim [] Expr.calls ++ p.selection.orderBy.flatMap fun item =>
    item.expr.calls

/-- A plan with another table of names. -/
def withAliases (p : Plan) (b : Aliases) : Plan :=
  { p with action :=
      match p.action with
      | .select s => .select { s with aliases := b }
      | action => action }

variable {p : Plan} {b : Aliases}

/-- **Step.**  A step adds the same to a draft under a table that answers alike. -/
theorem run_withAliases (hempty : b.isEmpty = p.selection.aliases.isEmpty)
    (halike : b.Alike p.selection.aliases p.groupCalls) (step : Step)
    (previous : Except Fault (Option (List Document))) (d : Draft) :
    step.run (p.withAliases b) previous d = step.run p previous d := by
  obtain ⟨scope, types, filter, limit, action⟩ := p
  cases action with
  | select s =>
    have haggregate : (withAliases ⟨scope, types, filter, limit, .select s⟩ b).isAggregate =
        isAggregate ⟨scope, types, filter, limit, .select s⟩ := by
      simp only [isAggregate]
      show (!b.isEmpty || _ || _ || _ || _) = (!s.aliases.isEmpty || _ || _ || _ || _)
      rw [hempty]
      rfl
    -- only the order and the filters read the table, or ask whether it is empty
    cases step with
    | orderBy =>
      have hsort : sortDocument { s with aliases := b } = sortDocument s := by
        refine sortDocument_congr rfl rfl ?_
        intro item hitem
        refine halike.right.mono ?_
        intro c hc
        exact List.mem_flatMap.mpr ⟨item, hitem, hc⟩
      show (do return { d with sort := ← sortDocument { s with aliases := b } }) = _
      rw [hsort]
      rfl
    | having =>
      cases hhaving : s.having with
      | none =>
        simp only [Step.run, withAliases, selection, Action.selection, hhaving]
      | some e =>
        have hcalls : e.calls ⊆ groupCalls ⟨scope, types, filter, limit, .select s⟩ := by
          simp [groupCalls, selection, Action.selection, hhaving]
        simp only [Step.run, withAliases, selection, Action.selection, hhaving,
          Filter.compile_groups_congr (halike.mono hcalls)]
    | filter =>
      have hcontext : (withAliases ⟨scope, types, filter, limit, .select s⟩ b).filterContext =
          filterContext ⟨scope, types, filter, limit, .select s⟩ := by
        rw [filterContext, filterContext, haggregate]
        rfl
      simp only [Step.run, hcontext]
      rfl
    | _ => rfl
  | insert columns rows => rfl
  | update assignments => rfl
  | delete => rfl

/-- **Run.**  The draft of a plan does not depend on the order in which names are
enumerated, if the name of no call in its filter on groups and in its order does. -/
theorem draft_withAliases (hmap : p.selection.aliases.IsMap)
    (hb : b.Reordered p.selection.aliases) (hcalls : ∀ c ∈ p.groupCalls,
      p.selection.aliases.contains c.display = true ∨ p.selection.aliases.Agrees c.display) :
    (p.withAliases b).draft = p.draft := by
  have hempty : b.isEmpty = p.selection.aliases.isEmpty := hb.aliasOf.isEmpty_eq
  have halike := Aliases.alike_of_reordered hmap hb hcalls
  have hstart : Draft.start (p.withAliases b) = Draft.start p := by
    obtain ⟨scope, types, filter, limit, action⟩ := p
    rw [Draft.start, Draft.start, withAliases, collectionName, collectionName]
  have hstep : (fun d step => Step.run (p.withAliases b) p.scope.base.origin.stages d step) =
      fun d step => Step.run p p.scope.base.origin.stages d step := by
    funext d step
    exact run_withAliases hempty halike step _ d
  rw [Plan.draft_eq_runSteps, Plan.draft_eq_runSteps, Plan.runSteps, Plan.runSteps]
  show Step.list.foldlM (fun d step =>
    Step.run (p.withAliases b) p.scope.base.origin.stages d step)
    (Draft.start (p.withAliases b)) = _
  rw [hstart, hstep]

end Plan

/-! ### Names in any order -/

/-- **Names enumerated in any order.**  Whatever names are inserted, the name of a call is
the same for all orders in which the table can be enumerated exactly if the call is stored
under its own text, or all entries that match it up to the case of the function have the
same name.  A selection has the same draft, with its filter on groups and its order, for
all orders in which its names can be enumerated, if this holds of every call that is
written in them. -/
theorem names_enumerated_in_any_order (pairs : List (String × String)) (call : String)
    (types : FieldTypes) (s : Select) :
    ((∀ b : Aliases, b.Reordered (.ofList pairs) →
        b.aliasOfCall? call = (Aliases.ofList pairs).aliasOfCall? call) ↔
      (Aliases.ofList pairs).contains call = true ∨ (Aliases.ofList pairs).Agrees call) ∧
    ∀ depth p, Plan.ofSelect types depth s = .ok p →
      (∀ c ∈ p.groupCalls,
        p.selection.aliases.contains c.display = true ∨
          p.selection.aliases.Agrees c.display) →
      ∀ b : Aliases, b.Reordered p.selection.aliases → (p.withAliases b).draft = p.draft := by
  refine ⟨Aliases.aliasOfCall?_reordered_iff (Aliases.isMap_ofList pairs) call, ?_⟩
  intro depth p hp hcalls b hb
  have hmap : p.selection.aliases.IsMap := by
    rw [Plan.aliases_of_ofSelect hp, Plan.aliasesOf]
    exact Aliases.isMap_ofList _
  exact Plan.draft_withAliases hmap hb hcalls

/-- Two spellings of one call, under different names. -/
def countSpellings : List (String × String) :=
  [("COUNT(*)", "a"), ("Count(*)", "b")]

/-- The selection `SELECT city, COUNT(*) AS a, Count(*) AS b FROM users GROUP BY city
HAVING count(*) > 1`. -/
def citiesCountedTwice : Select :=
  ⟨false, [⟨.column (.bare "city"), none⟩, ⟨.call "COUNT" false [.wildcard], some "a"⟩,
      ⟨.call "Count" false [.wildcard], some "b"⟩], .table "users" none, [], none,
    [.column (.bare "city")],
    some (.compare .gt (.call "count" false [.wildcard]) (.literal (.int 1))), [], none, none⟩

/-- The third spelling of a call that is stored in two spellings goes by the one or the
other name, and so does the filter on groups that is written with it. -/
theorem names_enumerated_in_any_order_count :
    (¬ ∀ b : Aliases, b.Reordered (.ofList countSpellings) →
      b.aliasOfCall? "count(*)" = (Aliases.ofList countSpellings).aliasOfCall? "count(*)") ∧
    ∃ p b d d', Plan.ofSelect {} 0 citiesCountedTwice = .ok p ∧
      b.Reordered p.selection.aliases ∧
      p.draft = .ok d ∧ (p.withAliases b).draft = .ok d' ∧
      d.having = .single "$expr" (.document (.single "$gt" (.array [.string "$a", .int 1]))) ∧
      d'.having =
        .single "$expr" (.document (.single "$gt" (.array [.string "$b", .int 1]))) := by
  constructor
  · rw [(names_enumerated_in_any_order countSpellings "count(*)" {} citiesCountedTwice).1]
    rintro (hcontains | hagrees)
    · exact absurd hcontains (by decide)
    · have hsame :=
        hagrees ("COUNT(*)", "a") (by decide) ("Count(*)", "b") (by decide) (by decide)
        (by decide)
      exact absurd hsame (by decide)
  · refine ⟨_, ⟨[("Count(*)", "b"), ("COUNT(*)", "a")],
      [("a", "COUNT(*)"), ("b", "Count(*)")]⟩, _, _, rfl, ?_, rfl, rfl, rfl, rfl⟩
    exact ⟨.swap _ _ _, .refl _⟩

end DocQuery
