import DocQuery.Proofs.Aggregate.Grouping
import DocQuery.Proofs.Entries
import DocQuery.Proofs.Pipeline.Shape
import DocQuery.Proofs.Text.Blanks

/-!
# Where aggregates are stored and where they are looked for

The body of the groups stores an aggregate under its alias or under a generated name.
Filters on groups and orders of groups name the aggregate once more and look the name up,
by the written form of the call.

* `Sql.Call.SameUpToCase` — calls that differ in the case of the function's name only
* `Aliases.exists_of_aliasOfCall?`, `Aliases.isSome_aliasOfCall?` — the names of calls, in
  terms of the selected items
* `Aggregate.storedName`, `Aggregate.get?_storedName` — the name that is looked for is one
  under which the aggregate is stored
* `aggregate_stored_where_read` — filters and orders of groups read the stored aggregate

### What is load-bearing

Names are looked up by text.  Two calls that differ in case only have the same text up to
case, so the table of names cannot miss an alias; but another expression with the text of
a call would take its place, and is excluded by a hypothesis.  Orders do not use an alias
that is the text of the call itself, which is the second exception.
-/

namespace DocQuery

open Sql

/-! ### The names of calls -/

namespace Aliases

/-- Names come from the inserted pairs. -/
theorem mem_of_mem_aliasOf {pairs : List (String × String)} {entry : String × String}
    (h : entry ∈ (ofList pairs).aliasOf) : entry ∈ pairs := by
  have hrun : ∀ a : Aliases,
      entry ∈ (pairs.foldl (fun a pair => a.insert pair.1 pair.2) a).aliasOf →
        entry ∈ a.aliasOf ∨ entry ∈ pairs := by
    clear h
    induction pairs with
    | nil => exact fun _ h => .inl h
    | cons pair rest ih =>
      intro a h
      rcases ih (a.insert pair.1 pair.2) h with h | h
      · rcases Entries.mem_of_mem_put h with rfl | h
        · exact .inr List.mem_cons_self
        · exact .inl h
      · exact .inr (List.mem_cons_of_mem pair h)
  rcases hrun empty h with h | h
  · cases h
  · exact h

/-- Every named expression has a name. -/
theorem mem_names_aliasOf {pairs : List (String × String)} {pair : String × String}
    (h : pair ∈ pairs) : pair.1 ∈ (ofList pairs).aliasOf.map Prod.fst := by
  have hrun : ∀ a : Aliases, pair.1 ∈ a.aliasOf.map Prod.fst ∨ pair ∈ pairs →
      pair.1 ∈ (pairs.foldl (fun a pair => a.insert pair.1 pair.2) a).aliasOf.map
        Prod.fst := by
    clear h
    induction pairs with
    | nil => exact fun _ h => h.resolve_right List.not_mem_nil
    | cons first rest ih =>
      intro a h
      refine ih (a.insert first.1 first.2) ?_
      rw [insert, Entries.names_put]
      rcases h with h | h
      · left
        split
        · exact h
        · exact List.mem_append_left _ h
      · rcases List.mem_cons.mp h with rfl | h
        · left
          split
          · assumption
          · exact List.mem_append_right _ List.mem_cons_self
        · exact .inr h
  exact hrun empty (.inr h)

/-- The name of a call is that of an expression with the same text up to case. -/
theorem exists_of_aliasOfCall? {pairs : List (String × String)} {text label : String}
    (h : (ofList pairs).aliasOfCall? text = some label) :
    ∃ field, (field, label) ∈ pairs ∧ callKey field = callKey text := by
  rw [aliasOfCall?] at h
  split at h
  · rename_i found hfound
    cases h
    exact ⟨text, mem_of_mem_aliasOf (Entries.mem_of_get? hfound), rfl⟩
  · obtain ⟨entry, hentry, rfl⟩ := Option.map_eq_some_iff.mp h
    exact ⟨entry.1, mem_of_mem_aliasOf (List.mem_of_find?_eq_some hentry),
      by simpa using List.find?_some hentry⟩

/-- A call has a name if an expression with the same text up to case has one. -/
theorem isSome_aliasOfCall? {pairs : List (String × String)} {pair : String × String}
    {text : String} (hpair : pair ∈ pairs) (hkey : callKey pair.1 = callKey text) :
    ((ofList pairs).aliasOfCall? text).isSome = true := by
  rw [aliasOfCall?]
  split
  · rfl
  · obtain ⟨entry, hentry, hname⟩ := List.mem_map.mp (mem_names_aliasOf hpair)
    rw [Option.isSome_map, List.find?_isSome]
    exact ⟨entry, hentry, by simp [hname, hkey]⟩

end Aliases

/-- The name of a call among selected items is that of an item with the same text up to
case. -/
theorem Plan.exists_item_of_aliasOfCall? {items : List SelectItem} {text label : String}
    (h : (Plan.aliasesOf items).aliasOfCall? text = some label) :
    ∃ item ∈ items, item.label = some label ∧
      Aliases.callKey item.expr.display = Aliases.callKey text := by
  obtain ⟨field, hpair, hkey⟩ := Aliases.exists_of_aliasOfCall? h
  obtain ⟨item, hitem, hfield⟩ := List.mem_filterMap.mp hpair
  split at hfield
  · cases hfield
  · obtain ⟨own, hown, hsame⟩ := Option.map_eq_some_iff.mp hfield
    cases hsame
    exact ⟨item, hitem, hown, hkey⟩

theorem Plan.isSome_aliasOfCall? {items : List SelectItem} {c : Call} {label text : String}
    (hitem : ⟨c.toExpr, some label⟩ ∈ items)
    (hkey : Aliases.callKey c.display = Aliases.callKey text) :
    ((Plan.aliasesOf items).aliasOfCall? text).isSome = true :=
  @Aliases.isSome_aliasOfCall? _ (c.display, label) text
    (List.mem_filterMap.mpr ⟨_, hitem, rfl⟩) hkey

/-! ### Calls up to case -/

/-- Calls that differ in the case of the function's name only. -/
structure Sql.Call.SameUpToCase (c other : Call) : Prop where
  name : Text.sameWord c.name other.name = true
  distinct : c.distinct = other.distinct
  args : c.args = other.args

theorem Sql.Call.SameUpToCase.refl (c : Call) : c.SameUpToCase c :=
  ⟨by simp [Text.sameWord], rfl, rfl⟩

namespace Aggregate

section Calls

variable {c other : Call}

theorem plainName_eq (h : c.SameUpToCase other) : c.plainName = other.plainName :=
  Text.lowerAscii_trim_eq_of_sameWord h.name

theorem aggregatedField_eq {field : Option String} (h : c.SameUpToCase other)
    (hfield : other.aggregatedField = .ok field) : c.aggregatedField = .ok field := by
  rw [Call.aggregatedField] at hfield ⊢
  rw [h.args]
  split at hfield <;> simp_all

/-- What an aggregate can collect: a count, or an operator on a field. -/
theorem operation_cases {field : Option String} {body : Document}
    (h : operation c field = .ok body) :
    c.plainName = "count" ∧ body = .single "$sum" (.int 1) ∨
    c.plainName ∈ ["sum", "avg", "min", "max"] ∧ ∃ path, field = some path ∧
      body = .single ("$" ++ c.plainName) (.string (reference path)) := by
  unfold operation at h
  split at h
  case h_1 hname => exact .inl ⟨hname, (Except.ok.inj h).symm⟩
  case h_6 => cases h
  all_goals
    rename_i hname
    split at h
    · exact .inr ⟨by simp [hname], _, rfl, (Except.ok.inj h).symm⟩
    · cases h

theorem operation_eq {field : Option String} {body : Document} (h : c.SameUpToCase other)
    (hbody : operation other field = .ok body) : operation c field = .ok body := by
  rcases operation_cases hbody with ⟨hname, rfl⟩ | ⟨hname, path, rfl, rfl⟩
  · exact operation_count ((plainName_eq h).trans hname) field
  · rw [← plainName_eq h] at hname ⊢
    exact operation_field hname path

/-- **Calls that differ in case only collect the same** and have the same name of their
own. -/
theorem accumulator_eq {label : Option String} {stored : String × Document}
    (h : c.SameUpToCase other) (hstored : accumulator other label = .ok stored)
    (ownLabel : Option String) :
    accumulator c ownLabel = .ok (ownLabel.getD other.ownName, stored.2) := by
  obtain ⟨field, hfield, hstored⟩ := Outcome.bind_eq_ok.mp hstored
  obtain ⟨body, hbody, hstored⟩ := Outcome.bind_eq_ok.mp hstored
  have hown := aggregatedField_eq h hfield
  refine Outcome.bind_eq_ok.mpr ⟨field, hown,
    Outcome.bind_eq_ok.mpr ⟨body, operation_eq h hbody, ?_⟩⟩
  rw [← Outcome.pure_eq_ok.mp hstored, Call.ownName_of_aggregatedField hfield]
  simp only [Call.generatedName, plainName_eq h]
  rfl

/-- Only the aggregates collect something. -/
theorem mem_names_of_accumulator {label : Option String} {stored : String × Document}
    (h : accumulator c label = .ok stored) : c.plainName ∈ names := by
  obtain ⟨field, -, h⟩ := Outcome.bind_eq_ok.mp h
  obtain ⟨body, hbody, -⟩ := Outcome.bind_eq_ok.mp h
  rcases operation_cases hbody with ⟨hname, -⟩ | ⟨hname, -⟩
  · rw [hname]
    decide
  · exact List.mem_append_left ["count"] hname

/-! ### The text of a call -/

/-- What stands behind the opening parenthesis of a call. -/
def argumentText (c : Call) : List Char :=
  ((if c.distinct then "DISTINCT " else "") ++
    String.intercalate ", " (displayAll c.args)).toList

theorem toList_display (c : Call) :
    c.display.toList = c.name.toList ++ '(' :: (argumentText c ++ [')']) := by
  simp [Call.display, callText, argumentText]

/-- The name of an aggregate holds no other characters than the known names. -/
theorem notMem_name {x : Char} (hblank : Text.isBlank x = false) (hlower : x.toLower = x)
    (hnone : ∀ name ∈ names, x ∉ name.toList) (h : c.plainName ∈ names) :
    x ∉ c.name.toList := by
  intro hx
  refine hnone _ h ?_
  rw [Call.plainName, Text.lowerAscii, String.toList_ofList, Text.trim, String.toList_ofList]
  exact List.mem_map.mpr ⟨x, Text.mem_trimChars hblank hx, hlower⟩

theorem paren_notMem_name (h : c.plainName ∈ names) : '(' ∉ c.name.toList :=
  notMem_name (by decide) (by decide) (by decide) h

theorem callKey_display (h : c.plainName ∈ names) :
    Aliases.callKey c.display =
      c.plainName ++ "(" ++ String.ofList (argumentText c ++ [')']) := by
  rw [Aliases.callKey, toList_display, Text.splitAt?_append (paren_notMem_name h)]
  rfl

theorem callKey_display_eq (h : c.SameUpToCase other) (hname : other.plainName ∈ names) :
    Aliases.callKey c.display = Aliases.callKey other.display := by
  have hown : c.plainName ∈ names := by rwa [plainName_eq h]
  rw [callKey_display hname, callKey_display hown, plainName_eq h, argumentText, argumentText,
    h.distinct, h.args]

/-- The text of an aggregate call is recognised as one. -/
theorem isAggregateText_display (h : c.plainName ∈ names) :
    isAggregateText c.display = true := by
  obtain ⟨blanks, hblanks, hname⟩ := Text.dropBlanks_eq_trimChars_append c.name.toList
  have htrim : Text.trimChars c.display.toList =
      Text.trimChars c.name.toList ++ (blanks ++ '(' :: (argumentText c ++ [')'])) := by
    rw [toList_display, show c.name.toList ++ '(' :: (argumentText c ++ [')']) =
        (c.name.toList ++ '(' :: argumentText c) ++ [')'] by simp,
      Text.trimChars_append_singleton (by decide), List.append_assoc, List.cons_append,
      Text.dropBlanks_append_cons (by decide), hname, List.append_assoc]
  have hplain : (Text.trimChars c.name.toList).map Char.toLower = c.plainName.toList := by
    simp [Call.plainName, Text.lowerAscii, Text.trim]
  have hlower : (Text.lowerAscii (Text.trim c.display)).toList = c.plainName.toList ++
      (blanks.map Char.toLower ++ '(' :: (argumentText c ++ [')']).map Char.toLower) := by
    rw [Text.lowerAscii, Text.trim, String.toList_ofList, String.toList_ofList, htrim,
      List.map_append, List.map_append, hplain]
    rfl
  have hbehind : ∀ c ∈ blanks.map Char.toLower, Text.isBlank c = true := by
    intro c hc
    obtain ⟨blank, hblank, rfl⟩ := List.mem_map.mp hc
    rw [Text.isBlank_toLower, hblanks blank hblank]
  rw [isAggregateText, List.any_eq_true]
  refine ⟨c.plainName, h, ?_⟩
  rw [hlower, Text.dropStart?_append]
  simp only [Text.dropBlanks_append_of_all hbehind, Text.dropBlanks_cons (show
    Text.isBlank '(' = false by decide), List.head?_cons, beq_self_eq_true]

end Calls

/-! ### Looking an aggregate up -/

/-- The name under which a call is looked for: the alias of its text, else its own name. -/
def storedName (aliases : Aliases) (c : Call) : String :=
  (aliases.aliasOfCall? c.display).getD c.ownName

/-- Filters on groups refer to an aggregate by the name that is looked up. -/
theorem callValue_aggregate {c : Call} (h : c.plainName ∈ names) (types : FieldTypes)
    (aliases : Aliases) :
    Filter.callValue (.groups types aliases) c = (do
      return .string ("$" ++ (← c.outputName (aliases.aliasOfCall? c.display)))) := by
  simp only [Filter.callValue, Filter.callWith, Filter.Context.groups,
    isAggregateText_display h, if_true]

/-- Filters on groups read the name that is looked up. -/
theorem callValue_groups {c : Call} {label : Option String} {stored : String × Document}
    (h : accumulator c label = .ok stored) (types : FieldTypes) (aliases : Aliases) :
    Filter.callValue (.groups types aliases) c =
      .ok (.string ("$" ++ storedName aliases c)) := by
  obtain ⟨field, hfield, -⟩ := Outcome.bind_eq_ok.mp h
  have hname : c.outputName (aliases.aliasOfCall? c.display) =
      .ok (storedName aliases c) := by
    rw [storedName, Call.ownName_of_aggregatedField hfield]
    exact Outcome.bind_eq_ok.mpr ⟨field, hfield, rfl⟩
  rw [callValue_aggregate (mem_names_of_accumulator h), hname]
  rfl

/-- Orders read it as well, unless the alias is the text of the call itself. -/
theorem orderField_call {s : Selection} {c : Call} {label : Option String}
    {stored : String × Document} (h : accumulator c label = .ok stored) :
    orderField s c.toExpr =
      .ok (if s.aliases.aliasOfCall? c.display = some c.display then c.ownName
        else storedName s.aliases c) := by
  have hgenerated := accumulator_eq (.refl c) h none
  simp only [orderField, Call.toExpr, storedName]
  cases hlookup : s.aliases.aliasOfCall? c.display with
  | none => rw [hgenerated]; rfl
  | some found =>
    by_cases hfound : found = c.display
    · simp only [hfound, bne_self_eq_false, Bool.false_eq_true, if_false, if_true, hgenerated]
      rfl
    · simp only [bne_iff_ne.mpr hfound, Option.some.injEq, hfound, if_false, if_true,
        Option.getD_some]
      rfl

/-- In a grouped selection every call is an aggregate. -/
theorem exists_accumulator_of_groupBody {items : List SelectItem} {fields : List String}
    {body : Document} (h : groupBody items fields = .ok body) {c : Call}
    {label : Option String} (hitem : ⟨c.toExpr, label⟩ ∈ items) :
    ∃ collected, accumulator c label = .ok (label.getD c.ownName, collected) := by
  rw [groupBody, addAccumulators_eq_collect] at h
  obtain ⟨_, hentry⟩ := exists_of_collect h hitem
  obtain ⟨stored, hstored, -⟩ := Outcome.bind_eq_ok.mp hentry
  have hname := eq_of_accumulator hstored
  exact ⟨stored.2, by rw [← hname]; exact hstored⟩

/-- The name that is looked for is the name of a selected call, one that differs from the
sought one in case only. -/
theorem exists_item_storedName {items : List SelectItem} {c read : Call}
    {label : Option String} {stored : String × Document} (hitem : ⟨c.toExpr, label⟩ ∈ items)
    (hstored : accumulator c label = .ok stored)
    (hwritten : ∀ item ∈ items, item.label.isSome = true →
      Aliases.callKey item.expr.display = Aliases.callKey c.display →
      ∃ other : Call, item.expr = other.toExpr ∧ other.SameUpToCase c)
    (hread : read.SameUpToCase c) :
    ∃ other : Call, ∃ own : Option String, ⟨other.toExpr, own⟩ ∈ items ∧
      other.SameUpToCase c ∧
      storedName (Plan.aliasesOf items) read = own.getD other.ownName := by
  have hkey := callKey_display_eq hread (mem_names_of_accumulator hstored)
  rw [storedName]
  cases hlookup : (Plan.aliasesOf items).aliasOfCall? read.display with
  | some found =>
    obtain ⟨⟨expr, itemLabel⟩, hother, rfl, hsame⟩ := Plan.exists_item_of_aliasOfCall? hlookup
    obtain ⟨other, rfl, hcase⟩ := hwritten _ hother rfl (hsame.trans hkey)
    exact ⟨other, some found, hother, hcase, rfl⟩
  | none =>
    -- the selected call has no alias either, as that one would have been found
    cases label with
    | some own =>
      have hsome := Plan.isSome_aliasOfCall? hitem hkey.symm
      rw [hlookup] at hsome
      cases hsome
    | none =>
      have hown : read.ownName = c.ownName :=
        eq_of_accumulator (accumulator_eq hread hstored none) |>.symm
      exact ⟨c, none, hitem, .refl c, hown⟩

/-- **An aggregate is stored under the name that it is looked for.** -/
theorem get?_storedName {items : List SelectItem} {fields : List String} {body : Document}
    (hbody : groupBody items fields = .ok body)
    (hnames : (items.map SelectItem.outputName).Nodup) {c read : Call} {label : Option String}
    {stored : String × Document} (hitem : ⟨c.toExpr, label⟩ ∈ items)
    (hstored : accumulator c label = .ok stored)
    (hwritten : ∀ item ∈ items, item.label.isSome = true →
      Aliases.callKey item.expr.display = Aliases.callKey c.display →
      ∃ other : Call, item.expr = other.toExpr ∧ other.SameUpToCase c)
    (hread : read.SameUpToCase c) :
    body.get? (storedName (Plan.aliasesOf items) read) = some (.document stored.2) := by
  obtain ⟨other, own, hother, hcase, hname⟩ :=
    exists_item_storedName hitem hstored hwritten hread
  have hcollected := get?_groupBody hbody hnames hother (accumulator_eq hcase hstored own)
  rw [hname, hcollected]

end Aggregate

open Aggregate

/-- **Filters and orders of groups read the stored aggregate.**  A call in a filter on
groups that is a selected aggregate up to case becomes a reference to a key of the groups'
body, and the same call in an order becomes a key of it, and under both keys stands what
the selected aggregate collects.

No other named expression may be written like the call, and orders pass over an alias that
is the text of the call itself. -/
theorem aggregate_stored_where_read {types : FieldTypes} {depth : Nat} {select : Select}
    {p : Plan} {d : Draft} (hp : Plan.ofSelect types depth select = .ok p)
    (hd : p.draft = .ok d) (hgrouped : p.isGrouped = true)
    (hnames : (p.selection.items.map SelectItem.outputName).Nodup)
    {c read : Call} {label : Option String} (hitem : ⟨c.toExpr, label⟩ ∈ p.selection.items)
    (hwritten : ∀ item ∈ p.selection.items, item.label.isSome = true →
      Aliases.callKey item.expr.display = Aliases.callKey c.display →
      ∃ other : Call, item.expr = other.toExpr ∧ other.SameUpToCase c)
    (hread : read.SameUpToCase c) :
    ∃ collected filterKey orderKey,
      accumulator c label = .ok (label.getD c.ownName, collected) ∧
      Filter.callValue (.groups p.types p.selection.aliases) read =
        .ok (.string ("$" ++ filterKey)) ∧
      d.projection.get? filterKey = some (.document collected) ∧
      orderField p.selection read.toExpr = .ok orderKey ∧
      (p.selection.aliases.aliasOfCall? read.display ≠ some read.display →
        d.projection.get? orderKey = some (.document collected)) ∧
      (p.selection.aliases.aliasOfCall? read.display = some read.display →
        orderKey = c.ownName) := by
  obtain ⟨hbody, -⟩ := Plan.grouped_of_draft hd hgrouped
  obtain ⟨collected, hcollected⟩ := exists_accumulator_of_groupBody hbody hitem
  have hstored := get?_storedName hbody hnames hitem hcollected hwritten hread
  rw [← Plan.aliases_of_ofSelect hp] at hstored
  have hreads := accumulator_eq hread hcollected none
  refine ⟨collected, _, _, hcollected, callValue_groups hreads _ _, hstored,
    orderField_call hreads, fun halias => ?_, fun halias => ?_⟩
  · rw [if_neg halias]
    exact hstored
  · rw [if_pos halias]
    exact (eq_of_accumulator hreads).symm

/-- The selection `SELECT city, COUNT(*) AS label FROM users GROUP BY city HAVING count(*)
> 1 ORDER BY count(*)`. -/
def countPerCity (label : String) : Select where
  distinct := false
  items := [⟨.column (.bare "city"), none⟩, ⟨.call "COUNT" false [.wildcard], some label⟩]
  source := .table "users" none
  joins := []
  filter := none
  groupBy := [.column (.bare "city")]
  having := some (.compare .gt (.call "count" false [.wildcard]) (.literal (.int 1)))
  orderBy := [⟨.call "count" false [.wildcard], true⟩]
  limit := none
  offset := none

/-- The plan of `countPerCity`. -/
def countPerCityPlan (label : String) : Plan where
  scope := ⟨⟨"users", .collection "users"⟩, []⟩
  types := {}
  filter := none
  limit := -1
  action := .select {
    distinct := false
    countAll := false
    totalGroup := false
    items := (countPerCity label).items
    aliases := ⟨[("COUNT(*)", label)], [(label, "COUNT(*)")]⟩
    groupBy := ["city"]
    having := (countPerCity label).having
    orderBy := (countPerCity label).orderBy
    offset := -1 }

theorem aggregate_stored_where_read_city :
    Plan.ofSelect {} 0 (countPerCity "n") = .ok (countPerCityPlan "n") ∧
    (countPerCityPlan "n").isGrouped = true ∧
    ((countPerCityPlan "n").selection.items.map SelectItem.outputName).Nodup ∧
    Call.SameUpToCase ⟨"count", false, [.wildcard]⟩ ⟨"COUNT", false, [.wildcard]⟩ ∧
    ∃ d, (countPerCityPlan "n").draft = .ok d ∧ ∃ collected filterKey orderKey,
      accumulator ⟨"COUNT", false, [.wildcard]⟩ (some "n") = .ok ("n", collected) ∧
      Filter.callValue (.groups {} (countPerCityPlan "n").selection.aliases)
        ⟨"count", false, [.wildcard]⟩ = .ok (.string ("$" ++ filterKey)) ∧
      d.projection.get? filterKey = some (.document collected) ∧
      orderField (countPerCityPlan "n").selection (.call "count" false [.wildcard]) =
        .ok orderKey ∧
      d.projection.get? orderKey = some (.document collected) := by
  have hcase : Call.SameUpToCase ⟨"count", false, [.wildcard]⟩ ⟨"COUNT", false,
      [.wildcard]⟩ :=
    ⟨by decide, rfl, rfl⟩
  have hnames : ((countPerCityPlan "n").selection.items.map SelectItem.outputName).Nodup := by
    decide
  have hplan : Plan.ofSelect {} 0 (countPerCity "n") = .ok (countPerCityPlan "n") := rfl
  have hgrouped : (countPerCityPlan "n").isGrouped = true := rfl
  have hitem : ⟨Call.toExpr ⟨"COUNT", false, [.wildcard]⟩, some "n"⟩ ∈
      (countPerCityPlan "n").selection.items := List.mem_cons_of_mem _ List.mem_cons_self
  obtain ⟨d, hd⟩ : ∃ d, (countPerCityPlan "n").draft = .ok d := ⟨_, rfl⟩
  refine ⟨hplan, hgrouped, hnames, hcase, d, hd, ?_⟩
  obtain ⟨collected, filterKey, orderKey, hcollected, hfilter, hstored, horder, hsort, -⟩ :=
    aggregate_stored_where_read hplan hd hgrouped hnames hitem
      (fun item hitem hlabel _ => by
        simp only [countPerCityPlan, Plan.selection, Action.selection, countPerCity,
          List.mem_cons, List.not_mem_nil, or_false] at hitem
        rcases hitem with rfl | rfl
        · cases hlabel
        · exact ⟨⟨"COUNT", false, [.wildcard]⟩, rfl, .refl _⟩) hcase
  exact ⟨collected, filterKey, orderKey, hcollected, hfilter, hstored, horder,
    hsort (by decide)⟩

/-- An alias that is the text of the call: groups are ordered by a key that they do not
have. -/
example :
    orderField (countPerCityPlan "count(*)").selection (.call "count" false [.wildcard]) =
      .ok "count" ∧
    groupBody (countPerCity "count(*)").items ["city"] =
      .ok ⟨[("_id", .string "$city"), ("count(*)", .document (.single "$sum" (.int 1)))]⟩ :=
  ⟨rfl, rfl⟩

end DocQuery
