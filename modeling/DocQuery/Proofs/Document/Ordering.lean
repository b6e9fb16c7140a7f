import DocQuery.Proofs.Document.Storing
import Mathlib.Data.Nat.Basic

/-!
# Documents in order

Documents are put in order by fields with directions: the first field that tells two
documents apart decides.  A field that comes again is compared for nothing, so of several
entries of one field the first one counts; a document of directions keeps the direction of
the last one.

* `compareBy` — two documents compared by one field after the other
* `OrderAlike` — lists of fields that compare all documents alike
* `Entries.firsts` — the first entry of each field
* `orderAlike_iff` — lists order alike exactly if they have the same first entries
* `compareBy_of_only` — documents that one field tells apart
* `Document.directions` — the fields of a document of directions
* `Document.directions_eq_firsts_iff` — when the last direction of every field is its
  first one
-/

namespace DocQuery

/-- The outcome of a comparison, the other way round in descending order. -/
def directed (ascending : Bool) (outcome : Ordering) : Ordering :=
  if ascending then outcome else outcome.swap

@[simp] theorem directed_eq (ascending : Bool) : directed ascending .eq = .eq := by
  cases ascending <;> rfl

theorem directed_eq_eq_iff {ascending : Bool} {outcome : Ordering} :
    directed ascending outcome = .eq ↔ outcome = .eq := by
  cases ascending <;> cases outcome <;> decide

theorem directed_lt_inj {a b : Bool} : directed a .lt = directed b .lt ↔ a = b := by
  cases a <;> cases b <;> decide

/-- Turning an outcome twice gives it back. -/
theorem directed_directed (ascending : Bool) (outcome : Ordering) :
    directed ascending (directed ascending outcome) = outcome := by
  cases ascending <;> cases outcome <;> rfl

namespace Entries

variable {α : Type}

/-- The first entry of each name. -/
def firsts : Entries α → Entries α
  | [] => []
  | entry :: rest => entry :: erase (firsts rest) entry.1

/-- What comparisons by single fields come to: the first field that is not equal decides. -/
def verdict (outcome : String → Ordering) : Entries Bool → Ordering
  | [] => .eq
  | key :: rest => (directed key.2 (outcome key.1)).then (verdict outcome rest)

/-! ### First entries -/

/-- Names may be dropped before or after the repeated ones are. -/
theorem eraseDups_filter (keep : String → Bool) (names : List String) :
    (names.filter keep).eraseDups = names.eraseDups.filter keep := by
  match names with
  | [] => rfl
  | name :: rest =>
    have ih := eraseDups_filter keep (rest.filter fun other => !other == name)
    rw [List.eraseDups_cons]
    by_cases h : keep name = true
    · rw [List.filter_cons_of_pos h, List.filter_cons_of_pos h, List.eraseDups_cons,
        List.filter_comm, ih]
    · -- a dropped name takes its repetitions with it
      have hdrop : (rest.filter fun other => !other == name).filter keep =
          rest.filter keep := by
        rw [List.filter_filter]
        refine List.filter_congr fun other _ => ?_
        by_cases hother : other = name
        · simp [hother, h]
        · simp [hother]
      rw [List.filter_cons_of_neg h, List.filter_cons_of_neg h, ← hdrop, ih]
termination_by names.length
decreasing_by exact Nat.lt_succ_of_le (List.length_filter_le ..)

theorem map_fst_erase (entries : Entries α) (name : String) :
    (erase entries name).map Prod.fst = (entries.map Prod.fst).filter (!· == name) := by
  rw [erase, List.filter_map]
  rfl

/-- The names of the first entries are all names, each in the place where it first comes. -/
theorem map_fst_firsts (entries : Entries α) :
    (firsts entries).map Prod.fst = (entries.map Prod.fst).eraseDups := by
  induction entries with
  | nil => rfl
  | cons entry rest ih =>
    rw [firsts, List.map_cons, map_fst_erase, ih, List.map_cons, List.eraseDups_cons,
      eraseDups_filter]

theorem nodup_firsts (entries : Entries α) : ((firsts entries).map Prod.fst).Nodup := by
  induction entries with
  | nil => exact List.nodup_nil
  | cons entry rest ih =>
    rw [firsts, List.map_cons, map_fst_erase, List.nodup_cons]
    exact ⟨by simp, ih.filter _⟩

/-- A look-up finds the first entry of a name. -/
@[simp] theorem get?_firsts (entries : Entries α) (name : String) :
    get? (firsts entries) name = get? entries name := by
  induction entries with
  | nil => rfl
  | cons entry rest ih =>
    rw [firsts, get?, get?, get?_erase, ih]
    by_cases h : entry.1 = name
    · simp [h]
    · simp [h, Ne.symm h]

theorem get?_eq_none_of_notMem {entries : Entries α} {name : String}
    (h : name ∉ entries.map Prod.fst) : get? entries name = none := by
  cases hget : get? entries name with
  | none => rfl
  | some value => exact absurd (List.mem_map.mpr ⟨_, mem_of_get? hget, rfl⟩) h

/-- Entries without repeated names are told by their names and by what is found under them. -/
theorem eq_of_names_of_get? {xs ys : Entries α} (hnodup : (xs.map Prod.fst).Nodup)
    (hnames : xs.map Prod.fst = ys.map Prod.fst)
    (hget : ∀ name, get? xs name = get? ys name) : xs = ys := by
  induction xs generalizing ys with
  | nil => exact (List.map_eq_nil_iff.mp hnames.symm).symm
  | cons x xs ih =>
    obtain ⟨y, ys, rfl, hname, htail⟩ := List.map_eq_cons_iff.mp hnames.symm
    have hfresh : x.1 ∉ xs.map Prod.fst := (List.nodup_cons.mp hnodup).1
    have hvalue : x.2 = y.2 := by simpa [get?, hname] using hget x.1
    have hrest : xs = ys := by
      refine ih (List.nodup_cons.mp hnodup).2 htail.symm fun name => ?_
      by_cases h : x.1 = name
      · subst h
        rw [get?_eq_none_of_notMem hfresh, get?_eq_none_of_notMem (htail ▸ hfresh)]
      · simpa [get?, hname, h] using hget name
    rw [hrest, Prod.ext hname.symm hvalue]

theorem firsts_of_nodup {entries : Entries α} (h : (entries.map Prod.fst).Nodup) :
    firsts entries = entries := by
  induction entries with
  | nil => rfl
  | cons entry rest ih =>
    obtain ⟨hfresh, hrest⟩ := List.nodup_cons.mp h
    rw [firsts, ih hrest, erase_of_get? (get?_eq_none_of_notMem hfresh)]

theorem get?_eq_find? (entries : Entries α) (name : String) :
    get? entries name = (entries.find? (·.1 == name)).map Prod.snd := by
  induction entries with
  | nil => rfl
  | cons entry rest ih =>
    by_cases h : entry.1 = name
    · simp [get?, h]
    · simp [get?, h, ih]

theorem get?_map {β : Type} (φ : α → β) (entries : Entries α) (name : String) :
    get? (entries.map fun entry => (entry.1, φ entry.2)) name =
      (get? entries name).map φ := by
  induction entries with
  | nil => rfl
  | cons entry rest ih =>
    by_cases h : entry.1 = name
    · simp [get?, h]
    · simp [get?, h, ih]

/-! ### Verdicts -/

variable {outcome : String → Ordering}

/-- A field in which nothing differs may be left out. -/
theorem verdict_erase {field : String} (h : outcome field = .eq) (keys : Entries Bool) :
    verdict outcome (erase keys field) = verdict outcome keys := by
  induction keys with
  | nil => rfl
  | cons key rest ih =>
    by_cases hkey : key.1 = field
    · rw [erase, List.filter_cons_of_neg (by simp [hkey]), verdict, hkey, h, directed_eq]
      exact ih
    · rw [erase, List.filter_cons_of_pos (by simp [hkey]), verdict, verdict]
      exact congrArg _ ih

/-- **Only the first entry of a field counts.** -/
theorem verdict_firsts (outcome : String → Ordering) (keys : Entries Bool) :
    verdict outcome (firsts keys) = verdict outcome keys := by
  induction keys with
  | nil => rfl
  | cons key rest ih =>
    rw [firsts, verdict, verdict]
    cases h : outcome key.1 with
    | eq => rw [verdict_erase h, ih]
    | lt => cases key.2 <;> rfl
    | gt => cases key.2 <;> rfl

/-- Where one field alone differs, its first entry decides. -/
theorem verdict_of_only {field : String} (h : ∀ other, other ≠ field → outcome other = .eq)
    (keys : Entries Bool) :
    verdict outcome keys = (get? keys field).elim .eq fun ascending =>
      directed ascending (outcome field) := by
  induction keys with
  | nil => rfl
  | cons key rest ih =>
    rw [verdict, get?]
    by_cases hkey : key.1 = field
    · rw [if_pos (by simpa using hkey), hkey]
      cases hfield : outcome field with
      | eq =>
        rw [ih, hfield]
        cases get? rest field <;> simp
      | lt => cases key.2 <;> rfl
      | gt => cases key.2 <;> rfl
    · rw [if_neg (by simpa using hkey), h key.1 hkey, directed_eq]
      exact ih

theorem verdict_congr {outcome' : String → Ordering} {keys : Entries Bool}
    (h : ∀ field ∈ keys.map Prod.fst, outcome field = outcome' field) :
    verdict outcome keys = verdict outcome' keys := by
  induction keys with
  | nil => rfl
  | cons key rest ih =>
    rw [verdict, verdict, h key.1 List.mem_cons_self,
      ih fun field hfield => h field (List.mem_cons_of_mem _ hfield)]

/-- The outcome in which one field alone differs. -/
def differing (field : String) : String → Ordering :=
  fun other => if other = field then .lt else .eq

theorem verdict_differing (field : String) (keys : Entries Bool) :
    verdict (differing field) keys =
      (get? keys field).elim .eq fun ascending => directed ascending .lt := by
  have honly : ∀ other, other ≠ field → differing field other = .eq :=
    fun _ hother => if_neg hother
  rw [verdict_of_only honly, differing, if_pos rfl]

theorem verdict_differing_cons (key : String × Bool) (rest : Entries Bool) :
    verdict (differing key.1) (key :: rest) = directed key.2 .lt := by
  simp [verdict_differing, get?]

theorem verdict_differing_cons_ne (key : String × Bool) (rest : Entries Bool) :
    verdict (differing key.1) (key :: rest) ≠ .eq := by
  rw [verdict_differing_cons]
  exact mt directed_eq_eq_iff.mp Ordering.noConfusion

/-- Lists of the same verdicts start with the same entry: two fields that differ in
opposite senses would tell the lists apart. -/
theorem head_eq_of_verdicts {key key' : String × Bool} {rest rest' : Entries Bool}
    (h : ∀ outcome, verdict outcome (key :: rest) = verdict outcome (key' :: rest')) :
    key = key' := by
  have hname : key.1 = key'.1 := by
    by_contra hne
    have hverdicts := h fun field =>
      if field = key.1 then directed key.2 .lt
      else if field = key'.1 then directed key'.2 .gt else .eq
    simp [verdict, Ne.symm hne, directed_directed] at hverdicts
  have hdirection : directed key.2 .lt = directed key'.2 .lt := by
    rw [← verdict_differing_cons key rest, h, hname, verdict_differing_cons]
  exact Prod.ext hname (directed_lt_inj.mp hdirection)

/-- **Lists without repeated fields are told by their verdicts.** -/
theorem eq_of_verdicts {keys keys' : Entries Bool} (hnodup : (keys.map Prod.fst).Nodup)
    (hnodup' : (keys'.map Prod.fst).Nodup)
    (h : ∀ outcome, verdict outcome keys = verdict outcome keys') : keys = keys' := by
  induction keys generalizing keys' with
  | nil =>
    cases keys' with
    | nil => rfl
    | cons key' rest' => exact absurd (h _).symm (verdict_differing_cons_ne key' rest')
  | cons key rest ih =>
    cases keys' with
    | nil => exact absurd (h _) (verdict_differing_cons_ne key rest)
    | cons key' rest' =>
      obtain rfl := head_eq_of_verdicts h
      obtain ⟨hfresh, hnodup⟩ := List.nodup_cons.mp hnodup
      obtain ⟨hfresh', hnodup'⟩ := List.nodup_cons.mp hnodup'
      -- the rests never ask for the first field, so it may be taken not to differ
      have hrest : ∀ outcome, verdict outcome rest = verdict outcome rest' := by
        intro outcome
        have hverdicts := h fun field => if field = key.1 then .eq else outcome field
        simp only [verdict, if_pos, directed_eq, Ordering.then] at hverdicts
        rw [← verdict_congr fun field hfield =>
          if_neg (ne_of_mem_of_not_mem hfield hfresh), hverdicts]
        exact verdict_congr fun field hfield => if_neg (ne_of_mem_of_not_mem hfield hfresh')
      rw [ih hnodup hnodup' hrest]

/-- **The verdicts of two lists are the same exactly if the first entries are.** -/
theorem verdicts_eq_iff {keys keys' : Entries Bool} :
    (∀ outcome, verdict outcome keys = verdict outcome keys') ↔
      firsts keys = firsts keys' := by
  constructor
  · intro h
    refine eq_of_verdicts (nodup_firsts keys) (nodup_firsts keys') fun outcome => ?_
    rw [verdict_firsts, verdict_firsts, h]
  · intro h outcome
    rw [← verdict_firsts, h, verdict_firsts]

end Entries

/-! ### Documents -/

/-- Two documents compared by one field after the other, given what a document holds in a
field. -/
def compareBy {κ : Type} [Ord κ] (read : String → Document → κ) (keys : Entries Bool)
    (x y : Document) : Ordering :=
  keys.verdict fun field => compare (read field x) (read field y)

/-- Two lists of fields put all documents in the same order, whatever a document holds in
a field and however these values are ordered. -/
def OrderAlike (keys keys' : Entries Bool) : Prop :=
  ∀ (κ : Type) [LinearOrder κ] (read : String → Document → κ) (x y : Document),
    compareBy read keys x y = compareBy read keys' x y

/-- A number that compares with 1 as required. -/
def outcomeRank : Ordering → Nat
  | .lt => 2
  | .eq => 1
  | .gt => 0

/-- Two documents may compare in any way in each of their fields. -/
theorem exists_read_of_outcome (outcome : String → Ordering) :
    ∃ (read : String → Document → Nat) (x y : Document),
      (fun field => compare (read field x) (read field y)) = outcome := by
  refine ⟨fun field d => if d.isEmpty then 1 else outcomeRank (outcome field), .empty,
    .single "" .null, funext fun field => ?_⟩
  show compare 1 (outcomeRank (outcome field)) = outcome field
  cases outcome field <;> rfl

/-- **Lists order documents alike exactly if they have the same first entries.** -/
theorem orderAlike_iff {keys keys' : Entries Bool} :
    OrderAlike keys keys' ↔ keys.firsts = keys'.firsts := by
  rw [← Entries.verdicts_eq_iff]
  constructor
  · intro h outcome
    obtain ⟨read, x, y, rfl⟩ := exists_read_of_outcome outcome
    exact h Nat read x y
  · intro h κ _ read x y
    exact h _

/-- Documents that differ in one field alone are ordered by the first entry of that field. -/
theorem compareBy_of_only {κ : Type} [LinearOrder κ] {read : String → Document → κ}
    {x y : Document} {field : String}
    (h : ∀ other, other ≠ field → read other x = read other y) (keys : Entries Bool) :
    compareBy read keys x y = (keys.get? field).elim .eq fun ascending =>
      directed ascending (compare (read field x) (read field y)) :=
  Entries.verdict_of_only (fun other hother => compare_eq_iff_eq.mpr (h other hother)) keys

/-! ### Documents of directions -/

/-- The value of a direction. -/
def Value.direction (ascending : Bool) : Value :=
  .int (if ascending then 1 else -1)

/-- Whether a value stands for ascending order. -/
def Value.isAscending : Value → Bool
  | .int n => decide (0 < n)
  | _ => false

namespace Document

/-- The fields of a document of directions. -/
def directions (d : Document) : Entries Bool :=
  d.entries.map fun entry => (entry.1, entry.2.isAscending)

theorem map_fst_directions (d : Document) : d.directions.map Prod.fst = d.keys := by
  rw [directions, List.map_map]
  rfl

theorem get?_directions (d : Document) (field : String) :
    d.directions.get? field = (d.get? field).map Value.isAscending :=
  Entries.get?_map ..

variable (keys : Entries Bool)

/-- The document that is made of fields with directions. -/
def ofDirections : Document :=
  .ofList (keys.map fun key => (key.1, .direction key.2))

/-- A field stands where it first comes. -/
theorem keys_ofDirections : (ofDirections keys).keys = (keys.map Prod.fst).eraseDups := by
  rw [ofDirections, keys_ofList, List.map_map]
  rfl

/-- **A field has the direction that comes last.** -/
theorem get?_ofDirections (field : String) :
    (ofDirections keys).get? field =
      (Entries.get? keys.reverse field).map Value.direction := by
  rw [ofDirections, get?_ofList, ← List.map_reverse, ← Entries.get?_eq_find?]
  exact Entries.get?_map ..

theorem get?_directions_ofDirections (field : String) :
    (ofDirections keys).directions.get? field = Entries.get? keys.reverse field := by
  have hread : ∀ ascending,
      (Value.isAscending ∘ Value.direction) ascending = id ascending := by decide
  rw [get?_directions, get?_ofDirections, Option.map_map, funext hread, Option.map_id]
  rfl

theorem nodup_directions_ofDirections :
    ((ofDirections keys).directions.map Prod.fst).Nodup := by
  rw [map_fst_directions]
  exact nodup_keys_ofList _

/-- **When the last direction of every field is its first one.** -/
theorem directions_eq_firsts_iff :
    (ofDirections keys).directions = keys.firsts ↔
      ∀ field, Entries.get? keys field = Entries.get? keys.reverse field := by
  constructor
  · intro h field
    rw [← get?_directions_ofDirections, h, Entries.get?_firsts]
  · intro h
    refine Entries.eq_of_names_of_get? (nodup_directions_ofDirections keys) ?_ fun field => ?_
    · rw [map_fst_directions, keys_ofDirections, Entries.map_fst_firsts]
    · rw [get?_directions_ofDirections, Entries.get?_firsts, h]

/-- The document orders as a list does exactly if it holds the first entries of the list. -/
theorem orderAlike_directions_iff {other : Entries Bool} :
    OrderAlike (ofDirections keys).directions other ↔
      (ofDirections keys).directions = other.firsts := by
  rw [orderAlike_iff, Entries.firsts_of_nodup (nodup_directions_ofDirections keys)]

end Document

end DocQuery
