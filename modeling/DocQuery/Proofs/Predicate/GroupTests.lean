import DocQuery.Proofs.Aggregate.Stored
import DocQuery.Proofs.Predicate.Joined

/-!
# What conditions on groups read

A filter on groups is compiled without sight of the stage that builds the groups.  Which
fields it reads depends on the condition and on the names of the selection only.

* `Document.fieldsRead` — the fields that a filter reads
* `Sql.Expr.IsGroupTest`, `Sql.Expr.groupNames` — conditions on groups and the names that
  they read
* `Filter.comparison_sides` — a comparison is an operator on the values of its sides
* `Filter.fieldsRead_compile` — a compiled condition reads its names and no others

### What is load-bearing

**Columns keep their names.**  A column is read under its alias or its path, and an
aggregate as a side of a comparison under the name that it is stored with.  An aggregate
that stands on its own is read under its written form.

**Exact lists.**  The fields that are read are given as a list and not only bounded.
-/

namespace DocQuery

open Sql

/-! ### Fields that a filter reads -/

mutual

/-- The fields that a value of a filter reads.  Inside an expression a string that begins
with a dollar sign is the path of a field. -/
def Value.fieldsRead (expression : Bool) : Value → List String
  | .string s =>
    if expression && Text.isDollar s then [String.ofList (s.toList.drop 1)] else []
  | .array items => Value.itemsRead expression items
  | .document ⟨entries⟩ => Value.entriesRead expression entries
  | _ => []

/-- The fields that the items of an array read. -/
def Value.itemsRead (expression : Bool) : List Value → List String
  | [] => []
  | v :: rest => v.fieldsRead expression ++ Value.itemsRead expression rest

/-- The fields that entries read: a key that is no operator is a field. -/
def Value.entriesRead (expression : Bool) : List (String × Value) → List String
  | [] => []
  | (key, v) :: rest =>
    (if Text.isDollar key then v.fieldsRead (expression || key == "$expr")
      else key :: v.fieldsRead expression) ++ Value.entriesRead expression rest

end

/-- **The fields that a filter reads**, from left to right. -/
def Document.fieldsRead (d : Document) : List String :=
  Value.fieldsRead false (.document d)

section Reading

variable {key name : String} {v : Value}

theorem Value.itemsRead_append (expression : Bool) (items more : List Value) :
    Value.itemsRead expression (items ++ more) =
      Value.itemsRead expression items ++ Value.itemsRead expression more := by
  induction items with
  | nil => rfl
  | cons v rest ih => simp only [List.cons_append, Value.itemsRead, ih, List.append_assoc]

theorem Value.fieldsRead_operator (expression : Bool) (hkey : Text.isDollar key = true) :
    Value.fieldsRead expression (.document (.single key v)) =
      v.fieldsRead (expression || key == "$expr") := by
  simp only [Document.single, Value.fieldsRead, Value.entriesRead, hkey, if_true,
    List.append_nil]

theorem Value.entriesRead_field (hname : Text.isDollar name = false) (expression : Bool)
    (rest : List (String × Value)) :
    Value.entriesRead expression ((name, v) :: rest) =
      name :: (v.fieldsRead expression ++ Value.entriesRead expression rest) := by
  rw [Value.entriesRead, hname]
  rfl

theorem Document.fieldsRead_field (hname : Text.isDollar name = false) :
    (Document.single name v).fieldsRead = name :: v.fieldsRead false := by
  rw [Document.fieldsRead, Document.single, Value.fieldsRead, Value.entriesRead_field hname,
    Value.entriesRead, List.append_nil]

/-- A reference reads the field behind the dollar sign. -/
theorem Value.fieldsRead_reference (name : String) :
    Value.fieldsRead true (.string ("$" ++ name)) = [name] := by
  have hdollar : Text.isDollar ("$" ++ name) = true := by
    simp [Text.isDollar]
  simp [Value.fieldsRead, hdollar]

end Reading

/-! ### Conditions on groups -/

namespace Sql

/-- A column that names a field of a group: it is not quoted, and its name does not begin
with a dollar sign. -/
structure Column.IsGroupField (aliases : Aliases) (c : Column) : Prop where
  unquoted : c.quoted = false
  plain : Text.isDollar (Operand.aliased (some aliases) c.fullName) = false

namespace Expr

/-- An operand whose value is not taken for a reference. -/
def IsPlain (types : FieldTypes) (aliases : Aliases) (e : Expr) : Prop :=
  ∀ counterpart v, Operand.value types (some aliases) counterpart e = .ok v →
    ∀ expression, v.fieldsRead expression = []

/-- What a condition on groups is about: fields, aggregates and constants. -/
inductive IsGroupSide (types : FieldTypes) (aliases : Aliases) : Expr → Prop
  | column {c : Column} (hc : c.IsGroupField aliases) : IsGroupSide types aliases (.column c)
  | call {c : Call}
    (hname : c.plainName ∈ Aggregate.names) : IsGroupSide types aliases c.toExpr
  | constant {e : Expr} (hconstant : Filter.isConstant e = true)
    (hplain : e.IsPlain types aliases) :
    IsGroupSide types aliases e

/-- Conditions on groups: every form of a test, of fields, aggregates and constants. -/
inductive IsGroupTest (types : FieldTypes) (aliases : Aliases) : Expr → Prop
  | compare (op : Comparison) {l r : Expr} (hl : IsGroupSide types aliases l)
    (hr : IsGroupSide types aliases r) : IsGroupTest types aliases (.compare op l r)
  | between (complement : Bool) {e low high : Expr} (he : IsGroupSide types aliases e)
    (hlow : IsGroupSide types aliases low) (hhigh : IsGroupSide types aliases high) :
    IsGroupTest types aliases (.between complement e low high)
  | like (negated : Bool) {e : Expr} (he : IsGroupSide types aliases e) (pattern : Expr) :
    IsGroupTest types aliases (.like negated e pattern)
  | isNull (negated : Bool) {e : Expr} (he : IsGroupSide types aliases e) :
    IsGroupTest types aliases (.isNull negated e)
  | inList (negated : Bool) {e : Expr} {items : List Expr} (he : IsGroupSide types aliases e)
    (hitems : ∀ item ∈ items, Filter.isConstant item = true ∧ item.IsPlain types aliases) :
    IsGroupTest types aliases (.inList negated e items)
  | column {c : Column} (hc : c.IsGroupField aliases) : IsGroupTest types aliases (.column c)
  | call {c : Call}
    (hname : c.plainName ∈ Aggregate.names) : IsGroupTest types aliases c.toExpr
  | not {e : Expr} (he : IsGroupTest types aliases e) : IsGroupTest types aliases (.not e)
  | and {l r : Expr} (hl : IsGroupTest types aliases l) (hr : IsGroupTest types aliases r) :
    IsGroupTest types aliases (.and l r)
  | or {l r : Expr} (hl : IsGroupTest types aliases l) (hr : IsGroupTest types aliases r) :
    IsGroupTest types aliases (.or l r)

/-- The names that a side of a comparison reads: a field under its alias or its path, an
aggregate under the name that it is stored with. -/
def sideNames (aliases : Aliases) : Expr → List String
  | .column c => if c.quoted then [] else [Operand.aliased (some aliases) c.fullName]
  | .call name distinct args => [Aggregate.storedName aliases ⟨name, distinct, args⟩]
  | _ => []

/-- The names that a tested expression reads outside of comparisons: an aggregate is not
looked up but read under its written form. -/
def writtenNames (aliases : Aliases) : Expr → List String
  | .call name distinct args => [Call.display ⟨name, distinct, args⟩]
  | e => e.sideNames aliases

/-- The names that a membership test reads: the test of an aggregate is not stated as an
expression, and its parts are the only names in it. -/
def memberNames (aliases : Aliases) : Expr → List String
  | .call .. => ["function", "list"]
  | e => e.sideNames aliases

/-- **The names that a condition on groups reads**, from left to right.  Only fields and
comparisons can be negated; the negation of anything else reads nothing. -/
def groupNames (aliases : Aliases) : Expr → List String
  | .compare _ l r => l.sideNames aliases ++ r.sideNames aliases
  | .between _ e low high =>
    (e.sideNames aliases ++ low.sideNames aliases) ++
      (e.sideNames aliases ++ high.sideNames aliases)
  | .like _ e _ => e.sideNames aliases
  | .isNull _ e => e.writtenNames aliases
  | .inList _ e _ => e.memberNames aliases
  | .column c => (Expr.column c).sideNames aliases
  | .call name distinct args => (Expr.call name distinct args).writtenNames aliases
  | .not (.column c) => (Expr.column c).sideNames aliases
  | .not (.compare _ l r) => l.sideNames aliases ++ r.sideNames aliases
  | .and l r => l.groupNames aliases ++ r.groupNames aliases
  | .or l r => l.groupNames aliases ++ r.groupNames aliases
  | _ => []

end Expr

end Sql

/-! ### Aggregates are no special calls -/

namespace Aggregate

variable {c : Call}

theorem isNamed_eq_false (h : c.plainName ∈ names) {word : String}
    (hword : Text.lowerAscii word ∉ names) : c.isNamed word = false := by
  rw [Call.isNamed, Text.sameWord, beq_eq_false_iff_ne]
  intro hsame
  refine hword ?_
  rw [Text.lowerAscii, ← hsame]
  exact h

/-- Taking off the blanks around the name once more changes nothing. -/
theorem lowerAscii_trim_trim (h : c.plainName ∈ names) :
    Text.lowerAscii (Text.trim (Text.trim c.name)) = c.plainName := by
  have hlower : ∀ known ∈ names, known.toList.map Char.toLower = known.toList := by decide
  have hknown : ∀ known ∈ names, Text.lowerAscii (Text.trim known) = known := by decide
  have hsame : Text.sameWord (Text.trim c.name) c.plainName = true := by
    rw [Text.sameWord, hlower _ h, beq_iff_eq, Call.plainName, Text.lowerAscii,
      String.toList_ofList]
  rw [Text.lowerAscii_trim_eq_of_sameWord hsame, hknown _ h]

theorem isIdentityCall_eq_false (h : c.plainName ∈ names) : isIdentityCall c = false := by
  have hrenamed : ∀ entry ∈ renamed, Text.lowerAscii entry.1 ∉ names := by decide
  have hfind : (renamed.find? fun entry =>
      Text.sameWord entry.1 (Text.trim (Text.trim c.name))) = none := by
    refine List.find?_eq_none.mpr fun entry hentry hsame => hrenamed entry hentry ?_
    rw [Text.sameWord, beq_iff_eq] at hsame
    rw [Text.lowerAscii, hsame, ← Text.lowerAscii, lowerAscii_trim_trim h]
    exact h
  have hobject : Text.sameWord (Text.trim c.name) "toObjectId" = false :=
    isNamed_eq_false h (by decide)
  rw [isIdentityCall, operatorName, hfind, hobject, isNamed_eq_false h (by decide)]
  rfl

theorem match_parts?_eq_none (h : c.plainName ∈ names) : Match.parts? c = none := by
  rw [Match.parts?, isNamed_eq_false h (by decide), isNamed_eq_false h (by decide)]
  rfl

theorem moment_parts?_eq_none (h : c.plainName ∈ names) : Moment.parts? c = none := by
  unfold Moment.parts?
  split
  · rw [isNamed_eq_false h (by decide)]
    rfl
  · rfl

/-- The written form of an aggregate is no operator. -/
theorem isDollar_display (h : c.plainName ∈ names) : Text.isDollar c.display = false := by
  have hnone : ∀ name ∈ names, '$' ∉ name.toList := by decide
  have hdollar : '$' ∉ c.name.toList := notMem_name (by decide) (by decide) hnone h
  rw [Text.isDollar, toList_display]
  cases hname : c.name.toList with
  | nil => rfl
  | cons first rest =>
    rw [hname] at hdollar
    have hfirst : first ≠ '$' := fun hsame => hdollar (hsame ▸ List.mem_cons_self)
    simp [hfirst]

end Aggregate

namespace Filter

/-! ### Sides of comparisons -/

variable {types : FieldTypes} {aliases : Aliases} {l r e : Expr}

/-- A side of a test as a value. -/
def sideValue (types : FieldTypes) (aliases : Aliases) (counterpart : Option Expr)
    (e : Expr) : Except Fault Value :=
  operand (.groups types aliases) e (Operand.value types (some aliases) counterpart e)

theorem argument?_eq_none (h : e.IsGroupSide types aliases) :
    Identity.argument? e = none := by
  cases h with
  | column hc => rfl
  | @call c hname =>
    rw [Call.toExpr, Identity.argument?, Aggregate.isIdentityCall_eq_false hname]
    rfl
  | constant hconstant hplain =>
    cases e with
    | call name distinct args => cases hconstant
    | _ => rfl

theorem sideValue_constant (counterpart : Option Expr) (h : isConstant e = true) :
    sideValue types aliases counterpart e =
      Operand.value types (some aliases) counterpart e := by
  cases e with
  | column c => exact if_pos h
  | call name distinct args => cases h
  | _ => rfl

theorem node_eq_value (counterpart : Option Expr) (h : isConstant e = true) :
    node (.groups types aliases) counterpart e =
      Operand.value types (some aliases) counterpart e := by
  cases e with
  | column c =>
    rw [node, show c.quoted = true from h]
    rfl
  | literal l => rfl
  | signed negative e => rfl
  | _ => cases h

theorem operand_node (counterpart : Option Expr) (h : e.IsGroupSide types aliases) :
    operand (.groups types aliases) e (node (.groups types aliases) counterpart e) =
      sideValue types aliases counterpart e := by
  cases h with
  | column hc => rw [sideValue, operand, operand, hc.unquoted]; rfl
  | call hname => rfl
  | constant hconstant hplain => rw [node_eq_value counterpart hconstant]; rfl

/-- None of the special comparisons is meant. -/
theorem special_eq_none (op : Comparison) (hl : l.IsGroupSide types aliases)
    (hr : r.IsGroupSide types aliases) :
    Match.ofComparison? op l r = .ok none ∧ Moment.ofComparison? op l r = .ok none ∧
      Identity.ofComparison? op l r = none := by
  refine ⟨?_, ?_, ?_⟩
  · cases hl with
    | column hc => cases op <;> rfl
    | @call c hname =>
      unfold Match.ofComparison? Call.toExpr
      split
      · rename_i hcall
        cases hcall
        rw [Aggregate.match_parts?_eq_none hname]
      · rfl
    | constant hconstant hplain =>
      cases l with
      | call name distinct args => cases hconstant
      | _ => cases op <;> rfl
  · cases hl with
    | column hc => rfl
    | @call c hname =>
      rw [Call.toExpr, Moment.ofComparison?, Aggregate.moment_parts?_eq_none hname]
    | constant hconstant hplain =>
      cases l with
      | call name distinct args => cases hconstant
      | _ => rfl
  · rw [Identity.ofComparison?, argument?_eq_none hl, argument?_eq_none hr]

/-- **A comparison of two sides is an operator on their values.** -/
theorem comparison_sides (op : Comparison) (hl : l.IsGroupSide types aliases)
    (hr : r.IsGroupSide types aliases) :
    comparison (.groups types aliases) op l r (node (.groups types aliases) (some r) l)
        (node (.groups types aliases) (some l) r) = (do
      let left ← sideValue types aliases (some r) l
      let right ← sideValue types aliases (some l) r
      return applied (.groups types aliases) (operator op) left right) := by
  obtain ⟨hmatch, hmoment, hidentity⟩ := special_eq_none op hl hr
  have hplain : plainComparison (.groups types aliases) op l r
      (node (.groups types aliases) (some r) l)
        (node (.groups types aliases) (some l) r) = (do
        let left ← sideValue types aliases (some r) l
        let right ← sideValue types aliases (some l) r
        return applied (.groups types aliases) (operator op) left right) := by
    unfold plainComparison
    simp only [operand_node (some r) hl, operand_node (some l) hr]
    split
    · rfl
    · rename_i hcalls
      cases hl with
      | call hname => exact absurd rfl hcalls
      | column hc =>
        have hfield : field? (.column _) = some _ := if_neg (by rw [hc.unquoted]; decide)
        cases hr with
        | call hname => exact absurd rfl hcalls
        | column hother =>
          have hright : field? (.column _) = some _ :=
            if_neg (by rw [hother.unquoted]; decide)
          rw [hfield, hright]
          rfl
        | constant hconstant hplain =>
          rw [hfield, field?_eq_none hconstant, sideValue_constant _ hconstant]
          simp only [hconstant, if_true]
          rw [sideValue, operand, hc.unquoted]
          rfl
      | constant hconstant hplain =>
        rw [field?_eq_none hconstant, node_eq_value _ hconstant,
          sideValue_constant _ hconstant]
        rfl
  unfold comparison
  rw [hmatch, hmoment, hidentity]
  exact hplain

/-- The value of an aggregate is a reference to the name that it is stored with. -/
theorem callValue_eq_stored {c : Call} (hname : c.plainName ∈ Aggregate.names) {v : Value}
    (h : callValue (.groups types aliases) c = .ok v) :
    v = .string ("$" ++ Aggregate.storedName aliases c) := by
  rw [Aggregate.callValue_aggregate hname] at h
  obtain ⟨name, houtput, h⟩ := Outcome.bind_eq_ok.mp h
  rw [← Outcome.pure_eq_ok.mp h, Aggregate.eq_of_outputName houtput]
  rfl

/-- A side of a comparison reads its names. -/
theorem fieldsRead_sideValue {counterpart : Option Expr} {v : Value}
    (he : e.IsGroupSide types aliases) (h : sideValue types aliases counterpart e = .ok v) :
    v.fieldsRead true = e.sideNames aliases := by
  cases he with
  | @column c hc =>
    rw [sideValue, operand, hc.unquoted] at h
    cases h
    have hreference : columnReference (.groups types aliases) c =
        .string ("$" ++ Operand.aliased (some aliases) c.fullName) := by
      rw [columnReference, fieldReference]
      exact congrArg Value.string (if_neg (Bool.not_eq_true _ ▸ hc.plain))
    rw [hreference, Value.fieldsRead_reference, Expr.sideNames, hc.unquoted]
    rfl
  | @call c hname =>
    rw [sideValue, Call.toExpr, operand] at h
    rw [callValue_eq_stored hname h, Value.fieldsRead_reference]
    rfl
  | constant hconstant hplain =>
    rw [sideValue_constant counterpart hconstant] at h
    rw [hplain _ v h true]
    cases e with
    | column c => exact (if_pos hconstant).symm
    | call name distinct args => cases hconstant
    | _ => rfl

/-! ### Tests -/

theorem isDollar_operator (op : Comparison) : Text.isDollar (operator op) = true := by
  cases op <;> decide

/-- Between stages an operator reads the fields of its sides. -/
theorem fieldsRead_applied {name : String} (hname : Text.isDollar name = true)
    (left right : Value) :
    (applied (.groups types aliases) name left right).fieldsRead =
      left.fieldsRead true ++ right.fieldsRead true := by
  have happlied : applied (.groups types aliases) name left right =
      .single "$expr" (.document (.single name (.array [left, right]))) := rfl
  rw [happlied, Document.fieldsRead, Value.fieldsRead_operator _ (by decide),
    Value.fieldsRead_operator _ hname]
  simp [Value.fieldsRead, Value.itemsRead]

/-- A negated comparison reads what the comparison reads. -/
theorem fieldsRead_negated_applied {name : String} (hname : Text.isDollar name = true)
    (left right : Value) :
    (negated (applied (.groups types aliases) name left right)).fieldsRead =
      left.fieldsRead true ++ right.fieldsRead true := by
  have hnegated : negated (applied (.groups types aliases) name left right) =
      .single "$expr" (.document (.single "$not"
        (.document (.single name (.array [left, right]))))) := rfl
  rw [hnegated, Document.fieldsRead, Value.fieldsRead_operator _ (by decide),
    Value.fieldsRead_operator _ (by decide), Value.fieldsRead_operator _ hname]
  simp [Value.fieldsRead, Value.itemsRead]

/-- **Step.**  Two joined filters read what the two of them read. -/
theorem fieldsRead_conjoin {name : String} (hname : Text.isDollar name = true)
    (hexpr : name ≠ "$expr") {continues : Bool} {left : Document} (right : Document)
    (hleft : continues = true → ∃ items, left = .single name (.array items)) :
    (conjoin name continues left right).fieldsRead = left.fieldsRead ++ right.fieldsRead := by
  have hjoined : ∀ items, (Document.single name (.array items)).fieldsRead =
      Value.itemsRead false items := by
    intro items
    rw [Document.fieldsRead, Value.fieldsRead_operator _ hname, beq_eq_false_iff_ne.mpr hexpr]
    rfl
  have hright : Value.itemsRead false [.document right] = right.fieldsRead :=
    List.append_nil _
  cases continues with
  | false =>
    show (Document.single name
      (.array ([.document left] ++ [.document right]))).fieldsRead = _
    rw [hjoined, Value.itemsRead_append, hright]
    exact congrArg (· ++ right.fieldsRead) (List.append_nil _)
  | true =>
    obtain ⟨items, rfl⟩ := hleft rfl
    simp only [conjoin, if_true, operands_single]
    rw [hjoined, hjoined, Value.itemsRead_append, hright]

variable {f : Document}

theorem fieldsRead_comparison (op : Comparison) (hl : l.IsGroupSide types aliases)
    (hr : r.IsGroupSide types aliases)
    (h : comparison (.groups types aliases) op l r (node (.groups types aliases) (some r) l)
      (node (.groups types aliases) (some l) r) = .ok f) :
    f.fieldsRead = l.sideNames aliases ++ r.sideNames aliases ∧
      (negated f).fieldsRead = l.sideNames aliases ++ r.sideNames aliases := by
  rw [comparison_sides op hl hr] at h
  obtain ⟨left, hleft, h⟩ := Outcome.bind_eq_ok.mp h
  obtain ⟨right, hright, h⟩ := Outcome.bind_eq_ok.mp h
  cases Outcome.pure_eq_ok.mp h
  rw [fieldsRead_applied (isDollar_operator op),
    fieldsRead_negated_applied (isDollar_operator op), fieldsRead_sideValue hl hleft,
    fieldsRead_sideValue hr hright]
  exact ⟨rfl, rfl⟩

/-- The fields among the sides. -/
theorem eq_column_of_field? {c : Column} (he : e.IsGroupSide types aliases)
    (h : field? e = some c) : e = .column c ∧ c.IsGroupField aliases := by
  cases he with
  | column hc =>
    rw [field?, hc.unquoted] at h
    cases h
    exact ⟨rfl, hc⟩
  | call hname => cases h
  | constant hconstant hplain =>
    rw [field?_eq_none hconstant] at h
    cases h

/-- A test of a field that holds no reference reads the field. -/
theorem fieldsRead_test {c : Column} (hc : c.IsGroupField aliases) {test : Value}
    (htest : test.fieldsRead false = []) :
    (Document.single (Operand.aliased (some aliases) c.fullName) test).fieldsRead =
      (Expr.column c).sideNames aliases := by
  rw [Document.fieldsRead_field hc.plain, htest, Expr.sideNames, hc.unquoted]
  rfl

theorem fieldsRead_likeTest {negated : Bool} {pattern : Expr}
    (he : e.IsGroupSide types aliases)
    (h : likeTest (.groups types aliases) negated e pattern = .ok f) :
    f.fieldsRead = e.sideNames aliases := by
  cases hfield : field? e with
  | none =>
    simp only [likeTest, hfield] at h
    cases h
  | some c =>
    obtain ⟨rfl, hc⟩ := eq_column_of_field? he hfield
    simp only [likeTest, hfield] at h
    split at h
    · rename_i c' text hsome htext
      cases hsome
      cases Except.ok.inj h
      refine fieldsRead_test hc ?_
      cases negated with
      | false => exact Value.fieldsRead_operator false (by decide)
      | true =>
        exact (Value.fieldsRead_operator false (by decide)).trans
          (Value.fieldsRead_operator false (by decide))
    · cases h

theorem fieldsRead_nullTest {negated : Bool} (he : e.IsGroupSide types aliases)
    (h : nullTest (.groups types aliases) negated e = .ok f) :
    f.fieldsRead = e.writtenNames aliases := by
  cases he with
  | column hc =>
    simp only [nullTest, field?, hc.unquoted, Bool.false_eq_true, if_false] at h
    cases Except.ok.inj h
    exact fieldsRead_test hc (Value.fieldsRead_operator false (by decide))
  | @call c hname =>
    rw [Call.toExpr, nullTest] at h
    obtain ⟨value, hvalue, h⟩ := Outcome.bind_eq_ok.mp h
    cases callValue_eq_stored hname hvalue
    cases Outcome.pure_eq_ok.mp h
    refine (Document.fieldsRead_field (Aggregate.isDollar_display hname)).trans ?_
    rw [Value.fieldsRead_operator false (by decide)]
    rfl
  | constant hconstant hplain =>
    unfold nullTest at h
    split at h
    · cases hconstant
    · rw [field?_eq_none hconstant] at h
      cases h

/-- Listed constants read nothing. -/
theorem itemsRead_nodes {target : Expr} {items : List Expr} {values : List Value}
    (hitems : ∀ item ∈ items, isConstant item = true ∧ item.IsPlain types aliases)
    (h : nodes (.groups types aliases) target items = .ok values) (expression : Bool) :
    Value.itemsRead expression values = [] := by
  induction items generalizing values with
  | nil =>
    cases h
    rfl
  | cons item rest ih =>
    obtain ⟨hconstant, hplain⟩ := hitems item List.mem_cons_self
    rw [nodes] at h
    obtain ⟨v, hv, h⟩ := Outcome.bind_eq_ok.mp h
    obtain ⟨others, hothers, h⟩ := Outcome.bind_eq_ok.mp h
    cases Outcome.pure_eq_ok.mp h
    have hvalue : listedItem item (node (.groups types aliases) (some target) item) =
        Operand.value types (some aliases) (some target) item := by
      rw [node_eq_value _ hconstant]
      cases item with
      | subquery q => cases hconstant
      | _ => rfl
    rw [hvalue] at hv
    rw [Value.itemsRead, hplain _ v hv expression,
      ih (fun other hother => hitems other (List.mem_cons_of_mem item hother)) hothers]
    rfl

theorem ofList?_eq_none (negated : Bool) (items : List Expr)
    (he : e.IsGroupSide types aliases) : Identity.ofList? negated e items = .ok none := by
  cases he with
  | column hc => rfl
  | @call c hname =>
    obtain ⟨name, distinct, args⟩ := c
    unfold Identity.ofList? Call.toExpr
    split
    · rename_i hcall
      cases hcall
      rw [Aggregate.isIdentityCall_eq_false hname]
      rfl
    · rfl
  | constant hconstant hplain =>
    cases e with
    | call name distinct args => cases hconstant
    | _ => rfl

theorem membership_staged {negated : Bool} {items : List Expr}
    {targetNode : Except Fault Value} {values : Except Fault (List Value)}
    (hcall : isCall e = false) (hnone : Identity.ofList? negated e items = .ok none) :
    membership (.groups types aliases) negated e items targetNode values = (do
      let listed ← values
      let target ← operand (.groups types aliases) e targetNode
      return applied (.groups types aliases) (if negated then "$nin" else "$in") target
        (.array listed)) := by
  unfold membership
  rw [hnone]
  cases e with
  | call name distinct args => cases hcall
  | _ => rfl

theorem fieldsRead_membership {negated : Bool} {items : List Expr}
    (he : e.IsGroupSide types aliases)
    (hitems : ∀ item ∈ items, isConstant item = true ∧ item.IsPlain types aliases)
    (h : membership (.groups types aliases) negated e items
      (node (.groups types aliases) none e)
      (nodes (.groups types aliases) e items) = .ok f) :
    f.fieldsRead = e.memberNames aliases := by
  have hnone := ofList?_eq_none negated items he
  have hstaged (hcall : isCall e = false) : f.fieldsRead = e.sideNames aliases := by
    rw [membership_staged hcall hnone] at h
    obtain ⟨values, hvalues, h⟩ := Outcome.bind_eq_ok.mp h
    obtain ⟨target, htarget, h⟩ := Outcome.bind_eq_ok.mp h
    rw [operand_node none he] at htarget
    have hoperator : Text.isDollar (if negated then "$nin" else "$in") = true := by
      cases negated <;> decide
    rw [← Outcome.pure_eq_ok.mp h, fieldsRead_applied hoperator,
      fieldsRead_sideValue he htarget, Value.fieldsRead, itemsRead_nodes hitems hvalues true,
      List.append_nil]
  cases he with
  | column hc => exact hstaged rfl
  | @call c hname =>
    obtain ⟨special, hspecial, h⟩ := Outcome.bind_eq_ok.mp h
    rw [hnone] at hspecial
    cases hspecial
    obtain ⟨values, hvalues, h⟩ := Outcome.bind_eq_ok.mp h
    obtain ⟨target, htarget, h⟩ := Outcome.bind_eq_ok.mp h
    cases callValue_eq_stored hname htarget
    have hoperator : Text.isDollar (if negated then "$fnin" else "$fin") = true ∧
        ((if negated then "$fnin" else "$fin") == "$expr") = false := by
      cases negated <;> decide
    rw [← Outcome.pure_eq_ok.mp h, Document.fieldsRead,
      Value.fieldsRead_operator _ hoperator.1, hoperator.2]
    show Value.entriesRead false [("function",
      .string ("$" ++ Aggregate.storedName aliases c)), ("list", .array values)] =
        ["function", "list"]
    rw [Value.entriesRead_field (by decide), Value.entriesRead_field (by decide),
      show Value.fieldsRead false (.array values) =
        [] from itemsRead_nodes hitems hvalues false]
    rfl
  | constant hconstant hplain =>
    refine (hstaged (isCall_eq_false hconstant)).trans ?_
    cases e with
    | call name distinct args => cases hconstant
    | _ => rfl

/-! ### Whole conditions -/

/-- An aggregate that stands on its own is no special call. -/
theorem standalone_aggregate {c : Call} (h : c.plainName ∈ Aggregate.names) (ctx : Context) :
    standalone ctx c = callValue ctx c := by
  rw [standalone, Match.ofCall?, Aggregate.match_parts?_eq_none h, Identity.standalone?,
    Aggregate.isIdentityCall_eq_false h]
  rfl

/-- Only fields and comparisons keep their names when they are negated. -/
theorem fieldsRead_negation (he : e.IsGroupTest types aliases)
    (h : negation (.groups types aliases) e (node (.groups types aliases) none e) = .ok f) :
    f.fieldsRead = (Expr.not e).groupNames aliases := by
  cases he with
  | column hc =>
    rw [negation, hc.unquoted] at h
    cases Except.ok.inj h
    exact fieldsRead_test hc (Value.fieldsRead_operator false (by decide))
  | compare op hl hr =>
    obtain ⟨value, hvalue, h⟩ := Outcome.bind_eq_ok.mp h
    rw [node] at hvalue
    obtain ⟨own, hown, hvalue⟩ := Outcome.bind_eq_ok.mp hvalue
    cases Outcome.pure_eq_ok.mp hvalue
    cases Outcome.pure_eq_ok.mp h
    exact (fieldsRead_comparison op hl hr hown).2
  | _ =>
    cases Except.ok.inj h
    rfl

/-- **A compiled condition on groups reads its names and no others.** -/
theorem fieldsRead_compile (he : e.IsGroupTest types aliases)
    (h : compile (.groups types aliases) e = .ok f) :
    f.fieldsRead = e.groupNames aliases := by
  induction he generalizing f with
  | compare op hl hr =>
    rw [compile_of_node (by rw [node])] at h
    exact (fieldsRead_comparison op hl hr h).1
  | between complement he hlow hhigh =>
    obtain ⟨value, hvalue, h⟩ := Outcome.bind_eq_ok.mp h
    rw [node] at hvalue
    obtain ⟨least, hleast, hvalue⟩ := Outcome.bind_eq_ok.mp hvalue
    obtain ⟨greatest, hgreatest, hvalue⟩ := Outcome.bind_eq_ok.mp hvalue
    cases Outcome.pure_eq_ok.mp hvalue
    cases Outcome.pure_eq_ok.mp h
    have hlower := fieldsRead_comparison .ge he hlow hleast
    have hupper := fieldsRead_comparison .le he hhigh hgreatest
    rw [filterOf, fieldsRead_conjoin (by decide) (by decide) _ (by simp)]
    cases complement with
    | false => exact congr (congrArg _ hlower.1) hupper.1
    | true => exact congr (congrArg _ hlower.2) hupper.2
  | like negated he pattern =>
    rw [compile_of_node (by rw [node])] at h
    exact fieldsRead_likeTest he h
  | isNull negated he =>
    rw [compile_of_node (by rw [node])] at h
    exact fieldsRead_nullTest he h
  | inList negated he hitems =>
    rw [compile_of_node (by rw [node])] at h
    exact fieldsRead_membership he hitems h
  | column hc =>
    rw [compile, node, hc.unquoted] at h
    cases Outcome.pure_eq_ok.mp h
    exact fieldsRead_test hc (by simp [Value.fieldsRead])
  | @call c hname =>
    obtain ⟨value, hvalue, h⟩ := Outcome.bind_eq_ok.mp h
    rw [Call.toExpr, node, standalone_aggregate hname] at hvalue
    cases callValue_eq_stored hname hvalue
    cases Outcome.pure_eq_ok.mp h
    exact Document.fieldsRead_field (Aggregate.isDollar_display hname)
  | not he ih =>
    rw [compile_of_node (by rw [node])] at h
    exact fieldsRead_negation he h
  | and hl hr ihl ihr =>
    rw [compile_and] at h
    obtain ⟨left, hleft, h⟩ := Outcome.bind_eq_ok.mp h
    obtain ⟨right, hright, h⟩ := Outcome.bind_eq_ok.mp h
    rw [← Outcome.pure_eq_ok.mp h, fieldsRead_conjoin (by decide) (by decide), ihl hleft,
      ihr hright, Expr.groupNames]
    intro hcontinues
    exact compile_of_isAndRun (Bool.and_eq_true_iff.mp hcontinues).1 hleft
  | or hl hr ihl ihr =>
    rw [compile_or] at h
    obtain ⟨left, hleft, h⟩ := Outcome.bind_eq_ok.mp h
    obtain ⟨right, hright, h⟩ := Outcome.bind_eq_ok.mp h
    rw [← Outcome.pure_eq_ok.mp h, fieldsRead_conjoin (by decide) (by decide), ihl hleft,
      ihr hright, Expr.groupNames]
    intro hcontinues
    exact compile_of_isOrRun (Bool.and_eq_true_iff.mp hcontinues).1 hleft

end Filter

end DocQuery
