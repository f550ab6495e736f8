import SchemaTables.Schema.Document

/-!
# The grammar of schemas

`WellFormed` says what a value must be to state a schema, and `FirstFault` which rule a value breaks
first and with which words, both without reading anything. `Readable` and `FirstViolation` say the
same of whole documents. All of them leave open which values are `told`, that is, can be written out
where a text is asked for.
-/
namespace SchemaTables

/-- What a document does wrong first: it breaks a rule, or it asks for the text of a value that
cannot be written out. -/
inductive Breach where
  | rule (message : String)
  | untold
deriving DecidableEq, Repr

def DocumentFault.breach : DocumentFault → Breach
  | untold => .untold
  | fault => .rule fault.message

namespace Document
open Value (field)

/-- The field is there, whatever it holds. -/
def Has (name : String) (fields : Fields) : Prop := ∃ value, (Value.text name, value) ∈ fields

def Composes (fields : Fields) : Prop := ∃ name ∈ ["oneOf", "anyOf", "allOf"], Has name fields

/-- The type that a schema declares: a text, or the first text of a list that is not `null`. -/
inductive Declares (fields : Fields) : String → Prop
  | text {type : String} (states : field "type" fields = .text type) : Declares fields type
  | list {before after : List Value} {type : String}
      (states : field "type" fields = .list (before ++ .text type :: after)) (proper : type ≠ "null")
      (earlier : ∀ text, .text text ∈ before → text = "null") : Declares fields type

def Untyped (fields : Fields) : Prop := ∀ type, ¬ Declares fields type

/-- A schema whose kind can be told. -/
def Typed (fields : Fields) : Prop :=
  Composes fields ∨ Untyped fields ∨ ∃ kind : Kind, Declares fields kind.name

/-- A schema is read as an array if it declares to be one, or if it declares nothing and has items
but no properties. -/
def IsArray (fields : Fields) : Prop :=
  ¬ Composes fields ∧ (Declares fields "array" ∨
    Untyped fields ∧ ¬ Has "properties" fields ∧ Has "items" fields)

/-- A null counts as an empty list. -/
def IsSequence (value : Value) : Prop := value = .null ∨ ∃ items, value.sequence? = some items

def elements (value : Value) : List Value := value.sequence?.getD []

/-- A null counts as an empty mapping. -/
def IsMapping (value : Value) : Prop := value = .null ∨ ∃ entries, value = .map entries

def entries : Value → Fields
  | .map entries => entries
  | _ => []

/-- The fields that a schema gives as single texts. -/
def singleTexts : List String := ["$id", "title", "description"]

/-- The values that state a schema. The contents of `anyOf` and `allOf` are not looked at, nor is
anything beside a reference. -/
inductive WellFormed (told : Value → Bool) : Value → Prop
  | reference {fields : Fields} {text : String} (states : field "$ref" fields = .text text) :
      WellFormed told (.map fields)
  | schema {fields : Fields} (plain : field "$ref" fields = .null) (typed : Typed fields)
      (items : IsArray fields → field "items" fields ≠ .null →
        WellFormed told (field "items" fields))
      (details : ∀ name ∈ singleTexts, told (field name fields))
      (members : IsSequence (field "enum" fields))
      (mapping : IsMapping (field "properties" fields))
      (names : ∀ entry ∈ entries (field "properties" fields), told entry.1)
      (properties : ∀ entry ∈ entries (field "properties" fields), WellFormed told entry.2)
      (list : IsSequence (field "oneOf" fields))
      (oneOf : ∀ node ∈ elements (field "oneOf" fields), WellFormed told node)
      (required : IsSequence (field "required" fields))
      (requiredNames : ∀ name ∈ elements (field "required" fields), told name) :
      WellFormed told (.map fields)

/-- An entry of a mapping of schemas: its name can be told, and its value states one. -/
def NamesSchema (told : Value → Bool) (entry : Value × Value) : Prop :=
  told entry.1 ∧ WellFormed told entry.2

/-- What is asked of a schema that is no reference. -/
inductive Check where
  | type
  | items
  | details
  | members
  | properties
  | oneOf
  | required
deriving DecidableEq, Repr

/-- The checks in their order. -/
def Check.all : List Check := [type, items, details, members, properties, oneOf, required]

section
variable (told : Value → Bool)

def Passes (fields : Fields) : Check → Prop
  | .type => Typed fields
  | .items =>
    IsArray fields → field "items" fields ≠ .null → WellFormed told (field "items" fields)
  | .details => ∀ name ∈ singleTexts, told (field name fields)
  | .members => IsSequence (field "enum" fields)
  | .properties => IsMapping (field "properties" fields) ∧
      ∀ entry ∈ entries (field "properties" fields), NamesSchema told entry
  | .oneOf => IsSequence (field "oneOf" fields) ∧
      ∀ node ∈ elements (field "oneOf" fields), WellFormed told node
  | .required => IsSequence (field "required" fields) ∧
      ∀ name ∈ elements (field "required" fields), told name

mutual

/-- What a value that should state a schema at `location` does wrong first. -/
inductive FirstFault : Value → (location : String) → Breach → Prop
  | notMapping {node : Value} {location : String} (other : ∀ fields, node ≠ .map fields) :
      FirstFault node location (.rule ("Schema " ++ location ++ " must be a mapping."))
  | reference {fields : Fields} {location : String} (there : field "$ref" fields ≠ .null)
      (other : ∀ text, field "$ref" fields ≠ .text text) :
      FirstFault (.map fields) location (.rule ("Schema " ++ location ++ " has a non-string $ref."))
  | check {fields : Fields} {location : String} {breach : Breach} {check : Check}
      {before after : List Check} (plain : field "$ref" fields = .null)
      (order : Check.all = before ++ check :: after)
      (earlier : ∀ other ∈ before, Passes told fields other)
      (fails : Fails fields location check breach) : FirstFault (.map fields) location breach

/-- How a schema at `location` fails a check. -/
inductive Fails : Fields → (location : String) → Check → Breach → Prop
  | type {fields : Fields} {location type : String} (alone : ¬ Composes fields)
      (declares : Declares fields type) (unknown : ∀ kind : Kind, kind.name ≠ type) :
      Fails fields location .type (.rule ("Unsupported schema type: " ++ type))
  | items {fields : Fields} {location : String} {breach : Breach} (array : IsArray fields)
      (there : field "items" fields ≠ .null)
      (inner : FirstFault (field "items" fields) (location ++ ".items") breach) :
      Fails fields location .items breach
  | details {fields : Fields} {location name : String} (asked : name ∈ singleTexts)
      (other : ¬ told (field name fields)) : Fails fields location .details .untold
  | members {fields : Fields} {location : String} (other : ¬ IsSequence (field "enum" fields)) :
      Fails fields location .members (.rule (location ++ ".enum" ++ " must be a list."))
  | properties {fields : Fields} {location : String}
      (other : ¬ IsMapping (field "properties" fields)) : Fails fields location .properties
        (.rule ("Schema " ++ location ++ " properties must be a mapping."))
  | propertyName {fields before after : Fields} {location : String} {key node : Value}
      (split : entries (field "properties" fields) = before ++ (key, node) :: after)
      (earlier : ∀ entry ∈ before, NamesSchema told entry) (other : ¬ told key) :
      Fails fields location .properties .untold
  | property {fields before after : Fields} {location : String} {breach : Breach} {key node : Value}
      (split : entries (field "properties" fields) = before ++ (key, node) :: after)
      (earlier : ∀ entry ∈ before, NamesSchema told entry) (named : told key)
      (inner : FirstFault node (location ++ "." ++ key.display) breach) :
      Fails fields location .properties breach
  | oneOf {fields : Fields} {location : String} (other : ¬ IsSequence (field "oneOf" fields)) :
      Fails fields location .oneOf (.rule (location ++ ".oneOf" ++ " must be a list."))
  | alternative {fields : Fields} {before after : List Value} {location : String} {breach : Breach}
      {node : Value} (list : IsSequence (field "oneOf" fields))
      (split : elements (field "oneOf" fields) = before ++ node :: after)
      (earlier : ∀ node ∈ before, WellFormed told node)
      (inner : FirstFault node (location ++ ".oneOf[" ++ toString before.length ++ "]") breach) :
      Fails fields location .oneOf breach
  | required {fields : Fields} {location : String}
      (other : ¬ IsSequence (field "required" fields)) :
      Fails fields location .required (.rule (location ++ " must be a list."))
  | requiredName {fields : Fields} {location : String} {name : Value}
      (list : IsSequence (field "required" fields))
      (asked : name ∈ elements (field "required" fields)) (other : ¬ told name) :
      Fails fields location .required .untold

end

/-- The documents that can be read: where there are schemas, each is well formed. -/
def Readable (document : Fields) : Prop :=
  (field "components" document).isEmptyLike ∨
    ∃ components, field "components" document = .map components ∧
      ((field "schemas" components).isEmptyLike ∨
        ∃ named, field "schemas" components = .map named ∧ ∀ entry ∈ named, NamesSchema told entry)

/-- What a document does wrong first. -/
inductive FirstViolation (document : Fields) : Breach → Prop
  | components (filled : ¬ (field "components" document).isEmptyLike)
      (other : ∀ components, field "components" document ≠ .map components) :
      FirstViolation document (.rule "components must be a mapping.")
  | schemas {components : Fields} (holds : field "components" document = .map components)
      (filled : ¬ (field "schemas" components).isEmptyLike)
      (other : ∀ named, field "schemas" components ≠ .map named) :
      FirstViolation document (.rule "components.schemas must be a mapping.")
  | name {components named before after : Fields} {key node : Value}
      (holds : field "components" document = .map components)
      (lists : field "schemas" components = .map named)
      (split : named = before ++ (key, node) :: after)
      (earlier : ∀ entry ∈ before, NamesSchema told entry) (other : ¬ told key) :
      FirstViolation document .untold
  | schema {components named before after : Fields} {key node : Value} {breach : Breach}
      (holds : field "components" document = .map components)
      (lists : field "schemas" components = .map named)
      (split : named = before ++ (key, node) :: after)
      (earlier : ∀ entry ∈ before, NamesSchema told entry) (telling : told key)
      (inner : FirstFault told node key.display breach) : FirstViolation document breach

end

/-- An item that is bad, counted from the first one, after others that are all good. -/
def FirstOf {β : Type} (good : β → Prop) (bad : (count : Nat) → β → Prop) (items : List β) : Prop :=
  ∃ before item after, items = before ++ item :: after ∧ (∀ other ∈ before, good other) ∧
    bad before.length item

section
variable {β : Type} {good : β → Prop} {bad : Nat → β → Prop}

theorem not_firstOf_nil : ¬ FirstOf good bad [] := by
  rintro ⟨before, item, after, split, -⟩
  simp at split

theorem firstOf_cons {item : β} {rest : List β} :
    FirstOf good bad (item :: rest) ↔
      bad 0 item ∨ good item ∧ FirstOf good (fun count => bad (count + 1)) rest := by
  constructor
  · rintro ⟨before, other, after, split, earlier, fails⟩
    cases before with
    | nil =>
      cases split
      exact .inl fails
    | cons first before =>
      cases split
      obtain ⟨here, earlier⟩ := List.forall_mem_cons.mp earlier
      exact .inr ⟨here, before, other, after, rfl, earlier, fails⟩
  · rintro (fails | ⟨here, before, other, after, rfl, earlier, fails⟩)
    · exact ⟨[], item, rest, rfl, by simp, fails⟩
    · exact ⟨item :: before, other, after, rfl, List.forall_mem_cons.mpr ⟨here, earlier⟩, fails⟩

/-- Where the same is wrong with every item that is not good, it is wrong if some item is not. -/
theorem firstOf_fails_iff {wrong : Prop} {items : List β} :
    FirstOf good (fun _ item => ¬ good item ∧ wrong) items ↔
      (∃ item ∈ items, ¬ good item) ∧ wrong := by
  induction items with
  | nil => simp [not_firstOf_nil]
  | cons item rest ih =>
    rw [firstOf_cons, ih]
    by_cases here : good item
    · simp [here]
    · simp [here]

end

theorem sameKey_text_iff {key : Value} {name : String} :
    key.sameKey (.text name) ↔ key = .text name := by
  cases key with
  | float value => cases h : value.toInt? <;> simp [Value.sameKey, Value.wholeNumber?, h]
  | _ => simp [Value.sameKey, Value.wholeNumber?]

section
variable {name : String} {key node : Value} {rest : Fields}

theorem field_nil : field name [] = .null := rfl

theorem field_of_sameKey (same : key.sameKey (.text name)) :
    field name ((key, node) :: rest) = node := by
  simp [field, Value.field?, same]

theorem field_of_not_sameKey (other : ¬ key.sameKey (.text name)) :
    field name ((key, node) :: rest) = field name rest := by
  simp [field, Value.field?, other]

end

theorem hasField_iff {name : String} {fields : Fields} : hasField name fields ↔ Has name fields := by
  simp [hasField, Value.field?, sameKey_text_iff, Has]

theorem declaredType?_eq_some_iff {fields : Fields} {type : String} :
    declaredType? fields = some type ↔ Declares fields type := by
  unfold declaredType?
  constructor
  · intro declared
    split at declared
    · next text states =>
      cases declared
      exact .text states
    · next types states =>
      obtain ⟨before, value, after, rfl, found, earlier⟩ := List.findSome?_eq_some_iff.mp declared
      split at found
      · next text =>
        split at found
        · cases found
        · next proper =>
          cases found
          exact .list states proper fun text listed => by simpa using earlier _ listed
      · cases found
    · cases declared
  · intro declares
    cases declares with
    | text states => simp [states]
    | @list before after type states proper earlier =>
      simp only [states]
      refine List.findSome?_eq_some_iff.mpr ⟨before, _, after, rfl, by simp [proper], ?_⟩
      intro value listed
      split
      · next text => simp [earlier text listed]
      · rfl

theorem declaredType?_eq_none_iff {fields : Fields} :
    declaredType? fields = none ↔ Untyped fields := by
  unfold Untyped
  simp only [← declaredType?_eq_some_iff]
  cases declaredType? fields <;> simp

theorem ofName?_eq_some_iff {type : String} {kind : Kind} :
    Kind.ofName? type = some kind ↔ kind.name = type := by
  constructor
  · intro found
    simpa using List.find?_some found
  · rintro rfl
    exact Kind.ofName?_name kind

theorem ofName?_eq_none_iff {type : String} :
    Kind.ofName? type = none ↔ ∀ kind : Kind, kind.name ≠ type := by
  simp [Kind.ofName?, Kind.mem_all]

theorem composes_iff {fields : Fields} :
    ["oneOf", "anyOf", "allOf"].any (hasField · fields) ↔ Composes fields := by
  simp only [List.any_eq_true, hasField_iff, Composes]

theorem kindOf_eq_array_iff {fields : Fields} : kindOf fields = .ok .array ↔ IsArray fields := by
  unfold kindOf IsArray
  split
  · next composes => simp [composes_iff.mp composes]
  · next alone =>
    rw [composes_iff] at alone
    cases declared : declaredType? fields with
    | some type =>
      have declares := declaredType?_eq_some_iff.mp declared
      have typed : ¬ Untyped fields := fun untyped => untyped type declares
      have only : Declares fields "array" ↔ Kind.ofName? type = some .array := by
        rw [← declaredType?_eq_some_iff, declared, ofName?_eq_some_iff]
        simp [Kind.name, eq_comm]
      simp only [alone, not_false_eq_true, true_and, typed, false_and, or_false, only]
      cases Kind.ofName? type <;> simp
    | none =>
      have untyped := declaredType?_eq_none_iff.mp declared
      simp only [alone, not_false_eq_true, true_and, untyped, untyped "array", false_or,
        ← hasField_iff]
      by_cases properties : hasField "properties" fields
      · simp [properties]
      · by_cases items : hasField "items" fields
        · simp [properties, items]
        · by_cases enumeration : hasField "enum" fields <;> simp [properties, items, enumeration]

/-- A list is the list of its elements, and null has none. -/
theorem sequence_cases (value : Value) (location : String) :
    IsSequence value ∧ sequence value location = .ok (elements value) ∨
      ¬ IsSequence value ∧ sequence value location = .error (.notList location) := by
  by_cases null : value = .null
  · subst null
    exact .inl ⟨.inl rfl, rfl⟩
  · rw [elements]
    cases items : value.sequence? with
    | some list =>
      refine .inl ⟨.inr ⟨list, items⟩, ?_⟩
      unfold sequence
      split
      · contradiction
      · rw [items]
        rfl
    | none =>
      refine .inr ⟨?_, ?_⟩
      · rintro (same | ⟨other, found⟩)
        · exact null same
        · simp [items] at found
      · unfold sequence
        split
        · contradiction
        · rw [items]

theorem eq_elements_of_sequence {value : Value} {location : String} {items : List Value}
    (read : sequence value location = .ok items) : items = elements value := by
  rcases sequence_cases value location with ⟨-, same⟩ | ⟨-, same⟩
  · rw [same, Except.ok.injEq] at read
    exact read.symm
  · rw [same] at read
    cases read

/-- What an entry of a mapping of schemas does wrong first: its name cannot be told, or its value
states none. -/
def EntryFault (told : Value → Bool) (location : Value → String) (entry : Value × Value)
    (breach : Breach) : Prop :=
  ¬ told entry.1 ∧ breach = .untold ∨ told entry.1 ∧
    FirstFault told entry.2 (location entry.1) breach

section
variable {told : Value → Bool} {fields : Fields} {location : String} {breach : Breach}

theorem fails_items_iff : Fails told fields location .items breach ↔
    IsArray fields ∧ field "items" fields ≠ .null ∧
      FirstFault told (field "items" fields) (location ++ ".items") breach := by
  constructor
  · intro fails
    cases fails with
    | items array there inner => exact ⟨array, there, inner⟩
  · intro ⟨array, there, inner⟩
    exact .items array there inner

theorem fails_details_iff : Fails told fields location .details breach ↔
    (∃ name ∈ singleTexts, ¬ told (field name fields)) ∧ breach = .untold := by
  constructor
  · intro fails
    cases fails with
    | details asked other => exact ⟨⟨_, asked, other⟩, rfl⟩
  · intro ⟨⟨name, asked, other⟩, same⟩
    subst same
    exact .details asked other

theorem fails_members_iff : Fails told fields location .members breach ↔
    ¬ IsSequence (field "enum" fields) ∧
      breach = .rule (location ++ ".enum" ++ " must be a list.") := by
  constructor
  · intro fails
    cases fails with
    | members other => exact ⟨other, rfl⟩
  · intro ⟨other, same⟩
    subst same
    exact .members other

theorem fails_properties_iff : Fails told fields location .properties breach ↔
    ¬ IsMapping (field "properties" fields) ∧
        breach = .rule ("Schema " ++ location ++ " properties must be a mapping.") ∨
      FirstOf (NamesSchema told)
        (fun _ entry => EntryFault told (fun key => location ++ "." ++ key.display) entry breach)
        (entries (field "properties" fields)) := by
  constructor
  · intro fails
    cases fails with
    | properties other => exact .inl ⟨other, rfl⟩
    | propertyName split earlier other => exact .inr ⟨_, _, _, split, earlier, .inl ⟨other, rfl⟩⟩
    | property split earlier named inner =>
      exact .inr ⟨_, _, _, split, earlier, .inr ⟨named, inner⟩⟩
  · rintro (⟨other, rfl⟩ | ⟨before, entry, after, split, earlier, ⟨other, rfl⟩ | ⟨named, inner⟩⟩)
    · exact .properties other
    · exact .propertyName split earlier other
    · exact .property split earlier named inner

theorem fails_oneOf_iff : Fails told fields location .oneOf breach ↔
    ¬ IsSequence (field "oneOf" fields) ∧
        breach = .rule (location ++ ".oneOf" ++ " must be a list.") ∨
      IsSequence (field "oneOf" fields) ∧ FirstOf (WellFormed told)
        (fun count node =>
          FirstFault told node (location ++ ".oneOf[" ++ toString count ++ "]") breach)
        (elements (field "oneOf" fields)) := by
  constructor
  · intro fails
    cases fails with
    | oneOf other => exact .inl ⟨other, rfl⟩
    | alternative list split earlier inner => exact .inr ⟨list, _, _, _, split, earlier, inner⟩
  · rintro (⟨other, rfl⟩ | ⟨list, before, node, after, split, earlier, inner⟩)
    · exact .oneOf other
    · exact .alternative list split earlier inner

theorem fails_required_iff : Fails told fields location .required breach ↔
    ¬ IsSequence (field "required" fields) ∧ breach = .rule (location ++ " must be a list.") ∨
      IsSequence (field "required" fields) ∧
        (∃ name ∈ elements (field "required" fields), ¬ told name) ∧ breach = .untold := by
  constructor
  · intro fails
    cases fails with
    | required other => exact .inl ⟨other, rfl⟩
    | requiredName list asked other => exact .inr ⟨list, ⟨_, asked, other⟩, rfl⟩
  · rintro (⟨other, rfl⟩ | ⟨list, ⟨name, asked, other⟩, rfl⟩)
    · exact .required other
    · exact .requiredName list asked other

/-- A schema that is no reference is well formed if it passes every check. -/
theorem wellFormed_iff (plain : field "$ref" fields = .null) :
    WellFormed told (.map fields) ↔ ∀ check ∈ Check.all, Passes told fields check := by
  constructor
  · intro wellFormed check _
    cases wellFormed with
    | reference states => simp [plain] at states
    | schema _ typed items details members mapping names properties list oneOf required
        requiredNames =>
      cases check with
      | type => exact typed
      | items => exact items
      | details => exact details
      | members => exact members
      | properties => exact ⟨mapping, fun entry listed => ⟨names entry listed, properties entry listed⟩⟩
      | oneOf => exact ⟨list, oneOf⟩
      | required => exact ⟨required, requiredNames⟩
  · intro passes
    obtain ⟨typed, items, details, members, ⟨mapping, properties⟩, ⟨list, oneOf⟩, required,
        requiredNames⟩ := by
      simpa only [Check.all, List.forall_mem_cons, List.not_mem_nil, false_imp_iff, implies_true,
        and_true] using passes
    exact .schema plain typed items details members mapping
      (fun entry listed => (properties entry listed).1)
      (fun entry listed => (properties entry listed).2) list oneOf required requiredNames

/-- And what it does wrong first is what the first check that it fails says. -/
theorem firstFault_iff (plain : field "$ref" fields = .null) :
    FirstFault told (.map fields) location breach ↔ FirstOf (Passes told fields)
      (fun _ check => Fails told fields location check breach) Check.all := by
  constructor
  · intro fault
    cases fault with
    | notMapping other => exact absurd rfl (other fields)
    | reference there => exact absurd plain there
    | check _ order earlier fails => exact ⟨_, _, _, order, earlier, fails⟩
  · intro ⟨before, check, after, order, earlier, fails⟩
    exact .check plain order earlier fails

end

end Document
end SchemaTables
