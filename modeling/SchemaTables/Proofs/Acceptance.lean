import SchemaTables.Proofs.Grammar

/-!
# Reading accepts the grammar

Every part of the reader is judged by the grammar, where the values that are told are those that can
be written: its outcome is a value exactly where what it reads is well formed, and a fault that says
what is done wrong first otherwise.
-/
namespace SchemaTables.Document
open Value (field)

/-- An outcome that is a value where `good` holds, and otherwise a fault whose breach is `bad`. -/
structure Judged {β : Type} (outcome : Except DocumentFault β) (good : Prop)
    (bad : Breach → Prop) : Prop where
  accepts : (∃ value, outcome = .ok value) ↔ good
  raises : ∀ breach, (∃ fault, outcome = .error fault ∧ fault.breach = breach) ↔ bad breach

namespace Judged
variable {β γ : Type} {good good' : Prop} {bad bad' : Breach → Prop}

theorem ok {value : β} (holds : good) (never : ∀ breach, ¬ bad breach) :
    Judged (.ok value) good bad where
  accepts := by simp [holds]
  raises breach := by simp [never breach]

theorem error {fault : DocumentFault} (fails : ¬ good)
    (only : ∀ breach, bad breach ↔ fault.breach = breach) :
    Judged (.error fault : Except DocumentFault β) good bad where
  accepts := by simp [fails]
  raises breach := by simp [only breach]

theorem congr {outcome : Except DocumentFault β} (judged : Judged outcome good bad)
    (same : good ↔ good') (alike : ∀ breach, bad breach ↔ bad' breach) :
    Judged outcome good' bad' where
  accepts := judged.accepts.trans same
  raises breach := (judged.raises breach).trans (alike breach)

/-- What comes second is judged only where the first is good. -/
theorem bind {first : Except DocumentFault β} {next : β → Except DocumentFault γ}
    (judged : Judged first good bad)
    (later : ∀ value, first = .ok value → Judged (next value) good' bad') :
    Judged (first >>= next) (good ∧ good') fun breach => bad breach ∨ good ∧ bad' breach := by
  obtain ⟨accepts, raises⟩ := judged
  cases first with
  | error fault =>
    have fails : ¬ good := by simpa using accepts
    refine error (by simp [fails]) fun breach => ?_
    rw [← raises breach]
    simp [fails]
  | ok value =>
    have holds : good := accepts.mp ⟨value, rfl⟩
    have never : ∀ breach, ¬ bad breach := by simpa using raises
    exact (later value rfl).congr (by simp [holds]) (by simp [holds, never])

theorem map {outcome : Except DocumentFault β} (f : β → γ) (judged : Judged outcome good bad) :
    Judged (outcome.map f) good bad := by
  obtain ⟨accepts, raises⟩ := judged
  cases outcome with
  | error fault => exact ⟨by simpa [Except.map] using accepts, by simpa [Except.map] using raises⟩
  | ok value => exact ⟨by simpa [Except.map] using accepts, by simpa [Except.map] using raises⟩

theorem bind_pure {outcome : Except DocumentFault β} (f : β → γ) (judged : Judged outcome good bad) :
    Judged (outcome >>= fun value => pure (f value)) good bad := by
  cases outcome with
  | error fault => exact judged.map f
  | ok value => exact judged.map f

/-- Items are judged one after the other, each where those before it are good. -/
theorem cons {α : Type} {good : α → Prop} {bad : Nat → α → Breach → Prop} {item : α} {rest : List α}
    {first : Except DocumentFault β} {next : β → Except DocumentFault γ}
    (judged : Judged first (good item) (bad 0 item))
    (later : ∀ value, first = .ok value → Judged (next value) (∀ other ∈ rest, good other)
      fun breach => FirstOf good (fun count other => bad (count + 1) other breach) rest) :
    Judged (first >>= next) (∀ other ∈ item :: rest, good other)
      fun breach => FirstOf good (fun count other => bad count other breach) (item :: rest) := by
  refine (judged.bind later).congr ?_ fun breach => ?_
  · exact List.forall_mem_cons.symm
  · rw [firstOf_cons]

theorem nil {α : Type} {good : α → Prop} {bad : Nat → α → Breach → Prop} {value : β} :
    Judged (.ok value) (∀ other ∈ [], good other)
      fun breach => FirstOf good (fun count other => bad count other breach) [] :=
  ok (by simp) fun _ => not_firstOf_nil

end Judged

theorem judged_text (value : Value) :
    Judged (text value) value.isTold fun breach => ¬ value.isTold ∧ breach = .untold := by
  unfold text
  split
  · next told => exact .ok told fun breach bad => bad.1 told
  · next other => exact .error other fun breach => ⟨fun bad => bad.2.symm, fun same => ⟨other, same.symm⟩⟩

/-- Texts are asked for one after the other, but what is wrong with them is always the same. -/
theorem judged_texts (values : List Value) :
    Judged (texts values) (∀ value ∈ values, value.isTold) fun breach =>
      (∃ value ∈ values, ¬ value.isTold) ∧ breach = .untold := by
  have inOrder : Judged (texts values) (∀ value ∈ values, value.isTold) fun breach =>
      FirstOf (·.isTold) (fun _ value => ¬ value.isTold ∧ breach = .untold) values := by
    induction values with
    | nil => exact .nil
    | cons value rest ih => exact (judged_text value).cons fun _ _ => ih.bind_pure _
  exact inOrder.congr Iff.rfl fun breach => firstOf_fails_iff

theorem judged_fieldText (name : String) (fields : Fields) :
    Judged (fieldText name fields) (field name fields).isTold fun breach =>
      ¬ (field name fields).isTold ∧ breach = .untold := by
  unfold fieldText
  split
  · next absent =>
    rw [absent]
    exact .ok rfl fun breach bad => bad.1 rfl
  · exact (judged_text _).map some

theorem judged_kindOf (fields : Fields) (location : String) :
    Judged (kindOf fields) (Typed fields) (Fails Value.isTold fields location .type) := by
  unfold kindOf
  split
  · next composes =>
    have composes := composes_iff.mp composes
    refine .ok (.inl composes) ?_
    rintro _ ⟨alone⟩
    exact alone composes
  · next alone =>
    rw [composes_iff] at alone
    cases declared : declaredType? fields with
    | none =>
      have untyped := declaredType?_eq_none_iff.mp declared
      have never : ∀ breach, ¬ Fails Value.isTold fields location .type breach := by
        rintro _ ⟨-, declares⟩
        exact untyped _ declares
      have typed : Typed fields := .inr (.inl untyped)
      dsimp only
      split
      · exact .ok typed never
      · split
        · exact .ok typed never
        · split
          · exact .ok typed never
          · exact .ok typed never
    | some type =>
      have declares := declaredType?_eq_some_iff.mp declared
      have only : ∀ other, Declares fields other ↔ other = type := by
        intro other
        rw [← declaredType?_eq_some_iff, declared, Option.some.injEq, eq_comm]
      dsimp only
      cases known : Kind.ofName? type with
      | some kind =>
        have known := ofName?_eq_some_iff.mp known
        refine .ok (.inr (.inr ⟨kind, (only _).mpr known⟩)) ?_
        rintro _ ⟨-, declares, unknown⟩
        exact unknown kind (known.trans ((only _).mp declares).symm)
      | none =>
        have unknown := ofName?_eq_none_iff.mp known
        refine .error ?_ fun message => ?_
        · rintro (composes | untyped | ⟨kind, declares⟩)
          · exact alone composes
          · exact untyped type declares
          · exact unknown kind ((only _).mp declares)
        · constructor
          · rintro ⟨-, declares, -⟩
            rw [(only _).mp declares]
            rfl
          · rintro rfl
            exact .type alone declares unknown

/-- Whether a value is a list is judged before its elements are. -/
theorem judged_sequence (value : Value) (location : String) :
    Judged (sequence value location) (IsSequence value) fun breach =>
      ¬ IsSequence value ∧ breach = .rule (location ++ " must be a list.") := by
  rcases sequence_cases value location with ⟨list, read⟩ | ⟨other, read⟩
  · rw [read]
    exact .ok list fun message bad => absurd list bad.1
  · rw [read]
    exact .error other fun message => ⟨fun bad => bad.2.symm, fun same => ⟨other, same.symm⟩⟩

section
variable {fields : Fields} {location : String}

/-- The items of an array are read. -/
theorem judged_items_of_array (array : IsArray fields)
    (judged : Judged (readItems fields location)
      (field "items" fields ≠ .null → WellFormed Value.isTold (field "items" fields)) fun breach =>
        field "items" fields ≠ .null ∧
          FirstFault Value.isTold (field "items" fields) (location ++ ".items") breach) :
    Judged (readItems fields location) (Passes Value.isTold fields .items)
      (Fails Value.isTold fields location .items) := by
  refine judged.congr ?_ fun breach => ?_
  · exact ⟨fun holds _ => holds, fun holds => holds array⟩
  · rw [fails_items_iff, and_iff_right array]

/-- Items of anything else are not looked at. -/
theorem judged_items_of_not_array {β : Type} {value : β} (other : ¬ IsArray fields) :
    Judged (Except.ok value) (Passes Value.isTold fields .items)
      (Fails Value.isTold fields location .items) :=
  .ok (fun array => absurd array other) fun _ fails => other (fails_items_iff.mp fails).1

theorem judged_details : Judged (details fields) (Passes Value.isTold fields .details)
    (Fails Value.isTold fields location .details) := by
  have inOrder : Judged (details fields) (Passes Value.isTold fields .details) fun breach =>
      FirstOf (fun name => (field name fields).isTold)
        (fun _ name => ¬ (field name fields).isTold ∧ breach = .untold) singleTexts :=
    (judged_fieldText "$id" fields).cons fun _ _ => (judged_fieldText "title" fields).cons
      fun _ _ => (judged_fieldText "description" fields).cons fun _ _ => .nil
  exact inOrder.congr Iff.rfl fun breach => firstOf_fails_iff.trans fails_details_iff.symm

theorem judged_members : Judged (sequence (field "enum" fields) (location ++ ".enum"))
    (Passes Value.isTold fields .members) (Fails Value.isTold fields location .members) :=
  (judged_sequence _ _).congr Iff.rfl fun _ => fails_members_iff.symm

theorem judged_required : Judged (required fields location)
    (Passes Value.isTold fields .required) (Fails Value.isTold fields location .required) := by
  have later : ∀ names, sequence (field "required" fields) location = .ok names →
      Judged (texts names) (∀ name ∈ elements (field "required" fields), name.isTold) fun breach =>
        (∃ name ∈ elements (field "required" fields), ¬ name.isTold) ∧ breach = .untold := by
    intro names read
    rw [eq_elements_of_sequence read]
    exact judged_texts _
  exact ((judged_sequence _ _).bind later).congr Iff.rfl fun _ => fails_required_iff.symm

/-- What is read after the items of a schema does not depend on them. -/
theorem judged_rest (properties : Judged (readProperties fields location)
      (Passes Value.isTold fields .properties) (Fails Value.isTold fields location .properties))
    (oneOf : Judged (readOneOf fields location) (Passes Value.isTold fields .oneOf)
      (Fails Value.isTold fields location .oneOf)) (kind : Kind) (items : Option Definition) :
    Judged (do
        let details ← details fields
        let members ← sequence (field "enum" fields) (location ++ ".enum")
        let properties ← readProperties fields location
        let oneOf ← readOneOf fields location
        let required ← required fields location
        return Definition.schema kind { details with members, required } items
          (Keyed.distinct properties) oneOf)
      (∀ check ∈ [.details, .members, .properties, .oneOf, .required],
        Passes Value.isTold fields check) fun breach =>
        FirstOf (Passes Value.isTold fields)
          (fun _ check => Fails Value.isTold fields location check breach)
          [.details, .members, .properties, .oneOf, .required] :=
  judged_details.cons fun _ _ => judged_members.cons fun _ _ => properties.cons fun _ _ =>
    oneOf.cons fun _ _ => judged_required.cons fun _ _ => .nil

end

theorem judged_of_not_map {node : Value} {location : String} (other : ∀ fields, node ≠ .map fields)
    (read : readSchema node location = .error (.schemaNotMapping location)) :
    Judged (readSchema node location) (WellFormed Value.isTold node)
      (FirstFault Value.isTold node location) := by
  rw [read]
  refine .error ?_ fun breach => ?_
  · rintro (states | plain)
    · exact other _ rfl
    · exact other _ rfl
  · constructor
    · rintro (_ | there | plain)
      · rfl
      · exact absurd rfl (other _)
      · exact absurd rfl (other _)
    · rintro rfl
      exact .notMapping other

section
variable {fields : Fields} {location : String} {value : Value}

/-- Properties are judged as the mapping that the schema states. -/
theorem judged_properties {outcome : Except DocumentFault (List (String × Definition))}
    (states : field "properties" fields = value) (mapping : IsMapping value)
    (inner : Judged outcome (∀ entry ∈ entries value, NamesSchema Value.isTold entry) fun breach =>
      FirstOf (NamesSchema Value.isTold)
        (fun _ entry => EntryFault Value.isTold (fun key => location ++ "." ++ key.display) entry breach)
        (entries value)) :
    Judged outcome (Passes Value.isTold fields .properties)
      (Fails Value.isTold fields location .properties) := by
  refine inner.congr ?_ fun breach => ?_
  · simp only [Passes, states, mapping, true_and]
  · simp only [fails_properties_iff, states, mapping, not_true_eq_false, false_and, false_or]

/-- Alternatives are judged as the list that the schema states. -/
theorem judged_oneOf {outcome : Except DocumentFault (List Definition)}
    (states : field "oneOf" fields = value) (list : IsSequence value)
    (inner : Judged outcome (∀ node ∈ elements value, WellFormed Value.isTold node) fun breach =>
      FirstOf (WellFormed Value.isTold) (fun count node =>
        FirstFault Value.isTold node (location ++ ".oneOf[" ++ toString (0 + count) ++ "]") breach)
        (elements value)) :
    Judged outcome (Passes Value.isTold fields .oneOf) (Fails Value.isTold fields location .oneOf) := by
  refine inner.congr ?_ fun breach => ?_
  · simp only [Passes, states, list, true_and]
  · simp only [fails_oneOf_iff, states, list, not_true_eq_false, false_and, false_or, true_and,
      Nat.zero_add]

theorem judged_properties_of_other {β : Type} (states : field "properties" fields = value)
    (other : ¬ IsMapping value) :
    Judged (.error (.propertiesNotMapping location) : Except DocumentFault β)
      (Passes Value.isTold fields .properties) (Fails Value.isTold fields location .properties) := by
  have none : entries value = [] := by
    cases value with
    | map fields => exact absurd (.inr ⟨fields, rfl⟩) other
    | _ => rfl
  refine .error (fun passes => other (states ▸ passes.1)) fun breach => ?_
  rw [fails_properties_iff, states, none]
  constructor
  · rintro (⟨-, rfl⟩ | nothing)
    · rfl
    · exact absurd nothing not_firstOf_nil
  · rintro rfl
    exact .inl ⟨other, rfl⟩

theorem judged_oneOf_of_other {β : Type} (states : field "oneOf" fields = value)
    (other : ¬ IsSequence value) :
    Judged (.error (.notList (location ++ ".oneOf")) : Except DocumentFault β)
      (Passes Value.isTold fields .oneOf) (Fails Value.isTold fields location .oneOf) := by
  refine .error (fun passes => other (states ▸ passes.1)) fun breach => ?_
  rw [fails_oneOf_iff, states]
  constructor
  · rintro (⟨-, rfl⟩ | ⟨list, -⟩)
    · rfl
    · exact absurd list other
  · rintro rfl
    exact .inl ⟨other, rfl⟩

/-- An entry is judged by its name, and where the name can be told by the schema it names. -/
theorem judged_entry {γ : Type} {key node : Value} {rest : Fields} {place : Value → String}
    {first : String → Except DocumentFault Definition}
    {next : String → Definition → Except DocumentFault γ}
    (judged : Judged (first key.display) (WellFormed Value.isTold node)
      (FirstFault Value.isTold node (place key)))
    (later : ∀ schema, Judged (next key.display schema)
      (∀ entry ∈ rest, NamesSchema Value.isTold entry) fun breach =>
        FirstOf (NamesSchema Value.isTold)
          (fun _ entry => EntryFault Value.isTold place entry breach) rest) :
    Judged (text key >>= fun name => first name >>= next name)
      (∀ entry ∈ (key, node) :: rest, NamesSchema Value.isTold entry) fun breach =>
        FirstOf (NamesSchema Value.isTold)
          (fun _ entry => EntryFault Value.isTold place entry breach) ((key, node) :: rest) := by
  by_cases told : key.isTold
  · have named : text key = .ok key.display := if_pos told
    have entry : Judged (first key.display) (NamesSchema Value.isTold (key, node))
        (EntryFault Value.isTold place (key, node)) :=
      judged.congr (by simp [NamesSchema, told]) fun breach => by simp [EntryFault, told]
    rw [named]
    change Judged (first key.display >>= next key.display) _ _
    exact entry.cons fun schema _ => later schema
  · have unnamed : text key = .error .untold := if_neg told
    rw [unnamed]
    refine .error (by simp [NamesSchema, told]) fun breach => ?_
    rw [firstOf_cons]
    constructor
    · rintro ((⟨-, same⟩ | ⟨named, -⟩) | ⟨⟨named, -⟩, -⟩)
      · exact same.symm
      · exact absurd named told
      · exact absurd named told
    · intro same
      exact .inl (.inl ⟨told, same.symm⟩)

theorem first_location (location : String) :
    location ++ ".oneOf[" ++ toString (0 + 0) ++ "]" = location ++ ".oneOf[0]" := by
  rw [String.append_assoc, String.append_assoc]
  rfl

theorem second_location (location : String) :
    location ++ ".oneOf[" ++ toString (0 + (0 + 1)) ++ "]" = location ++ ".oneOf[1]" := by
  rw [String.append_assoc, String.append_assoc]
  rfl

end

mutual

theorem judged_readSchema : ∀ (node : Value) (location : String),
    Judged (readSchema node location) (WellFormed Value.isTold node)
      (FirstFault Value.isTold node location)
  | .map fields, location => by
    unfold readSchema
    split
    · next text states =>
      refine .ok (.reference states) fun breach fault => ?_
      cases fault with
      | notMapping other => exact other fields rfl
      | reference _ other => exact other text states
      | check plain => simp [plain] at states
    · next plain =>
      have items := judged_readItems fields location
      have rest := judged_rest (judged_readProperties fields location)
        (judged_readOneOf fields location)
      refine Judged.congr ?_ (wellFormed_iff plain).symm fun _ => (firstFault_iff plain).symm
      refine (judged_kindOf fields location).cons fun kind read => ?_
      have array : kind = .array ↔ IsArray fields := by
        rw [← kindOf_eq_array_iff, read, Except.ok.injEq]
      dsimp only
      split
      · next same =>
        exact (judged_items_of_array (array.mp same) items).cons fun items _ => rest kind items
      · next same =>
        have other := fun isArray => same (array.mpr isArray)
        exact (judged_items_of_not_array other).cons fun items _ => rest kind items
    · next noText there =>
      refine .error ?_ fun breach => ?_
      · rintro (states | plain)
        · exact noText _ states
        · exact there plain
      · constructor
        · rintro (other | _ | plain)
          · exact absurd rfl (other fields)
          · rfl
          · exact absurd plain there
        · rintro rfl
          exact .reference there noText
  | .null, location | .bool _, location | .int _, location | .float _, location
  | .text _, location | .date _, location | .moment _, location | .bytes _, location
  | .list _, location | .pair _ _, location | .set _, location =>
    judged_of_not_map nofun rfl

theorem judged_readItems : ∀ (fields : Fields) (location : String),
    Judged (readItems fields location)
      (field "items" fields ≠ .null → WellFormed Value.isTold (field "items" fields)) fun breach =>
        field "items" fields ≠ .null ∧
          FirstFault Value.isTold (field "items" fields) (location ++ ".items") breach
  | [], location => .ok (absurd rfl) fun _ fault => absurd rfl fault.1
  | (key, node) :: rest, location => by
    unfold readItems
    split
    · next same =>
      rw [field_of_sameKey same]
      split
      · exact .ok (absurd rfl) fun _ fault => absurd rfl fault.1
      · next there =>
        have there : node ≠ .null := there
        refine ((judged_readSchema node (location ++ ".items")).map some).congr ?_ fun breach => ?_
        · simp [there]
        · simp [there]
    · next other =>
      rw [field_of_not_sameKey other]
      exact judged_readItems rest location

theorem judged_readProperties : ∀ (fields : Fields) (location : String),
    Judged (readProperties fields location) (Passes Value.isTold fields .properties)
      (Fails Value.isTold fields location .properties)
  | [], _ => judged_properties field_nil (.inl rfl) .nil
  | (key, node) :: rest, location => by
    unfold readProperties
    split
    · next same =>
      have states : field "properties" ((key, node) :: rest) = node := field_of_sameKey same
      split
      · exact judged_properties states (.inl rfl) .nil
      · next entries =>
        exact judged_properties states (.inr ⟨entries, rfl⟩) (judged_readFields entries location)
      · next noNull noMap =>
        refine judged_properties_of_other states ?_
        rintro (null | ⟨entries, map⟩)
        · exact noNull null
        · exact noMap entries map
    · next other =>
      have states : field "properties" ((key, node) :: rest) = field "properties" rest :=
        field_of_not_sameKey other
      refine (judged_readProperties rest location).congr ?_ fun breach => ?_
      · simp only [Passes, states]
      · simp only [fails_properties_iff, states]

theorem judged_readFields : ∀ (fields : Fields) (location : String),
    Judged (readFields fields location) (∀ entry ∈ fields, NamesSchema Value.isTold entry) fun breach =>
      FirstOf (NamesSchema Value.isTold)
        (fun _ entry =>
          EntryFault Value.isTold (fun key => location ++ "." ++ key.display) entry breach) fields
  | [], _ => .nil
  | (key, node) :: rest, location => by
    unfold readFields
    exact judged_entry (judged_readSchema node _) fun _ => (judged_readFields rest location).bind_pure _

theorem judged_readOneOf : ∀ (fields : Fields) (location : String),
    Judged (readOneOf fields location) (Passes Value.isTold fields .oneOf)
      (Fails Value.isTold fields location .oneOf)
  | [], _ => judged_oneOf field_nil (.inl rfl) .nil
  | (key, node) :: rest, location => by
    unfold readOneOf
    split
    · next same =>
      have states : field "oneOf" ((key, node) :: rest) = node := field_of_sameKey same
      split
      · exact judged_oneOf states (.inl rfl) .nil
      · next nodes =>
        exact judged_oneOf states (.inr ⟨nodes, rfl⟩) (judged_readAlternatives nodes location 0)
      · next first second =>
        refine judged_oneOf states (.inr ⟨_, rfl⟩) ?_
        rw [← first_location, ← second_location]
        exact (judged_readSchema first _).cons fun _ _ => (judged_readSchema second _).cons
          fun _ _ => .nil
      · next bytes =>
        refine judged_oneOf states (.inr ⟨_, rfl⟩) ?_
        cases bytes with
        | nil => exact .nil
        | cons byte bytes =>
          -- the first byte, a number, is no schema
          rw [← first_location]
          change Judged (readSchema (.int byte.toNat) _ >>= fun _ => .ok [])
            (∀ node ∈ .int byte.toNat :: elements (.bytes bytes), WellFormed Value.isTold node)
            fun breach =>
              FirstOf _ _ (.int byte.toNat :: elements (.bytes bytes))
          have first : Judged (readSchema (.int byte.toNat)
              (location ++ ".oneOf[" ++ toString (0 + 0) ++ "]")) _ _ := judged_of_not_map nofun rfl
          exact first.cons fun _ read => nomatch read
      · next noNull noList noPair noBytes =>
        refine judged_oneOf_of_other states ?_
        rintro (null | ⟨items, list⟩)
        · exact noNull null
        · cases node with
          | list nodes => exact noList nodes rfl
          | pair first second => exact noPair first second rfl
          | bytes bytes => exact noBytes bytes rfl
          | _ => cases list
    · next other =>
      have states : field "oneOf" ((key, node) :: rest) = field "oneOf" rest :=
        field_of_not_sameKey other
      refine (judged_readOneOf rest location).congr ?_ fun breach => ?_
      · simp only [Passes, states]
      · simp only [fails_oneOf_iff, states]

theorem judged_readAlternatives : ∀ (nodes : List Value) (location : String) (index : Nat),
    Judged (readAlternatives nodes location index)
      (∀ node ∈ nodes, WellFormed Value.isTold node) fun breach =>
      FirstOf (WellFormed Value.isTold) (fun count node => FirstFault Value.isTold node
        (location ++ ".oneOf[" ++ toString (index + count) ++ "]") breach) nodes
  | [], _, _ => .nil
  | node :: rest, location, index => by
    unfold readAlternatives
    have later := judged_readAlternatives rest location (index + 1)
    simp only [Nat.add_right_comm index 1, Nat.add_assoc] at later
    exact (judged_readSchema node _).cons fun _ _ => later.bind_pure _

end

theorem judged_readNamed (named : Fields) :
    Judged (readNamed named) (∀ entry ∈ named, NamesSchema Value.isTold entry) fun breach =>
      FirstOf (NamesSchema Value.isTold)
        (fun _ entry => EntryFault Value.isTold Value.display entry breach) named := by
  induction named with
  | nil => exact .nil
  | cons entry rest ih =>
    obtain ⟨key, node⟩ := entry
    unfold readNamed
    exact judged_entry (judged_readSchema node _) fun _ => ih.bind_pure _

/-- What a mapping leads to is what its entries lead to, and anything empty counts as a mapping
without entries. -/
theorem judged_mapping {β : Type} (value : Value) (fault : DocumentFault)
    {next : Fields → Except DocumentFault β} {good : Fields → Prop} {bad : Fields → Breach → Prop}
    (later : ∀ fields, Judged (next fields) (good fields) (bad fields)) (empty : good [])
    (never : ∀ breach, ¬ bad [] breach) :
    Judged (mapping value fault >>= next)
      (value.isEmptyLike ∨ ∃ fields, value = .map fields ∧ good fields) fun breach =>
        ¬ value.isEmptyLike ∧ (∀ fields, value ≠ .map fields) ∧ fault.breach = breach ∨
          ∃ fields, value = .map fields ∧ bad fields breach := by
  unfold mapping
  split
  · next hollow =>
    refine .congr (later []) (by simp [empty, hollow]) fun breach => ?_
    constructor
    · exact fun fails => absurd fails (never breach)
    · rintro (⟨filled, -⟩ | ⟨fields, rfl, fails⟩)
      · exact absurd hollow filled
      · rwa [List.isEmpty_iff.mp hollow] at fails
  · next filled =>
    split
    · next fields => exact (later fields).congr (by simp [filled]) fun breach => by simp
    · next other =>
      have other : ∀ fields, value ≠ .map fields := other
      exact .error (by simp [filled, other]) fun breach => by simp [filled, other]

theorem judged_definitions (document : Fields) :
    Judged (definitions document) (Readable Value.isTold document)
      (FirstViolation Value.isTold document) := by
  have schemas (components : Fields) := judged_mapping (field "schemas" components)
    .schemasNotMapping (fun named => (judged_readNamed named).bind_pure Keyed.distinct) (by simp)
    fun _ => not_firstOf_nil
  have judged := judged_mapping (field "components" document) .componentsNotMapping schemas
    (.inl rfl) (by simp [field_nil, Value.isEmptyLike])
  refine judged.congr Iff.rfl fun breach => ?_
  constructor
  · rintro (⟨filled, other, rfl⟩ | ⟨components, holds, ⟨filled, other, rfl⟩ | ⟨named, lists, first⟩⟩)
    · exact .components filled other
    · exact .schemas holds filled other
    · obtain ⟨before, entry, after, split, earlier, ⟨other, rfl⟩ | ⟨telling, inner⟩⟩ := first
      · exact .name holds lists split earlier other
      · exact .schema holds lists split earlier telling inner
  · intro violation
    cases violation with
    | components filled other => exact .inl ⟨filled, other, rfl⟩
    | schemas holds filled other => exact .inr ⟨_, holds, .inl ⟨filled, other, rfl⟩⟩
    | name holds lists split earlier other =>
      exact .inr ⟨_, holds, .inr ⟨_, lists, _, _, _, split, earlier, .inl ⟨other, rfl⟩⟩⟩
    | schema holds lists split earlier telling inner =>
      exact .inr ⟨_, holds, .inr ⟨_, lists, _, _, _, split, earlier, .inr ⟨telling, inner⟩⟩⟩

/-- Reading accepts exactly the documents whose schemas are well formed and whose texts can be
written, and reports of any other what it does wrong first. -/
theorem definitions_first_violation (document : Fields) :
    ((∃ read, definitions document = .ok read) ↔ Readable Value.isTold document) ∧
    ∀ breach, (∃ fault, definitions document = .error fault ∧ fault.breach = breach) ↔
      FirstViolation Value.isTold document breach :=
  ⟨(judged_definitions document).accepts, (judged_definitions document).raises⟩

/-- The least number that is not written out. -/
def leastUntold : Value := .int (Double.tenTo Value.longestWritten)

theorem not_isTold_leastUntold : ¬ leastUntold.isTold := by
  rw [leastUntold, Value.isTold, Int.natAbs_natCast, decide_eq_true_eq]
  exact Nat.lt_irrefl _

/-- The rules alone do not tell what can be read: a schema that keeps them all may have a number of
more than 4300 digits for a title. -/
theorem not_everyWellFormed_read : ¬ ∀ document : Fields, Readable (fun _ => true) document →
    ∃ read, definitions document = .ok read := by
  let titled : Fields := [(.text "title", leastUntold)]
  let document : Fields := [(.text "components", .map [(.text "schemas",
    .map [(.text "A", .map titled)])])]
  have plain : field "$ref" titled = .null := rfl
  have untyped : Untyped titled := declaredType?_eq_none_iff.mp rfl
  have wellFormed : WellFormed (fun _ => true) (.map titled) := by
    refine (wellFormed_iff plain).mpr fun check _ => ?_
    cases check with
    | type => exact .inr (.inl untyped)
    | items => exact fun _ there => absurd rfl there
    | details => exact fun _ _ => rfl
    | members => exact .inl rfl
    | properties => exact ⟨.inl rfl, nofun⟩
    | oneOf => exact ⟨.inl rfl, nofun⟩
    | required => exact ⟨.inl rfl, nofun⟩
  have keeps : Readable (fun _ => true) document :=
    .inr ⟨_, rfl, .inr ⟨_, rfl, List.forall_mem_singleton.mpr ⟨rfl, wellFormed⟩⟩⟩
  have order : Check.all = [.type, .items] ++ .details :: [.members, .properties, .oneOf, .required] :=
    rfl
  have earlier : ∀ check ∈ [.type, .items], Passes Value.isTold titled check :=
    List.forall_mem_cons.mpr ⟨.inr (.inl untyped),
      List.forall_mem_singleton.mpr fun _ there => absurd rfl there⟩
  have other : ¬ (field "title" titled).isTold := not_isTold_leastUntold
  have asked : "title" ∈ singleTexts := by simp [singleTexts]
  have violation : FirstViolation Value.isTold document .untold :=
    .schema rfl rfl (List.nil_append _).symm nofun rfl (.check plain order earlier (.details asked other))
  intro reads
  obtain ⟨read, readable⟩ := reads document keeps
  obtain ⟨fault, raised, -⟩ := ((judged_definitions document).raises .untold).mpr violation
  simp [readable] at raised

end SchemaTables.Document
