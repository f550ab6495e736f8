import SchemaTables.Schema.Linking

/-!
# Resolution without descriptions

Descriptions can be taken off a document before it is resolved, or off the graph that it resolves to:
building, titling, linking and settling each carry them along without looking at one.
-/
namespace SchemaTables

def Head.undescribed (head : Head) : Head := { head with description := none }

def Details.undescribed (details : Details) : Details := { details with description := none }

namespace Definition

mutual

/-- The definition without its description and those of its parts, at any depth. -/
def undescribed : Definition → Definition
  | reference text => reference text
  | schema kind details items properties oneOf =>
    schema kind details.undescribed (undescribedItems items) (undescribedProperties properties)
      (undescribedOneOf oneOf)

def undescribedItems : Option Definition → Option Definition
  | none => none
  | some child => some (undescribed child)

def undescribedProperties : List (String × Definition) → List (String × Definition)
  | [] => []
  | (name, child) :: rest => (name, undescribed child) :: undescribedProperties rest

def undescribedOneOf : List Definition → List Definition
  | [] => []
  | child :: rest => undescribed child :: undescribedOneOf rest

end

end Definition

/-- The document without descriptions. A property may be named like that and stays. -/
def Definitions.undescribed (definitions : Definitions) : Definitions :=
  definitions.map fun named => (named.1, named.2.undescribed)

namespace Entry

mutual

def undescribed : Entry → Entry
  | reference text => reference text
  | target name => target name
  | scalar site head kind => scalar site head.undescribed kind
  | array site head items => array site head.undescribed (undescribedItems items)
  | object site head properties => object site head.undescribed (undescribedFields properties)
  | composed site head alternatives =>
    composed site head.undescribed (undescribedAlternatives alternatives)

def undescribedItems : Option Entry → Option Entry
  | none => none
  | some entry => some (undescribed entry)

def undescribedFields : List (String × Entry) → List (String × Entry)
  | [] => []
  | (name, entry) :: rest => (name, undescribed entry) :: undescribedFields rest

def undescribedAlternatives : List Entry → List Entry
  | [] => []
  | entry :: rest => undescribed entry :: undescribedAlternatives rest

end

end Entry

def Registry.undescribed (registry : Registry) : Registry := Entry.undescribedFields registry

def Node.undescribed {α : Type} (node : Node α) : Node α := { node with head := node.head.undescribed }

def Catalog.undescribed {α : Type} (catalog : Catalog α) : Catalog α :=
  { catalog with nodes := catalog.nodes.map fun entry => (entry.1, entry.2.undescribed) }

namespace Head

theorem titledByName_undescribed (name : String) (head : Head) :
    head.undescribed.titledByName name = (head.titledByName name).undescribed := by
  by_cases titled : head.isTitled
  · have titled' : head.undescribed.isTitled := titled
    rw [titledByName, titledByName, if_pos titled, if_pos titled']
  · have titled' : ¬ head.undescribed.isTitled := titled
    rw [titledByName, titledByName, if_neg titled, if_neg titled']
    rfl

theorem titledScalar_undescribed (name : String) (kind : ScalarKind) (head : Head) :
    head.undescribed.titledScalar name kind = (head.titledScalar name kind).undescribed := by
  cases kind with
  | string =>
    by_cases none : head.members.isEmpty
    · simp [titledScalar, undescribed, none]
    · simp [titledScalar, undescribed, none]
  | boolean => rfl
  | integer => exact head.titledByName_undescribed name
  | number => exact head.titledByName_undescribed name

end Head

namespace Definition

theorem idOr_undescribed (path : String) (d : Definition) : d.undescribed.idOr path = d.idOr path := by
  cases d <;> rfl

mutual

theorem build_undescribed (place : Place) (id : String) : (d : Definition) →
    d.undescribed.build place id = (d.build place id).undescribed
  | reference text => rfl
  | schema kind details items properties oneOf => by
    cases kind with
    | scalar kind => rfl
    | array =>
      simp only [undescribed, build, Entry.undescribed, buildItems_undescribed place id items]
      rfl
    | object =>
      simp only [undescribed, build, Entry.undescribed,
        buildProperties_undescribed place id properties]
      rfl
    | composed =>
      simp only [undescribed, build, Entry.undescribed,
        buildAlternatives_undescribed place id 0 oneOf]
      rfl

theorem buildItems_undescribed (place : Place) (id : String) : (items : Option Definition) →
    buildItems place id (undescribedItems items) =
      Entry.undescribedItems (buildItems place id items)
  | none => rfl
  | some child => by
    simp only [undescribedItems, buildItems, idOr_undescribed, Entry.undescribedItems,
      build_undescribed _ _ child]

theorem buildProperties_undescribed (place : Place) (id : String) :
    (properties : List (String × Definition)) →
    buildProperties place id (undescribedProperties properties) =
      Entry.undescribedFields (buildProperties place id properties)
  | [] => rfl
  | (name, child) :: rest => by
    simp only [undescribedProperties, buildProperties, idOr_undescribed, Entry.undescribedFields,
      build_undescribed _ _ child, buildProperties_undescribed place id rest]

theorem buildAlternatives_undescribed (place : Place) (id : String) (index : Nat) :
    (oneOf : List Definition) →
    buildAlternatives place id index (undescribedOneOf oneOf) =
      Entry.undescribedAlternatives (buildAlternatives place id index oneOf)
  | [] => rfl
  | child :: rest => by
    simp only [undescribedOneOf, buildAlternatives, idOr_undescribed,
      Entry.undescribedAlternatives, build_undescribed _ _ child,
      buildAlternatives_undescribed place id (index + 1) rest]

end

end Definition

namespace Entry

theorem undescribedFields_eq (fields : List (String × Entry)) :
    undescribedFields fields = fields.map fun field => (field.1, field.2.undescribed) := by
  induction fields with
  | nil => rfl
  | cons field rest ih => rw [undescribedFields, ih, List.map_cons]

theorem undescribedAlternatives_eq (entries : List Entry) :
    undescribedAlternatives entries = entries.map undescribed := by
  induction entries with
  | nil => rfl
  | cons entry rest ih => rw [undescribedAlternatives, ih, List.map_cons]

theorem titled_undescribed (name : String) (entry : Entry) :
    entry.undescribed.titled name = (entry.titled name).undescribed := by
  cases entry with
  | reference | target => rfl
  | scalar site head kind => simp only [undescribed, titled, head.titledScalar_undescribed]
  | array site head | object site head | composed site head =>
    simp only [undescribed, titled, head.titledByName_undescribed]

theorem isReference_undescribed (entry : Entry) :
    entry.undescribed.isReference = entry.isReference := by
  cases entry <;> rfl

theorem slot_undescribed (entry : Entry) : entry.undescribed.slot = entry.slot := by
  cases entry <;> rfl

end Entry

namespace Registry

theorem undescribed_eq (registry : Registry) :
    registry.undescribed = registry.map fun entry => (entry.1, entry.2.undescribed) :=
  Entry.undescribedFields_eq registry

theorem lookup_undescribed (registry : Registry) (name : String) :
    registry.undescribed.lookup name = (registry.lookup name).map Entry.undescribed := by
  rw [undescribed_eq, Keyed.lookup_map]

theorem length_undescribed (registry : Registry) :
    registry.undescribed.length = registry.length := by
  rw [undescribed_eq, List.length_map]

end Registry

namespace Reference

theorem follow_undescribed (registry : Registry) (start : String) (steps : Nat)
    (current : String) :
    follow registry.undescribed start steps current = follow registry start steps current := by
  induction steps generalizing current with
  | zero => rfl
  | succ steps ih =>
    rw [follow, follow]
    cases name? current with
    | none => rfl
    | some name =>
      simp only [Registry.lookup_undescribed]
      cases registry.lookup name with
      | none => rfl
      | some entry =>
        cases entry with
        | reference next => exact ih next
        | target | scalar | array | object | composed => rfl

/-- What a reference leads to does not depend on descriptions. -/
theorem resolve_undescribed (registry : Registry) (text : String) :
    resolve registry.undescribed text = resolve registry text := by
  rw [resolve, resolve, registry.length_undescribed, follow_undescribed]

end Reference

namespace Entry
variable (registry : Registry)

theorem link_undescribed (entry : Entry) :
    entry.undescribed.link registry.undescribed = (entry.link registry).undescribed := by
  cases entry with
  | reference text =>
    simp only [undescribed, link, Reference.resolve_undescribed]
    cases Reference.resolve registry text <;> rfl
  | target | scalar | array | object | composed => rfl

theorem check_undescribed (text : String) : check registry.undescribed text = check registry text := by
  rw [check, check, Reference.resolve_undescribed]

variable {registry}

/-- Slots are closed alike where the way to close them is. -/
theorem close_map {β : Type} {erase : β → β} {broken whole broken' whole' : β → Entry}
    (parts : Visit β) (broken_erase : ∀ b, broken' (erase b) = (broken b).undescribed)
    (whole_erase : ∀ b, whole' (erase b) = (whole b).undescribed) :
    close broken' whole' (parts.map erase) = (close broken whole parts).map undescribed := by
  obtain ⟨after, notices, fault⟩ := parts
  cases fault with
  | none => simp only [close, Visit.map, whole_erase]
  | some fault => simp only [close, Visit.map, broken_erase]

variable (registry)

theorem rekey_undescribed (fields : List (String × Entry)) :
    Keyed.rekey Case.uncapitalize
        ((undescribedFields fields).map fun f => (f.1, f.2.link registry.undescribed)) =
      undescribedFields
        (Keyed.rekey Case.uncapitalize (fields.map fun f => (f.1, f.2.link registry))) := by
  rw [undescribedFields_eq, undescribedFields_eq, ← Keyed.rekey_map, List.map_map, List.map_map]
  congr 2
  funext field
  exact Prod.ext rfl (link_undescribed registry field.2)

mutual

/-- Whether a schema has a description changes nothing in how it is settled. -/
theorem settle_undescribed (name : String) : (entry : Entry) →
    settle registry.undescribed name entry.undescribed =
      (settle registry name entry).map undescribed
  | reference text => by
    simp only [undescribed, settle, check_undescribed, Visit.map]
  | target _ => rfl
  | scalar site head kind => by
    rw [undescribed, settle, settle, head.titledScalar_undescribed]
    cases site.settled <;> rfl
  | array site head items => by
    rw [undescribed, settle, settle]
    cases site.settled with
    | true => rfl
    | false =>
      simp only [Bool.false_eq_true, if_false]
      rw [settleItems_undescribed name items]
      refine close_map _ (fun _ => rfl) fun items => ?_
      cases items with
      | none => simp only [undescribed, undescribedItems, Option.map_none, head.titledByName_undescribed]
      | some entry =>
        simp only [undescribed, undescribedItems, Option.map_some, head.titledByName_undescribed,
          link_undescribed]
  | object site head properties => by
    rw [undescribed, settle, settle]
    cases site.settled with
    | true => rfl
    | false =>
      simp only [Bool.false_eq_true, if_false]
      rw [settleFields_undescribed .field false [] properties]
      refine close_map _ (fun _ => rfl) fun fields => ?_
      rw [undescribed, rekey_undescribed, head.titledByName_undescribed]
  | composed site head alternatives => by
    rw [undescribed, settle, settle]
    cases site.settled with
    | true => rfl
    | false =>
      simp only [Bool.false_eq_true, if_false]
      rw [settleAlternatives_undescribed name 0 alternatives]
      refine close_map _ (fun _ => rfl) fun entries => ?_
      simp only [undescribed, undescribedAlternatives_eq, List.map_map, List.isEmpty_map,
        head.titledByName_undescribed, Function.comp_def, link_undescribed]
      congr 1
      exact (apply_ite Head.undescribed _ _ _).symm

theorem settleItems_undescribed (name : String) : (items : Option Entry) →
    settleItems registry.undescribed name (undescribedItems items) =
      (settleItems registry name items).map undescribedItems
  | none => rfl
  | some entry => by
    rw [undescribedItems, settleItems, settleItems, settle_undescribed name entry]
    rfl

theorem settleFields_undescribed (convention : Case.Convention) (outermost : Bool)
    (met : List String) : (fields : List (String × Entry)) →
    settleFields registry.undescribed convention outermost met (undescribedFields fields) =
      (settleFields registry convention outermost met fields).map undescribedFields
  | [] => rfl
  | (name, entry) :: rest => by
    rw [undescribedFields, settleFields, settleFields, settle_undescribed name entry,
      isReference_undescribed]
    simp only [Visit.map]
    cases (settle registry name entry).fault with
    | some fault => rfl
    | none =>
      simp only [settleFields_undescribed convention outermost (convention.key name :: met) rest]
      rfl

theorem settleAlternatives_undescribed (name : String) (index : Nat) : (entries : List Entry) →
    settleAlternatives registry.undescribed name index (undescribedAlternatives entries) =
      (settleAlternatives registry name index entries).map undescribedAlternatives
  | [] => rfl
  | entry :: rest => by
    rw [undescribedAlternatives, settleAlternatives, settleAlternatives,
      settle_undescribed (alternativeName name index) entry]
    simp only [Visit.map]
    cases (settle registry (alternativeName name index) entry).fault with
    | some fault => rfl
    | none =>
      simp only [settleAlternatives_undescribed name (index + 1) rest]
      rfl

end

mutual

theorem nodes_undescribed : (entry : Entry) →
    entry.undescribed.nodes = entry.nodes.map fun found => (found.1, found.2.undescribed)
  | reference _ => rfl
  | target _ => rfl
  | scalar site head kind => rfl
  | array site head items => by
    rw [undescribed, nodes, nodes, List.map_cons, itemNodes_undescribed items]
    cases items with
    | none => rfl
    | some entry => simp only [undescribedItems, Option.map_some, slot_undescribed]; rfl
  | object site head properties => by
    rw [undescribed, nodes, nodes, List.map_cons, propertyNodes_undescribed properties]
    simp only [undescribedFields_eq, List.map_map, Function.comp_def, slot_undescribed]
    rfl
  | composed site head alternatives => by
    rw [undescribed, nodes, nodes, List.map_cons, alternativeNodes_undescribed alternatives]
    simp only [undescribedAlternatives_eq, List.map_map, Function.comp_def, slot_undescribed]
    rfl

theorem itemNodes_undescribed : (items : Option Entry) →
    itemNodes (undescribedItems items) =
      (itemNodes items).map fun found => (found.1, found.2.undescribed)
  | none => rfl
  | some entry => nodes_undescribed entry

theorem propertyNodes_undescribed : (fields : List (String × Entry)) →
    propertyNodes (undescribedFields fields) =
      (propertyNodes fields).map fun found => (found.1, found.2.undescribed)
  | [] => rfl
  | (_, entry) :: rest => by
    rw [undescribedFields, propertyNodes, propertyNodes, List.map_append,
      nodes_undescribed entry, propertyNodes_undescribed rest]

theorem alternativeNodes_undescribed : (entries : List Entry) →
    alternativeNodes (undescribedAlternatives entries) =
      (alternativeNodes entries).map fun found => (found.1, found.2.undescribed)
  | [] => rfl
  | entry :: rest => by
    rw [undescribedAlternatives, alternativeNodes, alternativeNodes, List.map_append,
      nodes_undescribed entry, alternativeNodes_undescribed rest]

end

end Entry

namespace Registry

theorem ofDefinitions_undescribed (definitions : Definitions) :
    ofDefinitions definitions.undescribed = (ofDefinitions definitions).undescribed := by
  rw [undescribed_eq, ofDefinitions, ofDefinitions, Entry.ofDefinitions, Entry.ofDefinitions,
    Definitions.undescribed, List.map_map, List.map_map]
  refine List.map_congr_left fun named _ => Prod.ext rfl ?_
  simp only [Function.comp_apply, Definition.idOr_undescribed, Definition.build_undescribed]

theorem titled_undescribed (registry : Registry) :
    registry.undescribed.titled = registry.titled.undescribed := by
  rw [undescribed_eq, undescribed_eq, titled, titled, List.map_map, List.map_map]
  exact List.map_congr_left fun entry _ => Prod.ext rfl (entry.2.titled_undescribed entry.1)

theorem nodes_undescribed (registry : Registry) :
    registry.undescribed.nodes =
      registry.nodes.map fun found => (found.1, found.2.undescribed) := by
  rw [undescribed_eq, nodes, nodes, List.flatMap_map, List.map_flatMap]
  exact congrArg (List.flatMap · registry) (funext fun entry => entry.2.nodes_undescribed)

theorem settleAll_undescribed (registry : Registry) (convention : Case.Convention)
    (outermost : Bool) :
    registry.undescribed.settleAll convention outermost =
      (registry.settleAll convention outermost).map undescribed :=
  Entry.settleFields_undescribed registry convention outermost [] registry

theorem boundNames_undescribed (registry : Registry) (convention : Case.Convention)
    (entries : Registry) :
    registry.undescribed.boundNames convention entries.undescribed =
      registry.boundNames convention entries := by
  rw [boundNames, boundNames, undescribed_eq entries, List.map_map]
  refine congrArg _ (List.map_congr_left fun entry _ => Prod.ext rfl ?_)
  simp only [Function.comp_apply, Entry.link_undescribed, Entry.slot_undescribed]

end Registry

/-- Descriptions pass through a resolution untouched. -/
theorem Definitions.resolve_undescribed (definitions : Definitions) (convention : Case.Convention) :
    resolve convention definitions.undescribed =
      ((resolve convention definitions).1.map Catalog.undescribed,
        (resolve convention definitions).2) := by
  have length : definitions.undescribed.length = definitions.length := List.length_map _
  simp only [resolve, Registry.ofDefinitions_undescribed, Registry.titled_undescribed,
    Registry.settleAll_undescribed, Visit.map, length, Registry.boundNames_undescribed,
    Registry.nodes_undescribed]
  cases ((Registry.ofDefinitions definitions).titled.settleAll convention true).fault <;> rfl

end SchemaTables
