import Mathlib.Data.List.Nodup
import SchemaTables.Proofs.Standing

/-!
# Settling a fresh schema

What one visit does to the entry of a definition that nothing has visited yet. It fails with the
fault of the first of its parts that fails, and if none does, the nodes it leaves are its own, with
every slot linked, and those of the parts it keeps.
-/
namespace SchemaTables

namespace Definition
variable (registry : Registry)

/-- The slot that a definition standing at `place` takes once references are linked. -/
def slot (place : Place) : Definition → Slot Place
  | reference text =>
    match Reference.resolve registry text with
    | .ok name => .node (.registered name)
    | .error _ => .reference text
  | schema .. => .node place

/-- The slots of a definition once it is settled. -/
def content (place : Place) : Definition → Option (Content Place)
  | reference _ => none
  | schema kind _ items properties oneOf =>
    match kind with
    | .scalar kind => some (.scalar kind)
    | .array => some (.array (items.map (slot registry (place.child .items))))
    | .object => some (.object (Keyed.rekey Case.uncapitalize
        (properties.map fun field =>
          (field.1, field.2.slot registry (place.child (.property field.1))))))
    | .composed => some (.composed (oneOf.zipIdx.map fun child =>
        child.1.slot registry (place.child (.alternative child.2))))

/-- A definition's head before any title is given. -/
def plainHead (id : String) : Definition → Head
  | reference _ => default
  | schema _ details _ _ _ => head id details

/-- The head that `Entry.titled` gives. -/
def titledHead (name : String) (head : Head) : Definition → Head
  | reference _ => head
  | schema kind _ _ _ _ =>
    match kind with
    | .scalar kind => head.titledScalar name kind
    | .array | .object | .composed => head.titledByName name

/-- The head that settling gives: a schema with alternatives is not titled there. -/
def settledHead (name : String) (head : Head) : Definition → Head
  | reference _ => head
  | schema kind _ _ _ oneOf =>
    match kind with
    | .scalar kind => head.titledScalar name kind
    | .array | .object => head.titledByName name
    | .composed => if oneOf.isEmpty then head.titledByName name else head

/-- The entry of a definition under a given head. -/
def assemble (place : Place) (id : String) (head : Head) : Definition → Entry
  | reference text => .reference text
  | schema kind _ items properties oneOf =>
    match kind with
    | .scalar kind => .scalar ⟨place, false⟩ head kind
    | .array => .array ⟨place, false⟩ head (buildItems place id items)
    | .object => .object ⟨place, false⟩ head (buildProperties place id properties)
    | .composed => .composed ⟨place, false⟩ head (buildAlternatives place id 0 oneOf)

theorem build_eq_assemble (place : Place) (id : String) (d : Definition) :
    d.build place id = d.assemble place id (d.plainHead id) := by
  cases d with
  | reference text => rfl
  | schema kind details items properties oneOf => cases kind <;> rfl

theorem titled_assemble (place : Place) (id name : String) (head : Head) (d : Definition) :
    (d.assemble place id head).titled name = d.assemble place id (d.titledHead name head) := by
  cases d with
  | reference text => rfl
  | schema kind details items properties oneOf => cases kind <;> rfl

/-- The visit to the entry of a definition under a given head. -/
def visitUnder (place : Place) (id : String) (head : Head) (d : Definition) : Visit Entry :=
  (d.assemble place id head).settle registry place.basis

/-- The visit to the entry of a part. -/
def visitPart (place : Place) (id : String) (step : Step) (child : Definition) : Visit Entry :=
  (child.build (place.child step) (child.idOr (id ++ step.segment))).settle registry
    (step.basis place.basis)

theorem buildProperties_eq (place : Place) (id : String) (properties : List (String × Definition)) :
    buildProperties place id properties = properties.map fun field =>
      (field.1, field.2.build (place.child (.property field.1))
        (field.2.idOr (id ++ (Step.property field.1).segment))) := by
  induction properties with
  | nil => rfl
  | cons field rest ih =>
    obtain ⟨name, child⟩ := field
    rw [buildProperties, ih]
    simp [Step.segment, String.append_assoc]

theorem buildAlternatives_eq (place : Place) (id : String) (index : Nat)
    (oneOf : List Definition) :
    buildAlternatives place id index oneOf = (oneOf.zipIdx index).map fun child =>
      child.1.build (place.child (.alternative child.2))
        (child.1.idOr (id ++ (Step.alternative child.2).segment)) := by
  induction oneOf generalizing index with
  | nil => rfl
  | cons child rest ih =>
    rw [buildAlternatives, ih]
    simp [Step.segment, String.append_assoc]

end Definition

namespace Entry
variable {registry : Registry}

@[simp] theorem close_fault {β : Type} (broken whole : β → Entry) (parts : Visit β) :
    (close broken whole parts).fault = parts.fault := by
  unfold close
  split <;> simp_all [Visit.map]

theorem close_after {β : Type} (broken : β → Entry) {whole : β → Entry} {parts : Visit β}
    (h : parts.fault = none) : (close broken whole parts).after = whole parts.after := by
  simp [close, h, Visit.map]

/-- How a fault shows outside: an alias that is registered by itself is at fault itself. -/
def outward (outermost : Bool) (entry : Entry) (fault : ResolutionFault) : ResolutionFault :=
  if outermost && entry.isReference then .entry fault.cause else fault

theorem outward_nested (entry : Entry) : outward false entry = id := rfl

theorem settleFields_fault (convention : Case.Convention) (outermost : Bool) (met : List String)
    (entries : List (String × Entry)) :
    (settleFields registry convention outermost met entries).fault =
      entries.findSome? fun e => (settle registry e.1 e.2).fault.map (outward outermost e.2) := by
  induction entries generalizing met with
  | nil => rfl
  | cons e rest ih =>
    obtain ⟨name, entry⟩ := e
    rw [settleFields, List.findSome?_cons]
    cases h : (settle registry name entry).fault with
    | none => simpa [h] using ih _
    | some fault => simp [outward]

theorem settleFields_after {convention : Case.Convention} {outermost : Bool} {met : List String}
    {entries : List (String × Entry)}
    (h : (settleFields registry convention outermost met entries).fault = none) :
    (settleFields registry convention outermost met entries).after =
      entries.map fun e => (e.1, (settle registry e.1 e.2).after) := by
  induction entries generalizing met with
  | nil => rfl
  | cons e rest ih =>
    obtain ⟨name, entry⟩ := e
    rw [settleFields] at h ⊢
    cases hfault : (settle registry name entry).fault with
    | none =>
      simp only [hfault] at h ⊢
      rw [ih h, List.map_cons]
    | some fault => simp [hfault] at h

theorem settleAlternatives_fault (place : Place) (id : String) (index : Nat)
    (oneOf : List Definition) :
    (settleAlternatives registry place.basis index
        (Definition.buildAlternatives place id index oneOf)).fault =
      (oneOf.zipIdx index).findSome? fun child =>
        (child.1.visitPart registry place id (.alternative child.2)).fault := by
  induction oneOf generalizing index with
  | nil => rfl
  | cons child rest ih =>
    rw [Definition.buildAlternatives, settleAlternatives, List.zipIdx_cons, List.findSome?_cons]
    cases h : (child.visitPart registry place id (.alternative index)).fault with
    | none =>
      simp only [Definition.visitPart, Step.segment, Step.basis, ← String.append_assoc] at h
      simp only [h]
      exact ih _
    | some fault =>
      simp only [Definition.visitPart, Step.segment, Step.basis, ← String.append_assoc] at h
      simp only [h]

theorem settleAlternatives_after {place : Place} {id : String} {index : Nat}
    {oneOf : List Definition}
    (h : (settleAlternatives registry place.basis index
      (Definition.buildAlternatives place id index oneOf)).fault = none) :
    (settleAlternatives registry place.basis index
        (Definition.buildAlternatives place id index oneOf)).after =
      (oneOf.zipIdx index).map fun child =>
        (child.1.visitPart registry place id (.alternative child.2)).after := by
  induction oneOf generalizing index with
  | nil => rfl
  | cons child rest ih =>
    rw [Definition.buildAlternatives, settleAlternatives] at h ⊢
    rw [List.zipIdx_cons, List.map_cons]
    simp only [Definition.visitPart, Step.segment, Step.basis, ← String.append_assoc] at ih ⊢
    split at h
    · simp at h
    · next hfault =>
      simp only at h ⊢
      rw [ih h]

theorem propertyNodes_eq (fields : List (String × Entry)) :
    propertyNodes fields = fields.flatMap fun field => field.2.nodes := by
  induction fields with
  | nil => rfl
  | cons field rest ih => rw [propertyNodes, ih, List.flatMap_cons]

theorem alternativeNodes_eq (entries : List Entry) :
    alternativeNodes entries = entries.flatMap nodes := by
  induction entries with
  | nil => rfl
  | cons entry rest ih => rw [alternativeNodes, ih, List.flatMap_cons]

/-- Links hold no nodes of their own. -/
@[simp] theorem nodes_link (entry : Entry) : (entry.link registry).nodes = entry.nodes := by
  cases entry with
  | reference text =>
    rw [link]
    split <;> rfl
  | _ => rfl

end Entry

namespace Definition
variable {registry : Registry}

/-- Whatever becomes of its parts, a visited entry fills its slot as its definition says. -/
theorem slot_settle (name : String) (place : Place) (id : String) (head : Head) (d : Definition) :
    (((d.assemble place id head).settle registry name).after.link registry).slot =
      d.slot registry place := by
  cases d with
  | reference text =>
    change ((Entry.reference text).link registry).slot = _
    cases h : Reference.resolve registry text <;> simp [Entry.link, slot, h, Entry.slot]
  | schema kind details items properties oneOf =>
    cases kind with
    | scalar kind => rfl
    | _ =>
      simp only [assemble, Entry.settle, Entry.close, Site.settle, slot, Bool.false_eq_true,
        if_false]
      split <;> rfl

theorem slot_visitPart (place : Place) (id : String) (step : Step) (child : Definition) :
    (((child.visitPart registry place id step).after).link registry).slot =
      child.slot registry (place.child step) := by
  rw [visitPart, build_eq_assemble, slot_settle]

theorem findSome?_propertyParts {β : Type} (f : Step → Definition → Option β)
    (properties : List (String × Definition)) :
    (propertyParts properties).findSome? (fun part => f part.step part.definition) =
      properties.findSome? fun field => f (.property field.1) field.2 := by
  have := congrArg (List.findSome? id) (map_propertyParts f properties)
  rwa [List.findSome?_map, List.findSome?_map] at this

/-- A visit fails as the first of the parts that fails. -/
theorem settle_fault {d : Definition} (schema : d.isReference = false) (place : Place)
    (id : String) (head : Head) :
    (d.visitUnder registry place id head).fault =
      d.parts.findSome? fun part =>
        (part.definition.visitPart registry place id part.step).fault := by
  cases d with
  | reference text => cases schema
  | schema kind details items properties oneOf =>
    cases kind with
    | scalar kind => rfl
    | array =>
      cases items with
      | none => rfl
      | some child => simp [visitUnder, assemble, buildItems, Entry.settle, Entry.settleItems,
          parts, visitPart, Visit.map, Step.basis, Step.segment]
    | object =>
      rw [parts, findSome?_propertyParts fun step child =>
        (child.visitPart registry place id step).fault]
      simp only [visitUnder, assemble, Entry.settle, Bool.false_eq_true, if_false,
        Entry.close_fault, Entry.settleFields_fault, buildProperties_eq, List.findSome?_map]
      congr 1
      funext field
      rw [Function.comp_apply, Entry.outward_nested, Option.map_id_fun, id_eq]
      rfl
    | composed =>
      rw [parts, alternativeParts_eq, List.findSome?_map]
      simp only [visitUnder, assemble, Entry.settle, Bool.false_eq_true, if_false,
        Entry.close_fault]
      exact Entry.settleAlternatives_fault place id 0 oneOf

theorem mem_winners {properties : List (String × Definition)} {k : String}
    {field : String × Definition} :
    (k, field) ∈ Keyed.rekey Case.uncapitalize (properties.map fun field => (field.1, field)) ↔
      k = Case.uncapitalize field.1 ∧
        Part.mk (.property field.1) true field.2 ∈ propertyParts properties := by
  rw [Keyed.mem_rekey_iff, mem_propertyParts]
  constructor
  · rintro ⟨name, before, after, split, rfl, none⟩
    obtain ⟨before, rest, rfl, rfl, hrest⟩ := List.map_eq_append_iff.mp split
    obtain ⟨same, after, rfl, hsame, rfl⟩ := List.map_eq_cons_iff.mp hrest
    cases hsame
    rw [List.forall_mem_map] at none
    refine ⟨rfl, before, field.1, field.2, after, rfl, ?_⟩
    simpa [overtaken] using none
  · rintro ⟨rfl, before, name, child, after, rfl, hpart⟩
    obtain ⟨hname, hkept, hchild⟩ := Part.mk.inj hpart
    cases hname
    refine ⟨field.1, before.map fun field => (field.1, field),
      after.map fun field => (field.1, field), by simp [← hchild], rfl, ?_⟩
    rw [List.forall_mem_map]
    simpa [overtaken] using hkept

/-- The fields that keep their keys are the kept parts. -/
theorem exists_winner_iff {properties : List (String × Definition)} {P : Step → Definition → Prop} :
    (∃ winner ∈ Keyed.rekey Case.uncapitalize (properties.map fun field => (field.1, field)),
        P (.property winner.2.1) winner.2.2) ↔
      ∃ part ∈ propertyParts properties, part.kept ∧ P part.step part.definition := by
  constructor
  · rintro ⟨⟨k, field⟩, hwinner, h⟩
    exact ⟨_, (mem_winners.mp hwinner).2, rfl, h⟩
  · rintro ⟨part, hpart, hkept, h⟩
    obtain ⟨before, name, child, after, rfl, rfl⟩ := mem_propertyParts.mp hpart
    dsimp only at hkept
    rw [hkept] at hpart
    exact ⟨(Case.uncapitalize name, name, child), mem_winners.mpr ⟨rfl, hpart⟩, h⟩

/-- Re-keyed fields, each still with its own name. -/
theorem rekey_fields {β : Type} (properties : List (String × Definition))
    (f : String × Definition → β) :
    Keyed.rekey Case.uncapitalize (properties.map fun field => (field.1, f field)) =
      (Keyed.rekey Case.uncapitalize (properties.map fun field => (field.1, field))).map
        fun winner => (winner.1, f winner.2) := by
  rw [← Keyed.rekey_map, List.map_map]
  rfl

/-- The slots of a settled schema are those of the parts that it keeps. -/
theorem mem_slots {d : Definition} {place : Place} {content : Content Place}
    (filled : d.content registry place = some content) (slot : Slot Place) :
    slot ∈ content.slots ↔ ∃ part ∈ d.parts, part.kept ∧
      part.definition.slot registry (place.child part.step) = slot := by
  cases d with
  | reference text => cases filled
  | schema kind details items properties oneOf =>
    cases kind with
    | scalar kind =>
      cases filled
      simp [Content.slots, parts]
    | array =>
      cases filled
      cases items with
      | none => simp [Content.slots, parts]
      | some child =>
        simp only [Content.slots, parts, Option.map_some, Option.toList_some, List.mem_singleton,
          exists_eq_left, true_and]
        exact eq_comm
    | object =>
      cases filled
      rw [Content.slots, rekey_fields properties fun field =>
        field.2.slot registry (place.child (.property field.1)), List.map_map, List.mem_map]
      exact exists_winner_iff (P := fun step child =>
        child.slot registry (place.child step) = slot)
    | composed =>
      cases filled
      simp [Content.slots, parts, alternativeParts_eq]

section
variable {place : Place} {id : String} {head : Head} {details : Details}
  {items : Option Definition} {properties : List (String × Definition)} {oneOf : List Definition}

theorem settle_array (ok : (visitUnder registry place id head
      (schema .array details items properties oneOf)).fault = none) :
    (visitUnder registry place id head (schema .array details items properties oneOf)).after =
      .array ⟨place, true⟩ (head.titledByName place.basis)
        (items.map fun child => (child.visitPart registry place id .items).after.link registry) := by
  simp only [visitUnder, assemble, Entry.settle, Bool.false_eq_true, if_false] at ok ⊢
  rw [Entry.close_after _ (by simpa using ok)]
  cases items <;> rfl

theorem settle_object (ok : (visitUnder registry place id head
      (schema .object details items properties oneOf)).fault = none) :
    (visitUnder registry place id head (schema .object details items properties oneOf)).after =
      .object ⟨place, true⟩ (head.titledByName place.basis)
        (Keyed.rekey Case.uncapitalize (properties.map fun field => (field.1,
          (field.2.visitPart registry place id (.property field.1)).after.link registry))) := by
  simp only [visitUnder, assemble, Entry.settle, Bool.false_eq_true, if_false] at ok ⊢
  rw [Entry.close_fault] at ok
  rw [Entry.close_after _ ok, Entry.settleFields_after ok, buildProperties_eq, List.map_map,
    List.map_map]
  rfl

theorem settle_composed (ok : (visitUnder registry place id head
      (schema .composed details items properties oneOf)).fault = none) :
    (visitUnder registry place id head (schema .composed details items properties oneOf)).after =
      .composed ⟨place, true⟩
        (if oneOf.isEmpty then head.titledByName place.basis else head)
        (oneOf.zipIdx.map fun child =>
          (child.1.visitPart registry place id (.alternative child.2)).after.link registry) := by
  simp only [visitUnder, assemble, Entry.settle, Bool.false_eq_true, if_false] at ok ⊢
  rw [Entry.close_fault] at ok
  rw [Entry.close_after _ ok, Entry.settleAlternatives_after ok, List.map_map]
  cases oneOf <;> rfl

end

/-- Once settled, a schema has its own node, and after it those of the parts that it keeps. -/
theorem settle_nodes {d : Definition} {place : Place} {id : String} {head : Head}
    (schema : d.isReference = false)
    (ok : (d.visitUnder registry place id head).fault = none) :
    ∃ content inner, d.content registry place = some content ∧
      (d.visitUnder registry place id head).after.nodes =
        (place, ⟨d.settledHead place.basis head, content⟩) :: inner ∧
      ∀ node, node ∈ inner ↔ ∃ part ∈ d.parts, part.kept ∧
        node ∈ (part.definition.visitPart registry place id part.step).after.nodes := by
  cases d with
  | reference text => cases schema
  | schema kind details items properties oneOf =>
    cases kind with
    | scalar kind => exact ⟨_, [], rfl, rfl, by simp [parts]⟩
    | array =>
      rw [settle_array ok, Entry.nodes]
      simp only [Option.map_map, Function.comp_def, slot_visitPart]
      refine ⟨_, _, rfl, rfl, fun node => ?_⟩
      cases items <;> simp [Entry.itemNodes, parts]
    | object =>
      rw [settle_object ok, Entry.nodes, rekey_fields]
      simp only [List.map_map, Function.comp_def, slot_visitPart]
      rw [← rekey_fields properties fun field =>
        field.2.slot registry (place.child (.property field.1))]
      refine ⟨_, _, rfl, rfl, fun node => ?_⟩
      simp only [Entry.propertyNodes_eq, List.flatMap_map, List.mem_flatMap, Entry.nodes_link]
      exact exists_winner_iff (P := fun step child =>
        node ∈ (child.visitPart registry place id step).after.nodes)
    | composed =>
      rw [settle_composed ok, Entry.nodes]
      simp only [List.map_map, Function.comp_def, slot_visitPart]
      refine ⟨_, _, rfl, rfl, fun node => ?_⟩
      simp [Entry.alternativeNodes_eq, List.mem_flatMap, parts, alternativeParts_eq]

theorem titledByName_titledByName (name : String) (head : Head) :
    (head.titledByName name).titledByName name = head.titledByName name := by
  unfold Head.titledByName
  split
  · simp_all
  · split <;> rfl

theorem titledScalar_titledScalar (name : String) (kind : ScalarKind) (head : Head) :
    (head.titledScalar name kind).titledScalar name kind = head.titledScalar name kind := by
  cases kind with
  | string => by_cases h : head.members.isEmpty <;> simp [Head.titledScalar, h]
  | boolean => rfl
  | integer => exact titledByName_titledByName name head
  | number => exact titledByName_titledByName name head

/-- A schema titled before it is settled, as registered ones are, keeps that title. -/
theorem settledHead_titledHead (name : String) (head : Head) (d : Definition) :
    d.settledHead name (d.titledHead name head) = d.titledHead name head := by
  cases d with
  | reference text => rfl
  | schema kind details items properties oneOf =>
    cases kind with
    | scalar kind => exact titledScalar_titledScalar name kind head
    | array => exact titledByName_titledByName name head
    | object => exact titledByName_titledByName name head
    | composed =>
      simp only [settledHead, titledHead]
      split
      · exact titledByName_titledByName name head
      · rfl

end Definition

/-- Two heads of one definition, which may differ in their titles. -/
structure Head.Restates (head original : Head) : Prop where
  id : head.id = original.id
  description : head.description = original.description
  required : head.required = original.required
  members : head.members = original.members

namespace Head

theorem restates_refl (head : Head) : head.Restates head := ⟨rfl, rfl, rfl, rfl⟩

theorem titledByName_restates (name : String) (head : Head) :
    (head.titledByName name).Restates head := by
  unfold titledByName
  split <;> exact ⟨rfl, rfl, rfl, rfl⟩

theorem titledScalar_restates (name : String) (kind : ScalarKind) (head : Head) :
    (head.titledScalar name kind).Restates head := by
  cases kind with
  | string =>
    unfold titledScalar
    dsimp only
    split <;> exact ⟨rfl, rfl, rfl, rfl⟩
  | boolean => exact ⟨rfl, rfl, rfl, rfl⟩
  | integer => exact titledByName_restates name head
  | number => exact titledByName_restates name head

end Head

namespace Definition

theorem titledHead_restates (name : String) (head : Head) (d : Definition) :
    (d.titledHead name head).Restates head := by
  cases d with
  | reference text => exact head.restates_refl
  | schema kind details items properties oneOf =>
    cases kind with
    | scalar kind => exact head.titledScalar_restates name kind
    | array => exact head.titledByName_restates name
    | object => exact head.titledByName_restates name
    | composed => exact head.titledByName_restates name

theorem settledHead_restates (name : String) (head : Head) (d : Definition) :
    (d.settledHead name head).Restates head := by
  cases d with
  | reference text => exact head.restates_refl
  | schema kind details items properties oneOf =>
    cases kind with
    | scalar kind => exact head.titledScalar_restates name kind
    | array => exact head.titledByName_restates name
    | object => exact head.titledByName_restates name
    | composed =>
      unfold settledHead
      dsimp only
      split
      · exact head.titledByName_restates name
      · exact head.restates_refl

end Definition

namespace Standing
variable (registry : Registry)

/-- The visit to the entry of a standing. -/
def visit (s : Standing) : Visit Entry :=
  (s.definition.build s.place s.id).settle registry s.place.basis

/-- What a live reference is at fault of. -/
def fault? (s : Standing) : Option ResolutionFault :=
  match s.definition with
  | .reference text => Entry.check registry text
  | .schema .. => none

/-- A registered schema is titled before it is settled, an inline one only while it is. -/
def head (s : Standing) : Head :=
  let plain := s.definition.plainHead s.id
  if s.place.steps.isEmpty then s.definition.titledHead s.place.basis plain
  else s.definition.settledHead s.place.basis plain

/-- The node of a standing after the resolution. -/
def node? (s : Standing) : Option (Node Place) :=
  (s.definition.content registry s.place).map fun content => ⟨s.head, content⟩

variable {registry}

theorem head_of_inline {s : Standing} (inline : s.place.steps ≠ []) :
    s.head = s.definition.settledHead s.place.basis (s.definition.plainHead s.id) := by
  simp [head, inline]

theorem head_of_registered {s : Standing} {name : String} (top : s.place = .registered name) :
    s.head = s.definition.titledHead name (s.definition.plainHead s.id) := by
  simp [head, top, Place.registered, Place.basis, Root.name]

theorem head_restates (s : Standing) :
    s.head.Restates (s.definition.plainHead s.id) := by
  unfold head
  dsimp only
  split
  · exact s.definition.titledHead_restates ..
  · exact s.definition.settledHead_restates ..

theorem head_id {s : Standing} (schema : s.isSchema) : s.head.id = s.id := by
  rw [s.head_restates.id]
  obtain ⟨place, id, kept, d⟩ := s
  cases d with
  | reference text => cases schema
  | schema => rfl

theorem visit_eq (s : Standing) : s.visit registry =
    s.definition.visitUnder registry s.place s.id (s.definition.plainHead s.id) := by
  rw [visit, Definition.build_eq_assemble, Definition.visitUnder]

/-- A registered schema is visited under the head that it was titled with. -/
theorem titled_settle {s : Standing} {name : String} (top : s.place = .registered name) :
    ((s.definition.build s.place s.id).titled name).settle registry name =
      s.definition.visitUnder registry s.place s.id
        (s.definition.titledHead name (s.definition.plainHead s.id)) := by
  rw [Definition.build_eq_assemble, Definition.titled_assemble, Definition.visitUnder, top,
    Place.basis_registered]

theorem visit_standing (place : Place) (id : String) (kept : Bool) (part : Part) :
    (part.standing place id kept).visit registry =
      part.definition.visitPart registry place id part.step := by
  rw [visit, Definition.visitPart, Part.standing, Place.basis_child]

theorem findSome?_congr {α β : Type} {f g : α → Option β} {items : List α}
    (h : ∀ item ∈ items, f item = g item) : items.findSome? f = items.findSome? g := by
  induction items with
  | nil => rfl
  | cons item rest ih =>
    rw [List.findSome?_cons, List.findSome?_cons, h item List.mem_cons_self,
      ih fun other hother => h other (List.mem_cons_of_mem item hother)]

theorem findSome?_flatMap {α β γ : Type} (f : β → Option γ) (g : α → List β) (items : List α) :
    (items.flatMap g).findSome? f = items.findSome? fun item => (g item).findSome? f := by
  induction items with
  | nil => rfl
  | cons item rest ih =>
    rw [List.flatMap_cons, List.findSome?_append, ih, List.findSome?_cons]
    cases (g item).findSome? f <;> rfl

/-- A visit fails with the first live reference that is at fault. -/
theorem visit_fault (s : Standing) :
    (s.visit registry).fault = s.inner.findSome? (fault? registry) := by
  induction s using induction with
  | step s ih =>
    rw [inner_eq, List.findSome?_cons, findSome?_flatMap]
    cases href : s.definition.isReference with
    | true =>
      obtain ⟨place, id, kept, d⟩ := s
      cases d with
      | reference text =>
        change Entry.check registry text = _
        simp only [fault?]
        cases h : Entry.check registry text <;> rfl
      | schema => cases href
    | false =>
      have free : s.fault? registry = none := by
        obtain ⟨place, id, kept, d⟩ := s
        cases d with
        | reference text => cases href
        | schema => rfl
      rw [free, visit_eq, Definition.settle_fault href, parts, List.findSome?_map]
      refine findSome?_congr fun part hpart => ?_
      rw [Function.comp_apply, ← ih _ (List.mem_map_of_mem hpart), visit_standing]

theorem kept_of_mem_inner {t : Standing} (s : Standing) (ht : t ∈ s.inner) (kept : t.kept) :
    s.kept := by
  induction s using induction with
  | step s ih =>
    rcases mem_inner_iff.mp ht with rfl | ⟨part, hpart, ht⟩
    · exact kept
    · have := ih part hpart ht
      obtain ⟨p, -, rfl⟩ := List.mem_map.mp hpart
      exact (Bool.and_eq_true_iff.mp this).1

/-- What is kept in `s` under `place`, as a node. -/
def Shows (registry : Registry) (s : Standing) (place : Place) (node : Node Place) : Prop :=
  ∃ t ∈ s.inner, t.kept ∧ t.place = place ∧ t.node? registry = some node

theorem settle_nodes_iff {s : Standing} {head : Head} (schema : s.definition.isReference = false)
    (kept : s.kept)
    (ok : (s.definition.visitUnder registry s.place s.id head).fault = none)
    (inner : ∀ part ∈ s.parts, part.kept → (part.visit registry).fault = none →
      ∀ place node, (place, node) ∈ (part.visit registry).after.nodes ↔
        part.Shows registry place node)
    (place : Place) (node : Node Place) :
    (place, node) ∈
        (s.definition.visitUnder registry s.place s.id head).after.nodes ↔
      (place = s.place ∧ (s.definition.content registry s.place).map
          (Node.mk (s.definition.settledHead s.place.basis head)) = some node) ∨
        ∃ part ∈ s.parts, part.Shows registry place node := by
  obtain ⟨content, rest, hcontent, hnodes, hrest⟩ := Definition.settle_nodes schema ok
  rw [Definition.settle_fault schema, List.findSome?_eq_none_iff] at ok
  rw [hnodes, List.mem_cons, hrest, hcontent, Prod.mk.injEq]
  refine or_congr (and_congr_right fun _ => ⟨fun h => by rw [h]; rfl, fun h => ?_⟩) ?_
  · exact (Option.some.inj h).symm
  constructor
  · rintro ⟨p, hp, hkept, hnode⟩
    have hpart : p.standing s.place s.id s.kept ∈ s.parts := List.mem_map_of_mem hp
    refine ⟨_, hpart, (inner _ hpart ?_ ?_ place node).mp ?_⟩
    · exact Bool.and_eq_true_iff.mpr ⟨kept, hkept⟩
    · rw [visit_standing, ok p hp]
    · rwa [visit_standing]
  · rintro ⟨part, hpart, hshows⟩
    have hkept : part.kept := hshows.elim fun t ht => kept_of_mem_inner part ht.1 ht.2.1
    obtain ⟨p, hp, rfl⟩ := List.mem_map.mp hpart
    have hnode := (inner _ hpart hkept (by rw [visit_standing, ok p hp]) place node).mpr hshows
    rw [visit_standing] at hnode
    exact ⟨p, hp, (Bool.and_eq_true_iff.mp hkept).2, hnode⟩

theorem shows_iff (s : Standing) (place : Place) (node : Node Place) :
    s.Shows registry place node ↔
      (s.kept ∧ s.place = place ∧ s.node? registry = some node) ∨
        ∃ part ∈ s.parts, part.Shows registry place node := by
  constructor
  · rintro ⟨t, ht, shown⟩
    rcases mem_inner_iff.mp ht with rfl | ⟨part, hpart, ht⟩
    · exact .inl shown
    · exact .inr ⟨part, hpart, t, ht, shown⟩
  · rintro (shown | ⟨part, hpart, t, ht, shown⟩)
    · exact ⟨s, self_mem_inner s, shown⟩
    · exact ⟨t, mem_inner_iff.mpr (.inr ⟨part, hpart, ht⟩), shown⟩

theorem not_shows_of_reference {s : Standing} (reference : s.definition.isReference)
    (place : Place) (node : Node Place) : ¬ s.Shows registry place node := by
  obtain ⟨p, id, kept, d⟩ := s
  cases d with
  | reference text =>
    rintro ⟨t, ht, -, -, hnode⟩
    cases List.mem_singleton.mp ht
    cases hnode
  | schema => cases reference

theorem settle_reference_nodes {d : Definition} (reference : d.isReference) (place : Place)
    (id : String) (head : Head) : (d.visitUnder registry place id head).after.nodes = [] := by
  cases d with
  | reference text => rfl
  | schema => cases reference

/-- Once settled, an inline schema has left the nodes of everything kept in it. -/
theorem mem_visit_nodes {s : Standing} (inline : s.place.steps ≠ []) (kept : s.kept)
    (ok : (s.visit registry).fault = none) (place : Place) (node : Node Place) :
    (place, node) ∈ (s.visit registry).after.nodes ↔ s.Shows registry place node := by
  induction s using induction generalizing place node with
  | step s ih =>
    have inner : ∀ part ∈ s.parts, part.kept → (part.visit registry).fault = none →
        ∀ place node, (place, node) ∈ (part.visit registry).after.nodes ↔
          part.Shows registry place node := by
      intro part hpart hkept hok place node
      refine ih part hpart ?_ hkept hok place node
      obtain ⟨p, -, hplace⟩ := place_of_mem_parts hpart
      simp [hplace]
    rw [visit_eq] at ok ⊢
    cases href : s.definition.isReference with
    | true => simp [settle_reference_nodes href, not_shows_of_reference href]
    | false =>
      rw [settle_nodes_iff href kept ok inner, shows_iff, node?, head_of_inline inline]
      simp only [kept, true_and, eq_comm]

/-- A registered schema, titled first, leaves the nodes of everything kept in its definition. -/
theorem mem_top_nodes {registry : Registry} {s : Standing} {name : String}
    (top : s.place = .registered name) (kept : s.kept)
    (ok : (s.visit registry).fault = none) (place : Place) (node : Node Place) :
    (place, node) ∈
        (((s.definition.build s.place s.id).titled name).settle registry name).after.nodes ↔
      s.Shows registry place node := by
  have inner : ∀ part ∈ s.parts, part.kept → (part.visit registry).fault = none →
      ∀ place node, (place, node) ∈ (part.visit registry).after.nodes ↔
        part.Shows registry place node := by
    intro part hpart hkept hok
    refine mem_visit_nodes ?_ hkept hok
    obtain ⟨p, -, hplace⟩ := place_of_mem_parts hpart
    simp [hplace]
  rw [titled_settle top]
  cases href : s.definition.isReference with
  | true => simp [settle_reference_nodes href, not_shows_of_reference href]
  | false =>
    rw [visit_eq, Definition.settle_fault href,
      ← Definition.settle_fault href s.place s.id (s.definition.titledHead name
        (s.definition.plainHead s.id))] at ok
    have := settle_nodes_iff href kept ok inner place node
    rw [top, Place.basis_registered, ← top, Definition.settledHead_titledHead] at this
    rw [this, shows_iff, node?, head_of_registered top]
    simp only [kept, true_and, eq_comm]

end Standing
end SchemaTables
