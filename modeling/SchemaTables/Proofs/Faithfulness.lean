import SchemaTables.Proofs.Resolution

/-!
# A resolved graph is its document with the references followed

`Mirrors` compares a node with the definition at its place, slot by slot: an inline child fills its
slot itself, and a reference fills it with the registered schema at the end of its chain of aliases.
-/
namespace SchemaTables

/-- The slots are sorted by key, and each holds what the last of the fields with its key asks for. -/
structure Rekeyed {β γ : Type} (key : String → String) (fills : String → β → γ → Prop)
    (fields : List (String × β)) (slots : List (String × γ)) : Prop where
  sorted : (slots.map (·.1)).Pairwise (· < ·)
  last : ∀ k slot, slots.lookup k = some slot ↔
    ∃ name value, Keyed.Last key fields k name value ∧ fills name value slot

/-- What a definition standing at `place` puts into its slot. -/
inductive Definitions.Fills (definitions : Definitions) (place : Place) :
    Definition → Slot Place → Prop
  | inline {kind : Kind} {details : Details} {items : Option Definition}
      {properties : List (String × Definition)} {oneOf : List Definition} :
      Fills definitions place (.schema kind details items properties oneOf) (.node place)
  | linked {text name : String} (ends : Chain.Verdict definitions.meaning text (.ok name)) :
      Fills definitions place (.reference text) (.node (.registered name))

/-- A node is its definition with the references followed. -/
structure Mirrors (definitions : Definitions) (place : Place) (kind : Kind) (details : Details)
    (items : Option Definition) (properties : List (String × Definition))
    (oneOf : List Definition) (node : Node Place) : Prop where
  shape : node.content.kind = kind
  description : node.head.description = details.description
  required : node.head.required = details.required
  members : node.head.members = details.members
  items : kind = .array →
    Option.Rel (definitions.Fills (place.child .items)) items node.content.items
  properties : kind = .object → Rekeyed Case.uncapitalize
    (fun name child slot => definitions.Fills (place.child (.property name)) child slot)
    properties node.content.properties
  alternatives : kind = .composed → node.content.alternatives.length = oneOf.length ∧
    ∀ index child, oneOf[index]? = some child → ∃ slot,
      node.content.alternatives[index]? = some slot ∧
        definitions.Fills (place.child (.alternative index)) child slot

theorem rekeyed_rekey {β γ : Type} {key : String → String} {fills : String → β → γ → Prop}
    {fields : List (String × β)} {f : String → β → γ}
    (determined : ∀ field ∈ fields, ∀ slot, fills field.1 field.2 slot ↔ f field.1 field.2 = slot) :
    Rekeyed key fills fields
      (Keyed.rekey key (fields.map fun field => (field.1, f field.1 field.2))) where
  sorted := Keyed.rekey_sorted key _
  last k slot := by
    rw [Keyed.lookup_rekey_eq_some_iff]
    refine exists_congr fun name => ?_
    rw [Keyed.last_map_iff]
    refine exists_congr fun value => and_congr_right fun last => ?_
    exact (determined (name, value) last.mem slot).symm

namespace Definitions
variable {definitions : Definitions}

/-- Without a fault, a slot is filled in one way, the way it is linked. -/
theorem fills_iff (ok : definitions.fault? = none) {s : Standing} (hs : s ∈ definitions.standings)
    {place : Place} {slot : Slot Place} :
    definitions.Fills place s.definition slot ↔
      s.definition.slot definitions.registry place = slot := by
  cases hd : s.definition with
  | schema kind details items properties oneOf =>
    constructor
    · rintro ⟨⟩
      rfl
    · rintro rfl
      exact .inline
  | reference text =>
    obtain ⟨name, resolved⟩ := reference_resolves ok hs hd
    have ends := Reference.resolve_eq_iff.mp resolved
    rw [meaning_registry] at ends
    simp only [Definition.slot, resolved]
    constructor
    · rintro (_ | ends')
      cases Chain.verdict_unique ends ends'
      rfl
    · rintro rfl
      exact .linked ends

theorem fills_part_iff (ok : definitions.fault? = none) {s : Standing}
    (hs : s ∈ definitions.standings) {part : Part} (hpart : part ∈ s.definition.parts)
    {place : Place} {slot : Slot Place} :
    definitions.Fills place part.definition slot ↔
      part.definition.slot definitions.registry place = slot :=
  fills_iff (s := part.standing s.place s.id s.kept) ok
    (part_mem_standings hs (List.mem_map_of_mem hpart))

end Definitions

namespace Definitions
variable {definitions : Definitions}

theorem mirrors (ok : definitions.fault? = none) {s : Standing} (hs : s ∈ definitions.standings)
    {kind : Kind} {details : Details} {items : Option Definition}
    {properties : List (String × Definition)} {oneOf : List Definition}
    (schema : s.definition = .schema kind details items properties oneOf) {head : Head}
    (restates : head.Restates (Definition.head s.id details)) {content : Content Place}
    (filled : s.definition.content definitions.registry s.place = some content) :
    Mirrors definitions s.place kind details items properties oneOf ⟨head, content⟩ := by
  have fills (part : Part) (hpart : part ∈ s.definition.parts) (place : Place)
      (slot : Slot Place) : definitions.Fills place part.definition slot ↔
        part.definition.slot definitions.registry place = slot := fills_part_iff ok hs hpart
  rw [schema] at fills filled
  refine ⟨?_, restates.description, restates.required, restates.members, ?_, ?_, ?_⟩
  · cases kind <;> cases filled <;> rfl
  · rintro rfl
    cases filled
    cases items with
    | none => exact .none
    | some child =>
      refine .some ((fills ⟨.items, true, child⟩ ?_ _ _).mpr rfl)
      simp [Definition.parts]
  · rintro rfl
    cases filled
    refine rekeyed_rekey (f := fun name (child : Definition) =>
      child.slot definitions.registry (s.place.child (.property name))) fun field hfield slot => ?_
    obtain ⟨before, after, rfl⟩ := List.append_of_mem hfield
    exact fills ⟨.property field.1, _, field.2⟩
      (Definition.mem_propertyParts.mpr ⟨before, field.1, field.2, after, rfl, rfl⟩) _ _
  · rintro rfl
    cases filled
    refine ⟨by simp [Content.alternatives], fun index child hchild => ?_⟩
    refine ⟨_, by simp [Content.alternatives, hchild]; rfl, ?_⟩
    refine (fills ⟨.alternative index, true, child⟩ ?_ _ _).mpr rfl
    rw [Definition.parts, Definition.alternativeParts_eq, List.mem_map]
    exact ⟨(child, index), List.mk_mem_zipIdx_iff_getElem?.mpr hchild, rfl⟩

end Definitions

/-- The identifiers of nodes, each with the place that it belongs to. -/
def identifiers (nodes : List (Place × Node Place)) : List (Place × String) :=
  nodes.map fun node => (node.1, node.2.head.id)

@[simp] theorem identifiers_append (first second : List (Place × Node Place)) :
    identifiers (first ++ second) = identifiers first ++ identifiers second := List.map_append

namespace Definition

/-- The entry of a part. -/
def buildPart (place : Place) (id : String) (part : Part) : Entry :=
  part.definition.build (place.child part.step) (part.definition.idOr (id ++ part.step.segment))

theorem build_identifiers {d : Definition} (schema : d.isReference = false) (place : Place)
    (id : String) :
    identifiers (d.build place id).nodes =
      (place, id) :: d.parts.flatMap fun part => identifiers (buildPart place id part).nodes := by
  cases d with
  | reference text => cases schema
  | schema kind details items properties oneOf =>
    cases kind with
    | scalar kind => rfl
    | array =>
      cases items with
      | none => rfl
      | some child => simp [build, buildItems, Entry.nodes, Entry.itemNodes, parts, buildPart,
          Step.segment, identifiers, head]
    | object =>
      have fields := map_propertyParts (fun step child =>
        identifiers (child.build (place.child step) (child.idOr (id ++ step.segment))).nodes)
        properties
      rw [parts, List.flatMap_def]
      change _ = (place, id) :: ((propertyParts properties).map fun part =>
        identifiers (part.definition.build (place.child part.step)
          (part.definition.idOr (id ++ part.step.segment))).nodes).flatten
      rw [fields]
      simp [build, Entry.nodes, Entry.propertyNodes_eq, buildProperties_eq, List.flatMap_def,
        Function.comp_def, identifiers, head]
    | composed =>
      rw [parts, alternativeParts_eq]
      simp only [build, Entry.nodes, Entry.alternativeNodes_eq, identifiers, List.map_cons,
        List.map_flatMap, List.flatMap_map]
      rw [buildAlternatives_eq, List.flatMap_map]
      rfl

end Definition

namespace Standing

/-- The node restates the definition that stands here. -/
def MirroredBy (definitions : Definitions) (s : Standing) (node : Node Place) : Prop :=
  match s.definition with
  | .reference _ => False
  | .schema kind details items properties oneOf =>
    Mirrors definitions s.place kind details items properties oneOf node

/-- Building a definition makes one schema for each one that is live in it, at its place and with
its identifier. -/
theorem build_identifiers (s : Standing) :
    identifiers (s.definition.build s.place s.id).nodes =
      (s.inner.filter (·.isSchema)).map fun s => (s.place, s.id) := by
  induction s using induction with
  | step s ih =>
    rw [inner_eq, parts]
    cases href : s.definition.isReference with
    | true =>
      obtain ⟨place, id, kept, d⟩ := s
      cases d with
      | reference text => rfl
      | schema => cases href
    | false =>
      rw [Definition.build_identifiers href, List.filter_cons_of_pos (by simp [isSchema, href]),
        List.map_cons, List.filter_flatMap, List.map_flatMap, List.flatMap_map]
      congr 1
      refine List.flatMap_congr fun part hpart => ?_
      exact ih _ (List.mem_map_of_mem hpart)

end Standing

/-- The schemas of a document: one per definition that is no alias and one per live inline
position. -/
def Definitions.schemas (definitions : Definitions) : List Standing :=
  definitions.standings.filter (·.isSchema)

/-- The catalog is the document with its references followed. -/
structure Faithful (convention : Case.Convention) (definitions : Definitions)
    (catalog : Catalog Place) : Prop where
  /-- One node is built for each schema of the document. -/
  built : (Registry.ofDefinitions definitions).nodes.map (·.1) = definitions.schemas.map (·.place)
  distinct : (definitions.schemas.map (·.place)).Nodup
  present : ∀ place, (catalog.node? place).isSome ↔
    ∃ s ∈ definitions.schemas, s.kept ∧ s.place = place
  kept : ∀ s ∈ definitions.schemas, s.kept →
    ∃ node, catalog.node? s.place = some node ∧ s.MirroredBy definitions node
  /-- Also a schema that no slot holds any more was resolved in its turn. -/
  overtaken : ∀ s ∈ definitions.schemas, ¬ s.kept → ∃ node,
    (s.place, node) ∈ (s.visit definitions.registry).after.nodes ∧ s.MirroredBy definitions node
  names : Rekeyed convention.key
    (fun name d slot => definitions.Fills (.registered name) d slot) definitions catalog.names

namespace Definitions
variable {definitions : Definitions}

theorem mem_schemas {s : Standing} :
    s ∈ definitions.schemas ↔ s ∈ definitions.standings ∧ s.isSchema := List.mem_filter

theorem built_identifiers :
    identifiers (Registry.ofDefinitions definitions).nodes =
      definitions.schemas.map fun s => (s.place, s.id) := by
  rw [Registry.nodes, Registry.ofDefinitions, Entry.ofDefinitions, List.flatMap_map, identifiers,
    List.map_flatMap, schemas, standings, List.filter_flatMap, List.map_flatMap]
  exact List.flatMap_congr fun named _ => Standing.build_identifiers (Standing.top named)

theorem built_places :
    (Registry.ofDefinitions definitions).nodes.map (·.1) = definitions.schemas.map (·.place) := by
  have places := congrArg (List.map Prod.fst) (@built_identifiers definitions)
  rwa [identifiers, List.map_map, List.map_map] at places

theorem mirroredBy (ok : definitions.fault? = none) {s : Standing}
    (hs : s ∈ definitions.standings) {head : Head}
    (restates : head.Restates (s.definition.plainHead s.id)) {content : Content Place}
    (filled : s.definition.content definitions.registry s.place = some content) :
    s.MirroredBy definitions ⟨head, content⟩ := by
  unfold Standing.MirroredBy
  split
  · next text reference =>
    rw [reference] at filled
    cases filled
  · next kind details items properties oneOf schema =>
    rw [schema] at restates
    exact mirrors ok hs schema restates filled

theorem inner_subset_standings (s : Standing) (hs : s ∈ definitions.standings) {t : Standing}
    (ht : t ∈ s.inner) : t ∈ definitions.standings := by
  induction s using Standing.induction with
  | step s ih =>
    rcases Standing.mem_inner_iff.mp ht with rfl | ⟨part, hpart, ht⟩
    · exact hs
    · exact ih part hpart (part_mem_standings hs hpart) ht

/-- Nothing that stands in the document makes its own visit fail. -/
theorem visit_ok (ok : definitions.fault? = none) {s : Standing}
    (hs : s ∈ definitions.standings) : (s.visit definitions.registry).fault = none := by
  rw [Standing.visit_fault, List.findSome?_eq_none_iff]
  intro t ht
  have ht := inner_subset_standings s hs ht
  unfold Standing.fault?
  split
  · next text reference =>
    obtain ⟨name, resolved⟩ := reference_resolves ok ht reference
    rw [Entry.check, resolved]
  · rfl

/-- A place says which definition its node comes from. -/
theorem node?_of_kept (distinct : definitions.Distinct) {convention : Case.Convention}
    {catalog : Catalog Place} (resolved : Resolved convention definitions catalog) {s : Standing}
    (hs : s ∈ definitions.standings) (kept : s.kept) (schema : s.isSchema) :
    catalog.node? s.place = s.node? definitions.registry := by
  obtain ⟨node, found⟩ := resolved.exists_node hs kept schema
  obtain ⟨t, ht, -, same, shown⟩ := resolved.exists_standing found
  rw [found, ← shown, distinct.eq_of_place ht hs same]

/-- A resolution that succeeds is the document with its references followed. -/
theorem resolve_faithful (distinct : definitions.Distinct) {convention : Case.Convention}
    {catalog : Catalog Place} (ok : (resolve convention definitions).1 = .ok catalog) :
    Faithful convention definitions catalog := by
  have resolved := Resolved.of_resolve ok
  have clean := resolved.clean
  refine ⟨built_places, ?_, fun place => ?_, fun s hs kept => ?_, fun s hs _ => ?_, ?_⟩
  · exact distinct.nodup_places.sublist (List.filter_sublist.map _)
  · rw [Option.isSome_iff_exists]
    constructor
    · rintro ⟨node, found⟩
      obtain ⟨s, hs, kept, same, shown⟩ := resolved.exists_standing found
      exact ⟨s, mem_schemas.mpr ⟨hs, Standing.isSchema_of_node? shown⟩, kept, same⟩
    · rintro ⟨s, hs, kept, rfl⟩
      obtain ⟨hs, schema⟩ := mem_schemas.mp hs
      exact resolved.exists_node hs kept schema
  · obtain ⟨hs, schema⟩ := mem_schemas.mp hs
    obtain ⟨content, filled⟩ := s.exists_content schema definitions.registry
    refine ⟨⟨s.head, content⟩, ?_, mirroredBy clean hs s.head_restates filled⟩
    rw [node?_of_kept distinct resolved hs kept schema, Standing.node?, filled, Option.map_some]
  · obtain ⟨hs, schema⟩ := mem_schemas.mp hs
    obtain ⟨content, filled⟩ := s.exists_content schema definitions.registry
    have visited := visit_ok clean hs
    have fresh : s.definition.isReference = false := by simpa [Standing.isSchema] using schema
    rw [Standing.visit_eq] at visited ⊢
    obtain ⟨_, inner, filled', listed, -⟩ := Definition.settle_nodes fresh visited
    cases filled.symm.trans filled'
    rw [listed]
    exact ⟨_, List.mem_cons_self,
      mirroredBy clean hs (s.definition.settledHead_restates ..) filled⟩
  · rw [resolved.names]
    refine rekeyed_rekey (f := fun name (d : Definition) =>
      d.slot definitions.registry (.registered name)) fun named hnamed slot => ?_
    exact fills_iff (s := Standing.top named) clean (top_mem_standings hnamed)

theorem resolve_faithful_kennel :
    ∃ catalog, (resolve .type kennel).1 = .ok catalog ∧ Faithful .type kennel catalog :=
  ⟨_, rfl, resolve_faithful (by decide) rfl⟩

end Definitions
end SchemaTables
