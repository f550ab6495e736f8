import SchemaTables.Proofs.Faithfulness
import SchemaTables.Proofs.PathIdentifier

/-!
# Identifiers tell schemas apart

Without identifiers of their own and without slashes in their names, the schemas that a document is
built into have pairwise distinct identifiers. A resolution, also one that fails, gives no schema
another identifier than the one it was built with.
-/
namespace SchemaTables

theorem identifiers_cons (place : Place) (node : Node Place) (nodes : List (Place × Node Place)) :
    identifiers ((place, node) :: nodes) = (place, node.head.id) :: identifiers nodes := rfl

theorem append_subset_append {α : Type} {first second inside outside : List α}
    (left : first ⊆ second) (right : inside ⊆ outside) : first ++ inside ⊆ second ++ outside :=
  List.append_subset.mpr ⟨List.subset_append_of_subset_left _ left,
    List.subset_append_of_subset_right _ right⟩

namespace Entry
variable (registry : Registry)

theorem close_after_of {β : Type} {broken whole : β → Entry} {parts : Visit β} {P : Entry → Prop}
    (failed : P (broken parts.after)) (succeeded : P (whole parts.after)) :
    P (close broken whole parts).after := by
  unfold close
  split
  · exact succeeded
  · exact failed

/-- Linking and re-keying fields adds no nodes to theirs. -/
theorem propertyNodes_rekey_subset (key : String → String) (fields : List (String × Entry)) :
    propertyNodes (Keyed.rekey key (fields.map fun field => (field.1, field.2.link registry))) ⊆
      propertyNodes fields := by
  intro node hnode
  rw [propertyNodes_eq, List.mem_flatMap] at hnode ⊢
  obtain ⟨⟨k, entry⟩, hfield, hnode⟩ := hnode
  obtain ⟨name, last⟩ := Keyed.mem_rekey_iff.mp hfield
  obtain ⟨field, hlisted, hsame⟩ := List.mem_map.mp last.mem
  cases hsame
  exact ⟨field, hlisted, by simpa using hnode⟩

theorem alternativeNodes_link (entries : List Entry) :
    alternativeNodes (entries.map (link registry)) = alternativeNodes entries := by
  simp [alternativeNodes_eq, List.flatMap_map]

theorem itemNodes_link (items : Option Entry) :
    itemNodes (items.map (link registry)) = itemNodes items := by
  cases items with
  | none => rfl
  | some entry => exact nodes_link entry

/-- The head that a schema with alternatives is left with has the identifier it had. -/
theorem composed_head_id (name : String) (head : Head) (entries : List Entry) :
    (if entries.isEmpty then head.titledByName name else head).id = head.id := by
  split
  · exact (head.titledByName_restates name).id
  · rfl

mutual

/-- A visit gives nothing another identifier, whatever becomes of it. -/
theorem identifiers_settle (name : String) : (entry : Entry) →
    identifiers (settle registry name entry).after.nodes ⊆ identifiers entry.nodes
  | reference text => List.Subset.refl _
  | target other => List.Subset.refl _
  | scalar site head kind => by
    unfold settle
    split
    · exact List.Subset.refl _
    · have same := (head.titledScalar_restates name kind).id
      simp [nodes, identifiers, Site.settle, same]
  | array site head items => by
    unfold settle
    split
    · exact List.Subset.refl _
    · have inner := identifiers_settleItems name items
      have same := (head.titledByName_restates name).id
      refine close_after_of (P := fun after => identifiers after.nodes ⊆ _) ?_ ?_
      · exact List.cons_subset_cons _ inner
      · simp only [nodes, identifiers_cons, same, itemNodes_link]
        exact List.cons_subset_cons _ inner
  | object site head properties => by
    unfold settle
    split
    · exact List.Subset.refl _
    · have inner := identifiers_settleFields .field false [] properties
      have same := (head.titledByName_restates name).id
      refine close_after_of (P := fun after => identifiers after.nodes ⊆ _) ?_ ?_
      · exact List.cons_subset_cons _ inner
      · simp only [nodes, identifiers_cons, same]
        refine List.cons_subset_cons _ (List.Subset.trans ?_ inner)
        exact List.map_subset _ (propertyNodes_rekey_subset registry _ _)
  | composed site head alternatives => by
    unfold settle
    split
    · exact List.Subset.refl _
    · have inner := identifiers_settleAlternatives name 0 alternatives
      refine close_after_of (P := fun after => identifiers after.nodes ⊆ _) ?_ ?_
      · exact List.cons_subset_cons _ inner
      · simp only [nodes, identifiers_cons, composed_head_id, alternativeNodes_link]
        exact List.cons_subset_cons _ inner

theorem identifiers_settleItems (name : String) : (items : Option Entry) →
    identifiers (itemNodes (settleItems registry name items).after) ⊆
      identifiers (itemNodes items)
  | none => List.Subset.refl _
  | some entry => identifiers_settle name entry

theorem identifiers_settleFields (convention : Case.Convention) (outermost : Bool)
    (met : List String) : (fields : List (String × Entry)) →
    identifiers (propertyNodes (settleFields registry convention outermost met fields).after) ⊆
      identifiers (propertyNodes fields)
  | [] => List.Subset.refl _
  | (name, entry) :: rest => by
    have first := identifiers_settle name entry
    have others := identifiers_settleFields convention outermost (convention.key name :: met) rest
    rw [settleFields]
    split
    · simp only [propertyNodes, identifiers_append]
      exact append_subset_append first (List.Subset.refl _)
    · simp only [propertyNodes, identifiers_append]
      exact append_subset_append first others

theorem identifiers_settleAlternatives (name : String) (index : Nat) : (entries : List Entry) →
    identifiers (alternativeNodes (settleAlternatives registry name index entries).after) ⊆
      identifiers (alternativeNodes entries)
  | [] => List.Subset.refl _
  | entry :: rest => by
    have first := identifiers_settle (alternativeName name index) entry
    have others := identifiers_settleAlternatives name (index + 1) rest
    rw [settleAlternatives]
    split
    · simp only [alternativeNodes, identifiers_append]
      exact append_subset_append first (List.Subset.refl _)
    · simp only [alternativeNodes, identifiers_append]
      exact append_subset_append first others

end

/-- A visited entry is still the one that it was. -/
theorem head?_identifiers_settle (name : String) (entry : Entry) :
    (identifiers (settle registry name entry).after.nodes).head? =
      (identifiers entry.nodes).head? := by
  cases entry with
  | reference text => rfl
  | target other => rfl
  | scalar site head kind =>
    unfold settle
    split
    · rfl
    · simp [nodes, identifiers, Site.settle, (head.titledScalar_restates name kind).id]
  | array site head items =>
    unfold settle
    split
    · rfl
    · refine close_after_of (P := fun after => (identifiers after.nodes).head? = _) rfl ?_
      simp [nodes, identifiers, Site.settle, (head.titledByName_restates name).id]
  | object site head properties =>
    unfold settle
    split
    · rfl
    · refine close_after_of (P := fun after => (identifiers after.nodes).head? = _) rfl ?_
      simp [nodes, identifiers, Site.settle, (head.titledByName_restates name).id]
  | composed site head alternatives =>
    unfold settle
    split
    · rfl
    · refine close_after_of (P := fun after => (identifiers after.nodes).head? = _) rfl ?_
      simp only [nodes, identifiers_cons, composed_head_id, List.head?_cons, Site.settle]

/-- A title is no part of an identifier. -/
theorem identifiers_titled (name : String) (entry : Entry) :
    identifiers (entry.titled name).nodes = identifiers entry.nodes := by
  cases entry with
  | reference text => rfl
  | target name => rfl
  | scalar site head kind =>
    simp [titled, nodes, identifiers, (head.titledScalar_restates name kind).id]
  | array site head items =>
    simp [titled, nodes, identifiers, (head.titledByName_restates name).id]
  | object site head properties =>
    simp [titled, nodes, identifiers, (head.titledByName_restates name).id]
  | composed site head alternatives =>
    simp [titled, nodes, identifiers, (head.titledByName_restates name).id]

end Entry

namespace Registry

theorem identifiers_titled (registry : Registry) :
    identifiers registry.titled.nodes = identifiers registry.nodes := by
  unfold nodes titled
  rw [List.flatMap_map, identifiers, identifiers, List.map_flatMap, List.map_flatMap]
  exact List.flatMap_congr fun named _ => Entry.identifiers_titled named.1 named.2

theorem identifiers_settleAll (registry : Registry) (convention : Case.Convention) :
    identifiers (nodes (registry.settleAll convention true).after) ⊆
      identifiers registry.nodes := by
  have fields := Entry.identifiers_settleFields registry convention true [] registry
  rwa [Entry.propertyNodes_eq, Entry.propertyNodes_eq] at fields

end Registry

namespace Standing
variable (registry : Registry)

/-- A visit leaves a schema at its place and with its identifier. -/
theorem mem_identifiers_visit {s : Standing} (schema : s.isSchema) :
    (s.place, s.id) ∈ identifiers (s.visit registry).after.nodes := by
  have fresh : s.definition.isReference = false := by simpa [isSchema] using schema
  apply List.mem_of_mem_head?
  rw [visit, Entry.head?_identifiers_settle, Definition.build_identifiers fresh]
  rfl

end Standing

/-- Identifiers tell the schemas of a document apart, from when these are built on. -/
structure Definitions.PathIdentified (definitions : Definitions) : Prop where
  /-- One schema is built for each definition that is no alias and for each live position. -/
  built : identifiers (Registry.ofDefinitions definitions).nodes =
    definitions.schemas.map fun s => (s.place, s.id)
  paths : ∀ s ∈ definitions.schemas, s.id = "/".intercalate s.place.words
  distinct : ((Registry.ofDefinitions definitions).nodes.map fun node => node.2.head.id).Nodup
  /-- Also a resolution that fails gives no schema another identifier. -/
  settled : ∀ convention,
    identifiers (Registry.nodes (definitions.registry.settleAll convention true).after) ⊆
      identifiers (Registry.ofDefinitions definitions).nodes
  /-- The visit to a schema, be it one that no slot holds any more, leaves it its identifier. -/
  visited : ∀ s ∈ definitions.schemas,
    (s.place, s.id) ∈ identifiers (s.visit definitions.registry).after.nodes
  resolved : ∀ convention catalog, (resolve convention definitions).1 = .ok catalog →
    identifiers catalog.nodes ⊆ identifiers (Registry.ofDefinitions definitions).nodes ∧
      ∀ s ∈ definitions.schemas, s.kept →
        (catalog.node? s.place).map (·.head.id) = some s.id

namespace Definitions
variable {definitions : Definitions}

theorem nodup_ids (distinct : definitions.Distinct) (unidentified : definitions.Unidentified)
    (bare : definitions.SlashFree) : (definitions.schemas.map (·.id)).Nodup := by
  have standings : definitions.standings.Nodup := distinct.nodup_places.of_map
  refine (standings.filter _).map_on fun s hs t ht same => ?_
  exact distinct.eq_of_id unidentified bare (mem_schemas.mp hs).1 (mem_schemas.mp ht).1 same

theorem nodup_built_ids (distinct : definitions.Distinct)
    (unidentified : definitions.Unidentified) (bare : definitions.SlashFree) :
    ((Registry.ofDefinitions definitions).nodes.map fun node => node.2.head.id).Nodup := by
  have ids := congrArg (List.map Prod.snd) (@built_identifiers definitions)
  rw [identifiers, List.map_map, List.map_map] at ids
  change _ = definitions.schemas.map (·.id) at ids
  exact ids ▸ nodup_ids distinct unidentified bare

theorem settled_identifiers (convention : Case.Convention) :
    identifiers (Registry.nodes (definitions.registry.settleAll convention true).after) ⊆
      identifiers (Registry.ofDefinitions definitions).nodes := by
  have settled := Registry.identifiers_settleAll definitions.registry convention
  rwa [registry, Registry.identifiers_titled] at settled

/-- Slash-free paths identify the schemas of a document, and a resolution changes none of them. -/
theorem path_identified (distinct : definitions.Distinct)
    (unidentified : definitions.Unidentified) (bare : definitions.SlashFree) :
    definitions.PathIdentified where
  built := built_identifiers
  paths s hs := id_eq unidentified (mem_schemas.mp hs).1
  distinct := nodup_built_ids distinct unidentified bare
  settled := settled_identifiers
  visited s hs := Standing.mem_identifiers_visit _ (mem_schemas.mp hs).2
  resolved convention catalog ok := by
    have resolved := Resolved.of_resolve ok
    constructor
    · rw [resolve_fst] at ok
      rw [resolved.clean] at ok
      cases ok
      exact settled_identifiers convention
    · intro s hs kept
      obtain ⟨hs, schema⟩ := mem_schemas.mp hs
      obtain ⟨content, filled⟩ := s.exists_content schema definitions.registry
      rw [node?_of_kept distinct resolved hs kept schema, Standing.node?, filled]
      simp [Standing.head_id schema]

end Definitions

/-- Names that are empty or read like the words of a step, at every kind of position. -/
def warren : Definitions :=
  let leaf : Definition := .schema (.scalar .string) .bare none [] []
  [("", .schema .object .bare none
      [("", leaf), ("items", .schema .array .bare (some leaf) [] []),
        ("oneOf", .schema .object .bare none [("0", leaf), ("items", leaf)] []),
        ("OneOf", .schema .composed .bare none [] [leaf, .reference "#/components/schemas/items"])]
      []),
    ("items", .schema .array .bare (some (.schema .array .bare (some leaf) [] [])) [] []),
    ("oneOf", .schema .composed .bare none [] [leaf, leaf])]

theorem Definitions.path_identified_warren :
    warren.Distinct ∧ warren.Unidentified ∧ warren.SlashFree ∧ warren.PathIdentified :=
  ⟨by decide, by decide, by decide, path_identified (by decide) (by decide) (by decide)⟩

end SchemaTables
