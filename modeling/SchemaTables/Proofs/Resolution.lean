import SchemaTables.Proofs.AliasChain
import SchemaTables.Proofs.Settlement

/-!
# The outcome of a resolution

A resolution fails with the first live reference that is at fault. If none is, it names the slots of
the definitions and has one node for every schema kept.
-/
namespace SchemaTables

/-- What the resolution of a document works on. -/
def Definitions.registry (definitions : Definitions) : Registry :=
  (Registry.ofDefinitions definitions).titled

/-- How a bad reference is reported, given what is wrong with it. -/
def Occurrence.report (occurrence : Occurrence) (cause : ReferenceFault) : ResolutionFault :=
  if occurrence.outermost then .entry cause else .nested cause

/-- How a live reference makes a resolution fail. -/
def Occurrence.fault? (registry : Registry) (occurrence : Occurrence) : Option ResolutionFault :=
  match Reference.resolve registry occurrence.text with
  | .ok _ => none
  | .error cause => some (occurrence.report cause)

namespace Definitions
variable (definitions : Definitions)

/-- The entry of a definition in the registry. -/
def entryOf (named : String × Definition) : Entry :=
  (named.2.build (.registered named.1) (named.2.idOr named.1)).titled named.1

theorem registry_eq :
    definitions.registry = definitions.map fun named => (named.1, entryOf named) := by
  simp [registry, Registry.ofDefinitions, Entry.ofDefinitions, Registry.titled, entryOf]

theorem isReference_entryOf (named : String × Definition) :
    (entryOf named).isReference = named.2.isReference := by
  obtain ⟨name, d⟩ := named
  rw [entryOf, Definition.build_eq_assemble, Definition.titled_assemble]
  cases d with
  | reference text => rfl
  | schema kind details items properties oneOf => cases kind <;> rfl

theorem lookup_registry (name : String) :
    definitions.registry.lookup name =
      (definitions.lookup name).map fun d => entryOf (name, d) := by
  rw [registry_eq]
  induction definitions with
  | nil => rfl
  | cons named rest ih =>
    obtain ⟨n, d⟩ := named
    rw [List.map_cons, List.lookup_cons, List.lookup_cons, ih]
    cases h : name == n with
    | true => rw [beq_iff_eq.mp h]; rfl
    | false => rfl

/-- The names mean in the registry what they mean in the document. -/
theorem meaning_registry : definitions.registry.meaning = definitions.meaning := by
  funext name
  rw [Registry.meaning, meaning, lookup_registry]
  cases h : definitions.lookup name with
  | none => rfl
  | some d =>
    cases d with
    | reference text => rfl
    | schema kind details items properties oneOf => cases kind <;> rfl

end Definitions

namespace Standing
variable {registry : Registry}

theorem exists_content (s : Standing) (schema : s.isSchema) (registry : Registry) :
    ∃ content, s.definition.content registry s.place = some content := by
  obtain ⟨place, id, kept, d⟩ := s
  cases d with
  | reference text => cases schema
  | schema kind details items properties oneOf => cases kind <;> exact ⟨_, rfl⟩

theorem isSchema_of_node? {s : Standing} {node : Node Place}
    (shown : s.node? registry = some node) : s.isSchema := by
  obtain ⟨place, id, kept, d⟩ := s
  cases d with
  | reference text => cases shown
  | schema => rfl

theorem place_ne_top_of_reference {named : String × Definition}
    (schema : named.2.isReference = false) {t : Standing} (ht : t ∈ (top named).inner)
    (reference : t.definition.isReference) : t.place.steps ≠ [] := by
  rcases mem_inner_iff.mp ht with rfl | ⟨part, hpart, ht⟩
  · rw [top, schema] at reference
    cases reference
  · obtain ⟨tail, htail⟩ := place_of_mem_inner part ht
    obtain ⟨p, -, hplace⟩ := place_of_mem_parts hpart
    simp [htail, hplace]

/-- Inside a registered schema every reference is nested. -/
theorem fault?_eq_bind (named : String × Definition) (schema : named.2.isReference = false)
    {t : Standing} (ht : t ∈ (top named).inner) :
    t.fault? registry = t.occurrence?.bind (Occurrence.fault? registry) := by
  obtain ⟨place, id, kept, d⟩ := t
  cases d with
  | schema => rfl
  | reference text =>
    have inner := place_ne_top_of_reference schema ht rfl
    simp only [fault?, occurrence?, Option.bind_some, Occurrence.fault?, Occurrence.report,
      Entry.check]
    cases Reference.resolve registry text <;> simp [inner]

theorem findSome?_filterMap {α β γ : Type} (f : α → Option β) (g : β → Option γ)
    (items : List α) :
    (items.filterMap f).findSome? g = items.findSome? fun item => (f item).bind g := by
  induction items with
  | nil => rfl
  | cons item rest ih =>
    rw [List.filterMap_cons, List.findSome?_cons]
    cases f item with
    | none => exact ih
    | some _ => rw [List.findSome?_cons, ih, Option.bind_some]

/-- A title does not change what a visit fails with. -/
theorem entryOf_fault (named : String × Definition) :
    ((Definitions.entryOf named).settle registry named.1).fault =
      ((top named).visit registry).fault := by
  have titled := @titled_settle registry (top named) named.1 rfl
  change ((Definitions.entryOf named).settle registry named.1) = _ at titled
  rw [titled, visit_eq]
  cases href : named.2.isReference with
  | true =>
    obtain ⟨name, d⟩ := named
    cases d with
    | reference text => rfl
    | schema => cases href
  | false =>
    have schema : (top named).definition.isReference = false := href
    rw [Definition.settle_fault schema, Definition.settle_fault schema]

theorem top_fault (named : String × Definition) :
    ((Definitions.entryOf named).settle registry named.1).fault.map
        (Entry.outward true (Definitions.entryOf named)) =
      ((top named).inner.filterMap occurrence?).findSome? (Occurrence.fault? registry) := by
  have outward : Entry.outward true (Definitions.entryOf named) =
      fun fault => if named.2.isReference then .entry fault.cause else fault := by
    funext fault
    rw [Entry.outward, Definitions.isReference_entryOf, Bool.true_and]
  rw [outward]
  obtain ⟨name, d⟩ := named
  cases href : d.isReference with
  | true =>
    cases d with
    | schema => cases href
    | reference text =>
      change (Entry.check registry text).map _ = ([⟨true, text⟩] : List Occurrence).findSome? _
      cases h : Reference.resolve registry text <;>
        simp [Entry.check, Occurrence.fault?, Occurrence.report, h, ResolutionFault.cause]
  | false =>
    rw [findSome?_filterMap,
      ← findSome?_congr fun t ht => fault?_eq_bind (name, d) href ht, ← visit_fault,
      entryOf_fault]
    exact Option.map_id_apply

end Standing

namespace Definitions
variable (definitions : Definitions)

/-- The fault of the first live reference that has one. -/
def fault? : Option ResolutionFault :=
  definitions.occurrences.findSome? (Occurrence.fault? definitions.registry)

/-- What the definitions are named by, with the slots they fill. -/
def names (convention : Case.Convention) : List (String × Slot Place) :=
  Keyed.rekey convention.key (definitions.map fun named =>
    (named.1, named.2.slot definitions.registry (.registered named.1)))

variable {definitions}

theorem findSome?_registry {β : Type} (f : String × Entry → Option β) :
    definitions.registry.findSome? f =
      definitions.findSome? fun named => f (named.1, entryOf named) := by
  rw [registry_eq, List.findSome?_map]
  rfl

theorem map_registry {β : Type} (f : String × Entry → β) :
    definitions.registry.map f = definitions.map fun named => f (named.1, entryOf named) := by
  rw [registry_eq, List.map_map]
  rfl

theorem settleAll_fault (convention : Case.Convention) :
    (definitions.registry.settleAll convention true).fault = definitions.fault? := by
  rw [Registry.settleAll, Entry.settleFields_fault, fault?, occurrences, standings,
    List.filterMap_flatMap, Standing.findSome?_flatMap, findSome?_registry]
  exact Standing.findSome?_congr fun named _ => Standing.top_fault named

theorem settleAll_after {convention : Case.Convention} (ok : definitions.fault? = none) :
    (definitions.registry.settleAll convention true).after = definitions.map fun named =>
      (named.1, ((entryOf named).settle definitions.registry named.1).after) := by
  rw [← settleAll_fault convention] at ok
  rw [Registry.settleAll, Entry.settleFields_after ok, map_registry]

theorem boundNames_eq {convention : Case.Convention} (ok : definitions.fault? = none) :
    definitions.registry.boundNames convention
        (definitions.registry.settleAll convention true).after = definitions.names convention := by
  rw [settleAll_after ok, Registry.boundNames, names, List.map_map]
  congr 2
  funext named
  rw [Function.comp_apply, entryOf, Definition.build_eq_assemble, Definition.titled_assemble,
    Definition.slot_settle]

theorem top_visit_fault (ok : definitions.fault? = none) {named : String × Definition}
    (hnamed : named ∈ definitions) :
    ((Standing.top named).visit definitions.registry).fault = none := by
  rw [← settleAll_fault .type, Registry.settleAll, Entry.settleFields_fault, findSome?_registry,
    List.findSome?_eq_none_iff] at ok
  rw [← Standing.entryOf_fault]
  exact Option.map_eq_none_iff.mp (ok named hnamed)

theorem mem_nodes_iff {convention : Case.Convention} (ok : definitions.fault? = none)
    (place : Place) (node : Node Place) :
    (place, node) ∈ Registry.nodes (definitions.registry.settleAll convention true).after ↔
      ∃ s ∈ definitions.standings, s.kept ∧ s.place = place ∧
        s.node? definitions.registry = some node := by
  rw [settleAll_after ok, Registry.nodes, List.flatMap_map, List.mem_flatMap]
  constructor
  · rintro ⟨named, hnamed, hnode⟩
    have shown := (Standing.mem_top_nodes (s := Standing.top named) rfl rfl
      (top_visit_fault ok hnamed) place node).mp hnode
    obtain ⟨s, hs, shown⟩ := shown
    exact ⟨s, mem_standings_iff.mpr ⟨named, hnamed, hs⟩, shown⟩
  · rintro ⟨s, hs, shown⟩
    obtain ⟨named, hnamed, hs⟩ := mem_standings_iff.mp hs
    exact ⟨named, hnamed, (Standing.mem_top_nodes (s := Standing.top named) rfl rfl
      (top_visit_fault ok hnamed) place node).mpr ⟨s, hs, shown⟩⟩

theorem resolve_fst (convention : Case.Convention) :
    (resolve convention definitions).1 =
      match definitions.fault? with
      | some fault => .error fault
      | none => .ok ⟨definitions.names convention,
          Registry.nodes (definitions.registry.settleAll convention true).after⟩ := by
  have fault : (definitions.registry.settleAll convention true).fault = definitions.fault? :=
    settleAll_fault convention
  unfold resolve
  unfold registry at fault
  simp only [fault]
  cases ok : definitions.fault? with
  | some fault => rfl
  | none => simp only [← @boundNames_eq definitions convention ok]; rfl

theorem resolve_eq_error_iff {convention : Case.Convention} {fault : ResolutionFault} :
    (resolve convention definitions).1 = .error fault ↔ definitions.fault? = some fault := by
  rw [resolve_fst]
  cases definitions.fault? <;> simp

theorem reference_resolves (ok : definitions.fault? = none) {s : Standing}
    (hs : s ∈ definitions.standings) {text : String} (reference : s.definition = .reference text) :
    ∃ name, Reference.resolve definitions.registry text = .ok name := by
  rw [fault?, List.findSome?_eq_none_iff] at ok
  have found : (⟨s.place.steps.isEmpty, text⟩ : Occurrence) ∈ definitions.occurrences :=
    List.mem_filterMap.mpr ⟨s, hs, by simp [Standing.occurrence?, reference]⟩
  have none := ok _ found
  unfold Occurrence.fault? at none
  split at none
  · exact ⟨_, ‹_›⟩
  · cases none

end Definitions

/-- What a resolution that succeeds gives. -/
structure Resolved (convention : Case.Convention) (definitions : Definitions)
    (catalog : Catalog Place) : Prop where
  clean : definitions.fault? = none
  names : catalog.names = definitions.names convention
  nodes : ∀ place node, (place, node) ∈ catalog.nodes ↔ ∃ s ∈ definitions.standings,
    s.kept ∧ s.place = place ∧ s.node? definitions.registry = some node

namespace Resolved
variable {convention : Case.Convention} {definitions : Definitions} {catalog : Catalog Place}

theorem of_resolve (ok : (resolve convention definitions).1 = .ok catalog) :
    Resolved convention definitions catalog := by
  rw [Definitions.resolve_fst] at ok
  cases none : definitions.fault? with
  | some fault => simp [none] at ok
  | none =>
    rw [none] at ok
    cases ok
    exact ⟨none, rfl, Definitions.mem_nodes_iff none⟩

theorem exists_standing (resolved : Resolved convention definitions catalog) {place : Place}
    {node : Node Place} (found : catalog.node? place = some node) :
    ∃ s ∈ definitions.standings, s.kept ∧ s.place = place ∧
      s.node? definitions.registry = some node := by
  exact (resolved.nodes place node).mp (Keyed.mem_of_lookup found)

theorem exists_node (resolved : Resolved convention definitions catalog) {s : Standing}
    (hs : s ∈ definitions.standings) (kept : s.kept) (schema : s.isSchema) :
    ∃ node, catalog.node? s.place = some node := by
  obtain ⟨content, filled⟩ := s.exists_content schema definitions.registry
  have listed := (resolved.nodes s.place ⟨s.head, content⟩).mpr
    ⟨s, hs, kept, rfl, by rw [Standing.node?, filled, Option.map_some]⟩
  cases found : catalog.node? s.place with
  | some node => exact ⟨node, rfl⟩
  | none =>
    have := List.lookup_eq_none_iff.mp found _ listed
    simp at this

end Resolved

/-- A document with aliases of aliases, a cycle through an inline array, and names that meet once
they are re-cased. -/
def kennel : Definitions :=
  [("dog", .schema .object .bare none
      [("Owner", .reference "#/components/schemas/Keeper"),
        ("litter", .schema .array .bare (some (.reference "#/components/schemas/Pup")) [] []),
        ("owner", .schema .composed .bare none []
          [.schema (.scalar .string) .bare none [] [], .reference "#/components/schemas/dog"])] []),
    ("Pup", .reference "#/components/schemas/Hound"),
    ("Hound", .reference "#/components/schemas/dog"),
    ("Keeper", .schema .object .bare none [] []),
    ("keeper", .schema (.scalar .integer) .bare none [] [])]

end SchemaTables
