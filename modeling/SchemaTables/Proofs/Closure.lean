import SchemaTables.Proofs.Resolution
import SchemaTables.Proofs.Tour

/-!
# A resolved graph is closed

Every slot that a path leads to holds a schema that is there, whatever the path goes through, and so
no walk over a resolved graph meets a reference.
-/
namespace SchemaTables

namespace Definitions
variable {definitions : Definitions}

theorem exists_definition_of_resolve {text name : String}
    (resolved : Reference.resolve definitions.registry text = .ok name) :
    ∃ d, (name, d) ∈ definitions ∧ d.isReference = false := by
  have ends := Reference.resolve_eq_iff.mp resolved
  rw [meaning_registry] at ends
  cases ends with
  | schema reached named found =>
    unfold meaning at found
    split at found
    · cases found
    · cases found
    · next bound =>
      exact ⟨_, Keyed.mem_of_lookup bound, rfl⟩

end Definitions

namespace Resolved
variable {convention : Case.Convention} {definitions : Definitions} {catalog : Catalog Place}

/-- What is kept in the document takes a slot that holds a node. -/
theorem exists_node_of_slot (resolved : Resolved convention definitions catalog) {s : Standing}
    (hs : s ∈ definitions.standings) (kept : s.kept) :
    ∃ place node, s.definition.slot definitions.registry s.place = .node place ∧
      catalog.node? place = some node := by
  cases hd : s.definition with
  | schema kind details items properties oneOf =>
    obtain ⟨node, found⟩ := resolved.exists_node hs kept (by simp [Standing.isSchema, hd,
      Definition.isReference])
    exact ⟨s.place, node, rfl, found⟩
  | reference text =>
    obtain ⟨name, hname⟩ := Definitions.reference_resolves resolved.clean hs hd
    obtain ⟨d, hd', schema⟩ := Definitions.exists_definition_of_resolve hname
    obtain ⟨node, found⟩ := resolved.exists_node (Definitions.top_mem_standings hd') rfl
      (by simp [Standing.isSchema, Standing.top, schema])
    exact ⟨.registered name, node, by simp [Definition.slot, hname], found⟩

/-- The slots of the names and of the nodes hold nodes alone. -/
theorem exists_node_of_reaches (resolved : Resolved convention definitions catalog)
    {slot : Slot Place} (reached : catalog.Reaches slot) :
    ∃ place node, slot = .node place ∧ catalog.node? place = some node := by
  cases reached with
  | named bound =>
    rw [resolved.names, Definitions.names, Keyed.mem_rekey_iff] at bound
    obtain ⟨name, last⟩ := bound
    obtain ⟨named, hnamed, same⟩ := List.mem_map.mp last.mem
    cases same
    exact resolved.exists_node_of_slot (Definitions.top_mem_standings hnamed) rfl
  | part outer found inside =>
    obtain ⟨s, hs, kept, rfl, shown⟩ := resolved.exists_standing found
    obtain ⟨content, filled, rfl⟩ := Option.map_eq_some_iff.mp shown
    obtain ⟨part, hpart, hkept, rfl⟩ := (Definition.mem_slots filled slot).mp inside
    exact resolved.exists_node_of_slot (s := part.standing s.place s.id s.kept)
      (Definitions.part_mem_standings hs (List.mem_map_of_mem hpart))
      (Bool.and_eq_true_iff.mpr ⟨kept, hkept⟩)

/-- No walk over a resolved catalog meets a reference. -/
theorem visit_clean (resolved : Resolved convention definitions catalog) (selection : List String) :
    (catalog.visitSelection selection).fault = none := by
  obtain ⟨entered, tour⟩ := catalog.visitSelection_tour selection
  rcases tour.reaches.2 with same | ⟨text, reached, -⟩
  · exact same
  · obtain ⟨place, node, holds, -⟩ := resolved.exists_node_of_reaches reached
    cases holds

end Resolved

namespace Catalog

/-- A resolved catalog holds nothing but schemas, and every walk over it runs its whole course. -/
theorem closed_of_resolve {convention : Case.Convention} {definitions : Definitions}
    {catalog : Catalog Place} (ok : (resolve convention definitions).1 = .ok catalog) :
    (∀ slot, catalog.Reaches slot →
      ∃ place node, slot = .node place ∧ catalog.node? place = some node) ∧
    ∀ selection, (catalog.visitSelection selection).fault = none ∧
      ∃ entered, catalog.Tour ((catalog.selected selection).map .name) .start entered
        (catalog.visitSelection selection) := by
  have resolved := Resolved.of_resolve ok
  exact ⟨fun slot => resolved.exists_node_of_reaches, fun selection =>
    ⟨resolved.visit_clean selection, catalog.visitSelection_tour selection⟩⟩

theorem closed_of_resolve_kennel : ∃ catalog, (resolve .field kennel).1 = .ok catalog ∧
    (∀ slot, catalog.Reaches slot →
      ∃ place node, slot = .node place ∧ catalog.node? place = some node) ∧
    ∀ selection, (catalog.visitSelection selection).fault = none ∧
      ∃ entered, catalog.Tour ((catalog.selected selection).map .name) .start entered
        (catalog.visitSelection selection) :=
  have ok : (resolve .field kennel).1 = .ok _ := rfl
  ⟨_, ok, closed_of_resolve ok⟩

end Catalog
end SchemaTables
