import SchemaTables.Proofs.FirstFault
import SchemaTables.Schema.Untold

/-!
# What a resolution stops at

A resolution comes to the live positions of a document in their order. It stops at the first reference
that leads nowhere, or at the first string with a member that cannot be written, whichever stands
before the other.
-/
namespace SchemaTables

namespace Definition
variable {registry : Registry}

theorem stopProperties?_eq (properties : List (String × Definition)) :
    stopProperties? registry properties =
      (propertyParts properties).findSome? fun part => part.definition.stop? registry := by
  induction properties with
  | nil => rfl
  | cons field rest ih =>
    rw [stopProperties?, propertyParts, List.findSome?_cons, ih]
    cases field.2.stop? registry <;> rfl

theorem stopAlternatives?_eq (index : Nat) (oneOf : List Definition) :
    stopAlternatives? registry oneOf =
      (alternativeParts index oneOf).findSome? fun part => part.definition.stop? registry := by
  induction oneOf generalizing index with
  | nil => rfl
  | cons child rest ih =>
    rw [stopAlternatives?, alternativeParts, List.findSome?_cons, ih (index + 1)]
    cases child.stop? registry <;> rfl

/-- A schema stops a visit by itself, or by the first of its parts that does. -/
theorem stop?_of_schema {d : Definition} (schema : d.isReference = false) :
    d.stop? registry = if d.isUntold then some .enumeration
      else d.parts.findSome? fun part => part.definition.stop? registry := by
  cases d with
  | reference text => cases schema
  | schema kind details items properties oneOf =>
    cases kind with
    | scalar kind =>
      cases kind with
      | string => cases told : details.members.all Value.isTold <;> simp [stop?, isUntold, parts, told]
      | _ => rfl
    | array => cases items <;> simp [stop?, stopItems?, isUntold, parts]
    | object => exact stopProperties?_eq properties
    | composed => exact stopAlternatives?_eq 0 oneOf

end Definition

namespace Standing
variable {registry : Registry}

/-- What a live position stops a visit with, apart from the positions inside it. -/
def stop? (registry : Registry) (s : Standing) : Option Stop :=
  match s.definition with
  | .reference text => (Entry.check registry text).map fun _ => .reference
  | d => if d.isUntold then some .enumeration else none

/-- A visit stops at the first live position that stops it. -/
theorem stop?_definition (s : Standing) :
    s.definition.stop? registry = s.inner.findSome? (stop? registry) := by
  induction s using induction with
  | step s ih =>
    rw [inner_eq, List.findSome?_cons, findSome?_flatMap]
    obtain ⟨place, id, kept, d⟩ := s
    cases d with
    | reference text =>
      show (Entry.check registry text).map _ = _
      simp only [stop?]
      cases Entry.check registry text <;> rfl
    | schema kind details items properties oneOf =>
      rw [Definition.stop?_of_schema rfl]
      simp only [stop?]
      split
      · rfl
      · rw [parts, List.findSome?_map]
        refine findSome?_congr fun part hpart => ?_
        exact ih _ (List.mem_map_of_mem hpart)

end Standing

namespace Definitions
variable {definitions : Definitions}

theorem stop?_eq : definitions.stop? =
    definitions.standings.findSome? (Standing.stop? definitions.registry) := by
  rw [standings, Standing.findSome?_flatMap]
  exact Standing.findSome?_congr fun named _ => Standing.stop?_definition (Standing.top named)

theorem check_eq_none_iff {text : String} :
    Entry.check definitions.registry text = none ↔ Chain.Resolves definitions.meaning text := by
  rw [← meaning_registry, Chain.Resolves]
  simp only [← Reference.resolve_eq_iff]
  unfold Entry.check
  cases Reference.resolve definitions.registry text <;> simp

/-- A string whose members cannot all be written has no title: one that is registered is to be titled
before the references are looked at, and any other where it is come to. -/
inductive Untellable (definitions : Definitions) : Prop
  | registered {named : String × Definition} (listed : named ∈ definitions)
      (untold : named.2.isUntold) : Untellable definitions
  | inside {before after : List Standing} {s : Standing}
      (split : definitions.standings = before ++ s :: after)
      (earlier : ∀ other ∈ before, ∀ text, other.definition = .reference text →
        Chain.Resolves definitions.meaning text)
      (untold : s.definition.isUntold) : Untellable definitions

theorem stop?_eq_enumeration {before after : List Standing} {s : Standing}
    (split : definitions.standings = before ++ s :: after)
    (earlier : ∀ other ∈ before, ∀ text, other.definition = .reference text →
      Chain.Resolves definitions.meaning text)
    (untold : s.definition.isUntold) : definitions.stop? = some .enumeration := by
  have here : s.stop? definitions.registry = some .enumeration := by
    obtain ⟨place, id, kept, d⟩ := s
    cases d with
    | reference text => cases untold
    | schema => exact if_pos untold
  have kinds : ∀ other ∈ before, other.stop? definitions.registry = none ∨
      other.stop? definitions.registry = some .enumeration := by
    intro other listed
    unfold Standing.stop?
    split
    · next text reference =>
      rw [check_eq_none_iff.mpr (earlier other listed text reference)]
      exact .inl rfl
    · split
      · exact .inr rfl
      · exact .inl rfl
  rw [stop?_eq, split, List.findSome?_append, List.findSome?_cons, here]
  clear split earlier
  induction before with
  | nil => rfl
  | cons other before ih =>
    obtain ⟨first, others⟩ := List.forall_mem_cons.mp kinds
    rw [List.findSome?_cons]
    rcases first with none | some
    · rw [none]
      exact ih others
    · rw [some]
      rfl

theorem stop?_eq_enumeration_iff : definitions.stop? = some .enumeration ↔
    ∃ before s after, definitions.standings = before ++ s :: after ∧
      (∀ other ∈ before, ∀ text, other.definition = .reference text →
        Chain.Resolves definitions.meaning text) ∧ s.definition.isUntold := by
  constructor
  · intro stops
    rw [stop?_eq, List.findSome?_eq_some_iff] at stops
    obtain ⟨before, s, after, split, here, clean⟩ := stops
    refine ⟨before, s, after, split, fun other listed text reference => ?_, ?_⟩
    · have none := clean other listed
      unfold Standing.stop? at none
      rw [reference] at none
      exact check_eq_none_iff.mp (by simpa using none)
    · unfold Standing.stop? at here
      split at here
      · cases checked : Entry.check definitions.registry _ <;> rw [checked] at here <;> cases here
      · split at here
        · assumption
        · cases here
  · intro ⟨before, s, after, split, earlier, untold⟩
    exact stop?_eq_enumeration split earlier untold

end Definitions
end SchemaTables
