import Mathlib.Algebra.GroupWithZero.Nat
import SchemaTables.Proofs.Faithfulness

/-!
# Re-casing reports what it overwrites

Names that meet once they are re-cased overwrite one another, and the last one stays. Each
overwritten entry is reported once, under the name of the next one with its key, whether the entry
is a definition or a property of an object, and however many references lead to that object.
-/
namespace SchemaTables
open scoped List

namespace Keyed
variable {β : Type}

/-- The names whose keys were met before them, or are among those in `met`. -/
def repeated (key : String → String) (met : List String) : List String → List String
  | [] => []
  | name :: rest =>
    (if met.contains (key name) then [name] else []) ++ repeated key (key name :: met) rest

/-- For each name whose key comes again, the name under which it comes next. -/
def overwriters (key : String → String) : List String → List String
  | [] => []
  | name :: rest => (rest.find? fun later => key later == key name).toList ++ overwriters key rest

variable {key : String → String}

/-- Only the set of the keys met matters. -/
theorem repeated_congr {met met' : List String} (same : ∀ k, k ∈ met ↔ k ∈ met')
    (names : List String) : repeated key met names = repeated key met' names := by
  induction names generalizing met met' with
  | nil => rfl
  | cons name rest ih =>
    have contained : met.contains (key name) = met'.contains (key name) := by
      rw [Bool.eq_iff_iff, List.contains_iff_mem, List.contains_iff_mem]
      exact same _
    rw [repeated, repeated, contained, ih]
    intro k
    rw [List.mem_cons, List.mem_cons, same]

/-- One more key that was met adds the first name that has it. -/
theorem repeated_cons_perm {k : String} {met : List String} (fresh : k ∉ met)
    (names : List String) : repeated key (k :: met) names ~
      (names.find? fun name => key name == k).toList ++ repeated key met names := by
  induction names generalizing met with
  | nil => rfl
  | cons name rest ih =>
    rw [repeated, repeated, List.find?_cons]
    by_cases same : key name = k
    · have twice : repeated key (key name :: k :: met) rest = repeated key (k :: met) rest :=
        repeated_congr (by simp [same]) rest
      simp [same, fresh, ← twice]
    · have swapped : repeated key (key name :: k :: met) rest =
          repeated key (k :: key name :: met) rest := repeated_congr (by grind) rest
      have apart : (key name == k) = false := by simpa using same
      have here : (k :: met).contains (key name) = met.contains (key name) := by simp [same]
      have unmet : k ∉ key name :: met := by simp [fresh, Ne.symm same]
      have others := ih unmet
      rw [swapped, here, apart]
      exact (others.append_left _).trans (List.perm_append_comm_assoc _ _ _)

/-- Every name that is overwritten has one that overwrites it. -/
theorem repeated_perm_overwriters (names : List String) :
    repeated key [] names ~ overwriters key names := by
  induction names with
  | nil => rfl
  | cons name rest ih =>
    calc
      repeated key [] (name :: rest) = repeated key [key name] rest := rfl
      _ ~ (rest.find? fun later => key later == key name).toList ++ repeated key [] rest :=
        repeated_cons_perm (by simp) rest
      _ ~ overwriters key (name :: rest) := ih.append_left _

/-- Re-keying leaves all names but those that are repeated. -/
theorem length_rekey (key : String → String) (fields : List (String × β)) :
    (rekey key fields).length + (overwriters key (fields.map (·.1))).length = fields.length := by
  rw [← (repeated_perm_overwriters _).length_eq]
  unfold rekey
  suffices h : ∀ (bound : List (String × β)) (met : List String),
      (bound.map (·.1)).Pairwise (· < ·) → (∀ k, k ∈ met ↔ k ∈ bound.map (·.1)) →
      (fields.foldl (fun bound field => insert (key field.1) field.2 bound) bound).length +
        (repeated key met (fields.map (·.1))).length = bound.length + fields.length by
    simpa using h [] [] List.Pairwise.nil (by simp)
  induction fields with
  | nil => simp [repeated]
  | cons field rest ih =>
    intro bound met sorted same
    have step := ih (insert (key field.1) field.2 bound) (key field.1 :: met)
      (insert_sorted _ _ sorted) (fun k => by rw [List.mem_cons, mem_keys_insert, same])
    have length := length_insert (key field.1) field.2 sorted
    rw [List.foldl_cons, List.map_cons, repeated, List.length_append, List.length_cons]
    by_cases listed : key field.1 ∈ bound.map (·.1)
    · rw [if_pos listed] at length
      rw [if_pos (by rw [List.contains_iff_mem, same]; exact listed)]
      simp only [List.length_singleton]
      omega
    · rw [if_neg listed] at length
      rw [if_neg (by rw [List.contains_iff_mem, same]; exact listed)]
      simp only [List.length_nil]
      omega

end Keyed

namespace Definition

/-- The properties of an object. -/
def fields : Definition → List (String × Definition)
  | schema .object _ _ properties _ => properties
  | _ => []

def isObject : Definition → Bool
  | schema .object .. => true
  | _ => false

end Definition

/-- What is reported of the properties of an object. -/
def Standing.overwriters (s : Standing) : List String :=
  Keyed.overwriters Case.uncapitalize (s.definition.fields.map (·.1))

namespace Definitions

/-- The objects of a document, registered or inline. -/
def objects (definitions : Definitions) : List Standing :=
  definitions.standings.filter (·.definition.isObject)

/-- The names under which the entries that are overwritten are reported. -/
def overwriters (definitions : Definitions) (convention : Case.Convention) : List String :=
  Keyed.overwriters convention.key (definitions.map (·.1)) ++
    definitions.objects.flatMap Standing.overwriters

end Definitions

namespace Entry
variable {registry : Registry}

@[simp] theorem close_notices {β : Type} (broken whole : β → Entry) (parts : Visit β) :
    (close broken whole parts).notices = parts.notices := by
  unfold close
  split <;> rfl

/-- What is reported of a collection: what its entries report, and the names that are repeated. -/
theorem settleFields_notices {convention : Case.Convention} {outermost : Bool} {met : List String}
    {entries : List (String × Entry)}
    (ok : (settleFields registry convention outermost met entries).fault = none) :
    (settleFields registry convention outermost met entries).notices ~
      (entries.flatMap fun e => (settle registry e.1 e.2).notices) ++
        (Keyed.repeated convention.key met (entries.map (·.1))).map .collision := by
  induction entries generalizing met with
  | nil => rfl
  | cons e rest ih =>
    obtain ⟨name, entry⟩ := e
    rw [settleFields] at ok ⊢
    cases hfault : (settle registry name entry).fault with
    | some fault => simp [hfault] at ok
    | none =>
      simp only [hfault] at ok ⊢
      have others := ih ok
      rw [List.flatMap_cons, List.map_cons, Keyed.repeated, List.map_append, List.append_assoc,
        List.append_assoc]
      have own : (if met.contains (convention.key name) then [Notice.collision name] else []) =
          (if met.contains (convention.key name) then [name] else []).map .collision := by
        split <;> rfl
      rw [own]
      refine List.Perm.append_left _ ((others.append_left _).trans ?_)
      exact List.perm_append_comm_assoc _ _ _

theorem settleAlternatives_notices {place : Place} {id : String} {index : Nat}
    {oneOf : List Definition}
    (ok : (settleAlternatives registry place.basis index
      (Definition.buildAlternatives place id index oneOf)).fault = none) :
    (settleAlternatives registry place.basis index
        (Definition.buildAlternatives place id index oneOf)).notices =
      (oneOf.zipIdx index).flatMap fun child =>
        (child.1.visitPart registry place id (.alternative child.2)).notices := by
  induction oneOf generalizing index with
  | nil => rfl
  | cons child rest ih =>
    rw [Definition.buildAlternatives, settleAlternatives] at ok ⊢
    rw [List.zipIdx_cons, List.flatMap_cons]
    simp only [Definition.visitPart, Step.segment, Step.basis, ← String.append_assoc] at ih ⊢
    split at ok
    · simp at ok
    · next hfault =>
      simp only at ok ⊢
      rw [ih ok]

end Entry

namespace Definition
variable {registry : Registry}

/-- A visit reports what the parts report, and what overwrites a property. -/
theorem visitUnder_notices {d : Definition} {place : Place} {id : String} {head : Head}
    (ok : (d.visitUnder registry place id head).fault = none) :
    (d.visitUnder registry place id head).notices ~
      (d.parts.flatMap fun part =>
          (part.definition.visitPart registry place id part.step).notices) ++
        (Keyed.overwriters Case.uncapitalize (d.fields.map (·.1))).map .collision := by
  cases d with
  | reference text => rfl
  | schema kind details items properties oneOf =>
    cases kind with
    | scalar kind => rfl
    | array =>
      cases items with
      | none => rfl
      | some child => simp [visitUnder, assemble, buildItems, Entry.settle, Entry.settleItems,
          parts, visitPart, Visit.map, Step.basis, Step.segment, fields, Keyed.overwriters]
    | object =>
      simp only [visitUnder, assemble, Entry.settle, Bool.false_eq_true, if_false] at ok ⊢
      rw [Entry.close_fault] at ok
      rw [Entry.close_notices]
      have names : (buildProperties place id properties).map (·.1) = properties.map (·.1) := by
        rw [buildProperties_eq, List.map_map]
        rfl
      have inner : ((buildProperties place id properties).flatMap fun field =>
          (field.2.settle registry field.1).notices) =
            (propertyParts properties).flatMap fun part =>
              (part.definition.visitPart registry place id part.step).notices := by
        rw [buildProperties_eq, List.flatMap_map, List.flatMap_def, List.flatMap_def]
        exact congrArg List.flatten (map_propertyParts (fun step child =>
          (child.visitPart registry place id step).notices) properties).symm
      have reported := Entry.settleFields_notices ok
      rw [names, inner] at reported
      exact reported.trans ((Keyed.repeated_perm_overwriters _).map _ |>.append_left _)
    | composed =>
      simp only [visitUnder, assemble, Entry.settle, Bool.false_eq_true, if_false] at ok ⊢
      rw [Entry.close_fault] at ok
      rw [Entry.close_notices, Entry.settleAlternatives_notices ok, parts, alternativeParts_eq,
        List.flatMap_map]
      simp [fields, Keyed.overwriters]

end Definition

namespace Standing
variable {registry : Registry}

theorem overwriters_of_not_isObject {s : Standing} (other : ¬ s.definition.isObject) :
    s.overwriters = [] := by
  obtain ⟨place, id, kept, d⟩ := s
  cases d with
  | reference text => rfl
  | schema kind details items properties oneOf =>
    cases kind with
    | object => exact absurd rfl other
    | _ => rfl

/-- What is reported inside a standing is reported of the objects in it. -/
theorem flatMap_overwriters (standings : List Standing) :
    (standings.filter (·.definition.isObject)).flatMap overwriters =
      standings.flatMap overwriters := by
  induction standings with
  | nil => rfl
  | cons s rest ih =>
    rw [List.filter_cons, List.flatMap_cons]
    by_cases object : s.definition.isObject
    · rw [if_pos object, List.flatMap_cons, ih]
    · rw [if_neg object, ih, overwriters_of_not_isObject object, List.nil_append]

theorem visitPart_ok {s : Standing} {head : Head}
    (ok : (s.definition.visitUnder registry s.place s.id head).fault = none) {part : Part}
    (hpart : part ∈ s.definition.parts) :
    (part.definition.visitPart registry s.place s.id part.step).fault = none := by
  cases href : s.definition.isReference with
  | true =>
    obtain ⟨place, id, kept, d⟩ := s
    cases d with
    | reference text => cases hpart
    | schema => cases href
  | false =>
    rw [Definition.settle_fault href, List.findSome?_eq_none_iff] at ok
    exact ok part hpart

/-- A visit reports every overwritten property inside, each once. -/
theorem visitUnder_reports {s : Standing} {head : Head}
    (ok : (s.definition.visitUnder registry s.place s.id head).fault = none) :
    (s.definition.visitUnder registry s.place s.id head).notices ~
      (s.inner.flatMap overwriters).map .collision := by
  induction s using induction generalizing head with
  | step s ih =>
    have inner : ∀ part ∈ s.definition.parts,
        (part.definition.visitPart registry s.place s.id part.step).notices ~
          ((part.standing s.place s.id s.kept).inner.flatMap overwriters).map .collision := by
      intro part hpart
      have clean := visitPart_ok ok hpart
      rw [← visit_standing s.place s.id s.kept, visit_eq] at clean ⊢
      exact ih _ (List.mem_map_of_mem hpart) clean
    calc (s.definition.visitUnder registry s.place s.id head).notices
      _ ~ (s.definition.parts.flatMap fun part =>
          (part.definition.visitPart registry s.place s.id part.step).notices) ++
            s.overwriters.map .collision := Definition.visitUnder_notices ok
      _ ~ (s.definition.parts.flatMap fun part =>
          ((part.standing s.place s.id s.kept).inner.flatMap overwriters).map .collision) ++
            s.overwriters.map .collision := (List.Perm.flatMap_left _ inner).append_right _
      _ ~ s.overwriters.map .collision ++ s.definition.parts.flatMap fun part =>
          ((part.standing s.place s.id s.kept).inner.flatMap overwriters).map .collision :=
        List.perm_append_comm
      _ = (s.inner.flatMap overwriters).map .collision := by
        rw [inner_eq, List.flatMap_cons, List.map_append, parts, List.flatMap_map,
          List.flatMap_assoc, List.map_flatMap]

end Standing

/-- What a resolution leaves of a schema: its node in the catalog or, if no slot holds the schema
any more, the node that the visit to it left. -/
def Standing.resolved? (definitions : Definitions) (catalog : Catalog Place) (s : Standing) :
    Option (Node Place) :=
  if s.kept then catalog.node? s.place
  else (s.visit definitions.registry).after.nodes.lookup s.place

/-- The slots are those of the fields under their new keys, without the ones overwritten. -/
structure Recased {β γ : Type} (key : String → String) (fills : String → β → γ → Prop)
    (fields : List (String × β)) (slots : List (String × γ)) : Prop
    extends Rekeyed key fills fields slots where
  keys : ∀ k, k ∈ slots.map (·.1) ↔ ∃ field ∈ fields, key field.1 = k
  overwritten : slots.length + (Keyed.overwriters key (fields.map (·.1))).length = fields.length

namespace Definitions

/-- The names of a catalog are those of the definitions, re-cased. -/
def RecasesNames (definitions : Definitions) (convention : Case.Convention)
    (catalog : Catalog Place) : Prop :=
  Recased convention.key (fun name d slot => definitions.Fills (.registered name) d slot)
    definitions catalog.names

/-- The properties that a resolution leaves of an object are those it was given, re-cased. -/
def RecasesProperties (definitions : Definitions) (catalog : Catalog Place) (s : Standing) : Prop :=
  ∃ node, s.resolved? definitions catalog = some node ∧
    Recased Case.uncapitalize
      (fun name child slot => definitions.Fills (s.place.child (.property name)) child slot)
      s.definition.fields node.content.properties

/-- How many properties a resolution leaves of a schema. -/
def propertyCount (definitions : Definitions) (catalog : Catalog Place) (s : Standing) : Nat :=
  ((s.resolved? definitions catalog).map fun node => node.content.properties.length).getD 0

/-- Nothing that re-casing overwrites goes unreported. -/
structure Recases (definitions : Definitions) (convention : Case.Convention)
    (catalog : Catalog Place) (notices : List Notice) : Prop where
  names : definitions.RecasesNames convention catalog
  properties : ∀ s ∈ definitions.objects, definitions.RecasesProperties catalog s
  warnings : Notice.messages .warning notices ~
    (definitions.overwriters convention).map fun name =>
      "Schema name " ++ name ++ " collides with another entry after re-casing"
  count : (Notice.messages .warning notices).length =
    (definitions.length - catalog.names.length) + (definitions.objects.map fun s =>
      s.definition.fields.length - definitions.propertyCount catalog s).sum

end Definitions

theorem recased_rekey {β γ : Type} {key : String → String} {fills : String → β → γ → Prop}
    {fields : List (String × β)} {f : String × β → γ}
    (rekeyed : Rekeyed key fills fields
      (Keyed.rekey key (fields.map fun field => (field.1, f field)))) :
    Recased key fills fields (Keyed.rekey key (fields.map fun field => (field.1, f field))) where
  toRekeyed := rekeyed
  keys k := by simp [Keyed.mem_keys_rekey]
  overwritten := by
    have length := Keyed.length_rekey key (fields.map fun field => (field.1, f field))
    rwa [List.map_map, List.length_map] at length

namespace Notice

theorem messages_perm (level : Level) {first second : List Notice} (same : first ~ second) :
    messages level first ~ messages level second := (same.filter _).map _

theorem messages_collision (names : List String) :
    messages .warning (names.map .collision) = names.map fun name =>
      "Schema name " ++ name ++ " collides with another entry after re-casing" := by
  induction names with
  | nil => rfl
  | cons name rest ih =>
    rw [List.map_cons, List.map_cons, ← ih]
    rfl

end Notice

namespace Definitions
variable {definitions : Definitions}

theorem entryOf_visit (named : String × Definition) :
    (entryOf named).settle definitions.registry named.1 =
      (Standing.top named).definition.visitUnder definitions.registry (Standing.top named).place
        (Standing.top named).id
        (named.2.titledHead named.1 (named.2.plainHead (Standing.top named).id)) :=
  Standing.titled_settle (s := Standing.top named) rfl

/-- The visits of a document report what is overwritten in it, each entry once. -/
theorem settleAll_notices {convention : Case.Convention} (ok : definitions.fault? = none) :
    (definitions.registry.settleAll convention true).notices ~
      (definitions.overwriters convention).map .collision := by
  have clean : (Entry.settleFields definitions.registry convention true []
      definitions.registry).fault = none := by
    rw [← Registry.settleAll, settleAll_fault, ok]
  have names : definitions.registry.map (·.1) = definitions.map (·.1) := map_registry (·.1)
  have inner : (definitions.registry.flatMap fun e =>
      (e.2.settle definitions.registry e.1).notices) ~
        (definitions.objects.flatMap Standing.overwriters).map .collision := by
    rw [registry_eq, List.flatMap_map, ← registry_eq, objects, Standing.flatMap_overwriters,
      standings, List.flatMap_assoc, List.map_flatMap]
    refine List.Perm.flatMap_left _ fun named hnamed => ?_
    have ok := top_visit_fault ok hnamed
    rw [← Standing.entryOf_fault] at ok
    rw [entryOf_visit] at ok ⊢
    exact Standing.visitUnder_reports ok
  have own : Keyed.repeated convention.key [] (definitions.map (·.1)) ~
      Keyed.overwriters convention.key (definitions.map (·.1)) := Keyed.repeated_perm_overwriters _
  have reported := Entry.settleFields_notices clean
  rw [names] at reported
  calc (definitions.registry.settleAll convention true).notices
    _ ~ (definitions.registry.flatMap fun e =>
        (e.2.settle definitions.registry e.1).notices) ++
          (Keyed.repeated convention.key [] (definitions.map (·.1))).map Notice.collision :=
      reported
    _ ~ (Keyed.repeated convention.key [] (definitions.map (·.1))).map Notice.collision ++
        definitions.registry.flatMap fun e =>
          (e.2.settle definitions.registry e.1).notices := List.perm_append_comm
    _ ~ (Keyed.overwriters convention.key (definitions.map (·.1))).map .collision ++
        (definitions.objects.flatMap Standing.overwriters).map .collision :=
      (own.map _).append inner
    _ = (definitions.overwriters convention).map .collision := List.map_append.symm

theorem resolve_snd {convention : Case.Convention} (ok : definitions.fault? = none) :
    (resolve convention definitions).2 =
      (definitions.registry.settleAll convention true).notices ++
        [.resolved (definitions.names convention).length definitions.length] := by
  have fault : (definitions.registry.settleAll convention true).fault = none := by
    rw [settleAll_fault, ok]
  have names := @boundNames_eq definitions convention ok
  unfold resolve
  unfold registry at fault names ⊢
  simp only [fault, names]

theorem resolve_warnings {convention : Case.Convention} (ok : definitions.fault? = none) :
    Notice.messages .warning (resolve convention definitions).2 ~
      (definitions.overwriters convention).map fun name =>
        "Schema name " ++ name ++ " collides with another entry after re-casing" := by
  rw [resolve_snd ok, Notice.messages_append, ← Notice.messages_collision]
  have none : Notice.messages .warning
      [.resolved (definitions.names convention).length definitions.length] = [] := rfl
  rw [none, List.append_nil]
  exact Notice.messages_perm _ (settleAll_notices ok)

theorem recases_names {convention : Case.Convention} {catalog : Catalog Place}
    (resolved : Resolved convention definitions catalog) :
    definitions.RecasesNames convention catalog := by
  have rekeyed : Rekeyed convention.key
      (fun name d slot => definitions.Fills (.registered name) d slot) definitions
      (definitions.names convention) :=
    rekeyed_rekey (f := fun name d => d.slot definitions.registry (.registered name))
      fun named hnamed slot =>
        fills_iff (s := Standing.top named) resolved.clean (top_mem_standings hnamed)
  rw [RecasesNames, resolved.names]
  exact recased_rekey rekeyed

theorem exists_resolved? (distinct : definitions.Distinct) {convention : Case.Convention}
    {catalog : Catalog Place} (resolved : Resolved convention definitions catalog) {s : Standing}
    (hs : s ∈ definitions.standings) (schema : s.isSchema) :
    ∃ node, s.resolved? definitions catalog = some node ∧
      node.head.Restates (s.definition.plainHead s.id) ∧
      s.definition.content definitions.registry s.place = some node.content := by
  obtain ⟨content, filled⟩ := s.exists_content schema definitions.registry
  unfold Standing.resolved?
  split
  · next kept =>
    refine ⟨⟨s.head, content⟩, ?_, s.head_restates, filled⟩
    rw [node?_of_kept distinct resolved hs kept schema, Standing.node?, filled, Option.map_some]
  · have visited := visit_ok resolved.clean hs
    have fresh : s.definition.isReference = false := by simpa [Standing.isSchema] using schema
    rw [Standing.visit_eq] at visited ⊢
    obtain ⟨_, inner, filled', listed, -⟩ := Definition.settle_nodes fresh visited
    cases filled.symm.trans filled'
    rw [listed, List.lookup_cons_self]
    exact ⟨_, rfl, s.definition.settledHead_restates .., filled⟩

theorem recases_properties (distinct : definitions.Distinct) {convention : Case.Convention}
    {catalog : Catalog Place} (resolved : Resolved convention definitions catalog) {s : Standing}
    (hs : s ∈ definitions.objects) : definitions.RecasesProperties catalog s := by
  obtain ⟨listed, object⟩ := List.mem_filter.mp hs
  obtain ⟨place, id, kept, d⟩ := s
  cases d with
  | reference text => cases object
  | schema kind details items properties oneOf =>
    cases kind with
    | object =>
      obtain ⟨⟨head, content⟩, left, restates, filled⟩ :=
        exists_resolved? distinct resolved listed rfl
      have rekeyed := (mirrors resolved.clean listed rfl restates filled).properties rfl
      refine ⟨_, left, ?_⟩
      cases filled
      exact recased_rekey rekeyed
    | _ => cases object

theorem propertyCount_add {catalog : Catalog Place} {s : Standing}
    (recases : definitions.RecasesProperties catalog s) :
    definitions.propertyCount catalog s + s.overwriters.length = s.definition.fields.length := by
  obtain ⟨node, left, recased⟩ := recases
  rw [propertyCount, left]
  exact recased.overwritten

/-- The reports are as many as the entries overwritten in the document and in its objects. -/
theorem length_overwriters {convention : Case.Convention} {catalog : Catalog Place}
    (names : definitions.RecasesNames convention catalog)
    (properties : ∀ s ∈ definitions.objects, definitions.RecasesProperties catalog s) :
    (definitions.overwriters convention).length =
      (definitions.length - catalog.names.length) + (definitions.objects.map fun s =>
        s.definition.fields.length - definitions.propertyCount catalog s).sum := by
  rw [overwriters, List.length_append, List.length_flatMap]
  congr 1
  · have outer := names.overwritten
    omega
  · refine congrArg List.sum (List.map_congr_left fun s hs => ?_)
    have inner := propertyCount_add (properties s hs)
    omega

/-- A resolution that succeeds keeps the last of the entries that meet, and reports the others. -/
theorem resolve_recases (distinct : definitions.Distinct) {convention : Case.Convention}
    {catalog : Catalog Place} (ok : (resolve convention definitions).1 = .ok catalog) :
    definitions.Recases convention catalog (resolve convention definitions).2 := by
  have resolved := Resolved.of_resolve ok
  have names := recases_names resolved
  have properties := fun s hs => recases_properties (s := s) distinct resolved hs
  have warnings := @resolve_warnings definitions convention resolved.clean
  refine ⟨names, properties, warnings, ?_⟩
  rw [warnings.length_eq, List.length_map, length_overwriters names properties]

end Definitions

/-- Two names that meet, one of them an alias of the other; properties that meet, the first of them
an object with properties that meet; and a cycle back to it all. -/
def hutch : Definitions :=
  let leaf : Definition := .schema (.scalar .string) .bare none [] []
  [("rabbit", .schema .object .bare none
      [("Ear", .schema .object .bare none [("Tip", leaf), ("tip", leaf)] []),
        ("mate", .reference "#/components/schemas/Rabbit"), ("ear", leaf)] []),
    ("Rabbit", .reference "#/components/schemas/rabbit")]

theorem Definitions.resolve_recases_hutch : ∃ catalog, (resolve .type hutch).1 = .ok catalog ∧
    hutch.Recases .type catalog (resolve .type hutch).2 :=
  ⟨_, rfl, resolve_recases (by decide) rfl⟩

example : hutch.overwriters .type = ["Rabbit", "ear", "tip"] := by decide

end SchemaTables
