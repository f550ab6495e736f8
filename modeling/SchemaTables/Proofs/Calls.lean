import SchemaTables.Proofs.Faithfulness
import SchemaTables.Proofs.HeapVisits

/-!
# Calls on a registry, as they act on objects

The schemas of a registry can be settled one by one, under any name and in any order, or all together
in one go, and each call may fail. On the heap of all objects that were built, every call is one of
`Passes`: over the slot of the schema, or over all the slots that are registered.
-/
namespace SchemaTables

/-- What calls can make of a heap, one after the other. -/
def Heap.Later (follow : Follow) : Heap → Heap → Prop :=
  Relation.ReflTransGen fun heap after =>
    ∃ outermost slots fault, Passes follow outermost heap slots after fault

namespace Registry

def objects (registry : Registry) : List (Place × Object) := Entry.propertyObjects registry

def slots (registry : Registry) : List (String × Slot Place) :=
  registry.map fun entry => (entry.1, entry.2.slot)

def heap (registry : Registry) : Heap := fun place => registry.objects.lookup place

/-- A call on one registered schema, as if it stood under a name, or on all that is registered. -/
inductive Call where
  | schema (key name : String)
  | all (convention : Case.Convention) (outermost : Bool)

def Call.outermost : Call → Bool
  | schema .. => false
  | all _ outermost => outermost

/-- The slots that a call passes over, among those of a registry. -/
def Call.slots (registered : List (String × Slot Place)) : Call → List (String × Slot Place)
  | schema key name => ((registered.lookup key).map fun slot => (name, slot)).toList
  | all .. => registered

def call (registry : Registry) : Call → Visit Registry
  | .schema key name => registry.settleAt key name
  | .all convention outermost => registry.settleAll convention outermost

/-- The registry after some calls on it, those that fail included. -/
def run (registry : Registry) (calls : List Call) : Registry :=
  calls.foldl (fun registry call => (registry.call call).after) registry

/-- Calls on a registry, each with its fault, as they act on the heap of all objects. -/
inductive Course (built : Registry) : Registry → Heap → Prop
  | start : Course built built built.heap
  | call {registry : Registry} {heap after : Heap} (course : Course built registry heap) (call : Call)
      (passes : Passes (Reference.resolve built) call.outermost heap (call.slots built.slots) after
        (registry.call call).fault) :
      Course built (registry.call call).after after

end Registry

variable {registry : Registry}

namespace Heap.Later
variable {follow : Follow} {heap after : Heap}

theorem becomes (later : heap.Later follow after) : heap.Becomes follow after := by
  induction later with
  | refl => exact .refl follow heap
  | tail _ passes ih =>
    obtain ⟨outermost, slots, fault, passes⟩ := passes
    exact ih.trans passes.becomes

theorem call {outermost : Bool} {slots : List (String × Slot Place)} {next : Heap}
    {fault : Option ResolutionFault} (later : heap.Later follow after)
    (passes : Passes follow outermost after slots next fault) : heap.Later follow next :=
  later.tail ⟨outermost, slots, fault, passes⟩

/-- A mark stays, whatever is called. -/
theorem marked {later : Heap} {place : Place} {object : Object}
    (further : after.Later follow later) (marked : after place = some object.mark) :
    later place = some object.mark := by
  obtain ⟨next, found, becomes⟩ := further.becomes.exists_of_held marked
  rwa [becomes.eq_of_settled rfl] at found

end Heap.Later

namespace Entry

mutual

theorem places_eq : (entry : Entry) → entry.objects.map (·.1) = entry.nodes.map (·.1)
  | reference _ => rfl
  | target _ => rfl
  | scalar _ _ _ => rfl
  | array site _ items => congrArg (site.place :: ·) (itemPlaces_eq items)
  | object site _ properties => congrArg (site.place :: ·) (propertyPlaces_eq properties)
  | composed site _ alternatives =>
    congrArg (site.place :: ·) (alternativePlaces_eq alternatives)

theorem itemPlaces_eq : (items : Option Entry) →
    (itemObjects items).map (·.1) = (itemNodes items).map (·.1)
  | none => rfl
  | some entry => places_eq entry

theorem propertyPlaces_eq : (fields : List (String × Entry)) →
    (propertyObjects fields).map (·.1) = (propertyNodes fields).map (·.1)
  | [] => rfl
  | (_, entry) :: rest => by
    rw [propertyObjects, propertyNodes, List.map_append, List.map_append, places_eq entry,
      propertyPlaces_eq rest]

theorem alternativePlaces_eq : (entries : List Entry) →
    (alternativeObjects entries).map (·.1) = (alternativeNodes entries).map (·.1)
  | [] => rfl
  | entry :: rest => by
    rw [alternativeObjects, alternativeNodes, List.map_append, List.map_append, places_eq entry,
      alternativePlaces_eq rest]

end

/-- A tree that nothing has visited, with every object that its slots hold. -/
structure Fresh (entry : Entry) : Prop where
  slot : ∀ place, entry.slot = .node place → place ∈ entry.places
  unsettled : ∀ found ∈ entry.objects, found.2.settled = false
  closed : ∀ found ∈ entry.objects, ∀ place, .node place ∈ found.2.content.slots →
    place ∈ entry.places

/-- An object and the trees of its parts make a tree. -/
theorem fresh_of_parts {entry : Entry} {place : Place} (head : Head) (content : Content Place)
    {parts : List Entry} (each : ∀ part ∈ parts, part.Fresh) (slot : entry.slot = .node place)
    (objects : entry.objects = (place, ⟨false, head, content⟩) :: parts.flatMap Entry.objects)
    (slots : content.slots = parts.map Entry.slot) : entry.Fresh := by
  have inside : ∀ part ∈ parts, ∀ inner ∈ part.places, inner ∈ entry.places := by
    intro part hpart inner listed
    obtain ⟨found, hfound, rfl⟩ := List.mem_map.mp listed
    rw [places, objects]
    exact List.mem_map_of_mem
      (List.mem_cons_of_mem _ (List.mem_flatMap.mpr ⟨part, hpart, hfound⟩))
  refine ⟨fun own same => ?_, fun found listed => ?_, fun found listed inner hslot => ?_⟩
  · cases slot.symm.trans same
    rw [places, objects]
    exact List.mem_cons_self
  · rw [objects] at listed
    rcases List.mem_cons.mp listed with rfl | listed
    · rfl
    · obtain ⟨part, hpart, hfound⟩ := List.mem_flatMap.mp listed
      exact (each part hpart).unsettled found hfound
  · rw [objects] at listed
    rcases List.mem_cons.mp listed with rfl | listed
    · simp only [slots, List.mem_map] at hslot
      obtain ⟨part, hpart, same⟩ := hslot
      exact inside part hpart inner ((each part hpart).slot inner same)
    · obtain ⟨part, hpart, hfound⟩ := List.mem_flatMap.mp listed
      exact inside part hpart inner ((each part hpart).closed found hfound inner hslot)

theorem fresh_build (d : Definition) (place : Place) (id : String) : (d.build place id).Fresh := by
  refine Definition.build_induction (motive := Fresh) ?reference ?scalar ?array ?object ?composed
    d place id
  case reference => exact fun text => ⟨nofun, List.forall_mem_nil _, List.forall_mem_nil _⟩
  case scalar =>
    have none : ∀ part ∈ ([] : List Entry), part.Fresh := nofun
    exact fun place head kind => fresh_of_parts head (.scalar kind) none rfl rfl rfl
  case array =>
    intro place head items each
    have part : ∀ part ∈ items.toList, part.Fresh := fun part listed =>
      each part (Option.mem_toList.mp listed)
    refine fresh_of_parts head (.array (items.map slot)) part rfl ?_ ?_
    · cases items with
      | none => rfl
      | some entry => simp [objects, itemObjects]
    · cases items <;> rfl
  case object =>
    intro place head fields each
    refine fresh_of_parts head (.object (fields.map fun f => (f.1, f.2.slot)))
      (List.forall_mem_map.mpr each) rfl ?_ ?_
    · rw [objects, propertyObjects_eq, List.flatMap_map]
    · rw [Content.slots, List.map_map, List.map_map]
      rfl
  case composed =>
    intro place head entries each
    refine fresh_of_parts head (.composed (entries.map slot)) each rfl ?_ rfl
    rw [objects, alternativeObjects_eq]

theorem build_ne_target (d : Definition) (place : Place) (id : String) (name : String) :
    d.build place id ≠ .target name :=
  d.build_induction (motive := fun entry => entry ≠ .target name)
    nofun nofun nofun nofun nofun place id

end Entry

namespace Definitions
variable {definitions : Definitions}

/-- Each object of a registry is built at a place of its own. -/
theorem nodup_objects (distinct : definitions.Distinct) :
    ((Registry.ofDefinitions definitions).objects.map (·.1)).Nodup := by
  rw [Registry.objects, Entry.propertyPlaces_eq, Entry.propertyNodes_eq]
  have places := @built_places definitions
  rw [Registry.nodes] at places
  rw [places]
  exact distinct.nodup_places.sublist (List.filter_sublist.map _)

theorem fresh_of_mem {entry : String × Entry} (listed : entry ∈ Registry.ofDefinitions definitions) :
    entry.2.Fresh := by
  obtain ⟨named, -, rfl⟩ := List.mem_map.mp listed
  exact Entry.fresh_build _ _ _

end Definitions

namespace Registry
variable {built : Registry}

theorem lookup_slots (registry : Registry) (key : String) :
    registry.slots.lookup key = (registry.lookup key).map Entry.slot :=
  Keyed.lookup_map Entry.slot registry key

theorem map_slots (registry : Registry) : registry.slots.map (·.1) = registry.map (·.1) := by
  rw [slots, List.map_map]
  rfl

/-- What a name stands for is told from the slots. -/
theorem meaning_eq (registry : Registry) (name : String) :
    registry.meaning name = match registry.slots.lookup name with
      | none => .absent
      | some (.reference next) => .pointer next
      | some (.node _) => .schema := by
  rw [meaning, lookup_slots]
  cases registry.lookup name with
  | none => rfl
  | some entry => cases entry <;> rfl

theorem resolve_of_slots (same : registry.slots = built.slots) :
    Reference.resolve registry = Reference.resolve built := by
  funext text
  have meaning : registry.meaning = built.meaning := by
    funext name
    rw [meaning_eq, meaning_eq, same]
  rw [Reference.resolve_eq_iff, meaning, ← Reference.resolve_eq_iff]

theorem replace_of_split {before after : Registry} {key : String} {entry : Entry}
    (names : ((before ++ (key, entry) :: after).map (·.1)).Nodup) (other : Entry) :
    Registry.replace (before ++ (key, entry) :: after) key other =
      before ++ (key, other) :: after := by
  have elsewhere (rest : Registry) (fresh : key ∉ rest.map (·.1)) :
      Registry.replace rest key other = rest := by
    refine (List.map_congr_left fun field listed => ?_).trans (List.map_id rest)
    rw [if_neg fun same => fresh (List.mem_map.mpr ⟨field, listed, same⟩)]
    rfl
  rw [List.map_append, List.map_cons] at names
  have fresh := (List.nodup_cons.mp (List.nodup_middle.mp names)).1
  rw [List.mem_append, not_or] at fresh
  have first := elsewhere before fresh.1
  have last := elsewhere after fresh.2
  rw [replace] at first last
  rw [replace, List.map_append, List.map_cons, first, last, if_pos rfl]

theorem replace_of_lookup {key : String} {entry : Entry} (names : (registry.map (·.1)).Nodup)
    (found : registry.lookup key = some entry) : registry.replace key entry = registry := by
  obtain ⟨before, after, rfl, -⟩ := List.lookup_eq_some_iff.mp found
  exact replace_of_split names entry

/-- What the calls on a registry keep. -/
structure Ready (built registry : Registry) : Prop where
  slots : registry.slots = built.slots
  names : (registry.map (·.1)).Nodup
  performed : ∀ entry ∈ registry, ∀ other, entry.2.Performed other
  own : ∀ entry ∈ registry, ∀ place ∈ entry.2.places, place.root = .registered entry.1
  linkless : ∀ entry ∈ registry, ∀ name, entry.2 ≠ .target name

namespace Ready
variable (ready : Ready built registry)
include ready

/-- What is registered under different names has no object in common. -/
theorem apart : registry.Pairwise fun entry other => List.Disjoint entry.2.places other.2.places := by
  have names := ready.names
  rw [List.Nodup, List.pairwise_map] at names
  refine names.imp_of_mem fun listed listed' ne place mine theirs => ne ?_
  have roots := (ready.own _ listed place mine).symm.trans (ready.own _ listed' place theirs)
  exact Root.registered.inj roots

/-- A schema that is settled alone leaves the objects of all others as they are. -/
theorem performs_schema {key : String} {entry : Entry} (found : registry.lookup key = some entry)
    (name : String) : Performs (Reference.resolve registry) false [(name, entry.slot)]
      registry.objects (registry.replace key (entry.settle registry name).after).objects
      (entry.settle registry name).fault := by
  obtain ⟨before, after, split, -⟩ := List.lookup_eq_some_iff.mp found
  have performed := ready.performed _ (Keyed.mem_of_lookup found) registry name false
  rw [Entry.outward_nested, Option.map_id] at performed
  have objects_of_split : ∀ entry : Entry, objects (before ++ (key, entry) :: after) =
      Entry.propertyObjects before ++ (entry.objects ++ Entry.propertyObjects after) := by
    intro entry
    simp only [objects, Entry.propertyObjects_eq, List.flatMap_append, List.flatMap_cons]
  have replaced := replace_of_split (split ▸ ready.names) (entry.settle registry name).after
  rw [← split] at replaced
  have apart := ready.apart
  rw [split, List.pairwise_append, List.pairwise_cons] at apart
  obtain ⟨-, ⟨fresh, -⟩, others⟩ := apart
  have behind := Entry.disjoint_propertyObjects fresh
  have ahead : List.Disjoint ((Entry.propertyObjects before).map (·.1))
      ((entry.objects ++ Entry.propertyObjects after).map (·.1)) :=
    (Entry.disjoint_propertyObjects fun field hfield =>
      (Entry.disjoint_propertyObjects fun other hother =>
        others field hfield other hother).symm).symm
  have idle : Performs (Reference.resolve registry) false [] (Entry.propertyObjects before)
      (Entry.propertyObjects before) none := .nil
  rw [replaced, objects_of_split]
  have mine : registry.objects =
      Entry.propertyObjects before ++ (entry.objects ++ Entry.propertyObjects after) := by
    rw [← objects_of_split, ← split]
  rw [mine]
  exact idle.append (performed.frame behind) ahead

/-- A call acts on the objects of the registry as the passes over its slots do. -/
theorem performs (call : Call) : Performs (Reference.resolve registry) call.outermost
    (call.slots registry.slots) registry.objects (registry.call call).after.objects
    (registry.call call).fault := by
  cases call with
  | all convention outermost =>
    exact Entry.performs_settleFields convention outermost []
      (fun entry listed => ready.performed entry listed registry) ready.apart
  | schema key name =>
    simp only [Call.slots, lookup_slots, Registry.call, settleAt]
    cases found : registry.lookup key with
    | none => exact .nil
    | some entry => exact ready.performs_schema found name

omit ready

/-- After a call, each entry is the one that stood there before, visited or not. -/
theorem exists_origin (call : Call) {entry : String × Entry}
    (listed : entry ∈ (registry.call call).after) : ∃ origin, (entry.1, origin) ∈ registry ∧
      (entry.2 = origin ∨ ∃ name, entry.2 = (origin.settle registry name).after) := by
  cases call with
  | all convention outermost => exact Entry.exists_of_mem_settleFields listed
  | schema key name =>
    rw [Registry.call, settleAt] at listed
    cases found : registry.lookup key with
    | none =>
      rw [found] at listed
      exact ⟨entry.2, listed, .inl rfl⟩
    | some target =>
      rw [found] at listed
      obtain ⟨old, hold, rfl⟩ := List.mem_map.mp listed
      by_cases same : old.1 = key
      · have own : (old.1, target) ∈ registry := Keyed.mem_of_lookup (same ▸ found)
        exact ⟨target, own, .inr ⟨name, if_pos same⟩⟩
      · exact ⟨old.2, hold, .inl (if_neg same)⟩

include ready

theorem slots_call (call : Call) : (registry.call call).after.slots = registry.slots := by
  cases call with
  | all convention outermost => exact Entry.slots_settleFields convention outermost [] registry
  | schema key name =>
    rw [Registry.call, settleAt]
    cases found : registry.lookup key with
    | none => rfl
    | some entry =>
      refine List.map_map.trans (List.map_congr_left fun old listed => Prod.ext rfl ?_)
      change (if old.1 = key then _ else old.2).slot = old.2.slot
      split
      · next same =>
        have own := Keyed.lookup_of_mem ready.names listed
        rw [same, found] at own
        cases own
        exact Entry.slot_settle name _
      · rfl

theorem call (call : Call) : Ready built (registry.call call).after where
  slots := (ready.slots_call call).trans ready.slots
  names := by
    rw [← map_slots, ready.slots_call, map_slots]
    exact ready.names
  performed entry listed other := by
    obtain ⟨origin, before, same | ⟨name, same⟩⟩ := exists_origin call listed
    · exact same ▸ ready.performed _ before other
    · exact same ▸ Entry.performed_settle (ready.performed _ before) name other
  own entry listed place inside := by
    obtain ⟨origin, before, same | ⟨name, same⟩⟩ := exists_origin call listed
    · exact ready.own _ before place (same ▸ inside)
    · rw [same] at inside
      exact ready.own _ before place ((ready.performed _ before registry name false).within inside)
  linkless entry listed := by
    obtain ⟨origin, before, same | ⟨name, same⟩⟩ := exists_origin call listed
    · exact same ▸ ready.linkless _ before
    · exact same ▸ Entry.linkless_settle (ready.linkless _ before) name

/-- A call on a registered schema that has been taken up has no effect. -/
theorem again {heap : Heap} (shows : heap.Shows registry.objects) {key : String} {place : Place}
    {object : Object} (slot : built.slots.lookup key = some (.node place))
    (held : heap place = some object) (settled : object.settled = true) (name : String) :
    (place, object) ∈ registry.objects ∧ registry.call (.schema key name) = ⟨registry, [], none⟩ := by
  rw [← ready.slots, lookup_slots] at slot
  obtain ⟨entry, found, slot⟩ := Option.map_eq_some_iff.mp slot
  have listed := Keyed.mem_of_lookup found
  obtain ⟨site, own, site?, inside, same⟩ :=
    Entry.exists_site (ready.linkless _ listed) slot
  have inside : (place, own) ∈ registry.objects := by
    rw [objects, Entry.propertyObjects_eq]
    exact List.mem_flatMap.mpr ⟨_, listed, inside⟩
  cases held.symm.trans (shows _ inside)
  refine ⟨inside, ?_⟩
  rw [Registry.call, settleAt, found]
  simp only [Entry.settle_of_settled site? (same ▸ settled), Visit.map,
    replace_of_lookup ready.names found]

end Ready

theorem ready_ofDefinitions {definitions : Definitions} (distinct : definitions.Distinct) :
    Ready (ofDefinitions definitions) (ofDefinitions definitions) where
  slots := rfl
  names := by
    rw [ofDefinitions, Entry.ofDefinitions, List.map_map]
    exact distinct.names
  performed entry listed other := by
    have nodup := Definitions.nodup_objects distinct
    rw [objects, Entry.propertyObjects_eq, List.map_flatMap, List.nodup_flatMap] at nodup
    have mine := nodup.1 entry listed
    obtain ⟨named, -, rfl⟩ := List.mem_map.mp listed
    exact Entry.performed_build _ _ _ mine
  own entry listed place inside := by
    obtain ⟨named, -, rfl⟩ := List.mem_map.mp listed
    rw [Entry.places, Entry.places_eq] at inside
    obtain ⟨node, hnode, rfl⟩ := List.mem_map.mp inside
    have identified : (node.1, node.2.head.id) ∈
        identifiers ((Standing.top named).definition.build (Standing.top named).place
          (Standing.top named).id).nodes := List.mem_map_of_mem hnode
    rw [Standing.build_identifiers] at identified
    obtain ⟨s, hs, same⟩ := List.mem_map.mp identified
    obtain ⟨tail, below⟩ := Standing.place_of_mem_inner _ (List.mem_filter.mp hs).1
    rw [← congrArg Prod.fst same]
    exact congrArg Place.root below
  linkless entry listed := by
    obtain ⟨named, -, rfl⟩ := List.mem_map.mp listed
    exact Entry.build_ne_target _ _ _

namespace Course
variable {definitions : Definitions} {heap after : Heap}

/-- What a registry shows after some calls is what stands in the heap. -/
theorem shows (distinct : definitions.Distinct)
    (course : Course (ofDefinitions definitions) registry heap) :
    Ready (ofDefinitions definitions) registry ∧ heap.Shows registry.objects := by
  induction course with
  | start =>
    refine ⟨ready_ofDefinitions distinct, fun found listed => ?_⟩
    exact Keyed.lookup_of_mem (Definitions.nodup_objects distinct) listed
  | call _ call passes ih =>
    obtain ⟨ready, shows⟩ := ih
    obtain ⟨next, passes', shown, -⟩ := (ready.performs call).passes _ shows
    rw [resolve_of_slots ready.slots, ready.slots] at passes'
    obtain ⟨rfl, -⟩ := passes.unique passes'
    exact ⟨ready.call call, shown⟩

theorem later (course : Course built registry heap) :
    built.heap.Later (Reference.resolve built) heap := by
  induction course with
  | start => exact .refl
  | call _ call passes ih => exact ih.call passes

/-- The next call, whichever it is, ends as the passes over its slots do. -/
theorem exists_passes (distinct : definitions.Distinct)
    (course : Course (ofDefinitions definitions) registry heap) (call : Call) :
    ∃ after, Passes (Reference.resolve (ofDefinitions definitions)) call.outermost heap
      (call.slots (ofDefinitions definitions).slots) after (registry.call call).fault := by
  obtain ⟨ready, shows⟩ := course.shows distinct
  obtain ⟨after, passes, -⟩ := (ready.performs call).passes heap shows
  rw [resolve_of_slots ready.slots, ready.slots] at passes
  exact ⟨after, passes⟩

/-- Whatever is called, there is a heap that goes along. -/
theorem exists_run (distinct : definitions.Distinct)
    (course : Course (ofDefinitions definitions) registry heap) (calls : List Call) :
    ∃ after, Course (ofDefinitions definitions) (registry.run calls) after ∧
      heap.Later (Reference.resolve (ofDefinitions definitions)) after := by
  induction calls generalizing registry heap with
  | nil => exact ⟨heap, course, .refl⟩
  | cons call rest ih =>
    obtain ⟨next, passes⟩ := course.exists_passes distinct call
    obtain ⟨after, run, later⟩ := ih (course.call call passes)
    exact ⟨after, run, .head ⟨_, _, _, passes⟩ later⟩

end Course
end Registry
end SchemaTables
