import SchemaTables.Proofs.Heap
import SchemaTables.Proofs.Settlement

/-!
# A visit to a tree, as it acts on objects

Settling a tree is `Passes` over a heap that shows the objects of the tree: with the same fault, and
with the objects of the settled tree afterwards, while all objects outside the tree stay as they
were. Passes over some slots and over others are put together where their objects are apart.
-/
namespace SchemaTables

namespace Entry

mutual

/-- The objects of a tree with their places. -/
def objects : Entry → List (Place × Object)
  | reference _ => []
  | target _ => []
  | scalar site head kind => [(site.place, ⟨site.settled, head, .scalar kind⟩)]
  | array site head items =>
    (site.place, ⟨site.settled, head, .array (items.map slot)⟩) :: itemObjects items
  | object site head properties =>
    (site.place, ⟨site.settled, head, .object (properties.map fun p => (p.1, p.2.slot))⟩) ::
      propertyObjects properties
  | composed site head alternatives =>
    (site.place, ⟨site.settled, head, .composed (alternatives.map slot)⟩) ::
      alternativeObjects alternatives

def itemObjects : Option Entry → List (Place × Object)
  | none => []
  | some entry => objects entry

def propertyObjects : List (String × Entry) → List (Place × Object)
  | [] => []
  | (_, entry) :: rest => objects entry ++ propertyObjects rest

def alternativeObjects : List Entry → List (Place × Object)
  | [] => []
  | entry :: rest => objects entry ++ alternativeObjects rest

end

def places (entry : Entry) : List Place := entry.objects.map (·.1)

end Entry

def Heap.Shows (heap : Heap) (objects : List (Place × Object)) : Prop :=
  ∀ found ∈ objects, heap found.1 = some found.2

/-- Passes that turn the objects listed before into those listed after and touch no others. -/
structure Performs (follow : Follow) (outermost : Bool) (slots : List (String × Slot Place))
    (before after : List (Place × Object)) (fault : Option ResolutionFault) : Prop where
  within : after.map (·.1) ⊆ before.map (·.1)
  passes : ∀ heap : Heap, heap.Shows before → ∃ next, Passes follow outermost heap slots next fault ∧
    next.Shows after ∧ ∀ place, place ∉ before.map (·.1) → next place = heap place

variable {follow : Follow} {outermost : Bool} {slots others : List (String × Slot Place)}
  {before after before' after' : List (Place × Object)} {fault : Option ResolutionFault}

namespace Heap.Shows
variable {heap : Heap}

theorem append_iff : heap.Shows (before ++ after) ↔ heap.Shows before ∧ heap.Shows after :=
  List.forall_mem_append

theorem cons_iff {place : Place} {object : Object} :
    heap.Shows ((place, object) :: before) ↔ heap place = some object ∧ heap.Shows before :=
  List.forall_mem_cons

/-- Objects elsewhere are shown as before. -/
theorem of_apart {next : Heap} (shows : heap.Shows before)
    (kept : ∀ place ∈ before.map (·.1), next place = heap place) : next.Shows before := by
  intro found listed
  rw [kept found.1 (List.mem_map_of_mem listed)]
  exact shows found listed

end Heap.Shows

namespace Passes
variable {heap between final : Heap}

theorem append_of_ok (first : Passes follow outermost heap slots between none)
    (second : Passes follow outermost between others final fault) :
    Passes follow outermost heap (slots ++ others) final fault := by
  generalize clean : (none : Option ResolutionFault) = outcome at first
  induction first with
  | done => exact second
  | linked found _ ih => exact .linked found (ih second clean)
  | again held settled _ ih => exact .again held settled (ih second clean)
  | whole held fresh parts _ _ ih => exact .whole held fresh parts (ih second clean)
  | lost | broken => cases clean

theorem append_of_fault {fault : ResolutionFault}
    (first : Passes follow outermost heap slots final (some fault)) :
    Passes follow outermost heap (slots ++ others) final (some fault) := by
  generalize failed : some fault = outcome at first ⊢
  induction first with
  | done => cases failed
  | linked found _ ih => exact .linked found (ih failed)
  | again held settled _ ih => exact .again held settled (ih failed)
  | whole held fresh parts _ _ ih => exact .whole held fresh parts (ih failed)
  | lost bad => exact .lost bad
  | broken held fresh parts => exact .broken held fresh parts

end Passes

namespace Performs

theorem nil : Performs follow outermost [] before before none where
  within := List.Subset.refl _
  passes heap shows := ⟨heap, .done, shows, fun _ _ => rfl⟩

theorem append (first : Performs follow outermost slots before after none)
    (second : Performs follow outermost others before' after' fault)
    (apart : List.Disjoint (before.map (·.1)) (before'.map (·.1))) :
    Performs follow outermost (slots ++ others) (before ++ before') (after ++ after') fault where
  within := by
    rw [List.map_append, List.map_append]
    exact List.append_subset.mpr
      ⟨List.Subset.trans first.within (List.subset_append_left ..),
        List.Subset.trans second.within (List.subset_append_right ..)⟩
  passes heap shows := by
    obtain ⟨mine, other⟩ := Heap.Shows.append_iff.mp shows
    obtain ⟨between, passes, shown, kept⟩ := first.passes heap mine
    have other := other.of_apart fun place listed => kept place fun own => apart own listed
    obtain ⟨next, passes', shown', kept'⟩ := second.passes between other
    have shown := shown.of_apart fun place listed => kept' place fun theirs =>
      apart (first.within listed) theirs
    refine ⟨next, passes.append_of_ok passes', Heap.Shows.append_iff.mpr ⟨shown, shown'⟩, ?_⟩
    intro place outside
    rw [List.map_append, List.mem_append, not_or] at outside
    rw [kept' place outside.2, kept place outside.1]

theorem append_of_fault {fault : ResolutionFault}
    (first : Performs follow outermost slots before after (some fault))
    (apart : List.Disjoint (before.map (·.1)) (before'.map (·.1))) :
    Performs follow outermost (slots ++ others) (before ++ before') (after ++ before')
      (some fault) where
  within := by
    rw [List.map_append, List.map_append]
    exact List.append_subset.mpr
      ⟨List.Subset.trans first.within (List.subset_append_left ..), List.subset_append_right ..⟩
  passes heap shows := by
    obtain ⟨mine, other⟩ := Heap.Shows.append_iff.mp shows
    obtain ⟨next, passes, shown, kept⟩ := first.passes heap mine
    have other := other.of_apart fun place listed => kept place fun own => apart own listed
    refine ⟨next, passes.append_of_fault, Heap.Shows.append_iff.mpr ⟨shown, other⟩, ?_⟩
    intro place outside
    rw [List.map_append, List.mem_append, not_or] at outside
    exact kept place outside.1

/-- Objects that nothing is asked of are framed. -/
theorem frame (performs : Performs follow outermost slots before after fault)
    (apart : List.Disjoint (before.map (·.1)) (before'.map (·.1))) :
    Performs follow outermost slots (before ++ before') (after ++ before') fault := by
  rw [← List.append_nil slots]
  cases fault with
  | none => exact performs.append .nil apart
  | some fault => exact performs.append_of_fault apart

variable {name : String} {place : Place} {object : Object}

theorem linked {text target : String} (found : follow text = .ok target) :
    Performs follow outermost [(name, .reference text)] [] [] none where
  within := List.Subset.refl _
  passes heap shows := ⟨heap, .linked found .done, shows, fun _ _ => rfl⟩

theorem lost {text : String} {cause : ReferenceFault} (bad : follow text = .error cause) :
    Performs follow outermost [(name, .reference text)] [] []
      (some (if outermost then .entry cause else .nested cause)) where
  within := List.Subset.refl _
  passes heap shows := ⟨heap, .lost bad, shows, fun _ _ => rfl⟩

theorem again (settled : object.settled = true) :
    Performs follow outermost [(name, .node place)] ((place, object) :: before)
      ((place, object) :: before) none where
  within := List.Subset.refl _
  passes heap shows :=
    ⟨heap, .again (Heap.Shows.cons_iff.mp shows).1 settled .done, shows, fun _ _ => rfl⟩

/-- Parts are visited behind the mark on their own object. -/
theorem passes_marked (parts : Performs follow false (object.content.visits name) before after fault)
    (apart : place ∉ before.map (·.1)) {heap : Heap} (shows : heap.Shows ((place, object) :: before)) :
    ∃ next, Passes follow false (heap.put place object.mark) (object.content.visits name) next fault ∧
      next place = some object.mark ∧ next.Shows after ∧
      ∀ other, other ∉ ((place, object) :: before).map (·.1) → next other = heap other := by
  have other : (heap.put place object.mark).Shows before :=
    (Heap.Shows.cons_iff.mp shows).2.of_apart fun other listed =>
      Heap.put_of_ne fun same => apart (same ▸ listed)
  obtain ⟨next, passes, shown, kept⟩ := parts.passes _ other
  refine ⟨next, passes, passes.marked_of_parts, shown, fun other outside => ?_⟩
  rw [List.map_cons, List.mem_cons, not_or] at outside
  rw [kept other outside.2, Heap.put_of_ne outside.1]

theorem whole (fresh : object.settled = false)
    (parts : Performs follow false (object.content.visits name) before after none)
    (apart : place ∉ before.map (·.1)) :
    Performs follow outermost [(name, .node place)] ((place, object) :: before)
      ((place, object.rewritten follow name) :: after) none where
  within := List.cons_subset_cons _ parts.within
  passes heap shows := by
    obtain ⟨between, passes, -, shown, kept⟩ := parts.passes_marked apart shows
    have elsewhere : ∀ other, other ≠ place →
        (between.put place (object.rewritten follow name)) other = between other :=
      fun other ne => Heap.put_of_ne ne
    refine ⟨between.put place (object.rewritten follow name),
      .whole (Heap.Shows.cons_iff.mp shows).1 fresh passes .done,
      Heap.Shows.cons_iff.mpr ⟨Heap.put_self, ?_⟩, fun other outside => ?_⟩
    · exact shown.of_apart fun other listed =>
        elsewhere other fun same => apart (same ▸ parts.within listed)
    · have ne : other ≠ place := fun same => outside (same ▸ List.mem_cons_self)
      rw [elsewhere other ne, kept other outside]

theorem broken {fault : ResolutionFault} (fresh : object.settled = false)
    (parts : Performs follow false (object.content.visits name) before after (some fault))
    (apart : place ∉ before.map (·.1)) :
    Performs follow outermost [(name, .node place)] ((place, object) :: before)
      ((place, object.mark) :: after) (some fault) where
  within := List.cons_subset_cons _ parts.within
  passes heap shows := by
    obtain ⟨next, passes, marked, shown, kept⟩ := parts.passes_marked apart shows
    exact ⟨next, .broken (Heap.Shows.cons_iff.mp shows).1 fresh passes,
      Heap.Shows.cons_iff.mpr ⟨marked, shown⟩, kept⟩

/-- Objects may be left out of what is shown afterwards. -/
theorem forget (performs : Performs follow outermost slots before after fault)
    (fewer : after' ⊆ after) : Performs follow outermost slots before after' fault where
  within := List.Subset.trans (List.map_subset _ fewer) performs.within
  passes heap shows := by
    obtain ⟨next, passes, shown, kept⟩ := performs.passes heap shows
    exact ⟨next, passes, fun found listed => shown found (fewer listed), kept⟩

end Performs

namespace Entry
variable {registry : Registry}

theorem propertyObjects_eq (fields : List (String × Entry)) :
    propertyObjects fields = fields.flatMap fun field => field.2.objects := by
  induction fields with
  | nil => rfl
  | cons field rest ih => rw [propertyObjects, ih, List.flatMap_cons]

theorem alternativeObjects_eq (entries : List Entry) :
    alternativeObjects entries = entries.flatMap objects := by
  induction entries with
  | nil => rfl
  | cons entry rest ih => rw [alternativeObjects, ih, List.flatMap_cons]

theorem disjoint_propertyObjects {mine : List Place} {fields : List (String × Entry)}
    (each : ∀ field ∈ fields, List.Disjoint mine field.2.places) :
    List.Disjoint mine ((propertyObjects fields).map (·.1)) := by
  rw [propertyObjects_eq, List.map_flatMap]
  intro place listed other
  obtain ⟨field, hfield, other⟩ := List.mem_flatMap.mp other
  exact each field hfield listed other

theorem disjoint_alternativeObjects {mine : List Place} {entries : List Entry}
    (each : ∀ entry ∈ entries, List.Disjoint mine entry.places) :
    List.Disjoint mine ((alternativeObjects entries).map (·.1)) := by
  rw [alternativeObjects_eq, List.map_flatMap]
  intro place listed other
  obtain ⟨entry, hentry, other⟩ := List.mem_flatMap.mp other
  exact each entry hentry listed other

theorem objects_link (entry : Entry) : (entry.link registry).objects = entry.objects := by
  cases entry with
  | reference text =>
    rw [link]
    split <;> rfl
  | target | scalar | array | object | composed => rfl

theorem slot_link (entry : Entry) :
    (entry.link registry).slot = entry.slot.followed (Reference.resolve registry) := by
  cases entry with
  | reference text =>
    rw [link]
    simp only [slot, Slot.followed]
    cases Reference.resolve registry text <;> rfl
  | target | scalar | array | object | composed => rfl

/-- A visit leaves an entry in its slot. -/
theorem slot_settle (name : String) (entry : Entry) :
    (entry.settle registry name).after.slot = entry.slot := by
  cases entry with
  | reference | target => rfl
  | scalar site head kind =>
    rw [settle]
    split <;> rfl
  | array site head items | object site head fields | composed site head entries =>
    rw [settle]
    split
    · rfl
    · rw [close]
      split <;> rfl

theorem slots_settleFields (convention : Case.Convention) (outermost : Bool) (met : List String)
    (fields : List (String × Entry)) :
    (settleFields registry convention outermost met fields).after.map (fun f => (f.1, f.2.slot)) =
      fields.map fun f => (f.1, f.2.slot) := by
  induction fields generalizing met with
  | nil => rfl
  | cons field rest ih =>
    obtain ⟨name, entry⟩ := field
    rw [settleFields]
    split
    · simp only [List.map_cons, slot_settle]
    · simp only [List.map_cons, slot_settle, ih]

theorem slots_settleAlternatives (name : String) (index : Nat) (entries : List Entry) :
    (settleAlternatives registry name index entries).after.map slot = entries.map slot := by
  induction entries generalizing index with
  | nil => rfl
  | cons entry rest ih =>
    rw [settleAlternatives]
    split
    · simp only [List.map_cons, slot_settle]
    · simp only [List.map_cons, slot_settle, ih]

theorem exists_of_mem_settleFields {convention : Case.Convention} {outermost : Bool}
    {met : List String} {fields : List (String × Entry)} {field : String × Entry}
    (listed : field ∈ (settleFields registry convention outermost met fields).after) :
    ∃ entry, (field.1, entry) ∈ fields ∧
      (field.2 = entry ∨ ∃ name, field.2 = (entry.settle registry name).after) := by
  induction fields generalizing met with
  | nil => cases listed
  | cons first rest ih =>
    obtain ⟨name, entry⟩ := first
    rw [settleFields] at listed
    split at listed
    · rcases List.mem_cons.mp listed with rfl | later
      · exact ⟨entry, List.mem_cons_self, .inr ⟨name, rfl⟩⟩
      · exact ⟨field.2, List.mem_cons_of_mem _ later, .inl rfl⟩
    · rcases List.mem_cons.mp listed with rfl | later
      · exact ⟨entry, List.mem_cons_self, .inr ⟨name, rfl⟩⟩
      · obtain ⟨origin, before, stood⟩ := ih later
        exact ⟨origin, List.mem_cons_of_mem _ before, stood⟩

/-- A visit to the entry acts on the objects of its tree as the passes over its slot do. -/
def Performed (registry : Registry) (entry : Entry) : Prop :=
  ∀ name outermost, Performs (Reference.resolve registry) outermost [(name, entry.slot)]
    entry.objects (entry.settle registry name).after.objects
    ((entry.settle registry name).fault.map (outward outermost entry))

theorem performed_reference (text : String) : (reference text).Performed registry := by
  intro name outermost
  simp only [settle, check]
  cases outcome : Reference.resolve registry text with
  | ok target => exact .linked outcome
  | error cause =>
    have fault : outward outermost (reference text) (.nested cause) =
        if outermost then .entry cause else .nested cause := by
      cases outermost <;> rfl
    simp only [Option.map_some, fault]
    exact .lost outcome

theorem performs_settleFields (convention : Case.Convention) (outermost : Bool) (met : List String)
    {fields : List (String × Entry)} (each : ∀ field ∈ fields, field.2.Performed registry)
    (apart : fields.Pairwise fun field other => List.Disjoint field.2.places other.2.places) :
    Performs (Reference.resolve registry) outermost (fields.map fun f => (f.1, f.2.slot))
      (propertyObjects fields)
      (propertyObjects (settleFields registry convention outermost met fields).after)
      (settleFields registry convention outermost met fields).fault := by
  induction fields generalizing met with
  | nil => exact .nil
  | cons field rest ih =>
    obtain ⟨name, entry⟩ := field
    obtain ⟨here, later⟩ := List.forall_mem_cons.mp each
    obtain ⟨fresh, apart⟩ := List.pairwise_cons.mp apart
    have disjoint := disjoint_propertyObjects fresh
    have first := here name outermost
    rw [settleFields]
    cases fault : (settle registry name entry).fault with
    | some fault =>
      simp only
      rw [fault, Option.map_some] at first
      exact first.append_of_fault disjoint
    | none =>
      simp only
      rw [fault, Option.map_none] at first
      exact first.append (ih _ later apart) disjoint

theorem performs_settleAlternatives (name : String) (index : Nat) {entries : List Entry}
    (each : ∀ entry ∈ entries, entry.Performed registry)
    (apart : entries.Pairwise fun entry other => List.Disjoint entry.places other.places) :
    Performs (Reference.resolve registry) false
      ((entries.map slot).zipIdx index |>.map fun slot => (alternativeName name slot.2, slot.1))
      (alternativeObjects entries)
      (alternativeObjects (settleAlternatives registry name index entries).after)
      (settleAlternatives registry name index entries).fault := by
  induction entries generalizing index with
  | nil => exact .nil
  | cons entry rest ih =>
    obtain ⟨here, later⟩ := List.forall_mem_cons.mp each
    obtain ⟨fresh, apart⟩ := List.pairwise_cons.mp apart
    have disjoint := disjoint_alternativeObjects fresh
    have first := here (alternativeName name index) false
    rw [outward_nested, Option.map_id] at first
    rw [settleAlternatives]
    cases fault : (settle registry (alternativeName name index) entry).fault with
    | some fault =>
      simp only
      rw [fault] at first
      exact first.append_of_fault disjoint
    | none =>
      simp only
      rw [fault] at first
      exact first.append (ih _ later apart) disjoint

/-- Where a visit to the parts performs passes, so does the visit to the object around them, whose
slots are closed as `Object.rewritten` and `Object.mark` say. -/
theorem performs_close {β : Type} {broken whole : β → Entry} {parts : Visit β}
    {inside : β → List (Place × Object)} {name : String} {place : Place} {object : Object}
    {before : List (Place × Object)} {outermost : Bool} (fresh : object.settled = false)
    (inner : Performs (Reference.resolve registry) false (object.content.visits name) before
      (inside parts.after) parts.fault)
    (apart : place ∉ before.map (·.1))
    (marks : (broken parts.after).objects = (place, object.mark) :: inside parts.after)
    (rewrites : ∃ rest, rest ⊆ inside parts.after ∧ (whole parts.after).objects =
      (place, object.rewritten (Reference.resolve registry) name) :: rest) :
    Performs (Reference.resolve registry) outermost [(name, .node place)]
      ((place, object) :: before) (close broken whole parts).after.objects
      (close broken whole parts).fault := by
  rw [close_fault]
  cases fault : parts.fault with
  | some fault =>
    rw [fault] at inner
    rw [close, fault]
    simp only [Visit.map, marks]
    exact inner.broken fresh apart
  | none =>
    rw [fault] at inner
    rw [close_after _ fault]
    obtain ⟨rest, fewer, objects⟩ := rewrites
    rw [objects]
    exact (inner.whole fresh apart).forget (List.cons_subset_cons _ fewer)

/-- Re-keyed properties hold no objects but those that the properties held. -/
theorem propertyObjects_rekey_subset (fields : List (String × Entry)) :
    propertyObjects (Keyed.rekey Case.uncapitalize (fields.map fun f => (f.1, f.2.link registry))) ⊆
      propertyObjects fields := by
  intro found listed
  rw [propertyObjects_eq] at listed ⊢
  obtain ⟨⟨key, entry⟩, hentry, listed⟩ := List.mem_flatMap.mp listed
  obtain ⟨name, last⟩ := Keyed.mem_rekey_iff.mp hentry
  obtain ⟨field, hfield, same⟩ := List.mem_map.mp last.mem
  cases same
  rw [objects_link] at listed
  exact List.mem_flatMap.mpr ⟨field, hfield, listed⟩

theorem outward_schema {entry : Entry} (schema : entry.isReference = false) (outermost : Bool) :
    outward outermost entry = id := by
  funext fault
  rw [outward, schema, Bool.and_false]
  rfl

theorem performed_scalar (place : Place) (head : Head) (kind : ScalarKind) :
    (scalar ⟨place, false⟩ head kind).Performed registry := by
  intro name outermost
  rw [outward_schema rfl, Option.map_id]
  let object : Object := ⟨false, head, .scalar kind⟩
  have fresh : object.settled = false := rfl
  exact Performs.whole fresh .nil List.not_mem_nil

theorem performed_array {place : Place} {head : Head} {items : Option Entry}
    (each : ∀ entry ∈ items, entry.Performed registry)
    (apart : place ∉ (itemObjects items).map (·.1)) :
    (array ⟨place, false⟩ head items).Performed registry := by
  intro name outermost
  rw [outward_schema rfl, Option.map_id, settle, if_neg Bool.false_ne_true]
  have inner : Performs (Reference.resolve registry) false
      ((Content.array (items.map slot)).visits name) (itemObjects items)
      (itemObjects (settleItems registry name items).after) (settleItems registry name items).fault := by
    cases items with
    | none => exact .nil
    | some entry =>
      have first := each entry rfl name false
      rwa [outward_nested, Option.map_id] at first
  have slots : (settleItems registry name items).after.map slot = items.map slot := by
    cases items with
    | none => rfl
    | some entry => exact congrArg some (slot_settle name entry)
  have linked : ∀ items : Option Entry,
      itemObjects (items.map (link registry)) = itemObjects items := by
    intro items
    cases items with
    | none => rfl
    | some entry => exact objects_link entry
  have content : ((settleItems registry name items).after.map (link registry)).map slot =
      (items.map slot).map (Slot.followed (Reference.resolve registry)) := by
    rw [← slots, Option.map_map, Option.map_map]
    exact congrArg (Option.map · _) (funext slot_link)
  refine performs_close rfl inner apart ?_ ⟨_, List.Subset.refl _, ?_⟩
  · rw [objects, slots]
    rfl
  · rw [objects, content, linked]
    rfl

theorem performed_object {place : Place} {head : Head} {fields : List (String × Entry)}
    (each : ∀ field ∈ fields, field.2.Performed registry)
    (nodup : (place :: (propertyObjects fields).map (·.1)).Nodup) :
    (object ⟨place, false⟩ head fields).Performed registry := by
  intro name outermost
  obtain ⟨apart, nodup⟩ := List.nodup_cons.mp nodup
  rw [propertyObjects_eq, List.map_flatMap, List.nodup_flatMap] at nodup
  rw [outward_schema rfl, Option.map_id, settle, if_neg Bool.false_ne_true]
  have inner := performs_settleFields .field false [] each nodup.2
  have slots := @slots_settleFields registry .field false [] fields
  have content : (Keyed.rekey Case.uncapitalize
      ((settleFields registry .field false [] fields).after.map fun f =>
        (f.1, f.2.link registry))).map (fun f => (f.1, f.2.slot)) =
      Keyed.rekey Case.uncapitalize ((fields.map fun f => (f.1, f.2.slot)).map fun f =>
        (f.1, f.2.followed (Reference.resolve registry))) := by
    rw [← slots, ← Keyed.rekey_map, List.map_map, List.map_map]
    refine congrArg _ (List.map_congr_left fun f _ => Prod.ext rfl ?_)
    exact slot_link f.2
  have fewer := @propertyObjects_rekey_subset registry
    (settleFields registry .field false [] fields).after
  refine performs_close rfl inner apart ?_ ⟨_, fewer, ?_⟩
  · rw [objects, slots]
    rfl
  · rw [objects, content]
    rfl

theorem performed_composed {place : Place} {head : Head} {entries : List Entry}
    (each : ∀ entry ∈ entries, entry.Performed registry)
    (nodup : (place :: (alternativeObjects entries).map (·.1)).Nodup) :
    (composed ⟨place, false⟩ head entries).Performed registry := by
  intro name outermost
  obtain ⟨apart, nodup⟩ := List.nodup_cons.mp nodup
  rw [alternativeObjects_eq, List.map_flatMap, List.nodup_flatMap] at nodup
  rw [outward_schema rfl, Option.map_id, settle, if_neg Bool.false_ne_true]
  have inner := performs_settleAlternatives name 0 each nodup.2
  have slots := @slots_settleAlternatives registry name 0 entries
  have content : ((settleAlternatives registry name 0 entries).after.map (link registry)).map slot =
      (entries.map slot).map (Slot.followed (Reference.resolve registry)) := by
    rw [← slots, List.map_map, List.map_map]
    exact congrArg (List.map · _) (funext slot_link)
  have linked : alternativeObjects
      ((settleAlternatives registry name 0 entries).after.map (link registry)) =
        alternativeObjects (settleAlternatives registry name 0 entries).after := by
    rw [alternativeObjects_eq, alternativeObjects_eq, List.flatMap_map]
    exact congrArg (List.flatMap · _) (funext objects_link)
  have isEmpty : (settleAlternatives registry name 0 entries).after.isEmpty =
      (entries.map slot).isEmpty := by
    rw [← slots, List.isEmpty_map]
  refine performs_close rfl inner apart ?_ ⟨_, List.Subset.refl _, ?_⟩
  · rw [objects, slots]
    rfl
  · rw [objects, content, linked, isEmpty]
    rfl

end Entry

/-- What holds of an entry whenever it holds of its parts holds of the entries of definitions. -/
theorem Definition.build_induction {motive : Entry → Prop}
    (reference : ∀ text, motive (.reference text))
    (scalar : ∀ place head kind, motive (.scalar ⟨place, false⟩ head kind))
    (array : ∀ place head items, (∀ entry ∈ items, motive entry) →
      motive (.array ⟨place, false⟩ head items))
    (object : ∀ place head fields, (∀ field ∈ fields, motive field.2) →
      motive (.object ⟨place, false⟩ head fields))
    (composed : ∀ place head entries, (∀ entry ∈ entries, motive entry) →
      motive (.composed ⟨place, false⟩ head entries))
    (d : Definition) (place : Place) (id : String) : motive (d.build place id) := by
  induction d using Definition.partsInduction generalizing place id with
  | step d ih =>
    cases d with
    | reference text => exact reference text
    | schema kind details items properties oneOf =>
      cases kind with
      | scalar kind => exact scalar place _ kind
      | array =>
        refine array place _ _ fun entry listed => ?_
        cases items with
        | none => cases listed
        | some child =>
          cases listed
          exact ih ⟨.items, true, child⟩ (by simp [parts]) _ _
      | object =>
        refine object place _ _ fun field listed => ?_
        rw [buildProperties_eq] at listed
        obtain ⟨⟨name, child⟩, hproperty, rfl⟩ := List.mem_map.mp listed
        obtain ⟨before, after, rfl⟩ := List.append_of_mem hproperty
        exact ih ⟨.property name, _, child⟩
          (mem_propertyParts.mpr ⟨before, name, child, after, rfl, rfl⟩) _ _
      | composed =>
        refine composed place _ _ fun entry listed => ?_
        rw [buildAlternatives_eq] at listed
        obtain ⟨⟨child, index⟩, halternative, rfl⟩ := List.mem_map.mp listed
        refine ih ⟨.alternative index, true, child⟩ ?_ _ _
        rw [parts, alternativeParts_eq, List.mem_map]
        exact ⟨(child, index), halternative, rfl⟩

namespace Entry
variable {registry : Registry}

/-- The entry of a definition that nothing has visited, where no two of its objects share a place. -/
theorem performed_build (d : Definition) (place : Place) (id : String) :
    (d.build place id).places.Nodup → (d.build place id).Performed registry := by
  refine Definition.build_induction
    (motive := fun entry => entry.places.Nodup → entry.Performed registry)
    ?reference ?scalar ?array ?object ?composed d place id
  case reference => exact fun text _ => performed_reference text
  case scalar => exact fun place head kind _ => performed_scalar place head kind
  case array =>
    intro place head items each nodup
    obtain ⟨apart, nodup⟩ := List.nodup_cons.mp nodup
    refine performed_array (fun entry listed => each entry listed ?_) apart
    cases listed
    exact nodup
  case object =>
    intro place head fields each nodup
    have inner := (List.nodup_cons.mp nodup).2
    rw [propertyObjects_eq, List.map_flatMap, List.nodup_flatMap] at inner
    exact performed_object (fun field listed => each field listed (inner.1 field listed)) nodup
  case composed =>
    intro place head entries each nodup
    have inner := (List.nodup_cons.mp nodup).2
    rw [alternativeObjects_eq, List.map_flatMap, List.nodup_flatMap] at inner
    exact performed_composed (fun entry listed => each entry listed (inner.1 entry listed)) nodup

/-- A schema that has been taken up is left alone. -/
theorem settle_of_settled {entry : Entry} {site : Site} (found : entry.site? = some site)
    (settled : site.settled = true) (name : String) :
    entry.settle registry name = ⟨entry, [], none⟩ := by
  cases entry with
  | reference | target => cases found
  | scalar site head | array site head | object site head | composed site head =>
    cases found
    rw [settle, if_pos settled]

theorem performed_of_settled {entry : Entry} {site : Site} (found : entry.site? = some site)
    (settled : site.settled = true) : entry.Performed registry := by
  intro name outermost
  rw [settle_of_settled found settled]
  cases entry with
  | reference | target => cases found
  | scalar | array | object | composed =>
    cases found
    exact .again settled

/-- An entry that has been visited performs nothing more. -/
theorem performed_settle {entry : Entry} (performed : ∀ registry, entry.Performed registry)
    (name : String) (other : Registry) : (entry.settle registry name).after.Performed other := by
  have again {entry : Entry} {site : Site} (found : entry.site? = some site.settle) :
      entry.Performed other := performed_of_settled found rfl
  cases entry with
  | reference | target => exact performed other
  | scalar site head kind =>
    rw [settle]
    split
    · exact performed other
    · exact again rfl
  | array site head items | object site head fields | composed site head entries =>
    rw [settle]
    split
    · exact performed other
    · rw [close]
      split <;> exact again rfl

/-- A schema is an object of its own tree. -/
theorem exists_site {entry : Entry} {place : Place} (linkless : ∀ name, entry ≠ target name)
    (slot : entry.slot = .node place) : ∃ site object, entry.site? = some site ∧
      (place, object) ∈ entry.objects ∧ object.settled = site.settled := by
  cases entry with
  | reference => cases slot
  | target name => exact absurd rfl (linkless name)
  | scalar site | array site | object site | composed site =>
    cases slot
    exact ⟨site, _, rfl, List.mem_cons_self, rfl⟩

theorem linkless_settle {entry : Entry} (linkless : ∀ name, entry ≠ target name) (name other : String) :
    (entry.settle registry name).after ≠ target other := by
  intro same
  cases entry with
  | reference text => cases same
  | target name => exact linkless name rfl
  | scalar site head kind =>
    rw [settle] at same
    split at same <;> cases same
  | array site head items | object site head fields | composed site head entries =>
    rw [settle] at same
    split at same
    · cases same
    · rw [close] at same
      split at same <;> cases same

end Entry
end SchemaTables
