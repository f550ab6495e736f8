import SchemaTables.Proofs.Calls

/-!
# No schema is left half rewritten

Whatever is called on the schemas of a registry, one by one or all together, and whichever of the
calls fail: each object has the slots it was built with or all of them rewritten, and an object that
has been taken up is never touched again. A call that fails leaves its own object as it was, but taken
up.
-/
namespace SchemaTables

/-- A slot holds what it held, or the schema at the end of the reference it held. -/
inductive Slot.Follows (meaning : String → Meaning) : Slot Place → Slot Place → Prop
  | same {place : Place} : Follows meaning (.node place) (.node place)
  | linked {text name : String} (ends : Chain.Verdict meaning text (.ok name)) :
      Follows meaning (.reference text) (.node (.registered name))

/-- The slots have been rewritten, all of them: no reference is left, and properties are re-keyed and
sorted. -/
inductive Content.Rewrites (meaning : String → Meaning) : Content Place → Content Place → Prop
  | scalar {kind : ScalarKind} : Rewrites meaning (.scalar kind) (.scalar kind)
  | array {items items' : Option (Slot Place)}
      (all : Option.Rel (Slot.Follows meaning) items items') :
      Rewrites meaning (.array items) (.array items')
  | object {properties properties' : List (String × Slot Place)}
      (all : Rekeyed Case.uncapitalize (fun _ => Slot.Follows meaning) properties properties') :
      Rewrites meaning (.object properties) (.object properties')
  | composed {alternatives alternatives' : List (Slot Place)}
      (all : List.Forall₂ (Slot.Follows meaning) alternatives alternatives') :
      Rewrites meaning (.composed alternatives) (.composed alternatives')

/-- How an object stands beside the one that was built at its place. -/
structure Object.Whole (meaning : String → Meaning) (built object : Object) : Prop where
  slots : object.content = built.content ∨
    object.settled = true ∧ built.content.Rewrites meaning object.content
  untouched : object.settled = false → object = built
  restates : object.head.Restates built.head
  kind : object.content.kind = built.content.kind

variable {registry : Registry}

/-- Where every reference can be followed, following is what the slots ask for. -/
theorem Slot.follows_iff {slot slot' : Slot Place}
    (resolves : ∀ text, slot = .reference text → ∃ name, Reference.resolve registry text = .ok name) :
    Slot.Follows registry.meaning slot slot' ↔
      slot.followed (Reference.resolve registry) = slot' := by
  cases slot with
  | node place =>
    constructor
    · rintro ⟨⟩
      rfl
    · rintro rfl
      exact .same
  | reference text =>
    obtain ⟨name, resolved⟩ := resolves text rfl
    have ends := Reference.resolve_eq_iff.mp resolved
    simp only [Slot.followed, resolved]
    constructor
    · rintro (_ | ends')
      cases Chain.verdict_unique ends ends'
      rfl
    · rintro rfl
      exact .linked ends

theorem Content.rewrites_followed {content : Content Place}
    (resolves : ∀ text, .reference text ∈ content.slots →
      ∃ name, Reference.resolve registry text = .ok name) :
    content.Rewrites registry.meaning (content.followed (Reference.resolve registry)) := by
  have follows : ∀ slot ∈ content.slots, ∀ slot', Slot.Follows registry.meaning slot slot' ↔
      slot.followed (Reference.resolve registry) = slot' := by
    intro slot listed slot'
    exact Slot.follows_iff fun text same => resolves text (same ▸ listed)
  cases content with
  | scalar kind => exact .scalar
  | array items =>
    cases items with
    | none => exact .array .none
    | some slot => exact .array (.some ((follows slot (List.mem_singleton.mpr rfl) _).mpr rfl))
  | object properties =>
    refine .object (rekeyed_rekey (f := fun _ => Slot.followed _) fun property listed slot => ?_)
    exact follows property.2 (List.mem_map_of_mem listed) slot
  | composed alternatives =>
    refine .composed ?_
    rw [List.forall₂_map_right_iff, List.forall₂_same]
    exact fun slot listed => (follows slot listed _).mpr rfl

namespace Content

theorem titled_restates (name : String) (head : Head) (content : Content Place) :
    (content.titled name head).Restates head := by
  cases content with
  | scalar kind => exact head.titledScalar_restates name kind
  | array | object => exact head.titledByName_restates name
  | composed alternatives =>
    rw [titled]
    split
    · exact head.titledByName_restates name
    · exact head.restates_refl

theorem kind_followed (follow : Follow) (content : Content Place) :
    (content.followed follow).kind = content.kind := by
  cases content <;> rfl

end Content

theorem Object.Becomes.whole {built object : Object}
    (becomes : built.Becomes (Reference.resolve registry) object) :
    built.Whole registry.meaning object := by
  cases becomes with
  | kept => exact ⟨.inl rfl, fun _ => rfl, built.head.restates_refl, rfl⟩
  | marked => exact ⟨.inl rfl, nofun, built.head.restates_refl, rfl⟩
  | rewritten _ name resolves =>
    exact ⟨.inr ⟨rfl, Content.rewrites_followed resolves⟩, nofun,
      built.content.titled_restates name built.head, built.content.kind_followed _⟩

/-- The heaps that calls on the objects of a registry lead to, whichever of the calls fail. -/
def Registry.Reaches (built : Registry) (heap : Heap) : Prop :=
  built.heap.Later (Reference.resolve built) heap

/-- No call leaves an object half rewritten, whatever was called before it. -/
structure Registry.Unbroken (built : Registry) : Prop where
  fresh : ∀ place object, built.heap place = some object → object.settled = false
  whole : ∀ heap, built.Reaches heap →
    ∀ place, Option.Rel (Object.Whole built.meaning) (built.heap place) (heap place)
  kept : ∀ heap after outermost slots fault, built.Reaches heap →
    Passes (Reference.resolve built) outermost heap slots after fault →
    ∀ place object next, heap place = some object → after place = some next →
      object.settled = true ∨ next.settled = false → next = object
  /-- The object of a failed call is marked and has the slots it was built with, for good. -/
  failed : ∀ heap after outermost name place fault, built.Reaches heap →
    Passes (Reference.resolve built) outermost heap [(name, .node place)] after (some fault) →
    ∃ original, built.heap place = some original ∧ heap place = some original ∧
      after place = some original.mark ∧
      ∀ later, after.Later (Reference.resolve built) later → ∀ outermost name final fault',
        Passes (Reference.resolve built) outermost later [(name, .node place)] final fault' ↔
          final = later ∧ fault' = none
  succeeded : ∀ heap after outermost name place object, built.Reaches heap →
    Passes (Reference.resolve built) outermost heap [(name, .node place)] after none →
    heap place = some object → object.settled = false →
    ∃ next, after place = some next ∧ next.settled = true ∧
      object.content.Rewrites built.meaning next.content
  /-- Every call on what is there ends, in one way. -/
  ends : ∀ heap outermost slots, built.Reaches heap → heap.Has (slots.map (·.2)) →
    ∃! result : Heap × Option ResolutionFault,
      Passes (Reference.resolve built) outermost heap slots result.1 result.2
  /-- What a registry shows after some calls is in such a heap, and its next call ends as the passes
  there do. -/
  performed : ∀ registry heap, Course built registry heap →
    built.Reaches heap ∧ heap.Shows registry.objects ∧
      ∀ call : Call, ∃ after, Passes (Reference.resolve built) call.outermost heap
        (call.slots built.slots) after (registry.call call).fault
  shown : ∀ calls, (built.run calls).slots = built.slots ∧
    ∀ found ∈ (built.run calls).objects, ∃ original, (found.1, original) ∈ built.objects ∧
      original.Whole built.meaning found.2
  /-- A registered schema that could not be settled stays as it was built, but marked, whatever is
  called from then on, and no further call on it has an effect. -/
  left : ∀ calls key place name fault, built.slots.lookup key = some (.node place) →
    ((built.run calls).call (.schema key name)).fault = some fault →
    ∃ original, (place, original) ∈ built.objects ∧ ∀ more again,
      let later := ((built.run calls).call (.schema key name)).after.run more
      (place, original.mark) ∈ later.objects ∧ later.call (.schema key again) = ⟨later, [], none⟩

/-- A call that fails finds its object as it was built, and only marks it. -/
theorem Registry.Reaches.marked_of_fault {built : Registry} {heap after : Heap} {outermost : Bool}
    {name : String} {place : Place} {fault : ResolutionFault} (reaches : built.Reaches heap)
    (passes : Passes (Reference.resolve built) outermost heap [(name, .node place)] after
      (some fault)) :
    ∃ original, built.heap place = some original ∧ heap place = some original ∧
      after place = some original.mark := by
  obtain ⟨object, held⟩ : ∃ object, heap place = some object := by
    cases passes with
    | again held | whole held | broken held => exact ⟨_, held⟩
  obtain ⟨original, built, becomes⟩ := reaches.becomes.exists_before held
  have fresh : object.settled = false := by
    by_contra settled
    cases ((Passes.again_iff held (by simpa using settled)).mp passes).2
  obtain rfl := becomes.eq_of_unsettled fresh
  exact ⟨object, built, held, passes.marked_of_fault held⟩

namespace Definitions
variable {definitions : Definitions}

theorem heap_eq_some_iff (distinct : definitions.Distinct) {place : Place} {object : Object} :
    (Registry.ofDefinitions definitions).heap place = some object ↔
      (place, object) ∈ (Registry.ofDefinitions definitions).objects :=
  ⟨Keyed.mem_of_lookup, Keyed.lookup_of_mem (nodup_objects distinct)⟩

theorem exists_entry (distinct : definitions.Distinct) {place : Place} {object : Object}
    (held : (Registry.ofDefinitions definitions).heap place = some object) :
    ∃ entry ∈ Registry.ofDefinitions definitions, (place, object) ∈ entry.2.objects := by
  have listed := (heap_eq_some_iff distinct).mp held
  rw [Registry.objects, Entry.propertyObjects_eq] at listed
  exact List.mem_flatMap.mp listed

theorem unsettled_of_built (distinct : definitions.Distinct) {place : Place} {object : Object}
    (held : (Registry.ofDefinitions definitions).heap place = some object) :
    object.settled = false := by
  obtain ⟨entry, hentry, listed⟩ := exists_entry distinct held
  exact (fresh_of_mem hentry).unsettled _ listed

theorem closed_of_built (distinct : definitions.Distinct) :
    (Registry.ofDefinitions definitions).heap.Closed := by
  intro place object held _ inner hslot
  obtain ⟨entry, hentry, listed⟩ := exists_entry distinct held
  obtain ⟨found, hfound, rfl⟩ :=
    List.mem_map.mp ((fresh_of_mem hentry).closed _ listed inner hslot)
  have listed : found ∈ (Registry.ofDefinitions definitions).objects := by
    rw [Registry.objects, Entry.propertyObjects_eq]
    exact List.mem_flatMap.mpr ⟨entry, hentry, hfound⟩
  rw [(heap_eq_some_iff distinct).mpr listed]
  rfl

theorem finite_of_built (distinct : definitions.Distinct) :
    (Registry.ofDefinitions definitions).heap.unsettled.Finite := by
  refine ((Registry.ofDefinitions definitions).objects.map (·.1)).finite_toSet.subset ?_
  rintro place ⟨object, held, -⟩
  exact List.mem_map.mpr ⟨_, (heap_eq_some_iff distinct).mp held, rfl⟩

theorem shown_of_run (distinct : definitions.Distinct) (calls : List Registry.Call) :
    ((Registry.ofDefinitions definitions).run calls).slots =
        (Registry.ofDefinitions definitions).slots ∧
      ∀ found ∈ ((Registry.ofDefinitions definitions).run calls).objects,
        ∃ original, (found.1, original) ∈ (Registry.ofDefinitions definitions).objects ∧
          original.Whole (Registry.ofDefinitions definitions).meaning found.2 := by
  obtain ⟨heap, course, -⟩ := Registry.Course.start.exists_run distinct calls
  obtain ⟨ready, shows⟩ := course.shows distinct
  refine ⟨ready.slots, fun found listed => ?_⟩
  obtain ⟨original, built, becomes⟩ := course.later.becomes.exists_before (shows found listed)
  exact ⟨original, (heap_eq_some_iff distinct).mp built, becomes.whole⟩

theorem left_of_fault (distinct : definitions.Distinct) {calls : List Registry.Call}
    {key name : String} {place : Place} {fault : ResolutionFault}
    (slot : (Registry.ofDefinitions definitions).slots.lookup key = some (.node place))
    (failed : (((Registry.ofDefinitions definitions).run calls).call (.schema key name)).fault =
      some fault) :
    ∃ original, (place, original) ∈ (Registry.ofDefinitions definitions).objects ∧ ∀ more again,
      let later := (((Registry.ofDefinitions definitions).run calls).call
        (.schema key name)).after.run more
      (place, original.mark) ∈ later.objects ∧
        later.call (.schema key again) = ⟨later, [], none⟩ := by
  obtain ⟨heap, course, -⟩ := Registry.Course.start.exists_run distinct calls
  obtain ⟨after, passes⟩ := course.exists_passes distinct (.schema key name)
  have course' := course.call _ passes
  rw [failed, Registry.Call.slots, slot] at passes
  obtain ⟨original, built, -, marked⟩ := Registry.Reaches.marked_of_fault course.later passes
  refine ⟨original, (heap_eq_some_iff distinct).mp built, fun more again => ?_⟩
  obtain ⟨last, run, further⟩ := course'.exists_run distinct more
  obtain ⟨ready, shows⟩ := run.shows distinct
  exact ready.again shows slot (further.marked marked) rfl again

/-- Whatever is called on the schemas of a registry, and however it ends, no schema is left half
rewritten. -/
theorem unbroken (distinct : definitions.Distinct) :
    (Registry.ofDefinitions definitions).Unbroken where
  fresh place object held := unsettled_of_built distinct held
  whole heap reaches place := by
    have becomes := reaches.becomes place
    generalize (Registry.ofDefinitions definitions).heap place = original, heap place = now
      at becomes ⊢
    cases becomes with
    | none => exact .none
    | some becomes => exact .some becomes.whole
  kept heap after outermost slots fault _ passes place object next held held' cause := by
    obtain ⟨found, same, becomes⟩ := passes.becomes.exists_of_held held
    cases held'.symm.trans same
    rcases cause with settled | unsettled
    · exact becomes.eq_of_settled settled
    · exact becomes.eq_of_unsettled unsettled
  failed heap after outermost name place fault reaches passes := by
    obtain ⟨original, built, held, marked⟩ := reaches.marked_of_fault passes
    refine ⟨original, built, held, marked, fun later further outermost name final fault' => ?_⟩
    exact Passes.again_iff (further.marked marked) rfl
  succeeded heap after outermost name place object _ passes held fresh := by
    obtain ⟨rewritten, resolves⟩ := passes.rewritten_of_done held fresh
    exact ⟨_, rewritten, rfl, Content.rewrites_followed resolves⟩
  ends heap outermost slots reaches has := by
    have finite := (finite_of_built distinct).subset reaches.becomes.unsettled_subset
    have closed := reaches.becomes.closed (closed_of_built distinct)
    obtain ⟨after, fault, passes⟩ := Passes.total finite closed has
    refine ⟨(after, fault), passes, fun result passes' => ?_⟩
    obtain ⟨same, same'⟩ := passes'.unique passes
    exact Prod.ext same same'
  performed registry heap course :=
    ⟨course.later, (course.shows distinct).2, course.exists_passes distinct⟩
  shown calls := shown_of_run distinct calls
  left calls key place name fault slot failed := left_of_fault distinct slot failed

/-- A kiln whose tray can be rewritten, but whose lid is missing. -/
def kiln : Definitions :=
  [("Kiln", .schema .object .bare none
    [("Tray", .schema .object .bare none
      [("Glaze", .reference "#/components/schemas/Glaze")] []),
      ("Lid", .reference "#/components/schemas/Lid")] []),
    ("Glaze", .schema (.scalar .string) .bare none [] [])]

theorem unbroken_kiln : kiln.Distinct ∧ (Registry.ofDefinitions kiln).Unbroken ∧
    ((Registry.ofDefinitions kiln).call (.schema "Kiln" "Kiln")).fault =
      some (.nested (.missing "#/components/schemas/Lid")) := by
  have distinct : kiln.Distinct := by decide
  exact ⟨distinct, unbroken distinct, rfl⟩

end Definitions
end SchemaTables
