import Mathlib.Data.Set.Card
import Mathlib.Order.CompletePartialOrder
import SchemaTables.Schema.Linking

/-!
# Schemas as objects

A settled tree forgets a property whose key a later one takes, and shows a schema that a reference
was linked to only where it is registered. Here every schema is an object in a heap of its own, found
by its place, and `Passes` says what it means to settle what stands in some slots, one after the
other: an object is marked before its parts are visited, and it is written to after all of them were
visited without a fault.

Whatever calls are made, and however they end, an object changes in one of two ways and only once:
by the mark alone, or by the mark with its title and all its slots.
-/
namespace SchemaTables

/-- A schema as an object: whether it has been taken up, what it shows, and its slots. -/
structure Object where
  settled : Bool
  head : Head
  content : Content Place
deriving Repr

abbrev Heap := Place → Option Object

def Heap.put (heap : Heap) (place : Place) (object : Object) : Heap :=
  fun other => if other = place then some object else heap other

namespace Heap
variable {heap : Heap} {place other : Place} {object : Object}

@[simp] theorem put_self : heap.put place object place = some object := if_pos rfl

theorem put_of_ne (ne : other ≠ place) : heap.put place object other = heap other := if_neg ne

/-- No object has been taken up and is still to be. -/
theorem false_of_settled {object' : Object} (held : heap place = some object)
    (settled : object.settled = true) (held' : heap place = some object')
    (fresh : object'.settled = false) : False := by
  cases held.symm.trans held'
  cases settled.symm.trans fresh

end Heap

/-- How references are followed: to the name of a registered schema, or not. -/
abbrev Follow := String → Except ReferenceFault String

def Slot.followed (follow : Follow) : Slot Place → Slot Place
  | node place => node place
  | reference text =>
    match follow text with
    | .ok name => node (.registered name)
    | .error _ => reference text

namespace Content

/-- The slots with the names under which they are visited, inside a schema visited under `name`. -/
def visits (name : String) : Content Place → List (String × Slot Place)
  | scalar _ => []
  | array items => items.toList.map fun slot => (name, slot)
  | object properties => properties
  | composed alternatives =>
    alternatives.zipIdx.map fun slot => (Entry.alternativeName name slot.2, slot.1)

/-- All slots with their references followed, and those of an object under their new keys. -/
def followed (follow : Follow) : Content Place → Content Place
  | scalar kind => scalar kind
  | array items => array (items.map (Slot.followed follow))
  | object properties => object (Keyed.rekey Case.uncapitalize
      (properties.map fun property => (property.1, property.2.followed follow)))
  | composed alternatives => composed (alternatives.map (Slot.followed follow))

/-- The head that a schema with these slots gets: one with alternatives is not titled. -/
def titled (name : String) (head : Head) : Content Place → Head
  | scalar kind => head.titledScalar name kind
  | array _ | object _ => head.titledByName name
  | composed alternatives => if alternatives.isEmpty then head.titledByName name else head

theorem map_visits (name : String) (content : Content Place) :
    (content.visits name).map (·.2) = content.slots := by
  cases content with
  | scalar kind => rfl
  | array items => cases items <;> rfl
  | object properties => rfl
  | composed alternatives =>
    rw [visits, List.map_map]
    exact List.zipIdx_map_fst 0 alternatives

end Content

namespace Object

def mark (object : Object) : Object := { object with settled := true }

/-- The object as a visit under `name` leaves it that meets no fault. -/
def rewritten (follow : Follow) (name : String) (object : Object) : Object :=
  ⟨true, object.content.titled name object.head, object.content.followed follow⟩

end Object

/-- Settles what stands in some slots, first to last and up to the first fault. A bad reference is
reported in one way among the outermost entries and in another inside a schema. -/
inductive Passes (follow : Follow) : (outermost : Bool) → Heap → List (String × Slot Place) →
    (after : Heap) → Option ResolutionFault → Prop
  | done {outermost : Bool} {heap : Heap} : Passes follow outermost heap [] heap none
  | linked {outermost : Bool} {heap after : Heap} {name text target : String}
      {slots : List (String × Slot Place)} {fault : Option ResolutionFault}
      (found : follow text = .ok target) (rest : Passes follow outermost heap slots after fault) :
      Passes follow outermost heap ((name, .reference text) :: slots) after fault
  | lost {outermost : Bool} {heap : Heap} {name text : String}
      {slots : List (String × Slot Place)} {cause : ReferenceFault}
      (bad : follow text = .error cause) :
      Passes follow outermost heap ((name, .reference text) :: slots) heap
        (some (if outermost then .entry cause else .nested cause))
  | again {outermost : Bool} {heap after : Heap} {name : String} {place : Place} {object : Object}
      {slots : List (String × Slot Place)} {fault : Option ResolutionFault}
      (held : heap place = some object) (settled : object.settled = true)
      (rest : Passes follow outermost heap slots after fault) :
      Passes follow outermost heap ((name, .node place) :: slots) after fault
  | whole {outermost : Bool} {heap between after : Heap} {name : String} {place : Place}
      {object : Object} {slots : List (String × Slot Place)} {fault : Option ResolutionFault}
      (held : heap place = some object) (fresh : object.settled = false)
      (parts : Passes follow false (heap.put place object.mark) (object.content.visits name)
        between none)
      (rest : Passes follow outermost (between.put place (object.rewritten follow name)) slots
        after fault) :
      Passes follow outermost heap ((name, .node place) :: slots) after fault
  | broken {outermost : Bool} {heap after : Heap} {name : String} {place : Place}
      {object : Object} {slots : List (String × Slot Place)} {fault : ResolutionFault}
      (held : heap place = some object) (fresh : object.settled = false)
      (parts : Passes follow false (heap.put place object.mark) (object.content.visits name)
        after (some fault)) :
      Passes follow outermost heap ((name, .node place) :: slots) after (some fault)

/-- What calls can make of an object. -/
inductive Object.Becomes (follow : Follow) (object : Object) : Object → Prop
  | kept : Becomes follow object object
  | marked (fresh : object.settled = false) : Becomes follow object object.mark
  | rewritten (fresh : object.settled = false) (name : String)
      (resolves : ∀ text, .reference text ∈ object.content.slots →
        ∃ target, follow text = .ok target) :
      Becomes follow object (object.rewritten follow name)

variable {follow : Follow} {outermost : Bool} {heap after : Heap}
  {slots : List (String × Slot Place)} {fault : Option ResolutionFault}

namespace Object.Becomes
variable {object next last : Object}

/-- What has been taken up stays as it is. -/
theorem eq_of_settled (becomes : object.Becomes follow next) (settled : object.settled = true) :
    next = object := by
  cases becomes with
  | kept => rfl
  | marked fresh | rewritten fresh => simp [settled] at fresh

theorem eq_of_unsettled (becomes : object.Becomes follow next) (unsettled : next.settled = false) :
    next = object := by
  cases becomes with
  | kept => rfl
  | marked | rewritten => cases unsettled

theorem trans (becomes : object.Becomes follow next) (further : next.Becomes follow last) :
    object.Becomes follow last := by
  cases settled : next.settled with
  | true => rwa [further.eq_of_settled settled]
  | false => rwa [← becomes.eq_of_unsettled settled]

end Object.Becomes

/-- Every object of the one heap is there in the other, as it may have become. -/
def Heap.Becomes (follow : Follow) (heap after : Heap) : Prop :=
  ∀ place, Option.Rel (Object.Becomes follow) (heap place) (after place)

namespace Heap.Becomes
variable {next : Heap} {place : Place} {object : Object}

theorem refl (follow : Follow) (heap : Heap) : heap.Becomes follow heap := by
  intro place
  cases heap place with
  | none => exact .none
  | some object => exact .some .kept

theorem trans (becomes : heap.Becomes follow next) (further : next.Becomes follow after) :
    heap.Becomes follow after := by
  intro place
  have first := becomes place
  have second := further place
  generalize heap place = a, next place = b, after place = c at first second ⊢
  cases first with
  | none => exact second
  | some first =>
    cases second with
    | some second => exact .some (first.trans second)

theorem exists_of_held (becomes : heap.Becomes follow after) (held : heap place = some object) :
    ∃ next, after place = some next ∧ object.Becomes follow next := by
  have change := becomes place
  rw [held] at change
  cases found : after place with
  | none => rw [found] at change; cases change
  | some next =>
    rw [found] at change
    cases change with
    | some change => exact ⟨next, rfl, change⟩

/-- Calls create no object. -/
theorem exists_before (becomes : heap.Becomes follow after) (held : after place = some object) :
    ∃ before, heap place = some before ∧ before.Becomes follow object := by
  have change := becomes place
  rw [held] at change
  cases found : heap place with
  | none => rw [found] at change; cases change
  | some before =>
    rw [found] at change
    cases change with
    | some change => exact ⟨before, rfl, change⟩

theorem put (held : heap place = some object) {next : Object}
    (becomes : object.Becomes follow next) : heap.Becomes follow (heap.put place next) := by
  intro other
  by_cases same : other = place
  · rw [same, held, put_self]
    exact .some becomes
  · rw [put_of_ne same]
    exact refl follow heap other

end Heap.Becomes

namespace Passes

/-- Without a fault, every reference among the slots has been followed. -/
theorem resolves (passes : Passes follow outermost heap slots after none) {text : String}
    (listed : .reference text ∈ slots.map (·.2)) : ∃ target, follow text = .ok target := by
  generalize clean : (none : Option ResolutionFault) = fault at passes
  induction passes with
  | done => cases listed
  | linked found _ ih =>
    rcases List.mem_cons.mp listed with same | later
    · cases same
      exact ⟨_, found⟩
    · exact ih later clean
  | again _ _ _ ih | whole _ _ _ _ _ ih =>
    rcases List.mem_cons.mp listed with same | later
    · cases same
    · exact ih later clean
  | lost | broken => cases clean

/-- Nothing happens to an object but what `Object.Becomes` allows. -/
theorem becomes (passes : Passes follow outermost heap slots after fault) :
    heap.Becomes follow after := by
  induction passes with
  | done | lost => exact .refl follow _
  | linked _ _ ih | again _ _ _ ih => exact ih
  | broken held fresh _ ih => exact (Heap.Becomes.put held (.marked fresh)).trans ih
  | @whole outermost heap between after name place object slots fault held fresh parts rest ihParts ihRest =>
    have resolves : ∀ text, .reference text ∈ object.content.slots →
        ∃ target, follow text = .ok target := by
      intro text listed
      rw [← object.content.map_visits name] at listed
      exact parts.resolves listed
    refine Heap.Becomes.trans (fun other => ?_) ihRest
    by_cases same : other = place
    · rw [same, held, Heap.put_self]
      exact .some (.rewritten fresh name resolves)
    · have elsewhere := ihParts other
      rwa [Heap.put_of_ne same] at elsewhere ⊢

/-- A mark stays where it is while the parts are visited. -/
theorem marked_of_parts {place : Place} {object : Object}
    (parts : Passes follow outermost (heap.put place object.mark) slots after fault) :
    after place = some object.mark := by
  obtain ⟨next, found, becomes⟩ := parts.becomes.exists_of_held Heap.put_self
  rw [found, becomes.eq_of_settled rfl]

/-- A call that fails leaves the mark on its object, and else the object as it was. -/
theorem marked_of_fault {name : String} {place : Place} {object : Object} {fault : ResolutionFault}
    (passes : Passes follow outermost heap [(name, .node place)] after (some fault))
    (held : heap place = some object) : after place = some object.mark := by
  cases passes with
  | again _ _ rest | whole _ _ _ rest => cases rest
  | broken held' _ parts =>
    cases held.symm.trans held'
    exact parts.marked_of_parts

/-- A call that takes up an object and meets no fault leaves it rewritten. -/
theorem rewritten_of_done {name : String} {place : Place} {object : Object}
    (passes : Passes follow outermost heap [(name, .node place)] after none)
    (held : heap place = some object) (fresh : object.settled = false) :
    after place = some (object.rewritten follow name) ∧
      ∀ text, .reference text ∈ object.content.slots → ∃ target, follow text = .ok target := by
  cases passes with
  | again held' settled => exact (Heap.false_of_settled held' settled held fresh).elim
  | whole held' _ parts rest =>
    cases held.symm.trans held'
    cases rest
    refine ⟨Heap.put_self, fun text listed => ?_⟩
    rw [← object.content.map_visits name] at listed
    exact parts.resolves listed

/-- A call on an object that has been taken up has no effect. -/
theorem again_iff {name : String} {place : Place} {object : Object}
    (held : heap place = some object) (settled : object.settled = true) :
    Passes follow outermost heap [(name, .node place)] after fault ↔ after = heap ∧ fault = none := by
  constructor
  · intro passes
    cases passes with
    | again held' settled' rest =>
      cases rest
      exact ⟨rfl, rfl⟩
    | whole held' fresh | broken held' fresh =>
      exact (Heap.false_of_settled held settled held' fresh).elim
  · rintro ⟨rfl, rfl⟩
    exact .again held settled .done

/-- A call ends in one way only. -/
theorem unique {other : Heap} {fault' : Option ResolutionFault}
    (passes : Passes follow outermost heap slots after fault)
    (passes' : Passes follow outermost heap slots other fault') : after = other ∧ fault = fault' := by
  induction passes generalizing other fault' with
  | done =>
    cases passes'
    exact ⟨rfl, rfl⟩
  | linked found _ ih =>
    cases passes' with
    | linked _ rest => exact ih rest
    | lost bad => cases found.symm.trans bad
  | lost bad =>
    cases passes' with
    | linked found _ => cases bad.symm.trans found
    | lost bad' =>
      cases bad.symm.trans bad'
      exact ⟨rfl, rfl⟩
  | again held settled _ ih =>
    cases passes' with
    | again _ _ rest => exact ih rest
    | whole held' fresh | broken held' fresh =>
      exact (Heap.false_of_settled held settled held' fresh).elim
  | whole held fresh _ _ ihParts ihRest =>
    cases passes' with
    | again held' settled => exact (Heap.false_of_settled held' settled held fresh).elim
    | whole held' _ parts rest =>
      cases held.symm.trans held'
      obtain ⟨rfl, -⟩ := ihParts parts
      exact ihRest rest
    | broken held' _ parts =>
      cases held.symm.trans held'
      cases (ihParts parts).2
  | broken held fresh _ ih =>
    cases passes' with
    | again held' settled => exact (Heap.false_of_settled held' settled held fresh).elim
    | whole held' _ parts =>
      cases held.symm.trans held'
      cases (ih parts).2
    | broken held' _ parts =>
      cases held.symm.trans held'
      exact ih parts

end Passes

namespace Heap

/-- Where the objects stand that have not been taken up. -/
def unsettled (heap : Heap) : Set Place :=
  {place | ∃ object, heap place = some object ∧ object.settled = false}

/-- What a slot holds is there. -/
def Has (heap : Heap) (slots : List (Slot Place)) : Prop :=
  ∀ place, .node place ∈ slots → (heap place).isSome

/-- What is still to be visited is there. -/
def Closed (heap : Heap) : Prop :=
  ∀ place object, heap place = some object → object.settled = false → heap.Has object.content.slots

namespace Becomes

theorem unsettled_subset (becomes : heap.Becomes follow after) :
    after.unsettled ⊆ heap.unsettled := by
  rintro place ⟨object, held, fresh⟩
  obtain ⟨before, found, change⟩ := becomes.exists_before held
  exact ⟨before, found, by rwa [← change.eq_of_unsettled fresh]⟩

theorem has (becomes : heap.Becomes follow after) {slots : List (Slot Place)}
    (has : heap.Has slots) : after.Has slots := by
  intro place listed
  obtain ⟨object, held⟩ := Option.isSome_iff_exists.mp (has place listed)
  obtain ⟨next, found, -⟩ := becomes.exists_of_held held
  rw [found]
  rfl

theorem closed (becomes : heap.Becomes follow after) (closed : heap.Closed) : after.Closed := by
  intro place object held fresh
  obtain ⟨before, found, change⟩ := becomes.exists_before held
  obtain rfl := change.eq_of_unsettled fresh
  exact becomes.has (closed place object found fresh)

end Becomes

theorem unsettled_mark_ssubset {place : Place} {object : Object} (held : heap place = some object)
    (fresh : object.settled = false) : (heap.put place object.mark).unsettled ⊂ heap.unsettled := by
  -- no reference is followed here, so any way to follow them will do
  have becomes : heap.Becomes (fun text => .error (.invalid text)) (heap.put place object.mark) :=
    .put held (.marked fresh)
  refine ⟨becomes.unsettled_subset, fun all => ?_⟩
  obtain ⟨marked, found, unsettled⟩ := all ⟨object, held, fresh⟩
  rw [put_self] at found
  cases found
  cases unsettled

end Heap

namespace Passes

/-- Every call ends: there is always less to take up while the parts of an object are visited. -/
theorem total_of_le {bound : Nat} (finite : heap.unsettled.Finite) (closed : heap.Closed)
    (has : heap.Has (slots.map (·.2))) (le : heap.unsettled.ncard ≤ bound) :
    ∃ after fault, Passes follow outermost heap slots after fault := by
  induction bound using Nat.strong_induction_on generalizing heap slots outermost with
  | _ bound further =>
    induction slots generalizing heap with
    | nil => exact ⟨heap, none, .done⟩
    | cons slot slots ih =>
      have later : heap.Has (slots.map (·.2)) := fun place listed =>
        has place (List.mem_cons_of_mem _ listed)
      obtain ⟨name, slot⟩ := slot
      cases slot with
      | reference text =>
        cases outcome : follow text with
        | ok target =>
          obtain ⟨after, fault, rest⟩ := ih finite closed later le
          exact ⟨after, fault, .linked outcome rest⟩
        | error cause => exact ⟨heap, _, .lost outcome⟩
      | node place =>
        obtain ⟨object, held⟩ := Option.isSome_iff_exists.mp (has place List.mem_cons_self)
        cases settled : object.settled with
        | true =>
          obtain ⟨after, fault, rest⟩ := ih finite closed later le
          exact ⟨after, fault, .again held settled rest⟩
        | false =>
          have mark : heap.Becomes follow (heap.put place object.mark) :=
            .put held (.marked settled)
          have fewer := Set.ncard_lt_ncard (Heap.unsettled_mark_ssubset held settled) finite
          have parts : (heap.put place object.mark).Has
              ((object.content.visits name).map (·.2)) := by
            rw [object.content.map_visits]
            exact mark.has (closed place object held settled)
          obtain ⟨between, fault, inner⟩ := further _ (by omega)
            (finite.subset mark.unsettled_subset) (mark.closed closed) parts le_rfl
          cases fault with
          | some fault => exact ⟨between, some fault, .broken held settled inner⟩
          | none =>
            have first : Passes follow outermost heap [(name, .node place)]
                (between.put place (object.rewritten follow name)) none :=
              .whole held settled inner .done
            have fewer := Set.ncard_le_ncard first.becomes.unsettled_subset finite
            obtain ⟨after, fault, rest⟩ := ih (finite.subset first.becomes.unsettled_subset)
              (first.becomes.closed closed) (first.becomes.has later) (by omega)
            exact ⟨after, fault, .whole held settled inner rest⟩

theorem total (finite : heap.unsettled.Finite) (closed : heap.Closed)
    (has : heap.Has (slots.map (·.2))) :
    ∃ after fault, Passes follow outermost heap slots after fault :=
  total_of_le finite closed has le_rfl

end Passes
end SchemaTables
