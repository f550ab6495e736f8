import Mathlib.Data.Set.Card
import SchemaTables.Proofs.Links

/-!
# Every visit is accounted for

A walk comes to a schema once for each selected name that stands for it, and once for each slot
that holds it in a schema that it has gone into. It goes into a schema under a mark once, and
records every other visit. `Tour.passes` counts visits by marks, whatever schemas share one; where
the marks tell the schemas apart, the records say how often each of them was come to.
-/
namespace SchemaTables

namespace Slot
variable {α : Type} [BEq α]

/-- Whether the schema at `place` is in the slot. -/
def holds (slot : Slot α) (place : α) : Bool :=
  match slot with
  | .node other => other == place
  | .reference _ => false

end Slot

namespace Node
variable {α : Type}

theorem mark?_eq_table_iff {node : Node α} {id : String} :
    node.mark? = some (.table id) ↔ node.content.isCompound ∧ node.head.id = id := by
  constructor
  · intro hmark
    have asks : node.call?.isSome := node.isSome_call?_iff.mpr ⟨id, hmark⟩
    rcases node.call?_cases with ⟨-, none⟩ | ⟨compound, -⟩
    · simp [none] at asks
    · rw [mark?_of_isCompound compound] at hmark
      exact ⟨compound, by simpa using hmark⟩
  · intro shown
    rw [mark?_of_isCompound shown.1, shown.2]

theorem mark?_eq_array_iff {node : Node α} {id : String} :
    node.mark? = some (.array id) ↔ node.content.kind = .array ∧ node.head.id = id := by
  cases content : node.content with
  | array items => simp [mark?_of_array content, Content.kind]
  | scalar kind => simp [mark?, template?, content, Content.kind]
  | object properties => simp [mark?, content, Content.kind]
  | composed alternatives => simp [mark?, content, Content.kind]

end Node

namespace Walk
variable {α : Type}

/-- How often a schema under that mark has been passed over. -/
def passes (walk : Walk α) : Mark → Nat
  | .table id => walk.skipped.count id
  | .array id => walk.notices.count (.arrayVisited id)

/-- What tells that a table is there already, and what tells that an array has been gone into. -/
def skipMessage (id : String) : String := "Schema " ++ id ++ " rendered already"

def passMessage (id : String) : String := "Array schema " ++ id ++ " visited already"

/-- The records of a walk keep to what it passes over. -/
structure Recorded (walk : Walk α) : Prop where
  skips : Notice.messages .info walk.notices = walk.skipped.map skipMessage
  arrays : ∀ notice ∈ walk.notices, notice.level = .debug → ∃ id, notice = .arrayVisited id

theorem recorded_start : (start : Walk α).Recorded := ⟨rfl, by simp [start]⟩

/-- One more record, of a table that is skipped, of an array, or above both. -/
theorem Recorded.add {walk after : Walk α} (recorded : walk.Recorded) (notice : Notice)
    (notices : after.notices = walk.notices ++ [notice])
    (skipped : after.skipped.map skipMessage = walk.skipped.map skipMessage ++
      if notice.level = .info then [notice.message] else [])
    (debug : notice.level = .debug → ∃ id, notice = .arrayVisited id) : after.Recorded where
  skips := by
    rw [notices, Notice.messages_append, recorded.skips, skipped]
    by_cases info : notice.level = .info <;> simp [Notice.messages, info]
  arrays := by
    rw [notices, List.forall_mem_append, List.forall_mem_singleton]
    exact ⟨recorded.arrays, debug⟩

theorem Recorded.miss {walk : Walk α} (recorded : walk.Recorded) (name : String) :
    (walk.miss name).Recorded :=
  recorded.add (.notFound name) rfl (by simp [Walk.miss, Notice.level])
    (by simp [Notice.level])

theorem Recorded.skip {walk : Walk α} (recorded : walk.Recorded) (id : String) :
    (walk.skip id).Recorded := by
  have message : (Notice.tableRendered id).message = skipMessage id := rfl
  exact recorded.add (.tableRendered id) rfl (by simp [Walk.skip, Notice.level, message])
    (by simp [Notice.level])

theorem Recorded.passAgain {walk : Walk α} (recorded : walk.Recorded) (id : String) :
    (walk.passAgain id).Recorded :=
  recorded.add (.arrayVisited id) rfl (by simp [Walk.passAgain, Notice.level])
    fun _ => ⟨id, rfl⟩

theorem Recorded.meet {walk : Walk α} (recorded : walk.Recorded) (node : Node α) :
    (walk.meet node).1.Recorded := by
  rcases meet_cases walk node with ⟨-, -, h⟩ | ⟨template, -, -, h⟩ | ⟨-, -, h⟩
  · rw [h]
    exact recorded
  · rw [h]
    split
    · exact recorded.skip node.head.id
    · exact ⟨recorded.skips, recorded.arrays⟩
  · rw [h]
    split
    · exact recorded.passAgain node.head.id
    · exact ⟨recorded.skips, recorded.arrays⟩

/-- To meet a schema under a mark that is taken is to pass it over, and nothing else is. -/
theorem passes_meet (walk : Walk α) (node : Node α) (mark : Mark) :
    (walk.meet node).1.passes mark =
      walk.passes mark + if node.mark? = some mark ∧ walk.enters node = false then 1 else 0 := by
  rcases meet_cases walk node with ⟨hmark, -, h⟩ | ⟨template, hmark, -, h⟩ | ⟨hmark, -, h⟩
  · simp [h, hmark]
  · rw [h, enters_of_mark? hmark, hmark]
    cases held : walk.holds (.table node.head.id) with
    | false => cases mark <;> simp [passes, call]
    | true => cases mark <;> simp [passes, Walk.skip, List.count_singleton, List.count_append]
  · rw [h, enters_of_mark? hmark, hmark]
    cases held : walk.holds (.array node.head.id) with
    | false => cases mark <;> simp [passes, pass]
    | true => cases mark <;> simp [passes, Walk.passAgain, List.count_singleton, List.count_append]

/-- How often the records speak of an array. -/
theorem Recorded.count_passMessage {walk : Walk α} (recorded : walk.Recorded) (id : String) :
    (Notice.messages .debug walk.notices).count (passMessage id) = walk.passes (.array id) := by
  have told (id : String) : (Notice.arrayVisited id).message = passMessage id := rfl
  rw [Walk.passes, Notice.messages, List.count_eq_countP, List.countP_map, List.countP_filter,
    List.count_eq_countP]
  apply List.countP_congr
  intro notice hnotice
  constructor
  · intro speaks
    obtain ⟨speaks, debug⟩ : notice.message = passMessage id ∧ notice.level = .debug := by
      simpa using speaks
    obtain ⟨other, rfl⟩ := recorded.arrays notice hnotice debug
    have inner := (String.append_left_inj _).mp ((told other).symm.trans speaks)
    simp [(String.append_right_inj _).mp inner]
  · intro same
    have same : notice = .arrayVisited id := by simpa using same
    subst same
    simp [told, Notice.level]

end Walk

namespace Catalog
variable {α : Type} [BEq α]

/-- Whether a slot holds a schema under that mark. -/
def bears (catalog : Catalog α) (mark : Mark) : Slot α → Bool
  | .node place => catalog.mark? place == some mark
  | .reference _ => false

def slotsAt (catalog : Catalog α) (place : α) : List (Slot α) :=
  ((catalog.node? place).map fun node => node.content.slots).getD []

/-- What the items of the array at `place` are. -/
def itemsAt (catalog : Catalog α) (place : α) : Option (Slot α) :=
  (catalog.node? place).bind fun node => node.content.items

/-- The arrays that `roots` lead to whose items are at `place`. -/
def arraysOf (catalog : Catalog α) (roots : List (Slot α)) (place : α) : Set α :=
  { outer | catalog.Leads roots (.node outer) ∧ catalog.itemsAt outer = some (.node place) }

/-- How often a walk has to come to a schema: for the selected names that stand for it, for the
slots that hold it in the schemas whose tables are asked for, and for the arrays of it. -/
noncomputable def visits (catalog : Catalog α) (selection : List String) (walk : Walk α)
    (place : α) : Nat :=
  (catalog.roots selection).countP (·.holds place) +
    (walk.calls.flatMap fun call => call.node.content.slots).countP (·.holds place) +
      (catalog.arraysOf (catalog.roots selection) place).ncard

/-- What a walk passes over, and what it says of it, accounts for all its visits but the first one
to each schema. -/
structure Accounts (catalog : Catalog α) (selection : List String) (walk : Walk α) : Prop where
  clean : walk.fault = none
  tables : ∀ place node, catalog.Leads (catalog.roots selection) (.node place) →
    catalog.node? place = some node → node.content.isCompound →
      1 + walk.skipped.count node.head.id = catalog.visits selection walk place
  skips : Notice.messages .info walk.notices =
    walk.skipped.map fun id => "Schema " ++ id ++ " rendered already"
  arrays : ∀ place node, catalog.Leads (catalog.roots selection) (.node place) →
    catalog.node? place = some node → node.content.kind = .array →
      1 + (Notice.messages .debug walk.notices).count
          ("Array schema " ++ node.head.id ++ " visited already") =
        catalog.visits selection walk place
  /-- Nothing else is passed over or spoken of. -/
  skipped : ∀ id ∈ walk.skipped, ∃ place node,
    catalog.Leads (catalog.roots selection) (.node place) ∧ catalog.node? place = some node ∧
      node.content.isCompound ∧ node.head.id = id
  passed : ∀ message ∈ Notice.messages .debug walk.notices, ∃ place node,
    catalog.Leads (catalog.roots selection) (.node place) ∧ catalog.node? place = some node ∧
      node.content.kind = .array ∧ message = "Array schema " ++ node.head.id ++ " visited already"

variable {catalog : Catalog α} {tasks : List (Task α)} {walk after : Walk α} {entered : List α}

theorem slotsAt_of_found {place : α} {node : Node α} (found : catalog.node? place = some node) :
    catalog.slotsAt place = node.content.slots := by
  simp [slotsAt, found]

theorem exists_of_mem_slotsAt {place : α} {slot : Slot α} (inside : slot ∈ catalog.slotsAt place) :
    ∃ node, catalog.node? place = some node ∧ slot ∈ node.content.slots := by
  cases found : catalog.node? place with
  | none => simp [slotsAt, found] at inside
  | some node => exact ⟨node, rfl, slotsAt_of_found found ▸ inside⟩

theorem bears_of_found {place : α} {node : Node α} (found : catalog.node? place = some node)
    (mark : Mark) : catalog.bears mark (.node place) = decide (node.mark? = some mark) := by
  rw [bears, mark?_of_found found]
  by_cases same : node.mark? = some mark <;> simp [same]

namespace Tour

theorem recorded (tour : catalog.Tour tasks walk entered after) (clean : after.fault = none)
    (start : walk.Recorded) : after.Recorded := by
  induction tour with
  | done => exact start
  | missing _ _ ih => exact ih clean (start.miss _)
  | unresolved _ => cases clean
  | absent _ _ _ ih => exact ih clean start
  | passed _ _ _ _ ih => exact ih clean (start.meet _)
  | entered _ _ _ _ ih => exact ih clean (start.meet _)

/-- Whatever schemas share a mark, each visit under it goes into one of them or passes one over: the
visits are one for each task and one for each slot of the schemas gone into. -/
theorem passes (tour : catalog.Tour tasks walk entered after) (clean : after.fault = none)
    (mark : Mark) :
    after.passes mark + entered.countP (fun place => catalog.mark? place == some mark) =
      walk.passes mark + (tasks.filterMap catalog.target?).countP (catalog.bears mark) +
        (entered.flatMap catalog.slotsAt).countP (catalog.bears mark) := by
  induction tour with
  | done => simp
  | @missing name tasks walk after entered unknown _ ih =>
    have rest := ih clean
    have same : (walk.miss name).passes mark = walk.passes mark := by
      cases mark <;> simp [Walk.passes, Walk.miss, List.count_append]
    have skipped : catalog.target? (.name name) = none := unknown
    rw [List.filterMap_cons_none skipped]
    omega
  | unresolved _ => cases clean
  | @absent task place tasks walk after entered target nothing _ ih =>
    have rest := ih clean
    have unmarked : catalog.bears mark (.node place) = false := by
      simp [bears, mark?, nothing]
    rw [List.filterMap_cons_some target, List.countP_cons_of_neg (by simp [unmarked])]
    exact rest
  | @passed task place node tasks walk after entered target found stays _ ih =>
    have rest := ih clean
    have passes := walk.passes_meet node mark
    rw [List.filterMap_cons_some target, List.countP_cons, bears_of_found found]
    simp only [stays, and_true, decide_eq_true_eq] at passes ⊢
    omega
  | @entered task place node tasks walk after entered target found enters _ ih =>
    have rest := ih clean
    have passes := walk.passes_meet node mark
    have targets : (node.content.slots.map Task.slot).filterMap catalog.target? =
        node.content.slots := by
      rw [List.filterMap_map]
      exact List.filterMap_some
    rw [List.filterMap_append, targets, List.countP_append] at rest
    rw [List.filterMap_cons_some target, List.flatMap_cons, slotsAt_of_found found,
      List.countP_append]
    simp only [List.countP_cons, bears_of_found found, mark?_of_found found, enters,
      Bool.true_eq_false, and_false, if_false, decide_eq_true_eq, beq_iff_eq] at passes ⊢
    omega

end Tour

/-- The slots of a schema are those of its table, or the items of an array. -/
theorem countP_slotsAt (catalog : Catalog α) (p : Slot α → Bool) (place : α) :
    (catalog.slotsAt place).countP p =
      ((catalog.call? place).toList.flatMap fun call => call.node.content.slots).countP p +
        if (catalog.itemsAt place).any p then 1 else 0 := by
  cases found : catalog.node? place with
  | none => simp [slotsAt, call?, itemsAt, found]
  | some node =>
    rw [slotsAt_of_found found, call?_of_found found, itemsAt, found, Option.bind_some]
    obtain ⟨head, content⟩ := node
    cases content with
    | scalar kind => rfl
    | array items =>
      cases items with
      | none => rfl
      | some slot =>
        by_cases hp : p slot <;> simp [Content.slots, Content.items, Node.call?, Node.template?, hp]
    | object properties =>
      cases properties with
      | nil => rfl
      | cons field rest => simp [Content.slots, Content.items, Node.call?, Node.template?]
    | composed alternatives =>
      cases alternatives with
      | nil => rfl
      | cons slot rest => simp [Content.slots, Content.items, Node.call?, Node.template?]

theorem countP_flatMap_slotsAt (catalog : Catalog α) (p : Slot α → Bool) (places : List α) :
    (places.flatMap catalog.slotsAt).countP p =
      ((places.filterMap catalog.call?).flatMap fun call => call.node.content.slots).countP p +
        places.countP fun place => (catalog.itemsAt place).any p := by
  induction places with
  | nil => rfl
  | cons place rest ih =>
    have here := catalog.countP_slotsAt p place
    rw [List.flatMap_cons, List.countP_append, ih, here, List.countP_cons]
    cases asks : catalog.call? place with
    | none => simp [asks]; omega
    | some call => simp [asks]; omega

theorem holds_iff [LawfulBEq α] {slot : Slot α} {place : α} :
    slot.holds place ↔ slot = .node place := by
  cases slot <;> simp [Slot.holds]

theorem exists_of_bears [LawfulBEq α] {mark : Mark} {slot : Slot α}
    (bears : catalog.bears mark slot) :
    ∃ place, slot = .node place ∧ catalog.mark? place = some mark := by
  cases slot with
  | reference text => cases bears
  | node place => exact ⟨place, rfl, by simpa [Catalog.bears] using bears⟩

theorem mark?_of_itemsAt {place : α} {slot : Slot α} (items : catalog.itemsAt place = some slot) :
    (catalog.mark? place).isSome := by
  obtain ⟨node, found, items⟩ := Option.bind_eq_some_iff.mp items
  rw [mark?_of_found found]
  obtain ⟨head, content⟩ := node
  cases content with
  | array _ => rfl
  | scalar _ | object _ | composed _ => cases items

section
variable {selection : List String}
  (tour : catalog.Tour ((catalog.selected selection).map .name) .start entered after)
include tour

/-- Of a whole walk, whose tasks are the selected names: the visits under a mark are one for each
name that bears it, and one for each slot. -/
theorem Tour.passes_selected (clean : after.fault = none) (mark : Mark) :
    after.passes mark + entered.countP (fun place => catalog.mark? place == some mark) =
      (catalog.roots selection).countP (catalog.bears mark) +
        (entered.flatMap catalog.slotsAt).countP (catalog.bears mark) := by
  have counted := tour.passes clean mark
  have none : (Walk.start : Walk α).passes mark = 0 := by cases mark <;> rfl
  have targets : ((catalog.selected selection).map Task.name).filterMap catalog.target? =
      catalog.roots selection := List.filterMap_map ..
  rw [none, targets] at counted
  omega

/-- The selection leads to all slots that a walk comes by. -/
theorem Tour.leads_of_mem_slotsAt {slot : Slot α} (inside : slot ∈ entered.flatMap catalog.slotsAt) :
    catalog.Leads (catalog.roots selection) slot := by
  obtain ⟨outer, houter, inside⟩ := List.mem_flatMap.mp inside
  obtain ⟨node, found, inside⟩ := exists_of_mem_slotsAt inside
  have within := (tour.leads leads_of_selected).1
  exact (within outer houter).part found inside

end

section
variable [LawfulBEq α] {selection : List String}
  (discerned : catalog.Discerned (catalog.roots selection))
  (tour : catalog.Tour ((catalog.selected selection).map .name) .start entered
    (catalog.visitSelection selection))
include discerned tour

/-- The arrays that a walk has gone into are all those that its selection leads to. -/
theorem countP_arrays (place : α) :
    (entered.countP fun outer => (catalog.itemsAt outer).any (·.holds place)) =
      (catalog.arraysOf (catalog.roots selection) place).ncard := by
  classical
  have nodup : entered.Nodup := List.Nodup.of_map _ tour.nodup_marks
  have same : catalog.arraysOf (catalog.roots selection) place =
      ↑(entered.filter fun outer => (catalog.itemsAt outer).any (·.holds place)).toFinset := by
    ext outer
    have any : (catalog.itemsAt outer).any (·.holds place) ↔
        catalog.itemsAt outer = some (.node place) := by
      cases catalog.itemsAt outer <;> simp [holds_iff]
    rw [List.coe_toFinset, Set.mem_ofPred_eq, List.mem_filter, any, arraysOf, Set.mem_ofPred_eq]
    apply and_congr_left
    intro items
    exact (mem_entered_iff_leads discerned (mark?_of_itemsAt items) tour).symm
  rw [same, Set.ncard_coe_finset, List.toFinset_card_of_nodup (nodup.filter _),
    List.countP_eq_length_filter]

/-- Where marks tell schemas apart, what is passed over under a mark is what is come to again. -/
theorem visits_eq {place : α} {mark : Mark}
    (leads : catalog.Leads (catalog.roots selection) (.node place))
    (hmark : catalog.mark? place = some mark) :
    1 + (catalog.visitSelection selection).passes mark =
      catalog.visits selection (catalog.visitSelection selection) place := by
  have counted := tour.passes_selected discerned.clean mark
  have calls : (catalog.visitSelection selection).calls = entered.filterMap catalog.call? :=
    tour.calls_eq
  -- one schema alone is gone into under the mark
  have once : (entered.countP fun other => catalog.mark? other == some mark) = 1 := by
    have listed : place ∈ entered :=
      (mem_entered_iff_leads discerned (by simp [hmark]) tour).mpr leads
    have marked : some mark ∈ entered.map catalog.mark? := List.mem_map.mpr ⟨place, listed, hmark⟩
    have one := List.count_eq_one_of_mem tour.nodup_marks marked
    rw [List.count_eq_countP, List.countP_map] at one
    exact one
  -- and whatever is led to bears the mark where it is that schema
  have bears : ∀ slots : List (Slot α),
      (∀ slot ∈ slots, catalog.Leads (catalog.roots selection) slot) →
        slots.countP (catalog.bears mark) = slots.countP (·.holds place) := by
    intro slots hslots
    apply List.countP_congr
    intro slot hslot
    obtain ⟨other, node, rfl, found⟩ := discerned.present slot (hslots slot hslot)
    rw [holds_iff, Slot.node.injEq, bears, beq_iff_eq]
    constructor
    · exact fun same => discerned.eq_of_mark? (hslots _ hslot) leads same hmark
    · exact fun same => same ▸ hmark
  have roots := bears (catalog.roots selection) fun slot hslot => .root hslot
  have parts := bears (entered.flatMap catalog.slotsAt) fun slot hslot =>
    tour.leads_of_mem_slotsAt hslot
  have split := catalog.countP_flatMap_slotsAt (·.holds place) entered
  rw [countP_arrays discerned tour place, ← calls] at split
  rw [roots, parts, split, once] at counted
  rw [visits]
  omega

end

/-- What a walk passes over is among what its selection leads to. -/
theorem Tour.exists_of_passes [LawfulBEq α] {selection : List String}
    (tour : catalog.Tour ((catalog.selected selection).map .name) .start entered after)
    (clean : after.fault = none) {mark : Mark} (passed : 0 < after.passes mark) :
    ∃ place, catalog.Leads (catalog.roots selection) (.node place) ∧
      catalog.mark? place = some mark := by
  have counted := tour.passes_selected clean mark
  have some : 0 < (catalog.roots selection).countP (catalog.bears mark) ∨
      0 < (entered.flatMap catalog.slotsAt).countP (catalog.bears mark) := by omega
  have leads : ∃ slot, catalog.Leads (catalog.roots selection) slot ∧
      catalog.bears mark slot := by
    rcases some with root | part
    · obtain ⟨slot, hslot, bears⟩ := List.countP_pos_iff.mp root
      exact ⟨slot, .root hslot, bears⟩
    · obtain ⟨slot, hslot, bears⟩ := List.countP_pos_iff.mp part
      exact ⟨slot, tour.leads_of_mem_slotsAt hslot, bears⟩
  obtain ⟨slot, leads, bears⟩ := leads
  obtain ⟨place, rfl, hmark⟩ := exists_of_bears bears
  exact ⟨place, leads, hmark⟩

/-- Where its memory takes no two schemas for one another, a walk comes to each schema as often as
the selection, the tables asked for and the arrays say, and records every visit but the first. -/
theorem visits_accounted [LawfulBEq α] (catalog : Catalog α) (selection : List String)
    (discerned : catalog.Discerned (catalog.roots selection)) :
    catalog.Accounts selection (catalog.visitSelection selection) := by
  obtain ⟨entered, tour⟩ := catalog.visitSelection_tour selection
  have clean := discerned.clean
  have recorded := tour.recorded clean Walk.recorded_start
  have skips : Notice.messages .info (catalog.visitSelection selection).notices =
      (catalog.visitSelection selection).skipped.map Walk.skipMessage := recorded.skips
  refine ⟨clean, ?_, skips, ?_, ?_, ?_⟩
  · intro place node leads found compound
    have hmark : catalog.mark? place = some (.table node.head.id) := by
      rw [mark?_of_found found, Node.mark?_of_isCompound compound]
    exact visits_eq discerned tour leads hmark
  · intro place node leads found array
    have hmark : catalog.mark? place = some (.array node.head.id) := by
      rw [mark?_of_found found, Node.mark?_eq_array_iff.mpr ⟨array, rfl⟩]
    have counted := visits_eq discerned tour leads hmark
    rw [← recorded.count_passMessage] at counted
    exact counted
  · intro id skipped
    have passed : 0 < (catalog.visitSelection selection).passes (.table id) :=
      List.count_pos_iff.mpr skipped
    obtain ⟨place, leads, hmark⟩ := tour.exists_of_passes clean passed
    obtain ⟨node, found, hmark⟩ := Option.bind_eq_some_iff.mp hmark
    obtain ⟨compound, hid⟩ := Node.mark?_eq_table_iff.mp hmark
    exact ⟨place, node, leads, found, compound, hid⟩
  · intro message said
    obtain ⟨notice, hnotice, rfl⟩ := List.mem_map.mp said
    obtain ⟨hnotice, debug⟩ := List.mem_filter.mp hnotice
    obtain ⟨id, rfl⟩ := recorded.arrays notice hnotice (by simpa using debug)
    have passed : 0 < (catalog.visitSelection selection).passes (.array id) :=
      List.count_pos_iff.mpr hnotice
    obtain ⟨place, leads, hmark⟩ := tour.exists_of_passes clean passed
    obtain ⟨node, found, hmark⟩ := Option.bind_eq_some_iff.mp hmark
    obtain ⟨array, rfl⟩ := Node.mark?_eq_array_iff.mp hmark
    exact ⟨place, node, leads, found, array, rfl⟩

theorem visits_accounted_kennel : ∃ catalog, (resolve .type kennel).1 = .ok catalog ∧
    catalog.Discerned (catalog.roots ["Pup", "Cat", "Keeper", "Pup"]) ∧
    catalog.Accounts ["Pup", "Cat", "Keeper", "Pup"]
      (catalog.visitSelection ["Pup", "Cat", "Keeper", "Pup"]) := by
  have ok : (resolve .type kennel).1 = .ok _ := rfl
  have discerned := (Resolved.of_resolve ok).discerned (by decide) (by decide) (by decide)
    ["Pup", "Cat", "Keeper", "Pup"]
  exact ⟨_, ok, discerned, visits_accounted _ _ discerned⟩

end Catalog
end SchemaTables
