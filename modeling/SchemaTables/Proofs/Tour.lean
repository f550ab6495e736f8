import Mathlib.Algebra.GroupWithZero.Nat
import SchemaTables.Page.Walk
import SchemaTables.Schema.Keyed

/-!
# The course of a walk

`Tour` tells a walk without fuel and keeps, for the sake of the proofs, the places that it entered:
those whose mark was free when it met them. The walk that runs has such a course, because a schema
adds its slots only when it takes its mark.
-/
namespace SchemaTables

/-- What a walk remembers a schema by. -/
inductive Mark where
  | table (id : String)
  | array (id : String)
deriving DecidableEq, Repr

/-- What a walk has still to do. -/
inductive Task (α : Type) where
  | name (name : String)
  | slot (slot : Slot α)

namespace Node
variable {α : Type}

def template? (node : Node α) : Option Template :=
  match node.content with
  | .object properties => if properties.isEmpty then none else some .object
  | .composed alternatives => if alternatives.isEmpty then none else some .composed
  | .scalar _ | .array _ => none

/-- The table that a schema asks for, if it has parts to show. -/
def call? (node : Node α) : Option (Call α) :=
  node.template?.map fun template => ⟨template, node⟩

def mark? (node : Node α) : Option Mark :=
  match node.content with
  | .array _ => some (.array node.head.id)
  | _ => node.template?.map fun _ => .table node.head.id

end Node

namespace Walk
variable {α : Type}

def holds (walk : Walk α) : Mark → Bool
  | .table id => walk.rendered.contains id
  | .array id => walk.arrays.contains id

/-- A schema is entered when its mark is still free. -/
def enters (walk : Walk α) (node : Node α) : Bool :=
  match node.mark? with
  | some mark => !walk.holds mark
  | none => false

/-- How many slots the nodes may still add. -/
def openSlots (walk : Walk α) (nodes : List (α × Node α)) : Nat :=
  (nodes.map fun entry => if walk.enters entry.2 then entry.2.content.slots.length else 0).sum

end Walk

namespace Catalog
variable {α : Type} [BEq α] (catalog : Catalog α)

def mark? (place : α) : Option Mark := (catalog.node? place).bind Node.mark?

def call? (place : α) : Option (Call α) := (catalog.node? place).bind Node.call?

/-- The slot that a task leads to; a name may be unknown. -/
def target? : Task α → Option (Slot α)
  | .name name => catalog.names.lookup name
  | .slot slot => some slot

/-- A slot that some path of parts leads to from the names. -/
inductive Reaches : Slot α → Prop
  | named {name : String} {slot : Slot α} (bound : (name, slot) ∈ catalog.names) : Reaches slot
  | part {place : α} {node : Node α} {slot : Slot α} (outer : Reaches (.node place))
      (found : catalog.node? place = some node) (inside : slot ∈ node.content.slots) : Reaches slot

/-- A walk over the tasks, in order: what it had done before, the places it entered, and what it has
done then. -/
inductive Tour : List (Task α) → Walk α → List α → Walk α → Prop
  | done {walk : Walk α} : Tour [] walk [] walk
  | missing {name : String} {tasks : List (Task α)} {walk after : Walk α} {entered : List α}
      (unknown : catalog.names.lookup name = none) (rest : Tour tasks (walk.miss name) entered after) :
      Tour (.name name :: tasks) walk entered after
  | unresolved {task : Task α} {text : String} {tasks : List (Task α)} {walk : Walk α}
      (target : catalog.target? task = some (.reference text)) :
      Tour (task :: tasks) walk [] { walk with fault := some text }
  | absent {task : Task α} {place : α} {tasks : List (Task α)} {walk after : Walk α}
      {entered : List α} (target : catalog.target? task = some (.node place))
      (nothing : catalog.node? place = none) (rest : Tour tasks walk entered after) :
      Tour (task :: tasks) walk entered after
  | passed {task : Task α} {place : α} {node : Node α} {tasks : List (Task α)}
      {walk after : Walk α} {entered : List α} (target : catalog.target? task = some (.node place))
      (found : catalog.node? place = some node) (stays : walk.enters node = false)
      (rest : Tour tasks (walk.meet node).1 entered after) :
      Tour (task :: tasks) walk entered after
  | entered {task : Task α} {place : α} {node : Node α} {tasks : List (Task α)}
      {walk after : Walk α} {entered : List α} (target : catalog.target? task = some (.node place))
      (found : catalog.node? place = some node) (enters : walk.enters node)
      (rest : Tour (node.content.slots.map .slot ++ tasks) (walk.meet node).1 entered after) :
      Tour (task :: tasks) walk (place :: entered) after

end Catalog

namespace Node
variable {α : Type}

/-- A schema has no mark and leads nowhere, or asks for a table, or is an array. -/
theorem mark?_cases (node : Node α) :
    (node.mark? = none ∧ node.call? = none ∧ node.content.slots = []) ∨
    (∃ template, node.mark? = some (.table node.head.id) ∧ node.call? = some ⟨template, node⟩) ∨
    (node.mark? = some (.array node.head.id) ∧ node.call? = none) := by
  obtain ⟨head, content⟩ := node
  cases content with
  | scalar kind => exact .inl ⟨rfl, rfl, rfl⟩
  | array items => exact .inr (.inr ⟨rfl, rfl⟩)
  | object properties =>
    cases properties with
    | nil => exact .inl ⟨rfl, rfl, rfl⟩
    | cons field rest => exact .inr (.inl ⟨.object, rfl, rfl⟩)
  | composed alternatives =>
    cases alternatives with
    | nil => exact .inl ⟨rfl, rfl, rfl⟩
    | cons slot rest => exact .inr (.inl ⟨.composed, rfl, rfl⟩)

theorem isSome_call?_iff (node : Node α) :
    node.call?.isSome ↔ ∃ id, node.mark? = some (.table id) := by
  rcases node.mark?_cases with ⟨hmark, hcall, -⟩ | ⟨template, hmark, hcall⟩ | ⟨hmark, hcall⟩ <;>
    simp [hmark, hcall]

/-- A mark is the identifier of its schema. -/
theorem id_of_mark? {node : Node α} {mark : Mark} (h : node.mark? = some mark) :
    mark = .table node.head.id ∨ mark = .array node.head.id := by
  rcases node.mark?_cases with ⟨hmark, -⟩ | ⟨template, hmark, -⟩ | ⟨hmark, -⟩ <;> rw [hmark] at h
  · cases h
  · exact .inl (Option.some.inj h).symm
  · exact .inr (Option.some.inj h).symm

theorem slots_of_mark?_eq_none {node : Node α} (h : node.mark? = none) :
    node.content.slots = [] := by
  rcases node.mark?_cases with ⟨-, -, hslots⟩ | ⟨template, hmark, -⟩ | ⟨hmark, -⟩
  · exact hslots
  · simp [hmark] at h
  · simp [hmark] at h

end Node

namespace Walk
variable {α : Type}

@[simp] theorem holds_skip (walk : Walk α) (id : String) : (walk.skip id).holds = walk.holds := rfl

@[simp] theorem holds_passAgain (walk : Walk α) (id : String) :
    (walk.passAgain id).holds = walk.holds := rfl

@[simp] theorem holds_miss (walk : Walk α) (name : String) :
    (walk.miss name).holds = walk.holds := rfl

theorem holds_call (walk : Walk α) (template : Template) (node : Node α) (mark : Mark) :
    (walk.call template node).holds mark ↔ walk.holds mark ∨ .table node.head.id = mark := by
  cases mark with
  | table id =>
    have : id = node.head.id ↔ node.head.id = id := eq_comm
    simp [holds, call, rendered, this]
  | array id => simp [holds, call]

theorem holds_pass (walk : Walk α) (id : String) (mark : Mark) :
    (walk.pass id).holds mark ↔ walk.holds mark ∨ .array id = mark := by
  cases mark with
  | table name => simp [holds, pass, rendered]
  | array name =>
    have : name = id ↔ id = name := eq_comm
    simp [holds, pass, this, or_comm]

theorem enters_of_mark? {walk : Walk α} {node : Node α} {mark : Mark}
    (h : node.mark? = some mark) : walk.enters node = !walk.holds mark := by
  simp [enters, h]

theorem enters_iff {walk : Walk α} {node : Node α} :
    walk.enters node ↔ ∃ mark, node.mark? = some mark ∧ walk.holds mark = false := by
  cases h : node.mark? with
  | none => simp [enters, h]
  | some mark => simp [enters_of_mark? h]

/-- The three ways to meet a schema: it has no mark, it asks for a table, or it is an array. -/
theorem meet_cases (walk : Walk α) (node : Node α) :
    (node.mark? = none ∧ node.call? = none ∧ walk.meet node = (walk, [])) ∨
    (∃ template, node.mark? = some (.table node.head.id) ∧ node.call? = some ⟨template, node⟩ ∧
      walk.meet node = if walk.holds (.table node.head.id) then (walk.skip node.head.id, [])
        else (walk.call template node, node.content.slots)) ∨
    (node.mark? = some (.array node.head.id) ∧ node.call? = none ∧
      walk.meet node = if walk.holds (.array node.head.id) then (walk.passAgain node.head.id, [])
        else (walk.pass node.head.id, node.content.slots)) := by
  obtain ⟨head, content⟩ := node
  cases content with
  | scalar kind => exact .inl ⟨rfl, rfl, rfl⟩
  | array items => exact .inr (.inr ⟨rfl, rfl, rfl⟩)
  | object properties =>
    cases properties with
    | nil => exact .inl ⟨rfl, rfl, rfl⟩
    | cons field rest => exact .inr (.inl ⟨.object, rfl, rfl, rfl⟩)
  | composed alternatives =>
    cases alternatives with
    | nil => exact .inl ⟨rfl, rfl, rfl⟩
    | cons slot rest => exact .inr (.inl ⟨.composed, rfl, rfl, rfl⟩)

/-- Only a schema that is entered adds its slots. -/
theorem meet_slots (walk : Walk α) (node : Node α) :
    (walk.meet node).2 = if walk.enters node then node.content.slots else [] := by
  rcases meet_cases walk node with ⟨hmark, -, h⟩ | ⟨template, hmark, -, h⟩ | ⟨hmark, -, h⟩
  · simp [h, enters, hmark]
  · rw [h, enters_of_mark? hmark]
    cases walk.holds (.table node.head.id) <;> rfl
  · rw [h, enters_of_mark? hmark]
    cases walk.holds (.array node.head.id) <;> rfl

/-- Only a schema that is entered is given a table. -/
theorem meet_calls (walk : Walk α) (node : Node α) :
    (walk.meet node).1.calls =
      walk.calls ++ if walk.enters node then node.call?.toList else [] := by
  rcases meet_cases walk node with
    ⟨hmark, hcall, h⟩ | ⟨template, hmark, hcall, h⟩ | ⟨hmark, hcall, h⟩
  · simp [h, enters, hmark]
  · rw [h, enters_of_mark? hmark, hcall]
    cases walk.holds (.table node.head.id) <;> simp [call, skip]
  · rw [h, enters_of_mark? hmark, hcall]
    cases walk.holds (.array node.head.id) <;> simp [pass, passAgain]

/-- However it is met, a schema's mark is taken afterwards. -/
theorem holds_meet (walk : Walk α) (node : Node α) (mark : Mark) :
    (walk.meet node).1.holds mark ↔ walk.holds mark ∨ node.mark? = some mark := by
  rcases meet_cases walk node with ⟨hmark, -, h⟩ | ⟨template, hmark, -, h⟩ | ⟨hmark, -, h⟩
  · simp [h, hmark]
  · rw [h, hmark, Option.some.injEq]
    split
    · next held => exact ⟨.inl, Or.rec id fun same => same ▸ held⟩
    · exact holds_call ..
  · rw [h, hmark, Option.some.injEq]
    split
    · next held => exact ⟨.inl, Or.rec id fun same => same ▸ held⟩
    · exact holds_pass ..

theorem meet_fault (walk : Walk α) (node : Node α) :
    (walk.meet node).1.fault = walk.fault := by
  rcases meet_cases walk node with ⟨-, -, h⟩ | ⟨template, -, -, h⟩ | ⟨-, -, h⟩ <;> rw [h]
  · split <;> rfl
  · split <;> rfl

theorem enters_of_meet {walk : Walk α} {node other : Node α}
    (h : (walk.meet node).1.enters other) : walk.enters other := by
  obtain ⟨mark, hmark, free⟩ := enters_iff.mp h
  refine enters_iff.mpr ⟨mark, hmark, ?_⟩
  rw [← Bool.not_eq_true, holds_meet] at free
  simpa using fun held => free (.inl held)

theorem not_enters_meet (walk : Walk α) (node : Node α) :
    (walk.meet node).1.enters node = false := by
  cases h : node.mark? with
  | none => simp [enters, h]
  | some mark => simp [enters_of_mark? h, (holds_meet walk node mark).mpr (.inr h)]

theorem openSlots_meet_le (walk : Walk α) (node : Node α) (nodes : List (α × Node α)) :
    (walk.meet node).1.openSlots nodes ≤ walk.openSlots nodes := by
  induction nodes with
  | nil => exact Nat.le_refl 0
  | cons entry rest ih =>
    simp only [openSlots, List.map_cons, List.sum_cons] at ih ⊢
    have : (if (walk.meet node).1.enters entry.2 then entry.2.content.slots.length else 0) ≤
        if walk.enters entry.2 then entry.2.content.slots.length else 0 := by
      split
      · next enters => exact Nat.le_of_eq (if_pos (enters_of_meet enters)).symm
      · omega
    omega

/-- A schema that is entered takes its slots off those that are open. -/
theorem openSlots_meet {walk : Walk α} {place : α} {node : Node α} {nodes : List (α × Node α)}
    (listed : (place, node) ∈ nodes) (enters : walk.enters node) :
    (walk.meet node).1.openSlots nodes + node.content.slots.length ≤ walk.openSlots nodes := by
  obtain ⟨before, after, rfl⟩ := List.append_of_mem listed
  have hbefore := openSlots_meet_le walk node before
  have hafter := openSlots_meet_le walk node after
  simp only [openSlots, List.map_append, List.map_cons, List.sum_append, List.sum_cons,
    not_enters_meet, enters, if_true, Bool.false_eq_true, if_false] at hbefore hafter ⊢
  omega

theorem openSlots_le (walk : Walk α) (nodes : List (α × Node α)) :
    walk.openSlots nodes ≤ (nodes.flatMap fun entry => entry.2.content.slots).length := by
  induction nodes with
  | nil => exact Nat.le_refl 0
  | cons entry rest ih =>
    simp only [openSlots, List.map_cons, List.sum_cons, List.flatMap_cons,
      List.length_append] at ih ⊢
    split <;> omega

end Walk

namespace Catalog
variable {α : Type} [BEq α] {catalog : Catalog α}

theorem mark?_of_found {place : α} {node : Node α} (found : catalog.node? place = some node) :
    catalog.mark? place = node.mark? := by rw [mark?, found, Option.bind_some]

theorem call?_of_found {place : α} {node : Node α} (found : catalog.node? place = some node) :
    catalog.call? place = node.call? := by rw [call?, found, Option.bind_some]

/-- Nothing is left to do with what a slot holds. -/
def Settled (catalog : Catalog α) (walk : Walk α) (slot : Slot α) : Prop :=
  ∃ place, slot = .node place ∧ ∀ mark, catalog.mark? place = some mark → walk.holds mark

namespace Tour
variable {tasks first second : List (Task α)} {walk middle after : Walk α}
  {entered others : List α}

theorem append (h : catalog.Tour first walk entered middle) (ok : middle.fault = none)
    (h' : catalog.Tour second middle others after) :
    catalog.Tour (first ++ second) walk (entered ++ others) after := by
  induction h with
  | done => exact h'
  | missing unknown _ ih => exact .missing unknown (ih ok h')
  | unresolved target => cases ok
  | absent target nothing _ ih => exact .absent target nothing (ih ok h')
  | passed target found stays _ ih => exact .passed target found stays (ih ok h')
  | entered target found enters _ ih =>
    have rest := ih ok h'
    rw [List.append_assoc] at rest
    exact .entered target found enters rest

/-- A walk over two lists of tasks is a walk over the first and after it one over the second. -/
theorem split (h : catalog.Tour (first ++ second) walk entered after) (ok : after.fault = none) :
    ∃ before rest middle, entered = before ++ rest ∧ middle.fault = walk.fault ∧
      catalog.Tour first walk before middle ∧ catalog.Tour second middle rest after := by
  generalize joined : first ++ second = tasks at h
  induction h generalizing first with
  | done =>
    obtain ⟨rfl, rfl⟩ := List.append_eq_nil_iff.mp joined
    exact ⟨[], [], _, rfl, rfl, .done, .done⟩
  | missing unknown rest ih =>
    rcases List.append_eq_cons_iff.mp joined with ⟨rfl, rfl⟩ | ⟨first, rfl, rfl⟩
    · exact ⟨[], _, _, rfl, rfl, .done, .missing unknown rest⟩
    · obtain ⟨before, later, middle, rfl, fault, h, h'⟩ := ih ok rfl
      exact ⟨before, later, middle, rfl, fault, .missing unknown h, h'⟩
  | unresolved target => cases ok
  | absent target nothing rest ih =>
    rcases List.append_eq_cons_iff.mp joined with ⟨rfl, rfl⟩ | ⟨first, rfl, rfl⟩
    · exact ⟨[], _, _, rfl, rfl, .done, .absent target nothing rest⟩
    · obtain ⟨before, later, middle, rfl, fault, h, h'⟩ := ih ok rfl
      exact ⟨before, later, middle, rfl, fault, .absent target nothing h, h'⟩
  | passed target found stays rest ih =>
    rcases List.append_eq_cons_iff.mp joined with ⟨rfl, rfl⟩ | ⟨first, rfl, rfl⟩
    · exact ⟨[], _, _, rfl, rfl, .done, .passed target found stays rest⟩
    · obtain ⟨before, later, middle, rfl, fault, h, h'⟩ := ih ok rfl
      rw [Walk.meet_fault] at fault
      exact ⟨before, later, middle, rfl, fault, .passed target found stays h, h'⟩
  | @entered task place node tasks walk after entered target found enters rest ih =>
    rcases List.append_eq_cons_iff.mp joined with ⟨rfl, rfl⟩ | ⟨first, rfl, rfl⟩
    · exact ⟨[], _, _, rfl, rfl, .done, .entered target found enters rest⟩
    · obtain ⟨before, later, middle, rfl, fault, h, h'⟩ :=
        ih ok (List.append_assoc ..)
      rw [Walk.meet_fault] at fault
      exact ⟨place :: before, later, middle, rfl, fault, .entered target found enters h, h'⟩

/-- A walk that comes to a schema passes it by or goes into it. -/
theorem of_node {place : α} {node : Node α}
    (h : catalog.Tour (.slot (.node place) :: tasks) walk entered after)
    (found : catalog.node? place = some node) :
    (walk.enters node = false ∧ catalog.Tour tasks (walk.meet node).1 entered after) ∨
    (walk.enters node ∧ ∃ later, entered = place :: later ∧
      catalog.Tour (node.content.slots.map .slot ++ tasks) (walk.meet node).1 later after) := by
  cases h with
  | unresolved target => cases target
  | absent target nothing rest =>
    cases target
    rw [found] at nothing
    cases nothing
  | passed target found' stays rest =>
    cases target
    cases found.symm.trans found'
    exact .inl ⟨stays, rest⟩
  | entered target found' enters rest =>
    cases target
    cases found.symm.trans found'
    exact .inr ⟨enters, _, rfl, rest⟩

/-- A walk that has failed goes no further. -/
theorem append_of_fault (h : catalog.Tour first walk entered after) (ok : walk.fault = none)
    (failed : after.fault.isSome) (second : List (Task α)) :
    catalog.Tour (first ++ second) walk entered after := by
  induction h with
  | done => simp [ok] at failed
  | missing unknown _ ih => exact .missing unknown (ih ok failed)
  | unresolved target => exact .unresolved target
  | absent target nothing _ ih => exact .absent target nothing (ih ok failed)
  | passed target found stays _ ih =>
    rw [Walk.meet_fault] at ih
    exact .passed target found stays (ih ok failed)
  | entered target found enters _ ih =>
    rw [Walk.meet_fault] at ih
    have rest := ih ok failed
    rw [List.append_assoc] at rest
    exact .entered target found enters rest

theorem name_of_slot {name : String} {slot : Slot α} (bound : catalog.names.lookup name = some slot)
    (h : catalog.Tour (.slot slot :: tasks) walk entered after) :
    catalog.Tour (.name name :: tasks) walk entered after := by
  have same : catalog.target? (.slot slot) = catalog.target? (.name name) := bound.symm
  cases h with
  | unresolved target => exact .unresolved (same ▸ target)
  | absent target nothing rest => exact .absent (same ▸ target) nothing rest
  | passed target found stays rest => exact .passed (same ▸ target) found stays rest
  | entered target found enters rest => exact .entered (same ▸ target) found enters rest

theorem slot_of_name {name : String} {slot : Slot α} (bound : catalog.names.lookup name = some slot)
    (h : catalog.Tour (.name name :: tasks) walk entered after) :
    catalog.Tour (.slot slot :: tasks) walk entered after := by
  have same : catalog.target? (.name name) = catalog.target? (.slot slot) := bound
  cases h with
  | missing unknown rest =>
    rw [bound] at unknown
    cases unknown
  | unresolved target => exact .unresolved (same ▸ target)
  | absent target nothing rest => exact .absent (same ▸ target) nothing rest
  | passed target found stays rest => exact .passed (same ▸ target) found stays rest
  | entered target found enters rest => exact .entered (same ▸ target) found enters rest

/-- The tables asked for are those of the compound schemas entered, in order. -/
theorem calls_eq (h : catalog.Tour tasks walk entered after) :
    after.calls = walk.calls ++ entered.filterMap catalog.call? := by
  induction h with
  | done => simp
  | missing _ _ ih => exact ih
  | unresolved _ => simp
  | absent _ _ _ ih => exact ih
  | passed _ _ stays _ ih => rw [ih, Walk.meet_calls, stays]; simp
  | entered _ found enters _ ih =>
    rw [ih, Walk.meet_calls, if_pos enters, List.append_assoc, List.filterMap_cons,
      call?_of_found found]
    cases Node.call? _ <;> rfl

/-- The marks taken are those of the schemas entered. -/
theorem holds_iff (h : catalog.Tour tasks walk entered after) (mark : Mark) :
    after.holds mark ↔ walk.holds mark ∨ ∃ place ∈ entered, catalog.mark? place = some mark := by
  induction h with
  | done => simp
  | missing _ _ ih => exact ih
  | unresolved _ => cases mark <;> simp [Walk.holds, Walk.rendered]
  | absent _ _ _ ih => exact ih
  | passed _ _ stays _ ih =>
    rw [ih, Walk.holds_meet]
    have held : ∀ {node : Node α} {walk : Walk α}, walk.enters node = false →
        node.mark? = some mark → walk.holds mark := fun stays hmark => by
      simpa [Walk.enters_of_mark? hmark] using stays
    grind
  | entered _ found _ _ ih =>
    rw [ih, Walk.holds_meet]
    simp [mark?_of_found found, or_assoc]

/-- A schema is entered only while its mark is free. -/
theorem free_of_mem (h : catalog.Tour tasks walk entered after) {place : α}
    (hplace : place ∈ entered) :
    ∃ mark, catalog.mark? place = some mark ∧ walk.holds mark = false := by
  induction h with
  | done => cases hplace
  | missing _ _ ih => exact ih hplace
  | unresolved _ => cases hplace
  | absent _ _ _ ih => exact ih hplace
  | passed _ _ _ _ ih =>
    obtain ⟨mark, hmark, free⟩ := ih hplace
    rw [← Bool.not_eq_true, Walk.holds_meet, not_or, Bool.not_eq_true] at free
    exact ⟨mark, hmark, free.1⟩
  | entered _ found enters _ ih =>
    rcases List.mem_cons.mp hplace with rfl | hplace
    · rw [mark?_of_found found]
      exact Walk.enters_iff.mp enters
    · obtain ⟨mark, hmark, free⟩ := ih hplace
      rw [← Bool.not_eq_true, Walk.holds_meet, not_or, Bool.not_eq_true] at free
      exact ⟨mark, hmark, free.1⟩

/-- No mark is taken twice. -/
theorem nodup_marks (h : catalog.Tour tasks walk entered after) :
    (entered.map catalog.mark?).Nodup := by
  induction h with
  | done => exact List.nodup_nil
  | missing _ _ ih => exact ih
  | unresolved _ => exact List.nodup_nil
  | absent _ _ _ ih => exact ih
  | passed _ _ _ _ ih => exact ih
  | entered _ found _ rest ih =>
    refine List.nodup_cons.mpr ⟨fun hmem => ?_, ih⟩
    obtain ⟨other, hother, same⟩ := List.mem_map.mp hmem
    obtain ⟨mark, hmark, free⟩ := rest.free_of_mem hother
    rw [same, mark?_of_found found] at hmark
    rw [← Bool.not_eq_true, Walk.holds_meet] at free
    exact free (.inr hmark)

theorem holds_of_holds (h : catalog.Tour tasks walk entered after) {mark : Mark}
    (held : walk.holds mark) : after.holds mark := (h.holds_iff mark).mpr (.inl held)

/-- After a walk without a fault, nothing is left to do with what its tasks lead to, and nothing with
the parts of the schemas that it entered. -/
theorem settled (h : catalog.Tour tasks walk entered after) (ok : after.fault = none) :
    (∀ task ∈ tasks, ∀ slot, catalog.target? task = some slot → catalog.Settled after slot) ∧
      ∀ place ∈ entered, ∀ node, catalog.node? place = some node →
        ∀ slot ∈ node.content.slots, catalog.Settled after slot := by
  induction h with
  | done => simp
  | missing unknown _ ih =>
    obtain ⟨htasks, hentered⟩ := ih ok
    refine ⟨List.forall_mem_cons.mpr ⟨fun slot target => ?_, htasks⟩, hentered⟩
    rw [target?, unknown] at target
    cases target
  | unresolved _ => cases ok
  | absent target nothing _ ih =>
    obtain ⟨htasks, hentered⟩ := ih ok
    refine ⟨List.forall_mem_cons.mpr ⟨fun slot target' => ?_, htasks⟩, hentered⟩
    cases target.symm.trans target'
    exact ⟨_, rfl, fun mark hmark => by simp [mark?, nothing] at hmark⟩
  | passed target found _ rest ih =>
    obtain ⟨htasks, hentered⟩ := ih ok
    refine ⟨List.forall_mem_cons.mpr ⟨fun slot target' => ?_, htasks⟩, hentered⟩
    cases target.symm.trans target'
    refine ⟨_, rfl, fun mark hmark => rest.holds_of_holds ?_⟩
    exact (Walk.holds_meet _ _ mark).mpr (.inr (mark?_of_found found ▸ hmark))
  | entered target found _ rest ih =>
    obtain ⟨htasks, hentered⟩ := ih ok
    rw [List.forall_mem_append] at htasks
    refine ⟨List.forall_mem_cons.mpr ⟨fun slot target' => ?_, htasks.2⟩,
      List.forall_mem_cons.mpr ⟨fun node found' slot hslot => ?_, hentered⟩⟩
    · cases target.symm.trans target'
      refine ⟨_, rfl, fun mark hmark => rest.holds_of_holds ?_⟩
      exact (Walk.holds_meet _ _ mark).mpr (.inr (mark?_of_found found ▸ hmark))
    · cases found.symm.trans found'
      exact htasks.1 _ (List.mem_map_of_mem hslot) slot rfl

/-- A walk stays within whatever its tasks lead to and the parts of the schemas that it enters do not
leave, and there it finds the reference that it fails with. -/
theorem within {P : Slot α → Prop} (h : catalog.Tour tasks walk entered after)
    (closed : ∀ place ∈ entered, P (.node place) → ∀ node, catalog.node? place = some node →
      ∀ slot ∈ node.content.slots, P slot)
    (start : ∀ task ∈ tasks, ∀ slot, catalog.target? task = some slot → P slot) :
    (∀ place ∈ entered, P (.node place)) ∧
      (after.fault = walk.fault ∨ ∃ text, P (.reference text) ∧ after.fault = some text) := by
  induction h with
  | done => simp
  | missing _ _ ih => exact ih closed (List.forall_mem_cons.mp start).2
  | unresolved target =>
    exact ⟨by simp, .inr ⟨_, (List.forall_mem_cons.mp start).1 _ target, rfl⟩⟩
  | absent _ _ _ ih => exact ih closed (List.forall_mem_cons.mp start).2
  | passed _ _ _ _ ih =>
    rw [Walk.meet_fault] at ih
    exact ih closed (List.forall_mem_cons.mp start).2
  | @entered task place node tasks walk after entered target found _ _ ih =>
    obtain ⟨here, later⟩ := List.forall_mem_cons.mp start
    obtain ⟨closedHere, closedLater⟩ := List.forall_mem_cons.mp closed
    have inside := here _ target
    have added : ∀ task ∈ node.content.slots.map Task.slot, ∀ slot,
        catalog.target? task = some slot → P slot := by
      rw [List.forall_mem_map]
      rintro slot hslot _ ⟨⟩
      exact closedHere inside node found slot hslot
    rw [Walk.meet_fault] at ih
    obtain ⟨hentered, hfault⟩ := ih closedLater (List.forall_mem_append.mpr ⟨added, later⟩)
    exact ⟨List.forall_mem_cons.mpr ⟨inside, hentered⟩, hfault⟩

end Tour

section
variable [LawfulBEq α]

theorem mem_nodes_of_node? {place : α} {node : Node α} (found : catalog.node? place = some node) :
    (place, node) ∈ catalog.nodes :=
  Keyed.mem_of_lookup found

/-- With a step for every slot that is pending or may be added, a visit runs its whole course. -/
theorem visit_tour {fuel : Nat} (pending : List (Slot α)) (walk : Walk α)
    (enough : pending.length + walk.openSlots catalog.nodes < fuel) :
    ∃ entered, catalog.Tour (pending.map .slot) walk entered (catalog.visit fuel pending walk) := by
  induction fuel generalizing pending walk with
  | zero => omega
  | succ fuel ih =>
    cases pending with
    | nil => exact ⟨[], .done⟩
    | cons slot pending =>
      rw [List.length_cons] at enough
      cases slot with
      | reference text => exact ⟨[], .unresolved rfl⟩
      | node place =>
        rw [visit, List.map_cons]
        cases found : catalog.node? place with
        | none =>
          obtain ⟨entered, rest⟩ := ih pending walk (by omega)
          exact ⟨entered, .absent rfl found rest⟩
        | some node =>
          dsimp only
          rw [Walk.meet_slots]
          cases enters : walk.enters node with
          | false =>
            have := Walk.openSlots_meet_le walk node catalog.nodes
            obtain ⟨entered, rest⟩ := ih pending (walk.meet node).1 (by omega)
            exact ⟨entered, .passed rfl found enters rest⟩
          | true =>
            have := Walk.openSlots_meet (mem_nodes_of_node? found) enters
            obtain ⟨entered, rest⟩ := ih (node.content.slots ++ pending) (walk.meet node).1
              (by rw [List.length_append]; omega)
            rw [List.map_append] at rest
            exact ⟨place :: entered, .entered rfl found enters rest⟩

theorem visitNames_tour (names : List String) (walk : Walk α) (ok : walk.fault = none) :
    ∃ entered, catalog.Tour (names.map .name) walk entered (catalog.visitNames names walk) := by
  induction names generalizing walk with
  | nil => exact ⟨[], .done⟩
  | cons name names ih =>
    rw [visitNames, List.map_cons]
    cases bound : catalog.names.lookup name with
    | none =>
      obtain ⟨entered, rest⟩ := ih (walk.miss name) ok
      exact ⟨entered, .missing bound rest⟩
    | some slot =>
      have enough : [slot].length + walk.openSlots catalog.nodes < catalog.visitFuel := by
        have := walk.openSlots_le catalog.nodes
        rw [visitFuel, slotCount, List.length_singleton]
        omega
      obtain ⟨entered, visited⟩ := visit_tour [slot] walk enough
      have visited := visited.name_of_slot bound
      dsimp only
      split
      · next failed => exact ⟨entered, visited.append_of_fault ok failed _⟩
      · next clean =>
        have clean : (catalog.visit catalog.visitFuel [slot] walk).fault = none := by
          simpa using clean
        obtain ⟨others, rest⟩ := ih _ clean
        exact ⟨entered ++ others, visited.append clean rest⟩

end

theorem reaches_of_lookup {name : String} {slot : Slot α}
    (bound : catalog.names.lookup name = some slot) : catalog.Reaches slot := by
  exact .named (Keyed.mem_of_lookup bound)

/-- The names that a selection stands for. -/
def selected (catalog : Catalog α) (selection : List String) : List String :=
  if selection.isEmpty then catalog.names.map (·.1) else selection

theorem visitSelection_tour [LawfulBEq α] (catalog : Catalog α) (selection : List String) :
    ∃ entered, catalog.Tour ((catalog.selected selection).map .name) .start entered
      (catalog.visitSelection selection) :=
  visitNames_tour _ _ rfl

/-- A walk enters only what can be reached, and fails only with a reference that can be. -/
theorem Tour.reaches {names : List String} {walk after : Walk α} {entered : List α}
    (h : catalog.Tour (names.map .name) walk entered after) :
    (∀ place ∈ entered, catalog.Reaches (.node place)) ∧
      (after.fault = walk.fault ∨
        ∃ text, catalog.Reaches (.reference text) ∧ after.fault = some text) := by
  refine h.within (fun place _ outer node found slot inside => outer.part found inside) ?_
  rw [List.forall_mem_map]
  exact fun name _ slot bound => reaches_of_lookup bound

end Catalog
end SchemaTables
