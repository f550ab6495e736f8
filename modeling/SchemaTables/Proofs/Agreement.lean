import Mathlib.Algebra.Order.BigOperators.Group.List
import Mathlib.Algebra.Order.Group.Nat
import SchemaTables.Proofs.Links

/-!
# Catalogs that agree

A numbering, a walk and a table show nothing of a catalog but what can be reached from where they
start. Two catalogs that hold the same schemas there give the same, whatever else they hold. Each runs
on fuel that is counted over its own nodes, so that both are shown to have enough.
-/
namespace SchemaTables.Catalog
variable {α : Type} [BEq α]

/-- What `roots` lead to in one catalog is there in the other. -/
def Agrees (catalog other : Catalog α) (roots : List (Slot α)) : Prop :=
  ∀ place, catalog.Leads roots (.node place) → other.node? place = catalog.node? place

/-- The slots of the schemas that a numbering has not met. -/
def freshSlots (catalog : Catalog α) (met : List α) : Nat :=
  (catalog.nodes.map fun entry =>
    if met.contains entry.1 then 0 else entry.2.content.slots.length).sum

variable {catalog other : Catalog α} {roots : List (Slot α)}

namespace Agrees
variable (agrees : catalog.Agrees other roots)
include agrees

/-- Nothing more can be reached in the other catalog. -/
theorem leads_of_other {slot : Slot α} (leads : other.Leads roots slot) :
    catalog.Leads roots slot := by
  induction leads with
  | root listed => exact .root listed
  | part _ found inside ih =>
    rw [agrees _ ih] at found
    exact ih.part found inside

theorem leads {slot : Slot α} (leads : catalog.Leads roots slot) : other.Leads roots slot := by
  induction leads with
  | root listed => exact .root listed
  | part outer found inside ih =>
    rw [← agrees _ outer] at found
    exact ih.part found inside

theorem ends {depth : Nat} {slot : Slot α} {element : Element α}
    (leads : catalog.Leads roots slot) (ends : catalog.Ends depth slot element) :
    other.Ends depth slot element := by
  induction ends with
  | reference => exact .reference
  | absent nothing => exact .absent ((agrees _ leads).trans nothing)
  | bare found content => exact .bare ((agrees _ leads).trans found) content
  | items found content _ ih =>
    exact .items ((agrees _ leads).trans found) content (ih (leads.items found content))
  | schema found noArray => exact .schema ((agrees _ leads).trans found) noArray

theorem loopless (loopless : catalog.Loopless roots) : other.Loopless roots := by
  intro place leads loop
  have leads := agrees.leads_of_other leads
  have chain : ∀ next, Relation.TransGen other.Holds place next →
      Relation.TransGen catalog.Holds place next ∧ catalog.Leads roots (.node next) := by
    intro next chain
    have step : ∀ {outer next : α}, catalog.Leads roots (.node outer) → other.Holds outer next →
        catalog.Holds outer next ∧ catalog.Leads roots (.node next) := by
      rintro outer next leads ⟨node, found, content⟩
      rw [agrees _ leads] at found
      exact ⟨⟨node, found, content⟩, leads.items found content⟩
    induction chain with
    | single holds =>
      obtain ⟨holds, leads⟩ := step leads holds
      exact ⟨.single holds, leads⟩
    | tail _ holds ih =>
      obtain ⟨holds, leads⟩ := step ih.2 holds
      exact ⟨ih.1.tail holds, leads⟩
  exact loopless place leads (chain place loop).1

end Agrees

/-- A numbering stays among what it can reach. -/
theorem leads_of_mem_walk {fuel : Nat} {pending : List (Slot α)} {met : List α}
    (within : ∀ slot ∈ pending, catalog.Leads roots slot)
    (old : ∀ place ∈ met, catalog.Leads roots (.node place)) :
    ∀ place ∈ catalog.walk fuel pending met, catalog.Leads roots (.node place) := by
  induction fuel generalizing pending met with
  | zero => exact old
  | succ fuel ih =>
    cases pending with
    | nil => exact old
    | cons slot pending =>
      obtain ⟨leads, later⟩ := List.forall_mem_cons.mp within
      cases slot with
      | reference text => exact ih later old
      | node place =>
        rw [walk]
        split
        · exact ih later old
        · cases found : catalog.node? place with
          | none => exact ih later old
          | some node =>
            apply ih (leads.parts_append found later)
            intro next hnext
            rcases List.mem_append.mp hnext with hnext | hnext
            · exact old next hnext
            · rw [List.mem_singleton.mp hnext]
              exact leads

/-- The terms of a sum may only fall, and one of them falls by `drop`. -/
theorem sum_map_add_le {β : Type} {f g : β → Nat} {items : List β} {item : β} {drop : Nat}
    (le : ∀ x ∈ items, g x ≤ f x) (mem : item ∈ items) (falls : g item + drop ≤ f item) :
    (items.map g).sum + drop ≤ (items.map f).sum := by
  induction items with
  | nil => cases mem
  | cons x rest ih =>
    obtain ⟨here, later⟩ := List.forall_mem_cons.mp le
    simp only [List.map_cons, List.sum_cons]
    rcases List.mem_cons.mp mem with rfl | mem
    · have rest : (rest.map g).sum ≤ (rest.map f).sum := List.sum_le_sum later
      omega
    · have rest := ih later mem
      omega

section
variable [LawfulBEq α]

/-- A schema takes its slots off those that are fresh. -/
theorem freshSlots_append {met : List α} {place : α} {node : Node α} (fresh : ¬ met.contains place)
    (found : catalog.node? place = some node) :
    catalog.freshSlots (met ++ [place]) + node.content.slots.length ≤ catalog.freshSlots met := by
  have listed : (place, node) ∈ catalog.nodes := mem_nodes_of_node? found
  refine sum_map_add_le ?_ listed ?_
  · intro entry _
    have grows : met.contains entry.1 → (met ++ [place]).contains entry.1 := by
      simpa using fun old => .inl old
    by_cases old : met.contains entry.1
    · rw [if_pos old, if_pos (grows old)]
    · rw [if_neg old]
      split <;> omega
  · have taken : (met ++ [place]).contains place := by simp
    rw [if_pos taken, if_neg fresh, Nat.zero_add]

theorem freshSlots_nil (catalog : Catalog α) : catalog.freshSlots [] = catalog.slotCount := by
  simp [freshSlots, slotCount, List.length_flatMap]

/-- Numberings that start alike go on alike. -/
theorem Agrees.walk_eq (agrees : catalog.Agrees other roots) {fuel fuel' : Nat}
    (pending : List (Slot α)) (met : List α) (within : ∀ slot ∈ pending, catalog.Leads roots slot)
    (enough : pending.length + catalog.freshSlots met < fuel)
    (enough' : pending.length + other.freshSlots met < fuel') :
    other.walk fuel' pending met = catalog.walk fuel pending met := by
  -- the two have fuel of their own, and each step takes one off both
  induction fuel generalizing fuel' pending met with
  | zero => omega
  | succ fuel ih =>
    obtain ⟨fuel', rfl⟩ : ∃ count, fuel' = count + 1 := ⟨fuel' - 1, by omega⟩
    cases pending with
    | nil => rfl
    | cons slot pending =>
      obtain ⟨leads, later⟩ := List.forall_mem_cons.mp within
      rw [List.length_cons] at enough enough'
      cases slot with
      | reference text => exact ih pending met later (by omega) (by omega)
      | node place =>
        rw [walk, walk, agrees place leads]
        by_cases old : met.contains place
        · rw [if_pos old, if_pos old]
          exact ih pending met later (by omega) (by omega)
        · rw [if_neg old, if_neg old]
          cases found : catalog.node? place with
          | none => exact ih pending met later (by omega) (by omega)
          | some node =>
            -- the slots that the schema adds are those that it takes off the fresh ones
            have drops := freshSlots_append old found
            have drops' := freshSlots_append old ((agrees place leads).trans found)
            apply ih _ _ (leads.parts_append found later)
            · rw [List.length_append]
              omega
            · rw [List.length_append]
              omega

/-- Catalogs with the same names that agree on what these lead to are numbered alike. -/
theorem Agrees.numbered_eq (agrees : catalog.Agrees other (catalog.names.map (·.2)))
    (names : other.names = catalog.names) : other.numbered = catalog.numbered := by
  have within : ∀ slot ∈ catalog.names.map (·.2),
      catalog.Leads (catalog.names.map (·.2)) slot := fun slot listed => .root listed
  have places : other.reachable = catalog.reachable := by
    unfold reachable
    rw [names]
    apply agrees.walk_eq _ _ within
    · rw [List.length_map, freshSlots_nil]
      omega
    · rw [List.length_map, freshSlots_nil]
      omega
  have nodes : catalog.reachable.filterMap other.node? =
      catalog.reachable.filterMap catalog.node? := by
    apply List.filterMap_congr
    intro place hplace
    exact agrees place (leads_of_mem_walk within (by simp) place hplace)
  unfold numbered
  simp only [places, names, nodes]

/-- Visits that start alike go on alike. -/
theorem Agrees.visit_eq (agrees : catalog.Agrees other roots) {fuel fuel' : Nat}
    (pending : List (Slot α)) (walk : Walk α) (within : ∀ slot ∈ pending, catalog.Leads roots slot)
    (enough : pending.length + walk.openSlots catalog.nodes < fuel)
    (enough' : pending.length + walk.openSlots other.nodes < fuel') :
    other.visit fuel' pending walk = catalog.visit fuel pending walk := by
  induction fuel generalizing fuel' pending walk with
  | zero => omega
  | succ fuel ih =>
    obtain ⟨fuel', rfl⟩ : ∃ count, fuel' = count + 1 := ⟨fuel' - 1, by omega⟩
    cases pending with
    | nil => rfl
    | cons slot pending =>
      obtain ⟨leads, later⟩ := List.forall_mem_cons.mp within
      rw [List.length_cons] at enough enough'
      cases slot with
      | reference text => rfl
      | node place =>
        rw [visit, visit, agrees place leads]
        cases found : catalog.node? place with
        | none => exact ih pending walk later (by omega) (by omega)
        | some node =>
          have listed := mem_nodes_of_node? found
          have listed' := mem_nodes_of_node? ((agrees place leads).trans found)
          dsimp only
          rw [Walk.meet_slots]
          by_cases enters : walk.enters node
          · -- entered: its slots are pending now, and open no longer
            have drops := Walk.openSlots_meet listed enters
            have drops' := Walk.openSlots_meet listed' enters
            rw [if_pos enters]
            apply ih _ _ (leads.parts_append found later)
            · rw [List.length_append]
              omega
            · rw [List.length_append]
              omega
          · have keeps := Walk.openSlots_meet_le walk node catalog.nodes
            have keeps' := Walk.openSlots_meet_le walk node other.nodes
            rw [if_neg enters]
            exact ih _ _ later (by rw [List.nil_append]; omega) (by rw [List.nil_append]; omega)

theorem Agrees.visitNames_eq (agrees : catalog.Agrees other roots) {names : List String}
    (bound : ∀ name ∈ names, other.names.lookup name = catalog.names.lookup name)
    (within : ∀ name ∈ names, ∀ slot, catalog.names.lookup name = some slot →
      catalog.Leads roots slot) (walk : Walk α) :
    other.visitNames names walk = catalog.visitNames names walk := by
  induction names generalizing walk with
  | nil => rfl
  | cons name names ih =>
    obtain ⟨same, bound⟩ := List.forall_mem_cons.mp bound
    obtain ⟨here, within⟩ := List.forall_mem_cons.mp within
    rw [visitNames, visitNames, same]
    cases known : catalog.names.lookup name with
    | none => exact ih bound within _
    | some slot =>
      have leads : ∀ other ∈ [slot], catalog.Leads roots other := by
        simpa using here slot known
      have most := walk.openSlots_le catalog.nodes
      have most' := walk.openSlots_le other.nodes
      have visited : other.visit other.visitFuel [slot] walk =
          catalog.visit catalog.visitFuel [slot] walk := by
        apply agrees.visit_eq _ _ leads
        · rw [visitFuel, slotCount, List.length_singleton]
          omega
        · rw [visitFuel, slotCount, List.length_singleton]
          omega
      dsimp only
      rw [visited]
      split
      · rfl
      · exact ih bound within _

/-- A selection that means the same in both is walked alike. -/
theorem Agrees.visitSelection_eq {selection : List String} (nonempty : selection ≠ [])
    (agrees : catalog.Agrees other (catalog.roots selection))
    (bound : ∀ name ∈ selection, other.names.lookup name = catalog.names.lookup name) :
    other.visitSelection selection = catalog.visitSelection selection := by
  have plain : selection.isEmpty = false := by simpa using nonempty
  have selected : catalog.selected selection = selection := by simp [Catalog.selected, plain]
  unfold visitSelection
  rw [plain]
  apply agrees.visitNames_eq bound
  intro name hname slot known
  apply leads_of_selected (.name name) _ slot known
  rw [selected]
  exact List.mem_map_of_mem hname

/-- Where no array leads back to itself, a slot has the same end in both. -/
theorem Agrees.element_eq (agrees : catalog.Agrees other roots) (loopless : catalog.Loopless roots)
    {slot : Slot α} (leads : catalog.Leads roots slot) :
    other.element slot = catalog.element slot := by
  have ends : catalog.Ends 0 slot (catalog.element slot) := (element_eq_iff loopless leads).mp rfl
  exact (element_eq_iff (agrees.loopless loopless) (agrees.leads leads)).mpr (agrees.ends leads ends)

theorem Agrees.row_eq (agrees : catalog.Agrees other roots) (loopless : catalog.Loopless roots)
    {slot : Slot α} (leads : catalog.Leads roots slot) (descriptions : Bool)
    (field : Option (String × Bool)) :
    Table.row other descriptions field slot = Table.row catalog descriptions field slot := by
  have element := agrees.element_eq loopless leads
  have direct : other.direct? slot = catalog.direct? slot := by
    cases slot with
    | reference text => rfl
    | node place => exact agrees place leads
  simp only [Table.row, Table.typeCell, Table.slotDescription, label, linkedId?, element, direct]

theorem Agrees.ofNode_eq (agrees : catalog.Agrees other roots) (loopless : catalog.Loopless roots)
    {node : Node α} (leads : ∀ slot ∈ node.content.slots, catalog.Leads roots slot)
    (descriptions : Bool) (template : Template) :
    Table.ofNode other descriptions template node =
      Table.ofNode catalog descriptions template node := by
  obtain ⟨head, content⟩ := node
  have rows : Table.rowsOf other descriptions template ⟨head, content⟩ =
      Table.rowsOf catalog descriptions template ⟨head, content⟩ := by
    cases template with
    | object =>
      apply List.map_congr_left
      rintro ⟨name, slot⟩ hfield
      have inside : slot ∈ content.slots := by
        cases content with
        | object properties => exact List.mem_map_of_mem hfield
        | scalar | array | composed => cases hfield
      exact agrees.row_eq loopless (leads slot inside) descriptions _
    | composed =>
      apply List.map_congr_left
      intro slot hslot
      have inside : slot ∈ content.slots := by
        cases content with
        | composed alternatives => exact hslot
        | scalar | array | object => cases hslot
      exact agrees.row_eq loopless (leads slot inside) descriptions _
  simp only [Table.ofNode, rows]

/-- The tables of a walk over one catalog are the same with the other. -/
theorem Agrees.tables_eq {selection : List String}
    (agrees : catalog.Agrees other (catalog.roots selection))
    (loopless : catalog.Loopless (catalog.roots selection)) (descriptions : Bool) :
    (catalog.visitSelection selection).tables other descriptions =
      (catalog.visitSelection selection).tables catalog descriptions := by
  obtain ⟨entered, tour⟩ := catalog.visitSelection_tour selection
  apply List.map_congr_left
  intro call hcall
  obtain ⟨place, hplace, found, -⟩ := tour.exists_entered_of_call hcall
  have leads := (tour.leads leads_of_selected).1 place hplace
  exact agrees.ofNode_eq loopless (fun slot inside => leads.part found inside) descriptions _

end
end SchemaTables.Catalog
