import SchemaTables.Proofs.Tour

/-!
# What selected names lead to

A walk goes over the names of its selection that are known and stays among what they lead to.
-/
namespace SchemaTables.Catalog
variable {α : Type} [BEq α]

/-- A slot that some path of parts leads to from `roots`. -/
inductive Leads (catalog : Catalog α) (roots : List (Slot α)) : Slot α → Prop
  | root {slot : Slot α} (listed : slot ∈ roots) : Leads catalog roots slot
  | part {place : α} {node : Node α} {slot : Slot α} (outer : Leads catalog roots (.node place))
      (found : catalog.node? place = some node) (inside : slot ∈ node.content.slots) :
      Leads catalog roots slot

/-- The slots of the names that are known among those selected. -/
def roots (catalog : Catalog α) (selection : List String) : List (Slot α) :=
  (catalog.selected selection).filterMap (List.lookup · catalog.names)

variable {catalog : Catalog α} {selection : List String}

/-- A walk enters only what its tasks lead to, and there it finds the reference that it fails with. -/
theorem Tour.leads {roots : List (Slot α)} {tasks : List (Task α)} {walk after : Walk α}
    {entered : List α} (h : catalog.Tour tasks walk entered after)
    (start : ∀ task ∈ tasks, ∀ slot, catalog.target? task = some slot → catalog.Leads roots slot) :
    (∀ place ∈ entered, catalog.Leads roots (.node place)) ∧
      (after.fault = walk.fault ∨
        ∃ text, catalog.Leads roots (.reference text) ∧ after.fault = some text) :=
  h.within (fun _ _ outer _ found _ inside => outer.part found inside) start

theorem leads_of_selected :
    ∀ task ∈ (catalog.selected selection).map Task.name, ∀ slot,
      catalog.target? task = some slot → catalog.Leads (catalog.roots selection) slot := by
  rw [List.forall_mem_map]
  intro name hname slot bound
  exact .root (List.mem_filterMap.mpr ⟨name, hname, bound⟩)

/-- A table is asked for where the walk enters its schema. -/
theorem Tour.exists_entered_of_call {tasks : List (Task α)} {walk : Walk α} {entered : List α}
    (h : catalog.Tour tasks .start entered walk) {call : Call α} (hcall : call ∈ walk.calls) :
    ∃ place ∈ entered, catalog.node? place = some call.node ∧ call.node.call? = some call := by
  have calls : walk.calls = entered.filterMap catalog.call? := h.calls_eq
  rw [calls] at hcall
  obtain ⟨place, hplace, asks⟩ := List.mem_filterMap.mp hcall
  obtain ⟨node, found, asks⟩ := Option.bind_eq_some_iff.mp asks
  obtain ⟨template, -, rfl⟩ := Option.map_eq_some_iff.mp asks
  exact ⟨place, hplace, found, asks⟩

/-- A schema that is gone into adds its parts to what is still to come. -/
theorem Leads.parts_append {roots pending : List (Slot α)} {place : α} {node : Node α}
    (leads : catalog.Leads roots (.node place)) (found : catalog.node? place = some node)
    (later : ∀ slot ∈ pending, catalog.Leads roots slot) :
    ∀ slot ∈ node.content.slots ++ pending, catalog.Leads roots slot := by
  intro slot hslot
  rcases List.mem_append.mp hslot with inside | hslot
  · exact leads.part found inside
  · exact later slot hslot

/-- What selected names lead to can be reached from all names. -/
theorem Leads.reaches {slot : Slot α}
    (leads : catalog.Leads (catalog.roots selection) slot) : catalog.Reaches slot := by
  induction leads with
  | root listed =>
    obtain ⟨name, -, bound⟩ := List.mem_filterMap.mp listed
    exact reaches_of_lookup bound
  | part _ found inside ih => exact ih.part found inside

end SchemaTables.Catalog
