import Mathlib.Data.Set.Card
import SchemaTables.Proofs.Links

/-!
# A walk step by step

`next?` is one step of a walk, without fuel and with no account of the places entered. However many
schemas share an identifier, a walk that meets no reference comes to its end, in as many steps as
there are names selected and slots in the schemas entered; and at every moment what it passes over
has a table under its identifier.
-/
namespace SchemaTables

/-- Where a walk stands: what it has still to do, and what it has done. -/
structure Stand (α : Type) where
  pending : List (Task α)
  walk : Walk α

namespace Walk
variable {α : Type}

/-- A schema is skipped only where its identifier has a table. -/
theorem meet_skipped (walk : Walk α) (node : Node α) :
    (walk.meet node).1.skipped = walk.skipped ∨
      ∃ id ∈ walk.rendered, (walk.meet node).1.skipped = walk.skipped ++ [id] := by
  rcases meet_cases walk node with ⟨-, -, h⟩ | ⟨template, -, -, h⟩ | ⟨-, -, h⟩ <;> rw [h]
  · exact .inl rfl
  · split
    · next held =>
      refine .inr ⟨node.head.id, ?_, rfl⟩
      simpa [holds] using held
    · exact .inl rfl
  · split <;> exact .inl rfl

end Walk

namespace Catalog
variable {α : Type} [BEq α]

/-- The next step of a walk. There is none when nothing is left to do, and none past a reference. -/
def next? (catalog : Catalog α) (stand : Stand α) : Option (Stand α) :=
  match stand.pending with
  | [] => none
  | task :: pending =>
    match task, catalog.target? task with
    | .name name, none => some ⟨pending, stand.walk.miss name⟩
    | .slot _, none => none
    | _, some (.reference _) => none
    | _, some (.node place) =>
      match catalog.node? place with
      | none => some ⟨pending, stand.walk⟩
      | some node => some ⟨(stand.walk.meet node).2.map .slot ++ pending, (stand.walk.meet node).1⟩

/-- So many steps lead from the one stand to the other. -/
inductive Steps (catalog : Catalog α) : Nat → Stand α → Stand α → Prop
  | stay (stand : Stand α) : Steps catalog 0 stand stand
  | step {count : Nat} {first second last : Stand α} (next : catalog.next? first = some second)
      (rest : Steps catalog count second last) : Steps catalog (count + 1) first last

/-- Where a walk over a selection begins. -/
def outset (catalog : Catalog α) (selection : List String) : Stand α :=
  ⟨(catalog.selected selection).map .name, .start⟩

/-- The identifiers of the compound schemas that `roots` lead to. -/
def compoundIds (catalog : Catalog α) (roots : List (Slot α)) : Set String :=
  { id | ∃ place node, catalog.Leads roots (.node place) ∧ catalog.node? place = some node ∧
    node.content.isCompound ∧ node.head.id = id }

/-- The walk over a selection comes to its end, asks for one table under an identifier at most and
only for compound schemas that the selection leads to, and passes over none whose identifier has no
table yet. -/
structure Concludes (catalog : Catalog α) (selection : List String) (walk : Walk α) : Prop where
  ends : ∃ count ≤ (catalog.selected selection).length + catalog.slotCount,
    catalog.Steps count (catalog.outset selection) ⟨[], walk⟩
  clean : walk.fault = none
  asked : walk.rendered = walk.calls.map fun call => call.node.head.id
  once : walk.rendered.Nodup
  sound : ∀ call ∈ walk.calls, ∃ place, catalog.Leads (catalog.roots selection) (.node place) ∧
    catalog.node? place = some call.node ∧ call.node.content.isCompound ∧
      call.template.name = call.node.content.kind.name
  skips : ∀ before id after, walk.skipped = before ++ id :: after →
    ∃ taken left stand next, catalog.Steps taken (catalog.outset selection) stand ∧
      catalog.next? stand = some next ∧ catalog.Steps left next ⟨[], walk⟩ ∧
        stand.walk.skipped = before ∧ next.walk.skipped = before ++ [id] ∧
          id ∈ stand.walk.rendered
  few : walk.calls.length ≤ (catalog.compoundIds (catalog.roots selection)).ncard
  covers : ∀ place node, .node place ∈ catalog.roots selection →
    catalog.node? place = some node → node.content.isCompound → node.head.id ∈ walk.rendered

variable {catalog : Catalog α} {tasks : List (Task α)} {walk after : Walk α} {entered : List α}

theorem next?_missing {name : String} (unknown : catalog.names.lookup name = none) :
    catalog.next? ⟨.name name :: tasks, walk⟩ = some ⟨tasks, walk.miss name⟩ := by
  simp [next?, target?, unknown]

theorem next?_absent {task : Task α} {place : α}
    (target : catalog.target? task = some (.node place)) (nothing : catalog.node? place = none) :
    catalog.next? ⟨task :: tasks, walk⟩ = some ⟨tasks, walk⟩ := by
  simp [next?, target, nothing]

theorem next?_passed {task : Task α} {place : α} {node : Node α}
    (target : catalog.target? task = some (.node place))
    (found : catalog.node? place = some node) (stays : walk.enters node = false) :
    catalog.next? ⟨task :: tasks, walk⟩ = some ⟨tasks, (walk.meet node).1⟩ := by
  simp [next?, target, found, Walk.meet_slots, stays]

theorem next?_entered {task : Task α} {place : α} {node : Node α}
    (target : catalog.target? task = some (.node place))
    (found : catalog.node? place = some node) (enters : walk.enters node) :
    catalog.next? ⟨task :: tasks, walk⟩ =
      some ⟨node.content.slots.map .slot ++ tasks, (walk.meet node).1⟩ := by
  simp [next?, target, found, Walk.meet_slots, enters]

/-- A step misses a name, or leaves what has been done as it is, or meets a schema. -/
theorem next?_cases {stand next : Stand α} (step : catalog.next? stand = some next) :
    (∃ name, next.walk = stand.walk.miss name) ∨ next.walk = stand.walk ∨
      ∃ node, next.walk = (stand.walk.meet node).1 := by
  obtain ⟨pending, walk⟩ := stand
  cases pending with
  | nil => cases step
  | cons task pending =>
    unfold next? at step
    dsimp only at step
    split at step
    · exact .inl ⟨_, by rw [← Option.some.inj step]⟩
    · cases step
    · cases step
    · split at step
      · exact .inr (.inl (by rw [← Option.some.inj step]))
      · exact .inr (.inr ⟨_, by rw [← Option.some.inj step]⟩)

/-- A step skips nothing, or a schema whose identifier has a table. -/
theorem skipped_next? {stand next : Stand α} (step : catalog.next? stand = some next) :
    next.walk.skipped = stand.walk.skipped ∨
      ∃ id ∈ stand.walk.rendered, next.walk.skipped = stand.walk.skipped ++ [id] := by
  rcases next?_cases step with ⟨name, h⟩ | h | ⟨node, h⟩ <;> rw [h]
  · exact .inl rfl
  · exact .inl rfl
  · exact stand.walk.meet_skipped node

namespace Steps
variable {count : Nat} {first last : Stand α}

theorem skipped (steps : catalog.Steps count first last) :
    first.walk.skipped <+: last.walk.skipped := by
  induction steps with
  | stay stand => exact List.prefix_refl _
  | step next _ ih =>
    rcases skipped_next? next with same | ⟨id, -, more⟩
    · rwa [same] at ih
    · rw [more] at ih
      exact (List.prefix_append ..).trans ih

/-- Whatever is skipped on the way is skipped by one of the steps, and has a table by then. -/
theorem exists_skip (steps : catalog.Steps count first last) {before rest : List String} {id : String}
    (skipped : last.walk.skipped = before ++ id :: rest) (since : first.walk.skipped <+: before) :
    ∃ taken left stand next, catalog.Steps taken first stand ∧ catalog.next? stand = some next ∧
      catalog.Steps left next last ∧ stand.walk.skipped = before ∧
        next.walk.skipped = before ++ [id] ∧ id ∈ stand.walk.rendered := by
  induction steps with
  | stay stand =>
    have short := since.length_le
    rw [skipped, List.length_append, List.length_cons] at short
    omega
  | @step count first second last next steps ih =>
    rcases skipped_next? next with same | ⟨other, held, more⟩
    · obtain ⟨taken, left, stand, further, begins, found⟩ := ih skipped (same ▸ since)
      exact ⟨taken + 1, left, stand, further, .step next begins, found⟩
    · have onward : second.walk.skipped <+: before ++ id :: rest := skipped ▸ steps.skipped
      obtain ⟨between, rfl⟩ := since
      cases between with
      | nil =>
        -- this is the step: what it skips is what comes next in the end
        rw [List.append_nil] at skipped onward ⊢
        rw [more, List.prefix_append_right_inj, List.singleton_prefix_cons_iff] at onward
        subst onward
        exact ⟨0, count, first, second, .stay first, next, steps, rfl, more, held⟩
      | cons earlier between =>
        rw [more, List.append_assoc, List.prefix_append_right_inj, List.cons_append,
          List.singleton_prefix_cons_iff] at onward
        subst onward
        obtain ⟨taken, left, stand, further, begins, found⟩ :=
          ih skipped ⟨between, by rw [more, List.append_assoc]; rfl⟩
        exact ⟨taken + 1, left, stand, further, .step next begins, found⟩

end Steps

section
variable [LawfulBEq α]

/-- A walk that meets no reference comes to its end: each step takes a task off, and a schema adds its
slots only once. -/
theorem Tour.steps (tour : catalog.Tour tasks walk entered after) (clean : after.fault = none) :
    ∃ count ≤ tasks.length + walk.openSlots catalog.nodes,
      catalog.Steps count ⟨tasks, walk⟩ ⟨[], after⟩ := by
  induction tour with
  | done => exact ⟨0, Nat.zero_le _, .stay _⟩
  | @missing name tasks walk after entered unknown _ ih =>
    obtain ⟨count, few, rest⟩ := ih clean
    have same : (walk.miss name).openSlots catalog.nodes = walk.openSlots catalog.nodes := rfl
    rw [same] at few
    exact ⟨count + 1, by rw [List.length_cons]; omega, .step (next?_missing unknown) rest⟩
  | unresolved _ => cases clean
  | absent target nothing _ ih =>
    obtain ⟨count, few, rest⟩ := ih clean
    exact ⟨count + 1, by rw [List.length_cons]; omega, .step (next?_absent target nothing) rest⟩
  | @passed task place node tasks walk after entered target found stays _ ih =>
    obtain ⟨count, few, rest⟩ := ih clean
    have closes := walk.openSlots_meet_le node catalog.nodes
    exact ⟨count + 1, by rw [List.length_cons]; omega, .step (next?_passed target found stays) rest⟩
  | @entered task place node tasks walk after entered target found enters _ ih =>
    obtain ⟨count, few, rest⟩ := ih clean
    have closes := Walk.openSlots_meet (mem_nodes_of_node? found) enters
    rw [List.length_append, List.length_map] at few
    exact ⟨count + 1, by rw [List.length_cons]; omega, .step (next?_entered target found enters) rest⟩

end

theorem finite_compoundIds [LawfulBEq α] (roots : List (Slot α)) :
    (catalog.compoundIds roots).Finite := by
  apply (List.finite_toSet (catalog.nodes.map fun entry => entry.2.head.id)).subset
  rintro _ ⟨place, node, -, found, -, rfl⟩
  exact List.mem_map.mpr ⟨(place, node), mem_nodes_of_node? found, rfl⟩

/-- A walk asks for tables of compound schemas that its selection leads to. -/
theorem Tour.call_leads {selection : List String}
    (tour : catalog.Tour ((catalog.selected selection).map .name) .start entered walk)
    {call : Call α} (hcall : call ∈ walk.calls) :
    ∃ place, catalog.Leads (catalog.roots selection) (.node place) ∧
      catalog.node? place = some call.node ∧ call.node.content.isCompound ∧
        call.template.name = call.node.content.kind.name := by
  obtain ⟨place, hplace, found, asks⟩ := tour.exists_entered_of_call hcall
  have leads := (tour.leads leads_of_selected).1 place hplace
  rcases call.node.call?_cases with ⟨-, none⟩ | ⟨compound, template, some, name⟩
  · rw [none] at asks
    cases asks
  · rw [some] at asks
    exact ⟨place, leads, found, compound, Option.some.inj asks ▸ name⟩

/-- A walk over names leaves no compound schema that it was given without a table under its
identifier. -/
theorem Tour.mem_rendered_of_root {selection : List String}
    (tour : catalog.Tour ((catalog.selected selection).map .name) .start entered walk)
    (clean : walk.fault = none) {place : α} {node : Node α}
    (root : .node place ∈ catalog.roots selection) (found : catalog.node? place = some node)
    (compound : node.content.isCompound) : node.head.id ∈ walk.rendered := by
  obtain ⟨name, selected, bound⟩ := List.mem_filterMap.mp root
  obtain ⟨_, ⟨⟩, settled⟩ :=
    (tour.settled clean).1 (.name name) (List.mem_map_of_mem selected) _ bound
  have hmark := Node.mark?_of_isCompound compound
  rw [← mark?_of_found found] at hmark
  simpa [Walk.holds] using settled _ hmark

/-- Whatever schemas share their identifiers, and however they lead back to each other: where no
reference is among what a selection leads to, its walk comes to its end. -/
theorem concludes [LawfulBEq α] (catalog : Catalog α) (selection : List String)
    (whole : ∀ text, ¬ catalog.Leads (catalog.roots selection) (.reference text)) :
    catalog.Concludes selection (catalog.visitSelection selection) := by
  obtain ⟨entered, tour⟩ := catalog.visitSelection_tour selection
  generalize catalog.visitSelection selection = walk at tour ⊢
  have clean : walk.fault = none := by
    rcases (tour.leads leads_of_selected).2 with same | ⟨text, leads, -⟩
    · exact same
    · exact absurd leads (whole text)
  obtain ⟨count, few, steps⟩ := tour.steps clean
  have bound := Walk.start.openSlots_le catalog.nodes
  rw [List.length_map] at few
  have once : walk.rendered.Nodup := nodup_rendered tour
  have within : ↑walk.rendered.toFinset ⊆ catalog.compoundIds (catalog.roots selection) := by
    intro id shown
    obtain ⟨call, hcall, rfl⟩ := List.mem_map.mp (List.mem_toFinset.mp shown)
    obtain ⟨place, leads, found, compound, -⟩ := tour.call_leads hcall
    exact ⟨place, call.node, leads, found, compound, rfl⟩
  have atMost := Set.ncard_le_ncard within (finite_compoundIds _)
  rw [Set.ncard_coe_finset, List.toFinset_card_of_nodup once, Walk.rendered,
    List.length_map] at atMost
  refine ⟨⟨count, few.trans (Nat.add_le_add_left bound _), steps⟩, clean, rfl, once,
    fun call hcall => tour.call_leads hcall, ?_, atMost, ?_⟩
  · intro before id after skipped
    exact steps.exists_skip skipped (List.nil_prefix ..)
  · intro place node root found compound
    exact tour.mem_rendered_of_root clean root found compound

/-- A selection leads to no reference where the catalog holds none. -/
theorem not_leads_reference [LawfulBEq α] {selection : List String} (plain : ∀ slot ∈
      catalog.names.map (·.2) ++ catalog.nodes.flatMap fun entry => entry.2.content.slots,
    slot matches .node _) (text : String) :
    ¬ catalog.Leads (catalog.roots selection) (.reference text) := by
  intro leads
  have listed : .reference text ∈
      catalog.names.map (·.2) ++ catalog.nodes.flatMap fun entry => entry.2.content.slots := by
    cases leads with
    | root listed =>
      obtain ⟨name, -, bound⟩ := List.mem_filterMap.mp listed
      exact List.mem_append_left _
        (List.mem_map_of_mem (f := Prod.snd) (Keyed.mem_of_lookup bound))
    | part _ found inside =>
      exact List.mem_append_right _
        (List.mem_flatMap.mpr ⟨_, mem_nodes_of_node? found, inside⟩)
  cases plain _ listed

/-- Three compound schemas and two arrays under one identifier each, all leading back to
themselves. -/
def tangle : Catalog Nat :=
  let head (id : String) : Head := ⟨id, none, none, [], [], none⟩
  { names := [("Loop", .node 3), ("Pair", .node 0), ("Choice", .node 1)]
    nodes := [
      (0, ⟨head "Twin", .object [("self", .node 0), ("loop", .node 3), ("other", .node 1)]⟩),
      (1, ⟨head "Twin", .composed [.node 0, .node 2, .node 4]⟩),
      (2, ⟨head "Twin", .object [("loop", .node 3)]⟩),
      (3, ⟨head "Loop", .array (some (.node 4))⟩),
      (4, ⟨head "Loop", .array (some (.node 4))⟩)] }

theorem concludes_tangle :
    (∀ text, ¬ tangle.Leads (tangle.roots ["Choice", "Nobody", "Pair"]) (.reference text)) ∧
      tangle.Concludes ["Choice", "Nobody", "Pair"]
        (tangle.visitSelection ["Choice", "Nobody", "Pair"]) := by
  have whole : ∀ text, ¬ tangle.Leads (tangle.roots ["Choice", "Nobody", "Pair"])
      (.reference text) := not_leads_reference (by decide)
  exact ⟨whole, concludes tangle _ whole⟩

end Catalog
end SchemaTables
