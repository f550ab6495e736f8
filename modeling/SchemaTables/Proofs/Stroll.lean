import SchemaTables.Proofs.Coverage
import SchemaTables.Proofs.Leads

/-!
# The order of the tables

`stroll` goes over a catalog in pre-order and remembers nothing but the way from the root to where it
stands, so it comes to a shared schema again and again. Where what a walk remembers a schema by tells
it from every other one, the walk asks for the table of each compound schema in the order in which
the stroll first meets them: what it passes over the second time leads to nothing that is new.
-/
namespace SchemaTables

namespace Catalog
variable {α : Type} [BEq α]

/-- The nodes that `path` has not met. -/
def unmet (catalog : Catalog α) (path : List α) : List (α × Node α) :=
  catalog.nodes.filter fun entry => !path.contains entry.1

theorem length_unmet_lt [LawfulBEq α] {catalog : Catalog α} {path : List α} {place : α} {node : Node α}
    (off : ¬ path.contains place) (found : catalog.node? place = some node) :
    (catalog.unmet (place :: path)).length < (catalog.unmet path).length :=
  Keyed.length_unmet_lt off (mem_nodes_of_node? found)

/-- The schemas met from `slots` on, each as often as it is met, in pre-order. A schema that lies on
`path` is not gone into. -/
def stroll [LawfulBEq α] (catalog : Catalog α) (path : List α) : List (Slot α) → List α
  | [] => []
  | .reference _ :: rest => stroll catalog path rest
  | .node place :: rest =>
    if path.contains place then stroll catalog path rest
    else match _ : catalog.node? place with
      | none => stroll catalog path rest
      | some node =>
        place :: (stroll catalog (place :: path) node.content.slots ++ stroll catalog path rest)
termination_by slots => ((catalog.unmet path).length, slots.length)
decreasing_by
  · exact Prod.Lex.right _ (by simp)
  · exact Prod.Lex.right _ (by simp)
  · exact Prod.Lex.right _ (by simp)
  · exact Prod.Lex.left _ _ (length_unmet_lt ‹_› ‹_›)
  · exact Prod.Lex.right _ (by simp)

def isCompound (catalog : Catalog α) (place : α) : Bool :=
  (catalog.node? place).any fun node => node.content.isCompound

/-- Whatever `roots` lead to is there, and no two compound schemas and no two arrays among it share an
identifier. -/
structure Discerned (catalog : Catalog α) (roots : List (Slot α)) : Prop where
  present : ∀ slot, catalog.Leads roots slot →
    ∃ place node, slot = .node place ∧ catalog.node? place = some node
  tables : ∀ id place other, catalog.Leads roots (.node place) → catalog.Leads roots (.node other) →
    catalog.mark? place = some (.table id) → catalog.mark? other = some (.table id) → place = other
  arrays : ∀ id place other, catalog.Leads roots (.node place) → catalog.Leads roots (.node other) →
    catalog.mark? place = some (.array id) → catalog.mark? other = some (.array id) → place = other

/-- The marked schemas among `places`, each where it comes first, without those in `met`. -/
def firsts (catalog : Catalog α) (met places : List α) : List α :=
  ((places.filter fun place => (catalog.mark? place).isSome).removeAll met).eraseDups

/-- Whatever the slots hold that has a mark is in `met`. -/
def Known (catalog : Catalog α) (met : List α) (slots : List (Slot α)) : Prop :=
  ∀ next, .node next ∈ slots → (catalog.mark? next).isSome → next ∈ met

/-- How far a walk has come when it has entered the schemas in `met` and stands at the end of `path`:
only the schemas on the path may have parts that are still to come. -/
structure Progress (catalog : Catalog α) (roots : List (Slot α)) (path met : List α)
    (walk : Walk α) : Prop where
  reached : ∀ place ∈ met, catalog.Leads roots (.node place)
  held : ∀ mark, walk.holds mark ↔ ∃ place ∈ met, catalog.mark? place = some mark
  way : ∀ place ∈ path, place ∈ met
  finished : ∀ place ∈ met, place ∉ path → ∀ node, catalog.node? place = some node →
    catalog.Known met node.content.slots
  clean : walk.fault = none

variable {catalog : Catalog α}

theorem Known.mono {met more : List α} {slots : List (Slot α)} (known : catalog.Known met slots)
    (subset : met ⊆ more) : catalog.Known more slots :=
  fun next inside marked => subset (known next inside marked)

section
variable [LawfulBEq α]

theorem mem_firsts {met places : List α} {place : α} :
    place ∈ catalog.firsts met places ↔
      place ∈ places ∧ (catalog.mark? place).isSome ∧ place ∉ met := by
  simp [firsts, List.removeAll, and_comm]

theorem firsts_append (met first second : List α) :
    catalog.firsts met (first ++ second) = catalog.firsts met first ++
      catalog.firsts (catalog.firsts met first ++ met) second := by
  have rest : ((second.filter fun place => (catalog.mark? place).isSome).removeAll met).removeAll
      ((first.filter fun place => (catalog.mark? place).isSome).removeAll met) =
        (second.filter fun place => (catalog.mark? place).isSome).removeAll
          (catalog.firsts met first ++ met) := by
    unfold List.removeAll
    rw [List.filter_filter]
    apply List.filter_congr
    intro place hplace
    have marked := (List.mem_filter.mp hplace).2
    have mem : place ∈ catalog.firsts met first ↔
        place ∈ first ∧ (catalog.mark? place).isSome ∧ place ∉ met := mem_firsts
    by_cases hmet : place ∈ met <;> by_cases hfirst : place ∈ first <;> simp_all
  unfold firsts at rest ⊢
  rw [List.filter_append, List.removeAll, List.filter_append, List.eraseDups_append]
  exact congrArg _ (congrArg _ rest)

theorem firsts_cons_of_new {met : List α} {place : α} (marked : (catalog.mark? place).isSome)
    (fresh : place ∉ met) (places : List α) :
    catalog.firsts met (place :: places) = place :: catalog.firsts (place :: met) places := by
  have one : catalog.firsts met [place] = [place] := by
    simp [firsts, List.removeAll, List.eraseDups_cons, marked, fresh]
  have split : catalog.firsts met ([place] ++ places) = catalog.firsts met [place] ++
      catalog.firsts (catalog.firsts met [place] ++ met) places := firsts_append met [place] places
  rwa [one] at split

theorem firsts_eq_nil {met places : List α}
    (known : ∀ place ∈ places, (catalog.mark? place).isSome → place ∈ met) :
    catalog.firsts met places = [] := by
  apply List.eq_nil_iff_forall_not_mem.mpr
  intro place hplace
  obtain ⟨listed, marked, fresh⟩ := mem_firsts.mp hplace
  exact fresh (known place listed marked)

/-- What brings nothing new may be left out. -/
theorem firsts_append_of_known {met first : List α}
    (known : ∀ place ∈ first, (catalog.mark? place).isSome → place ∈ met) (second : List α) :
    catalog.firsts met (first ++ second) = catalog.firsts met second := by
  rw [firsts_append, firsts_eq_nil known, List.nil_append, List.nil_append]

end

namespace Discerned
variable {roots : List (Slot α)} (discerned : catalog.Discerned roots)
include discerned

theorem eq_of_mark? {place other : α} {mark : Mark} (hplace : catalog.Leads roots (.node place))
    (hother : catalog.Leads roots (.node other)) (hmark : catalog.mark? place = some mark)
    (same : catalog.mark? other = some mark) : place = other := by
  cases mark with
  | table id => exact discerned.tables id place other hplace hother hmark same
  | array id => exact discerned.arrays id place other hplace hother hmark same

theorem exists_node {place : α} (reached : catalog.Leads roots (.node place)) :
    ∃ node, catalog.node? place = some node := by
  obtain ⟨_, node, holds, found⟩ := discerned.present _ reached
  cases holds
  exact ⟨node, found⟩

end Discerned

namespace Progress
variable {roots : List (Slot α)} {path met : List α} {walk after : Walk α} {entered : List α}

theorem start (catalog : Catalog α) (roots : List (Slot α)) :
    catalog.Progress roots [] [] .start where
  reached := by simp
  held mark := by cases mark <;> simp [Walk.holds, Walk.start, Walk.rendered]
  way := by simp
  finished := by simp
  clean := rfl

theorem mem_of_holds (discerned : catalog.Discerned roots)
    (progress : catalog.Progress roots path met walk) {place : α} {mark : Mark}
    (reached : catalog.Leads roots (.node place)) (hmark : catalog.mark? place = some mark)
    (held : walk.holds mark) : place ∈ met := by
  obtain ⟨other, hother, same⟩ := (progress.held mark).mp held
  rw [discerned.eq_of_mark? reached (progress.reached other hother) hmark same]
  exact hother

/-- A schema that is entered is new. -/
theorem fresh_of_enters (progress : catalog.Progress roots path met walk) {place : α}
    {node : Node α} (found : catalog.node? place = some node) (enters : walk.enters node) :
    (catalog.mark? place).isSome ∧ place ∉ met := by
  obtain ⟨mark, hmark, free⟩ := Walk.enters_iff.mp enters
  rw [← mark?_of_found found] at hmark
  refine ⟨by simp [hmark], fun hmet => ?_⟩
  have held := (progress.held mark).mpr ⟨place, hmet, hmark⟩
  rw [held] at free
  cases free

/-- A schema that is passed by is known already, or has no mark. -/
theorem mem_of_stays (discerned : catalog.Discerned roots)
    (progress : catalog.Progress roots path met walk) {place : α} {node : Node α}
    (reached : catalog.Leads roots (.node place)) (found : catalog.node? place = some node)
    (stays : walk.enters node = false) (marked : (catalog.mark? place).isSome) : place ∈ met := by
  obtain ⟨mark, hmark⟩ := Option.isSome_iff_exists.mp marked
  apply progress.mem_of_holds discerned reached hmark
  rw [mark?_of_found found] at hmark
  simpa [Walk.enters_of_mark? hmark] using stays

theorem pass (progress : catalog.Progress roots path met walk) {node : Node α}
    (stays : walk.enters node = false) : catalog.Progress roots path met (walk.meet node).1 where
  reached := progress.reached
  held mark := by
    rw [Walk.holds_meet, ← progress.held]
    constructor
    · rintro (held | hmark)
      · exact held
      · simpa [Walk.enters_of_mark? hmark] using stays
    · exact .inl
  way := progress.way
  finished := progress.finished
  clean := by rw [Walk.meet_fault, progress.clean]

theorem miss (progress : catalog.Progress roots path met walk) (name : String) :
    catalog.Progress roots path met (walk.miss name) :=
  ⟨progress.reached, progress.held, progress.way, progress.finished, progress.clean⟩

/-- Going into a schema makes the way longer. -/
theorem enter (progress : catalog.Progress roots path met walk) {place : α} {node : Node α}
    (reached : catalog.Leads roots (.node place)) (found : catalog.node? place = some node) :
    catalog.Progress roots (place :: path) (place :: met) (walk.meet node).1 where
  reached := List.forall_mem_cons.mpr ⟨reached, progress.reached⟩
  held mark := by
    rw [Walk.holds_meet, progress.held, ← mark?_of_found found]
    simp [or_comm]
  way := List.forall_mem_cons.mpr
    ⟨List.mem_cons_self, fun other hother => List.mem_cons_of_mem _ (progress.way other hother)⟩
  finished := by
    intro other hother off
    rw [List.mem_cons, not_or] at off
    have old : other ∈ met := (List.mem_cons.mp hother).resolve_left off.1
    intro node hnode
    exact (progress.finished other old off.2 node hnode).mono (List.subset_cons_self ..)
  clean := by rw [Walk.meet_fault, progress.clean]

/-- Coming back from a schema whose parts are all known makes the way shorter. -/
theorem leave {place : α} {node : Node α}
    (progress : catalog.Progress roots (place :: path) met walk)
    (found : catalog.node? place = some node) (known : catalog.Known met node.content.slots) :
    catalog.Progress roots path met walk where
  reached := progress.reached
  held := progress.held
  way := fun other hother => progress.way other (List.mem_cons_of_mem _ hother)
  finished := by
    intro other hother off node' hnode
    by_cases same : other = place
    · subst same
      cases found.symm.trans hnode
      exact known
    · exact progress.finished other hother (by simp [same, off]) node' hnode
  clean := progress.clean

/-- A walk over tasks carries the progress on, and everything that its tasks lead to is known
afterwards. -/
theorem advance (discerned : catalog.Discerned roots)
    (progress : catalog.Progress roots path met walk) {tasks : List (Task α)}
    (tour : catalog.Tour tasks walk entered after) (ok : after.fault = none)
    (within : ∀ task ∈ tasks, ∀ slot, catalog.target? task = some slot → catalog.Leads roots slot) :
    catalog.Progress roots path (entered ++ met) after ∧
      ∀ task ∈ tasks, ∀ next, catalog.target? task = some (.node next) →
        (catalog.mark? next).isSome → next ∈ entered ++ met := by
  have reached : ∀ place ∈ entered, catalog.Leads roots (.node place) := (tour.leads within).1
  have held : ∀ mark, after.holds mark ↔
      ∃ place ∈ entered ++ met, catalog.mark? place = some mark := by
    intro mark
    rw [tour.holds_iff, progress.held]
    simp only [List.mem_append, or_and_right, exists_or]
    exact or_comm
  have all : ∀ place ∈ entered ++ met, catalog.Leads roots (.node place) := by
    intro place hplace
    exact (List.mem_append.mp hplace).elim (reached place) (progress.reached place)
  have mem : ∀ next, catalog.Leads roots (.node next) → catalog.Settled after (.node next) →
      (catalog.mark? next).isSome → next ∈ entered ++ met := by
    rintro next leads ⟨_, ⟨⟩, settled⟩ marked
    obtain ⟨mark, hmark⟩ := Option.isSome_iff_exists.mp marked
    obtain ⟨other, hother, same⟩ := (held mark).mp (settled mark hmark)
    rw [discerned.eq_of_mark? leads (all other hother) hmark same]
    exact hother
  obtain ⟨settledTasks, settledParts⟩ := tour.settled ok
  refine ⟨⟨all, held, ?_, ?_, ok⟩, ?_⟩
  · intro place hplace
    exact List.mem_append_right _ (progress.way place hplace)
  · intro place hplace off node found
    rcases List.mem_append.mp hplace with new | old
    · intro next inside marked
      exact mem next ((reached place new).part found inside)
        (settledParts place new node found _ inside) marked
    · exact (progress.finished place old off node found).mono (List.subset_append_right ..)
  · intro task htask next target marked
    exact mem next (within task htask _ target) (settledTasks task htask _ target) marked

end Progress

section
variable [LawfulBEq α] {roots : List (Slot α)} {path met : List α} {walk after : Walk α}
  {entered : List α}

theorem stroll_cons (path : List α) (slot : Slot α) (rest : List (Slot α)) :
    catalog.stroll path (slot :: rest) =
      catalog.stroll path [slot] ++ catalog.stroll path rest := by
  cases slot with
  | reference text => simp [stroll]
  | node place =>
    rw [stroll, stroll]
    split
    · simp [stroll]
    · split <;> simp [stroll]

theorem stroll_of_found {path : List α} {place : α} {node : Node α} (off : ¬ path.contains place)
    (found : catalog.node? place = some node) (rest : List (Slot α)) :
    catalog.stroll path (.node place :: rest) =
      place :: (catalog.stroll (place :: path) node.content.slots ++ catalog.stroll path rest) := by
  rw [stroll, if_neg off]
  split
  · next nothing => cases found.symm.trans nothing
  · next node' found' => cases found.symm.trans found'; rfl

/-- Off the way nothing is left to find: a stroll from known slots stays among what is known. -/
theorem known_stroll (progress : catalog.Progress roots path met walk) {slots : List (Slot α)}
    (known : catalog.Known met slots) :
    ∀ place ∈ catalog.stroll path slots, (catalog.mark? place).isSome → place ∈ met := by
  have finished := progress.finished
  clear progress
  induction path, slots using stroll.induct catalog with
  | case1 path => simp [stroll]
  | case2 path text rest ih =>
    rw [stroll]
    exact ih (fun next inside => known next (List.mem_cons_of_mem _ inside)) finished
  | case3 path place rest back ih =>
    rw [stroll, if_pos back]
    exact ih (fun next inside => known next (List.mem_cons_of_mem _ inside)) finished
  | case4 path place rest off nothing ih =>
    have skipped : catalog.stroll path (.node place :: rest) = catalog.stroll path rest := by
      rw [stroll, if_neg off]
      split
      · rfl
      · next node found => cases nothing.symm.trans found
    rw [skipped]
    exact ih (fun next inside => known next (List.mem_cons_of_mem _ inside)) finished
  | case5 path place rest off node found ihParts ihRest =>
    rw [stroll_of_found off found]
    have here : (catalog.mark? place).isSome → place ∈ met := known place List.mem_cons_self
    have parts : catalog.Known met node.content.slots := by
      cases hmark : node.mark? with
      | none =>
        rw [Node.slots_of_mark?_eq_none hmark]
        intro next inside
        cases inside
      | some mark =>
        have hplace := here (by simp [mark?_of_found found, hmark])
        exact finished place hplace (by simpa using off) node found
    have longer : ∀ other ∈ met, other ∉ place :: path → ∀ node, catalog.node? other = some node →
        catalog.Known met node.content.slots := by
      intro other hother off
      rw [List.mem_cons, not_or] at off
      exact finished other hother off.2
    intro other hother marked
    rcases List.mem_cons.mp hother with rfl | hother
    · exact here marked
    · rcases List.mem_append.mp hother with inner | outer
      · exact ihParts parts longer other inner marked
      · have later : catalog.Known met rest :=
          fun next inside => known next (List.mem_cons_of_mem _ inside)
        exact ihRest later finished other outer marked

/-- A walk enters, in order, what the stroll meets for the first time. -/
theorem entered_eq_firsts (discerned : catalog.Discerned roots)
    (progress : catalog.Progress roots path met walk) {slots : List (Slot α)}
    (within : ∀ slot ∈ slots, catalog.Leads roots slot)
    (tour : catalog.Tour (slots.map .slot) walk entered after) (ok : after.fault = none) :
    entered = catalog.firsts met (catalog.stroll path slots) := by
  induction path, slots using stroll.induct catalog generalizing met walk entered after with
  | case1 path =>
    cases tour
    simp [stroll, firsts, List.removeAll]
  | case2 path text rest ih =>
    obtain ⟨_, _, holds, -⟩ := discerned.present _ (within _ List.mem_cons_self)
    cases holds
  | case3 path place rest back ih =>
    rw [stroll, if_pos back]
    have reached := within _ List.mem_cons_self
    obtain ⟨node, found⟩ := discerned.exists_node reached
    have old : place ∈ met := progress.way place (by simpa using back)
    rcases tour.of_node found with ⟨stays, tour⟩ | ⟨enters, -⟩
    · exact ih (progress.pass stays) (fun slot inside => within slot (List.mem_cons_of_mem _ inside))
        tour ok
    · exact absurd old (progress.fresh_of_enters found enters).2
  | case4 path place rest off nothing ih =>
    obtain ⟨node, found⟩ := discerned.exists_node (within _ List.mem_cons_self)
    rw [nothing] at found
    cases found
  | case5 path place rest off node found ihParts ihRest =>
    rw [stroll_of_found off found]
    have reached := within _ List.mem_cons_self
    have withinRest : ∀ slot ∈ rest, catalog.Leads roots slot :=
      fun slot inside => within slot (List.mem_cons_of_mem _ inside)
    have withinParts : ∀ slot ∈ node.content.slots, catalog.Leads roots slot :=
      fun slot inside => reached.part found inside
    rcases tour.of_node found with ⟨stays, tour⟩ | ⟨enters, later, rfl, tour'⟩
    · -- passed by: known already, and so is everything that the stroll meets from there
      have here : catalog.Known met [.node place] := by
        rintro next inside
        cases List.mem_singleton.mp inside
        exact progress.mem_of_stays discerned reached found stays
      have known := known_stroll progress here
      rw [stroll_of_found off found] at known
      have rest := firsts_append_of_known known (catalog.stroll path rest)
      simp only [stroll, List.append_nil, List.cons_append] at rest
      rw [rest]
      exact ihRest (progress.pass stays) withinRest tour ok
    · -- entered: first come its parts, with the way one longer, and then the rest
      obtain ⟨marked, fresh⟩ := progress.fresh_of_enters found enters
      have inside : catalog.Progress roots (place :: path) (place :: met) (walk.meet node).1 :=
        progress.enter reached found
      obtain ⟨inner, outer, middle, rfl, fault, first, second⟩ := tour'.split ok
      rw [inside.clean] at fault
      have parts := ihParts inside withinParts first fault
      have targets : ∀ task ∈ node.content.slots.map Task.slot, ∀ slot,
          catalog.target? task = some slot → catalog.Leads roots slot := by
        rw [List.forall_mem_map]
        rintro slot hslot _ ⟨⟩
        exact withinParts slot hslot
      obtain ⟨onward, known⟩ := inside.advance discerned first fault targets
      have back := onward.leave found fun next hnext =>
        known _ (List.mem_map_of_mem hnext) next rfl
      have others := ihRest back withinRest second ok
      rw [firsts_cons_of_new marked fresh, firsts_append, ← parts, ← others]

/-- The same from the names on: one after the other, those that are unknown left out. -/
theorem entered_eq_firsts_of_names (discerned : catalog.Discerned roots)
    (progress : catalog.Progress roots [] met walk) {names : List String}
    (within : ∀ slot ∈ names.filterMap (List.lookup · catalog.names), catalog.Leads roots slot)
    (tour : catalog.Tour (names.map .name) walk entered after) (ok : after.fault = none) :
    entered = catalog.firsts met
      (catalog.stroll [] (names.filterMap (List.lookup · catalog.names))) := by
  induction names generalizing met walk entered with
  | nil =>
    cases tour
    simp [stroll, firsts, List.removeAll]
  | cons name names ih =>
    cases bound : catalog.names.lookup name with
    | none =>
      have skipped : (name :: names).filterMap (List.lookup · catalog.names) =
          names.filterMap (List.lookup · catalog.names) := List.filterMap_cons_none bound
      rw [skipped] at within ⊢
      cases tour with
      | missing unknown rest => exact ih (progress.miss name) within rest
      | unresolved target => simp [target?, bound] at target
      | absent target nothing rest => simp [target?, bound] at target
      | passed target found stays rest => simp [target?, bound] at target
      | entered target found enters rest => simp [target?, bound] at target
    | some slot =>
      have taken : (name :: names).filterMap (List.lookup · catalog.names) =
          slot :: names.filterMap (List.lookup · catalog.names) := List.filterMap_cons_some bound
      rw [taken] at within ⊢
      have tour : catalog.Tour ([slot].map .slot ++ names.map .name) walk entered after :=
        tour.slot_of_name bound
      obtain ⟨first, others, middle, rfl, fault, visited, rest⟩ := tour.split ok
      rw [progress.clean] at fault
      have head : ∀ other ∈ [slot], catalog.Leads roots other := by
        simpa using within slot List.mem_cons_self
      have met := entered_eq_firsts discerned progress head visited fault
      have targets : ∀ task ∈ [slot].map Task.slot, ∀ other,
          catalog.target? task = some other → catalog.Leads roots other := by
        rw [List.forall_mem_map]
        rintro other hother _ ⟨⟩
        exact head other hother
      have onward := (progress.advance discerned visited fault targets).1
      have others := ih onward (fun other hother => within other (List.mem_cons_of_mem _ hother)) rest
      rw [stroll_cons, firsts_append, ← met, ← others]

end

end Catalog

namespace Node
variable {α : Type}

/-- A table is asked for by compound schemas, under the name of their kind. -/
theorem call?_cases (node : Node α) :
    (node.content.isCompound = false ∧ node.call? = none) ∨
    (node.content.isCompound ∧ ∃ template, node.call? = some ⟨template, node⟩ ∧
      template.name = node.content.kind.name) := by
  obtain ⟨head, content⟩ := node
  cases content with
  | scalar kind => exact .inl ⟨rfl, rfl⟩
  | array items => exact .inl ⟨rfl, rfl⟩
  | object properties =>
    cases properties with
    | nil => exact .inl ⟨rfl, rfl⟩
    | cons field rest => exact .inr ⟨rfl, .object, rfl, rfl⟩
  | composed alternatives =>
    cases alternatives with
    | nil => exact .inl ⟨rfl, rfl⟩
    | cons slot rest => exact .inr ⟨rfl, .composed, rfl, rfl⟩

theorem map_node_call? (node : Node α) :
    node.call?.map (·.node) = if node.content.isCompound then some node else none := by
  rcases node.call?_cases with ⟨plain, hcall⟩ | ⟨compound, template, hcall, -⟩
  · simp [plain, hcall]
  · simp [compound, hcall]

theorem isSome_mark?_of_isCompound {node : Node α} (compound : node.content.isCompound) :
    node.mark?.isSome := by
  rcases node.call?_cases with ⟨plain, -⟩ | ⟨-, template, hcall, -⟩
  · rw [plain] at compound
    cases compound
  · obtain ⟨id, hmark⟩ := node.isSome_call?_iff.mp (by rw [hcall]; rfl)
    rw [hmark]
    rfl

end Node

namespace Catalog
variable {α : Type} [BEq α] {catalog : Catalog α}

theorem isSome_mark?_of_isCompound {place : α} (compound : catalog.isCompound place) :
    (catalog.mark? place).isSome := by
  unfold isCompound at compound
  cases found : catalog.node? place with
  | none => simp [found] at compound
  | some node =>
    rw [mark?_of_found found]
    exact Node.isSome_mark?_of_isCompound (by simpa [found] using compound)

/-- The schemas that the calls of a walk show. -/
theorem map_node_filterMap_call? (places : List α) :
    (places.filterMap catalog.call?).map (·.node) =
      (places.filter catalog.isCompound).filterMap catalog.node? := by
  rw [List.map_filterMap, List.filterMap_filter]
  apply List.filterMap_congr
  intro place _
  unfold isCompound
  cases found : catalog.node? place with
  | none => simp [call?, found]
  | some node =>
    rw [call?_of_found found, Node.map_node_call?]
    rfl

variable [LawfulBEq α]

theorem filter_eraseDups (p : α → Bool) (places : List α) :
    places.eraseDups.filter p = (places.filter p).eraseDups := by
  induction h : places.length using Nat.strong_induction_on generalizing places with
  | _ length ih =>
    subst h
    cases places with
    | nil => rfl
    | cons place rest =>
      have shorter : (rest.filter fun other => !other == place).length < (place :: rest).length :=
        Nat.lt_succ_of_le (List.length_filter_le ..)
      have tail := ih _ shorter _ rfl
      rw [List.filter_comm] at tail
      rw [List.eraseDups_cons]
      by_cases hp : p place
      · rw [List.filter_cons_of_pos hp, List.filter_cons_of_pos hp, List.eraseDups_cons, tail]
      · have same : (rest.filter p).filter (fun other => !other == place) = rest.filter p := by
          apply List.filter_eq_self.mpr
          intro other hother
          have hother := (List.mem_filter.mp hother).2
          simp only [Bool.not_eq_true', beq_eq_false_iff_ne]
          rintro rfl
          exact hp hother
        rw [List.filter_cons_of_neg hp, List.filter_cons_of_neg hp, tail, same]

/-- The compound schemas in the order in which the stroll over a selection first meets them. -/
def firstMet (catalog : Catalog α) (selection : List String) : List α :=
  (catalog.stroll [] (catalog.roots selection)).eraseDups.filter catalog.isCompound

theorem filter_firsts (places : List α) :
    (catalog.firsts [] places).filter catalog.isCompound =
      places.eraseDups.filter catalog.isCompound := by
  have all : (places.filter fun place => (catalog.mark? place).isSome).removeAll [] =
      places.filter fun place => (catalog.mark? place).isSome := by
    simp [List.removeAll]
  rw [firsts, all, ← filter_eraseDups, List.filter_filter]
  apply List.filter_congr
  intro place _
  cases hp : catalog.isCompound place with
  | false => rfl
  | true => rw [isSome_mark?_of_isCompound hp, Bool.and_true]

/-- The tables that a walk over a selection asks for are those that the stroll comes upon. -/
structure InStrollOrder (catalog : Catalog α) (selection : List String) (walk : Walk α) :
    Prop where
  clean : walk.fault = none
  calls : walk.calls.map (·.node) = (catalog.firstMet selection).filterMap catalog.node?
  rendered : walk.rendered = ((catalog.firstMet selection).filterMap catalog.node?).map (·.head.id)
  /-- Each table has the form of its schema's kind. -/
  forms : ∀ call ∈ walk.calls, call.template.name = call.node.content.kind.name
  /-- All that the selected names lead to is there, and nothing else. -/
  reached : ∀ place, place ∈ catalog.firstMet selection ↔
    catalog.Leads (catalog.roots selection) (.node place) ∧ catalog.isCompound place

section
variable {selection : List String} (discerned : catalog.Discerned (catalog.roots selection))
include discerned

/-- Nothing stops a walk over what is there. -/
theorem Discerned.clean : (catalog.visitSelection selection).fault = none := by
  obtain ⟨entered, tour⟩ := catalog.visitSelection_tour selection
  rcases (tour.leads leads_of_selected).2 with same | ⟨text, reached, -⟩
  · exact same
  · obtain ⟨_, _, holds, -⟩ := discerned.present _ reached
    cases holds

/-- A walk comes to everything that the selected names lead to. -/
theorem mem_entered_iff_leads {entered : List α} {place : α} (marked : (catalog.mark? place).isSome)
    (tour : catalog.Tour ((catalog.selected selection).map .name) .start entered
      (catalog.visitSelection selection)) :
    place ∈ entered ↔ catalog.Leads (catalog.roots selection) (.node place) := by
  obtain ⟨progress, known⟩ :=
    (Progress.start catalog _).advance discerned tour discerned.clean leads_of_selected
  rw [List.append_nil] at progress known
  refine ⟨progress.reached place, fun leads => ?_⟩
  have all : ∀ slot, catalog.Leads (catalog.roots selection) slot → ∀ next, slot = .node next →
      (catalog.mark? next).isSome → next ∈ entered := by
    intro slot leads
    induction leads with
    | @root slot listed =>
      rintro next rfl marked
      obtain ⟨name, hname, bound⟩ := List.mem_filterMap.mp listed
      exact known (.name name) (List.mem_map_of_mem hname) next bound marked
    | @part outer node slot leads found inside ih =>
      rintro next rfl marked
      have outerMarked : (catalog.mark? outer).isSome := by
        rw [mark?_of_found found]
        by_contra none
        rw [Node.slots_of_mark?_eq_none (by simpa using none)] at inside
        cases inside
      have hplace := ih outer rfl outerMarked
      exact progress.finished outer hplace (by simp) node found next inside marked
  exact all _ leads place rfl marked

end

/-- Where its memory takes no two schemas for one another, a walk asks for the tables of the compound
schemas in the order in which the stroll first meets them. -/
theorem calls_in_stroll_order (catalog : Catalog α) (selection : List String)
    (discerned : catalog.Discerned (catalog.roots selection)) :
    catalog.InStrollOrder selection (catalog.visitSelection selection) := by
  obtain ⟨entered, tour⟩ := catalog.visitSelection_tour selection
  have clean := discerned.clean
  have order : entered = catalog.firsts [] (catalog.stroll [] (catalog.roots selection)) :=
    entered_eq_firsts_of_names discerned (.start catalog _) (fun slot listed => .root listed) tour
      clean
  have compound : entered.filter catalog.isCompound = catalog.firstMet selection := by
    rw [order, filter_firsts, firstMet]
  have calls : (catalog.visitSelection selection).calls = entered.filterMap catalog.call? := by
    rw [tour.calls_eq]
    rfl
  have nodes : (catalog.visitSelection selection).calls.map (·.node) =
      (catalog.firstMet selection).filterMap catalog.node? := by
    rw [calls, map_node_filterMap_call?, compound]
  refine ⟨clean, nodes, ?_, ?_, ?_⟩
  · rw [← nodes, List.map_map]
    rfl
  · intro call hcall
    obtain ⟨place, -, -, asks⟩ := tour.exists_entered_of_call hcall
    rcases call.node.call?_cases with ⟨-, none⟩ | ⟨-, template, some, name⟩
    · rw [none] at asks
      cases asks
    · rw [some] at asks
      rw [← Option.some.inj asks]
      exact name
  · intro place
    rw [← compound, List.mem_filter]
    apply and_congr_left
    intro compound
    exact mem_entered_iff_leads discerned (isSome_mark?_of_isCompound compound) tour

end Catalog

/-- In a resolved document without slashes in its names, no two schemas are taken for one another. -/
theorem Resolved.discerned {convention : Case.Convention} {definitions : Definitions}
    {catalog : Catalog Place} (resolved : Resolved convention definitions catalog)
    (distinct : definitions.Distinct) (unidentified : definitions.Unidentified)
    (slashFree : definitions.SlashFree) (selection : List String) :
    catalog.Discerned (catalog.roots selection) where
  present _ leads := resolved.exists_node_of_reaches leads.reaches
  tables _ place other _ _ := resolved.eq_of_mark? distinct unidentified slashFree _ place other
  arrays _ place other _ _ := resolved.eq_of_mark? distinct unidentified slashFree _ place other

namespace Catalog

theorem calls_in_stroll_order_kennel : ∃ catalog, (resolve .type kennel).1 = .ok catalog ∧
    catalog.Discerned (catalog.roots ["Pup", "Cat", "Keeper", "Pup"]) ∧
    catalog.InStrollOrder ["Pup", "Cat", "Keeper", "Pup"]
      (catalog.visitSelection ["Pup", "Cat", "Keeper", "Pup"]) := by
  have ok : (resolve .type kennel).1 = .ok _ := rfl
  have discerned := (Resolved.of_resolve ok).discerned (by decide) (by decide) (by decide)
    ["Pup", "Cat", "Keeper", "Pup"]
  exact ⟨_, ok, discerned, calls_in_stroll_order _ _ discerned⟩

end Catalog
end SchemaTables
