import SchemaTables.Page.Html
import SchemaTables.Proofs.Undescribed

/-!
# Hidden descriptions

A page that hides descriptions is made without looking at any: the walk goes by identifiers and
shapes, and a table reads titles, identifiers and enumerations. With a resolution that only carries
them along, two documents that differ in their descriptions alone cannot be told apart by such pages
or by what is reported on the way to them.
-/
namespace SchemaTables

def Walk.undescribed {α : Type} (walk : Walk α) : Walk α :=
  { walk with calls := walk.calls.map fun call => { call with node := call.node.undescribed } }

namespace Walk
variable {α : Type}

@[simp] theorem rendered_undescribed (walk : Walk α) : walk.undescribed.rendered = walk.rendered := by
  simp only [rendered, undescribed, List.map_map]
  rfl

theorem call_undescribed (walk : Walk α) (template : Template) (node : Node α) :
    walk.undescribed.call template node.undescribed = (walk.call template node).undescribed := by
  simp [call, undescribed]

/-- The identifier and the shape of a schema decide what becomes of it. -/
theorem meet_undescribed (walk : Walk α) (node : Node α) :
    walk.undescribed.meet node.undescribed =
      ((walk.meet node).1.undescribed, (walk.meet node).2) := by
  have content : node.undescribed.content = node.content := rfl
  have id : node.undescribed.head.id = node.head.id := rfl
  simp only [meet, content, id, rendered_undescribed, call_undescribed]
  cases node.content with
  | scalar kind => rfl
  | array items =>
    change (if walk.arrays.contains node.head.id then _ else _) = _
    dsimp only
    split <;> rfl
  | object | composed =>
    dsimp only
    split
    · rfl
    · split <;> rfl

end Walk

namespace Catalog
variable {α : Type} [BEq α] (catalog : Catalog α)

theorem node?_undescribed (place : α) :
    catalog.undescribed.node? place = (catalog.node? place).map Node.undescribed :=
  Keyed.lookup_map Node.undescribed catalog.nodes place

omit [BEq α] in
theorem slotCount_undescribed : catalog.undescribed.slotCount = catalog.slotCount := by
  rw [slotCount, slotCount, undescribed, List.flatMap_map]
  rfl

theorem visit_undescribed (fuel : Nat) (pending : List (Slot α)) (walk : Walk α) :
    catalog.undescribed.visit fuel pending walk.undescribed =
      (catalog.visit fuel pending walk).undescribed := by
  induction fuel generalizing pending walk with
  | zero => rfl
  | succ fuel ih =>
    cases pending with
    | nil => rfl
    | cons slot pending =>
      cases slot with
      | reference text => rfl
      | node place =>
        rw [visit, visit, node?_undescribed]
        cases catalog.node? place with
        | none => exact ih pending walk
        | some node =>
          simp only [Option.map_some, Walk.meet_undescribed]
          exact ih _ _

theorem visitNames_undescribed (selection : List String) (walk : Walk α) :
    catalog.undescribed.visitNames selection walk.undescribed =
      (catalog.visitNames selection walk).undescribed := by
  induction selection generalizing walk with
  | nil => rfl
  | cons name rest ih =>
    have names : catalog.undescribed.names = catalog.names := rfl
    have fuel : catalog.undescribed.visitFuel = catalog.visitFuel :=
      congrArg (· + 2) catalog.slotCount_undescribed
    rw [visitNames, visitNames, names]
    cases catalog.names.lookup name with
    | none => exact ih (walk.miss name)
    | some slot =>
      simp only [fuel, visit_undescribed, ih]
      exact (apply_ite Walk.undescribed _ _ _).symm

theorem visitSelection_undescribed (selection : List String) :
    catalog.undescribed.visitSelection selection =
      (catalog.visitSelection selection).undescribed :=
  catalog.visitNames_undescribed _ .start

def Element.undescribed : Element α → Element α
  | reference depth text => reference depth text
  | untyped depth => untyped depth
  | schema depth node => schema depth node.undescribed

theorem follow_undescribed (fuel depth : Nat) (slot : Slot α) :
    catalog.undescribed.follow fuel depth slot =
      (catalog.follow fuel depth slot).undescribed := by
  induction fuel generalizing depth slot with
  | zero => rfl
  | succ fuel ih =>
    cases slot with
    | reference text => rfl
    | node place =>
      rw [follow, follow, node?_undescribed]
      cases catalog.node? place with
      | none => rfl
      | some node =>
        obtain ⟨head, content⟩ := node
        cases content with
        | array items =>
          cases items with
          | none => rfl
          | some items => exact ih (depth + 1) items
        | scalar | object | composed => rfl

theorem element_undescribed (slot : Slot α) :
    catalog.undescribed.element slot = (catalog.element slot).undescribed := by
  have length : catalog.undescribed.nodes.length = catalog.nodes.length := List.length_map _
  rw [element, element, length, follow_undescribed]

theorem label_undescribed (slot : Slot α) : catalog.undescribed.label slot = catalog.label slot := by
  rw [label, label, element_undescribed]
  cases catalog.element slot <;> rfl

theorem linkedId?_undescribed (slot : Slot α) :
    catalog.undescribed.linkedId? slot = catalog.linkedId? slot := by
  rw [linkedId?, linkedId?, element_undescribed]
  cases catalog.element slot with
  | reference | untyped => rfl
  | schema depth node =>
    change (if node.content.isCompound then some node.undescribed else none).map _ =
      (if node.content.isCompound then some node else none).map _
    cases node.content.isCompound <;> rfl

theorem enumLabel_undescribed (slot : Slot α) :
    (catalog.undescribed.direct? slot).bind (·.head.enumLabel) =
      (catalog.direct? slot).bind (·.head.enumLabel) := by
  cases slot with
  | reference text => rfl
  | node place =>
    rw [direct?, direct?, node?_undescribed]
    cases catalog.node? place <;> rfl

end Catalog

namespace Table
variable {α : Type} [BEq α] (catalog : Catalog α)

theorem row_undescribed (field : Option (String × Bool)) (slot : Slot α) :
    row catalog.undescribed false field slot = row catalog false field slot := by
  simp only [row, typeCell, Catalog.label_undescribed, Catalog.linkedId?_undescribed,
    Catalog.enumLabel_undescribed, Bool.false_eq_true, if_false]

/-- A table that hides descriptions reads none. -/
theorem ofNode_undescribed (template : Template) (node : Node α) :
    ofNode catalog.undescribed false template node.undescribed =
      ofNode catalog false template node := by
  have rows : rowsOf catalog.undescribed false template node.undescribed =
      rowsOf catalog false template node := by
    cases template with
    | object => simp only [rowsOf, row_undescribed]; rfl
    | composed => simp only [rowsOf, funext (row_undescribed catalog none)]; rfl
  have caption : captionOf template node.undescribed.head = captionOf template node.head := by
    cases template <;> rfl
  simp only [ofNode, rows, caption, Bool.false_eq_true, if_false]
  rfl

end Table

theorem Walk.tables_undescribed {α : Type} [BEq α] (catalog : Catalog α) (walk : Walk α) :
    walk.undescribed.tables catalog.undescribed false = walk.tables catalog false := by
  simp only [Walk.tables, Walk.undescribed, List.map_map, Function.comp_def,
    Table.ofNode_undescribed]

namespace Catalog

/-- Nothing but descriptions can tell the two catalogs apart: whatever is selected, the walks ask for
and leave out the same, report the same, and give the same page with descriptions hidden. -/
def LooksLike (catalog other : Catalog Place) : Prop :=
  ∀ selection,
    let walk := catalog.visitSelection selection
    let walk' := other.visitSelection selection
    walk.rendered = walk'.rendered ∧ walk.skipped = walk'.skipped ∧
      walk.missing = walk'.missing ∧ walk.notices = walk'.notices ∧ walk.fault = walk'.fault ∧
      ∀ title, Html.page title (walk.tables catalog false) =
        Html.page title (walk'.tables other false)

theorem looksLike_of_undescribed {catalog other : Catalog Place}
    (same : catalog.undescribed = other.undescribed) : catalog.LooksLike other := by
  intro selection
  have walks := congrArg (·.visitSelection selection) same
  simp only [visitSelection_undescribed] at walks
  refine ⟨?_, (congrArg Walk.skipped walks :), (congrArg Walk.missing walks :),
    (congrArg Walk.notices walks :), (congrArg Walk.fault walks :), fun title => ?_⟩
  · have rendered := congrArg Walk.rendered walks
    simpa only [Walk.rendered_undescribed] using rendered
  · rw [← Walk.tables_undescribed catalog, ← Walk.tables_undescribed other, walks, same]

end Catalog

namespace Definitions

/-- Of two documents that differ in descriptions alone, at whatever depth, either both are resolved
or both fail alike, with the same reported; and where descriptions are hidden, whatever is selected
of the one gives the page that it gives of the other. -/
theorem hidden_descriptions (convention : Case.Convention) {definitions other : Definitions}
    (same : definitions.undescribed = other.undescribed) :
    (resolve convention definitions).2 = (resolve convention other).2 ∧
    (∀ fault, (resolve convention definitions).1 = .error fault ↔
      (resolve convention other).1 = .error fault) ∧
    ∀ catalog catalog', (resolve convention definitions).1 = .ok catalog →
      (resolve convention other).1 = .ok catalog' → catalog.LooksLike catalog' := by
  have outcomes := congrArg (resolve convention) same
  rw [resolve_undescribed, resolve_undescribed, Prod.mk.injEq] at outcomes
  obtain ⟨results, notices⟩ := outcomes
  cases resolved : (resolve convention definitions).1 with
  | error fault =>
    cases resolved' : (resolve convention other).1 with
    | error fault' =>
      rw [resolved, resolved'] at results
      cases results
      exact ⟨notices, fun _ => Iff.rfl, fun _ _ ok => by cases ok⟩
    | ok catalog' =>
      rw [resolved, resolved'] at results
      cases results
  | ok catalog =>
    cases resolved' : (resolve convention other).1 with
    | error fault' =>
      rw [resolved, resolved'] at results
      cases results
    | ok catalog' =>
      rw [resolved, resolved'] at results
      have graphs : catalog.undescribed = catalog'.undescribed := Except.ok.inj results
      refine ⟨notices, fun _ => ⟨nofun, nofun⟩, fun _ _ ok ok' => ?_⟩
      cases ok
      cases ok'
      exact Catalog.looksLike_of_undescribed graphs

/-- A schema that refers to itself and has a property called `description`. -/
def diary (whole part : Option String) : Definitions :=
  [("page", .schema .object ⟨none, none, whole, [], ["description"]⟩ none
    [("description", .schema (.scalar .string) ⟨none, none, part, [], []⟩ none [] []),
      ("earlier", .schema .array ⟨none, none, whole, [], []⟩
        (some (.reference "#/components/schemas/page")) [] [])] [])]

/-- With descriptions shown the two documents are told apart. -/
theorem hidden_descriptions_diary : ∃ catalog catalog',
    (resolve .type (diary (some "A day") (some "What was done"))).1 = .ok catalog ∧
    (resolve .type (diary none none)).1 = .ok catalog' ∧
    catalog.LooksLike catalog' ∧
    (catalog.visitSelection []).tables catalog true ≠
      (catalog'.visitSelection []).tables catalog' true := by
  have ok : (resolve .type (diary (some "A day") (some "What was done"))).1 = .ok _ := rfl
  have ok' : (resolve .type (diary none none)).1 = .ok _ := rfl
  have same : (diary (some "A day") (some "What was done")).undescribed =
      (diary none none).undescribed := rfl
  exact ⟨_, _, ok, ok', (hidden_descriptions .type same).2.2 _ _ ok ok', by decide⟩

end Definitions
end SchemaTables
