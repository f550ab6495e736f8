import SchemaTables.Proofs.ArrayChain
import SchemaTables.Proofs.PageTags
import SchemaTables.Proofs.Stroll

/-!
# No dead links

A row links to the table of the schema that its chain of arrays ends at. The walk goes down the same
chain, and where it takes no two arrays for one another it comes to that schema, or has a table under
its identifier already. So every link on a page leads to one table of that page.
-/
namespace SchemaTables

namespace Node
variable {α : Type}

theorem mark?_of_isCompound {node : Node α} (compound : node.content.isCompound) :
    node.mark? = some (.table node.head.id) := by
  obtain ⟨mark, hmark⟩ := Option.isSome_iff_exists.mp (isSome_mark?_of_isCompound compound)
  rcases node.mark?_cases with ⟨none, -⟩ | ⟨-, table, -⟩ | ⟨-, quiet⟩
  · simp [hmark] at none
  · exact table
  · rcases node.call?_cases with ⟨plain, -⟩ | ⟨-, _, asks, -⟩
    · simp [plain] at compound
    · simp [quiet] at asks

theorem mark?_of_array {node : Node α} {items : Option (Slot α)}
    (content : node.content = .array items) : node.mark? = some (.array node.head.id) := by
  rw [mark?, content]

end Node

namespace Catalog
variable {α : Type} [BEq α]

/-- No two arrays that `roots` lead to share an identifier. -/
def ArraysDistinct (catalog : Catalog α) (roots : List (Slot α)) : Prop :=
  ∀ id place other, catalog.Leads roots (.node place) → catalog.Leads roots (.node other) →
    catalog.mark? place = some (.array id) → catalog.mark? other = some (.array id) → place = other

/-- The anchors of a page are those of the tables of a walk, no two alike; every link leads to just
one of them; and the links are those to the compound schemas that the parts shown end at. -/
structure SoundLinks (catalog : Catalog α) (walk : Walk α) (page : String) : Prop where
  anchors : Markup.anchors page = walk.rendered
  distinct : (Markup.anchors page).Nodup
  alive : ∀ id ∈ Markup.links page, (Markup.anchors page).count id = 1
  written : ∀ id, id ∈ Markup.links page ↔
    ∃ call ∈ walk.calls, ∃ slot ∈ call.node.content.slots, ∃ passed node,
      catalog.Ends 0 slot (.schema passed node) ∧ node.content.isCompound ∧ node.head.id = id

variable {catalog : Catalog α}

theorem mark?_of_call? {place : α} {call : Call α} (asks : catalog.call? place = some call) :
    catalog.mark? place = some (.table call.node.head.id) := by
  obtain ⟨node, found, asks⟩ := Option.bind_eq_some_iff.mp asks
  obtain ⟨template, hasForm, rfl⟩ := Option.map_eq_some_iff.mp asks
  have compound : node.content.isCompound := by
    rcases node.call?_cases with ⟨-, none⟩ | ⟨compound, -⟩
    · simp [asks] at none
    · exact compound
  rw [mark?_of_found found]
  exact Node.mark?_of_isCompound compound

/-- The rows of a table show the parts of its schema, one for one. -/
theorem links_ofNode (descriptions : Bool) {call : Call α} (asks : call.node.call? = some call) :
    (Table.ofNode catalog descriptions call.template call.node).rows.filterMap (·.type.link) =
      call.node.content.slots.filterMap catalog.linkedId? := by
  obtain ⟨template, head, content⟩ := call
  cases content with
  | scalar _ => cases asks
  | array _ => cases asks
  | object properties =>
    cases properties with
    | nil => cases asks
    | cons field rest =>
      cases asks
      have rows := List.filterMap_map (l := field :: rest) (f := fun p => p.2)
        (g := catalog.linkedId?)
      have links := List.filterMap_map (l := field :: rest) (g := fun row : Row => row.type.link)
        (f := fun p => Table.row catalog descriptions
          (some (p.1, (head.required.map Case.uncapitalize).contains p.1)) p.2)
      exact links.trans rows.symm
  | composed alternatives =>
    cases alternatives with
    | nil => cases asks
    | cons slot rest =>
      cases asks
      exact List.filterMap_map ..

section
variable {selection : List String} {walk : Walk α} {entered : List α}
  (tour : catalog.Tour ((catalog.selected selection).map .name) .start entered walk)
include tour

/-- The walk has gone into every array that it is done with. -/
theorem mem_of_settled_array (arrays : catalog.ArraysDistinct (catalog.roots selection)) {place : α}
    {id : String} (leads : catalog.Leads (catalog.roots selection) (.node place))
    (hmark : catalog.mark? place = some (.array id))
    (settled : catalog.Settled walk (.node place)) : place ∈ entered := by
  obtain ⟨_, ⟨⟩, settled⟩ := settled
  rcases (tour.holds_iff _).mp (settled _ hmark) with held | ⟨other, hother, same⟩
  · simp [Walk.holds, Walk.start] at held
  · have reached := (tour.leads leads_of_selected).1 other hother
    rw [arrays id place other leads reached hmark same]
    exact hother

/-- A walk that is done with a slot has a table for the compound schema that it ends at. -/
theorem mem_rendered_of_ends (ok : walk.fault = none)
    (arrays : catalog.ArraysDistinct (catalog.roots selection)) {depth : Nat} {slot : Slot α}
    {element : Element α} (ends : catalog.Ends depth slot element)
    (leads : catalog.Leads (catalog.roots selection) slot) (settled : catalog.Settled walk slot)
    {passed : Nat} {node : Node α} (schema : element = .schema passed node)
    (compound : node.content.isCompound) : node.head.id ∈ walk.rendered := by
  -- along the chain: an array that the walk is done with was entered, so that it is done with its items
  induction ends with
  | reference | absent | bare => cases schema
  | items found content rest ih =>
    have hmark := Node.mark?_of_array content
    rw [← mark?_of_found found] at hmark
    have entered := mem_of_settled_array tour arrays leads hmark settled
    have inside := (tour.settled ok).2 _ entered _ found
    exact ih (leads.items found content) (inside _ (by simp [content, Content.slots])) schema
  | schema found _ =>
    cases schema
    have hmark := Node.mark?_of_isCompound compound
    rw [← mark?_of_found found] at hmark
    obtain ⟨_, ⟨⟩, settled⟩ := settled
    simpa [Walk.holds] using settled _ hmark

/-- No two tables share an identifier. -/
theorem nodup_rendered : walk.rendered.Nodup := by
  have calls : walk.calls = entered.filterMap catalog.call? := tour.calls_eq
  have marks : ∀ places : List α,
      (places.filterMap catalog.call?).map (fun call => some (Mark.table call.node.head.id)) =
        (catalog.tables places).map catalog.mark? := by
    intro places
    unfold tables
    induction places with
    | nil => rfl
    | cons place rest ih =>
      cases asks : catalog.call? place with
      | none => simp [asks, ih]
      | some call => simp [asks, ih, mark?_of_call? asks]
  have nodup : ((catalog.tables entered).map catalog.mark?).Nodup :=
    (List.filter_sublist.map _).nodup tour.nodup_marks
  rw [← marks, ← calls] at nodup
  have same : walk.calls.map (fun call => some (Mark.table call.node.head.id)) =
      walk.rendered.map fun id => some (Mark.table id) := by
    simp [Walk.rendered]
  rw [same] at nodup
  exact nodup.of_map

end

/-- Where a walk takes no two arrays for one another and none leads back to itself, the page with its
tables has no dead and no ambiguous links. -/
theorem sound_links [LawfulBEq α] {selection : List String}
    (clean : (catalog.visitSelection selection).fault = none)
    (loopless : catalog.Loopless (catalog.roots selection))
    (arrays : catalog.ArraysDistinct (catalog.roots selection)) (title : String)
    (descriptions : Bool) :
    catalog.SoundLinks (catalog.visitSelection selection)
      (Html.page title ((catalog.visitSelection selection).tables catalog descriptions)) := by
  obtain ⟨entered, tour⟩ := catalog.visitSelection_tour selection
  generalize catalog.visitSelection selection = walk at tour clean
  have anchors : Markup.anchors (Html.page title (walk.tables catalog descriptions)) =
      walk.rendered := by
    rw [Html.anchors_page, Walk.tables, List.map_map]
    rfl
  have written : ∀ id, id ∈ Markup.links (Html.page title (walk.tables catalog descriptions)) ↔
      ∃ call ∈ walk.calls, ∃ slot ∈ call.node.content.slots, ∃ passed node,
        catalog.Ends 0 slot (.schema passed node) ∧ node.content.isCompound ∧
          node.head.id = id := by
    intro id
    rw [Html.links_page, Walk.tables, List.flatMap_map, List.mem_flatMap]
    apply exists_congr
    intro call
    apply and_congr_right
    intro hcall
    obtain ⟨place, hplace, found, asks⟩ := tour.exists_entered_of_call hcall
    have leads := (tour.leads leads_of_selected).1 place hplace
    rw [links_ofNode descriptions asks, List.mem_filterMap]
    apply exists_congr
    intro slot
    apply and_congr_right
    intro inside
    exact linkedId?_eq_some_iff loopless (leads.part found inside)
  refine ⟨anchors, anchors ▸ nodup_rendered tour, ?_, written⟩
  intro id hid
  obtain ⟨call, hcall, slot, inside, passed, node, ends, compound, rfl⟩ := (written id).mp hid
  obtain ⟨place, hplace, found, -⟩ := tour.exists_entered_of_call hcall
  have leads := ((tour.leads leads_of_selected).1 place hplace).part found inside
  have settled := (tour.settled clean).2 place hplace _ found slot inside
  have shown := mem_rendered_of_ends tour clean arrays ends leads settled rfl compound
  rw [anchors]
  exact List.count_eq_one_of_mem (nodup_rendered tour) shown

/-- On the page of a resolved document, every link leads to exactly one table. -/
theorem sound_links_of_resolve {convention : Case.Convention} {definitions : Definitions}
    {catalog : Catalog Place} (ok : (resolve convention definitions).1 = .ok catalog)
    {selection : List String} (loopless : catalog.Loopless (catalog.roots selection))
    (arrays : catalog.ArraysDistinct (catalog.roots selection)) (title : String)
    (descriptions : Bool) :
    catalog.SoundLinks (catalog.visitSelection selection)
      (Html.page title ((catalog.visitSelection selection).tables catalog descriptions)) :=
  sound_links ((Resolved.of_resolve ok).visit_clean selection) loopless arrays title descriptions

/-- Albums of photos that lead back to their albums, through an array of arrays too. -/
def gallery : Definitions :=
  let text : Definition := .schema (.scalar .string) .bare none [] []
  let photo : Definition := .reference "#/components/schemas/Photo"
  let table (properties : List (String × Definition)) : Definition :=
    .schema .object .bare none properties []
  let list (items : Definition) : Definition := .schema .array .bare (some items) [] []
  [("Album", table [("cover", photo), ("pages", list (list photo))]),
    ("Photo", table [("albums", list (.reference "#/components/schemas/Album")), ("title", text)]),
    ("R&D", table [("lent", .reference "#/components/schemas/Album")])]

/-- What `gallery` resolves to. -/
def galleryCatalog : Catalog Place := (resolve .type gallery).1.toOption.getD ⟨[], []⟩

theorem sound_links_of_resolve_gallery :
    (resolve .type gallery).1 = .ok galleryCatalog ∧
    galleryCatalog.Loopless (galleryCatalog.roots ["R&D"]) ∧
    galleryCatalog.ArraysDistinct (galleryCatalog.roots ["R&D"]) ∧
    galleryCatalog.SoundLinks (galleryCatalog.visitSelection ["R&D"])
      (Html.page "<Prints>" ((galleryCatalog.visitSelection ["R&D"]).tables galleryCatalog true)) := by
  have ok : (resolve .type gallery).1 = .ok galleryCatalog := rfl
  have loopless : galleryCatalog.Loopless (galleryCatalog.roots ["R&D"]) :=
    -- an inline array stands above its items, and a registered schema here is no array
    loopless_of_rank (fun place => if place.steps.isEmpty then 0 else 9 - place.steps.length)
      (by decide)
  have discerned := (Resolved.of_resolve ok).discerned (by decide) (by decide) (by decide) ["R&D"]
  exact ⟨ok, loopless, discerned.arrays,
    sound_links_of_resolve ok loopless discerned.arrays "<Prints>" true⟩

end Catalog
end SchemaTables
