import SchemaTables.Proofs.ArrayChain
import SchemaTables.Proofs.Collisions
import SchemaTables.Proofs.Legibility

/-!
# The rows of an object table

Resolution re-keys the properties of an object, and a table re-cases the required names by itself.
Where no two of these names meet, both keep them apart in the same way: the table has one row for each
property, which is marked by the property's own name and labelled by what fills the property's own
slot.
-/
namespace SchemaTables
open scoped List

namespace Keyed
variable {β : Type}

theorem insert_perm {key : String} (value : β) {fields : List (String × β)}
    (fresh : key ∉ fields.map (·.1)) : insert key value fields ~ (key, value) :: fields := by
  induction fields with
  | nil => rfl
  | cons field rest ih =>
    obtain ⟨name, old⟩ := field
    rw [List.map_cons, List.mem_cons, not_or] at fresh
    unfold insert
    split
    · rfl
    · rw [if_neg fresh.1]
      exact ((ih fresh.2).cons _).trans (.swap ..)

/-- Where no two keys meet, re-keying only puts the fields in order. -/
theorem rekey_perm {key : String → String} {fields : List (String × β)}
    (apart : (fields.map fun field => key field.1).Nodup) :
    rekey key fields ~ fields.map fun field => (key field.1, field.2) := by
  unfold rekey
  suffices h : ∀ bound : List (String × β),
      (bound.map (·.1) ++ fields.map fun field => key field.1).Nodup →
      fields.foldl (fun bound field => insert (key field.1) field.2 bound) bound ~
        (fields.map fun field => (key field.1, field.2)) ++ bound by simpa using h [] apart
  clear apart
  induction fields with
  | nil => exact fun _ _ => .refl _
  | cons field rest ih =>
    intro bound apart
    rw [List.map_cons] at apart
    obtain ⟨fresh, later⟩ := List.nodup_cons.mp (List.nodup_middle.mp apart)
    have inserted := insert_perm field.2 fun listed => fresh (List.mem_append_left _ listed)
    have keys := inserted.map (·.1)
    have apart : ((insert (key field.1) field.2 bound).map (·.1) ++
        rest.map fun field => key field.1).Nodup :=
      (keys.append_right _).nodup_iff.mpr (List.nodup_cons.mpr ⟨fresh, later⟩)
    calc rest.foldl (fun bound field => insert (key field.1) field.2 bound)
          (insert (key field.1) field.2 bound)
      _ ~ (rest.map fun field => (key field.1, field.2)) ++
          insert (key field.1) field.2 bound := ih _ apart
      _ ~ (rest.map fun field => (key field.1, field.2)) ++ (key field.1, field.2) :: bound :=
        inserted.append_left _
      _ ~ ((field :: rest).map fun field => (key field.1, field.2)) ++ bound :=
        List.perm_middle

/-- The order in which re-keyed fields stand, whatever they hold. -/
theorem exists_order {key : String → String} {fields : List (String × β)}
    (apart : (fields.map fun field => key field.1).Nodup) :
    ∃ order, order ~ fields ∧ (order.map fun field => key field.1).Pairwise (· < ·) ∧
      ∀ {γ : Type} (f : String × β → γ), rekey key (fields.map fun field => (field.1, f field)) =
        order.map fun field => (key field.1, f field) := by
  let winners := rekey key (fields.map fun field => (field.1, field))
  have perm : winners ~ fields.map fun field => (key field.1, field) := by
    have moved : winners ~ (fields.map fun field => (field.1, field)).map
        fun field => (key field.1, field.2) := rekey_perm (by rwa [List.map_map])
    rwa [List.map_map] at moved
  have own : ∀ winner ∈ winners, winner = (key winner.2.1, winner.2) := by
    intro winner listed
    obtain ⟨field, -, rfl⟩ := List.mem_map.mp (perm.mem_iff.mp listed)
    rfl
  refine ⟨winners.map (·.2), ?_, ?_, fun f => ?_⟩
  · have fields := perm.map (·.2)
    rwa [List.map_map, List.map_id''] at fields
    exact fun _ => rfl
  · have keys : (winners.map (·.2)).map (fun field => key field.1) = winners.map (·.1) := by
      rw [List.map_map]
      exact List.map_congr_left fun winner listed => by rw [own winner listed]; rfl
    rw [keys]
    exact rekey_sorted key _
  · have values := rekey_map f key (fields.map fun field => (field.1, field))
    rw [List.map_map] at values
    refine values.trans ?_
    rw [List.map_map]
    exact List.map_congr_left fun winner listed => by rw [own winner listed]; rfl

/-- Where keys are distinct, a key finds what its own item has. -/
theorem lookup_filterMap {α κ : Type} [BEq κ] [LawfulBEq κ] {key : α → κ} {value? : α → Option β}
    {items : List α} (nodup : (items.map key).Nodup) {item : α} (listed : item ∈ items) :
    (items.filterMap fun item => (value? item).map fun value => (key item, value)).lookup (key item) =
      value? item := by
  induction items with
  | nil => cases listed
  | cons first rest ih =>
    rw [List.map_cons] at nodup
    obtain ⟨fresh, nodup⟩ := List.nodup_cons.mp nodup
    have absent : (rest.filterMap fun item =>
        (value? item).map fun value => (key item, value)).lookup (key first) = none := by
      rw [List.lookup_eq_none_iff]
      intro entry hentry
      obtain ⟨other, hother, found⟩ := List.mem_filterMap.mp hentry
      obtain ⟨value, -, rfl⟩ := Option.map_eq_some_iff.mp found
      have apart : key first ≠ key other := fun same =>
        fresh (same ▸ List.mem_map_of_mem (f := key) hother)
      simpa using apart
    rcases List.mem_cons.mp listed with rfl | later
    · cases value : value? item with
      | none => rw [List.filterMap_cons_none (by simp [value]), absent]
      | some found =>
        rw [List.filterMap_cons_some (b := (key item, found)) (by simp [value]),
          List.lookup_cons_self]
    · have apart : (key item == key first) = false := by
        rw [beq_eq_false_iff_ne]
        rintro same
        exact fresh (same ▸ List.mem_map_of_mem (f := key) later)
      cases value : value? first with
      | none => rw [List.filterMap_cons_none (by simp [value]), ih nodup later]
      | some found =>
        rw [List.filterMap_cons_some (b := (key first, found)) (by simp [value]),
          List.lookup_cons, apart]
        exact ih nodup later

end Keyed

namespace Html

/-- What stands in a table above the names of its columns. -/
def topText (table : Table) : String :=
  String.join ["<table class=\"tg\" id=\"", Markup.escape table.id, "\">\n", "  <caption>",
    Markup.escape table.caption, "</caption>\n", noteText table.template table.description,
    "  <thead>\n    <tr>"]

theorem tableText_eq (table : Table) :
    tableText table = String.join [topText table, headText table.template table.showsDescriptions,
      String.join (table.rows.map rowText), "  </tbody>\n</table>\n"] := by
  obtain ⟨template, id, caption, showsDescriptions, description, rows⟩ := table
  -- literals that stand side by side are left as they are
  cases description <;>
    simp [tableText, topText, headText, noteText, String.append_assoc, -String.reduceAppend]

end Html

def Definition.required : Definition → List String
  | schema _ details _ _ _ => details.required
  | reference _ => []

namespace Standing

/-- The names of the properties of an object, and those it requires. -/
def names (s : Standing) : List String := s.definition.fields.map (·.1) ++ s.definition.required

/-- No two of its names meet once they are re-cased. -/
def NamesApart (s : Standing) : Prop :=
  ∀ name ∈ s.names, ∀ other ∈ s.names, Case.uncapitalize name = Case.uncapitalize other →
    name = other

instance (s : Standing) : Decidable s.NamesApart :=
  inferInstanceAs (Decidable (∀ name ∈ s.names, ∀ other ∈ s.names, _ → name = other))

end Standing

namespace Definitions

/-- The catalog with all the schemas resolved, also those that no slot holds any more. -/
def whole (definitions : Definitions) (catalog : Catalog Place) : Catalog Place where
  names := catalog.names
  nodes := definitions.schemas.filterMap fun s =>
    (s.resolved? definitions catalog).map fun node => (s.place, node)

/-- The text of the row for a property: its re-cased name, the label of what fills its slot, and
whether it is required. -/
def WritesRow (definitions : Definitions) (graph : Catalog Place) (s : Standing)
    (property : String × Definition) (text : String) : Prop :=
  ∃ slot element type description,
    definitions.Fills (s.place.child (.property property.1)) property.2 slot ∧
    graph.Ends 0 slot element ∧ type.label = element.label ∧
    text = String.join ["    <tr>\n",
      Html.cell (Markup.escape (Case.uncapitalize property.1)),
      Html.cell (Html.typeText type),
      Html.cell (if property.1 ∈ s.definition.required then "yes" else ""),
      Html.descriptionText description,
      "    </tr>\n"]

/-- The text of a table that has, below its head, one row for each property of an object, in the
order of the re-cased names. Its node says what stands above. -/
def WritesTable (definitions : Definitions) (graph : Catalog Place) (s : Standing)
    (node : Node Place) (descriptions : Bool) (text : String) : Prop :=
  ∃ order rows, order ~ s.definition.fields ∧
    (order.map fun property => Case.uncapitalize property.1).Pairwise (· < ·) ∧
    List.Forall₂ (definitions.WritesRow graph s) order rows ∧
    text = String.join [Html.topText (.ofNode graph descriptions .object node),
      Html.headText .object descriptions, String.join rows, "  </tbody>\n</table>\n"]

variable {definitions : Definitions}

theorem exists_schema_of_object {s : Standing} (object : s ∈ definitions.objects) :
    ∃ details items properties oneOf,
      s.definition = .schema .object details items properties oneOf := by
  obtain ⟨-, object⟩ := List.mem_filter.mp object
  obtain ⟨place, id, kept, d⟩ := s
  cases d with
  | reference text => cases object
  | schema kind details items properties oneOf =>
    cases kind with
    | object => exact ⟨details, items, properties, oneOf, rfl⟩
    | scalar | array | composed => cases object

/-- The properties of an object have their keys for themselves. -/
theorem nodup_keys (distinct : definitions.Distinct) {s : Standing}
    (object : s ∈ definitions.objects) (apart : s.NamesApart) :
    (s.definition.fields.map fun field => Case.uncapitalize field.1).Nodup := by
  have steps := distinct.steps s (List.mem_filter.mp object).1
  obtain ⟨details, items, properties, oneOf, schema⟩ := exists_schema_of_object object
  have names : (s.definition.fields.map (·.1)).Nodup := by
    rw [schema, Definition.parts,
      Definition.map_propertyParts (fun step _ => step) properties] at steps
    have named : ((properties.map (·.1)).map Step.property).Nodup := by
      rw [List.map_map]
      exact steps
    rw [schema]
    exact named.of_map _
  have keys : s.definition.fields.map (fun field => Case.uncapitalize field.1) =
      (s.definition.fields.map (·.1)).map Case.uncapitalize := by rw [List.map_map]; rfl
  rw [keys]
  refine List.Nodup.map_on (fun name listed other listed' same => ?_) names
  exact apart name (List.mem_append_left _ listed) other (List.mem_append_left _ listed') same

/-- The mark of a row goes by the name of its property, as the document spells it. -/
theorem marked_iff {s : Standing} (apart : s.NamesApart) {property : String × Definition}
    (listed : property ∈ s.definition.fields) :
    (s.definition.required.map Case.uncapitalize).contains (Case.uncapitalize property.1) ↔
      property.1 ∈ s.definition.required := by
  rw [List.contains_iff_mem, List.mem_map]
  constructor
  · rintro ⟨name, required, same⟩
    have own : name = property.1 := apart name (List.mem_append_right _ required) property.1
      (List.mem_append_left _ (List.mem_map_of_mem listed)) same
    exact own ▸ required
  · exact fun required => ⟨property.1, required, rfl⟩

/-- A property writes its own row. -/
theorem writesRow {graph : Catalog Place} {s : Standing} (apart : s.NamesApart)
    (loopless : graph.Loopless [.node s.place]) {property : String × Definition}
    (listed : property ∈ s.definition.fields) {slot : Slot Place}
    (fills : definitions.Fills (s.place.child (.property property.1)) property.2 slot)
    (leads : graph.Leads [.node s.place] slot) (descriptions : Bool) :
    definitions.WritesRow graph s property (Html.rowText (Table.row graph descriptions
      (some (Case.uncapitalize property.1, (s.definition.required.map Case.uncapitalize).contains
        (Case.uncapitalize property.1))) slot)) := by
  let description := (Table.row graph descriptions none slot).description
  have ends := (Catalog.element_eq_iff loopless leads).mp rfl
  have marked : (if (s.definition.required.map Case.uncapitalize).contains
      (Case.uncapitalize property.1) then "yes" else "") =
        if property.1 ∈ s.definition.required then "yes" else "" :=
    if_congr (marked_iff apart listed) rfl rfl
  refine ⟨slot, graph.element slot, Table.typeCell graph slot, description, fills, ends, rfl, ?_⟩
  rw [← marked]
  rfl

/-- An object writes its own table, in whatever graph it stands with its properties settled. -/
theorem writesTable (distinct : definitions.Distinct) (ok : definitions.fault? = none) {s : Standing}
    (object : s ∈ definitions.objects) (apart : s.NamesApart) {node : Node Place}
    (restates : node.head.Restates (s.definition.plainHead s.id))
    (filled : s.definition.content definitions.registry s.place = some node.content)
    {graph : Catalog Place} (found : graph.node? s.place = some node)
    (loopless : graph.Loopless [.node s.place]) (descriptions : Bool) :
    definitions.WritesTable graph s node descriptions
      (Html.tableText (Table.ofNode graph descriptions .object node)) := by
  obtain ⟨details, items, properties, oneOf, schema⟩ := exists_schema_of_object object
  obtain ⟨order, perm, sorted, rekeyed⟩ :=
    Keyed.exists_order (nodup_keys distinct object apart)
  let slot (property : String × Definition) : Slot Place :=
    property.2.slot definitions.registry (s.place.child (.property property.1))
  have content : node.content = .object (order.map fun property =>
      (Case.uncapitalize property.1, slot property)) := by
    rw [← rekeyed slot]
    rw [schema] at filled ⊢
    exact (Option.some.inj filled).symm
  have required : node.head.required = s.definition.required := by
    rw [restates.required, schema]
    rfl
  have leads : ∀ property ∈ order, graph.Leads [.node s.place] (slot property) := by
    intro property listed
    refine (Catalog.Leads.root List.mem_cons_self).part found ?_
    rw [content]
    simpa [Content.slots] using ⟨property.1, property.2, listed, rfl⟩
  have fills : ∀ property ∈ s.definition.fields,
      definitions.Fills (s.place.child (.property property.1)) property.2 (slot property) := by
    intro property listed
    obtain ⟨before, after, split⟩ := List.append_of_mem listed
    have part : Part.mk (.property property.1) (!Definition.overtaken property.1 after) property.2 ∈
        s.definition.parts := by
      rw [schema] at split ⊢
      exact Definition.mem_propertyParts.mpr ⟨before, property.1, property.2, after, split, rfl⟩
    exact (fills_part_iff ok (List.mem_filter.mp object).1 part).mpr rfl
  let rows := order.map fun property => Html.rowText (Table.row graph descriptions
    (some (Case.uncapitalize property.1, (s.definition.required.map Case.uncapitalize).contains
      (Case.uncapitalize property.1))) (slot property))
  have written : List.Forall₂ (definitions.WritesRow graph s) order rows := by
    rw [List.forall₂_map_right_iff, List.forall₂_same]
    intro property listed
    have own := perm.mem_iff.mp listed
    exact writesRow apart loopless own (fills property own) (leads property listed) descriptions
  have table : (Table.ofNode graph descriptions .object node).rows.map Html.rowText = rows := by
    simp [Table.ofNode, Table.rowsOf, content, required, Content.properties, rows, slot,
      Function.comp_def]
  refine ⟨order, rows, perm, sorted, written, ?_⟩
  rw [Html.tableText_eq, table]
  rfl

theorem node?_whole (distinct : definitions.Distinct) {catalog : Catalog Place} {s : Standing}
    (hs : s ∈ definitions.schemas) :
    (definitions.whole catalog).node? s.place = s.resolved? definitions catalog :=
  Keyed.lookup_filterMap (distinct.nodup_places.sublist (List.filter_sublist.map _)) hs

/-- The table of an object whose names stay apart has one row for each property: in the order of the
re-cased names, marked where the property itself is required, and labelled by what the property
itself holds. An object that no slot holds any more has its table in the graph that still shows it. -/
theorem object_rows (distinct : definitions.Distinct) {convention : Case.Convention}
    {catalog : Catalog Place} (ok : (resolve convention definitions).1 = .ok catalog) {s : Standing}
    (object : s ∈ definitions.objects) (apart : s.NamesApart) (descriptions : Bool) :
    ∃ node, s.resolved? definitions catalog = some node ∧
      (s.kept → catalog.Loopless [.node s.place] →
        definitions.WritesTable catalog s node descriptions
          (Html.tableText (Table.ofNode catalog descriptions .object node))) ∧
      ((definitions.whole catalog).Loopless [.node s.place] →
        definitions.WritesTable (definitions.whole catalog) s node descriptions
          (Html.tableText (Table.ofNode (definitions.whole catalog) descriptions .object node))) := by
  have resolved := Resolved.of_resolve ok
  have listed := (List.mem_filter.mp object).1
  have schema : s.isSchema := by
    obtain ⟨details, items, properties, oneOf, schema⟩ := exists_schema_of_object object
    rw [Standing.isSchema, schema]
    rfl
  obtain ⟨node, left, restates, filled⟩ := exists_resolved? distinct resolved listed schema
  refine ⟨node, left, fun kept loopless => ?_, fun loopless => ?_⟩
  · have found : catalog.node? s.place = some node := by
      rwa [Standing.resolved?, if_pos kept] at left
    exact writesTable distinct resolved.clean object apart restates filled found loopless descriptions
  · have found : (definitions.whole catalog).node? s.place = some node := by
      rw [node?_whole distinct (mem_schemas.mpr ⟨listed, schema⟩), left]
    exact writesTable distinct resolved.clean object apart restates filled found loopless descriptions

/-- A stall whose wares have names that grow or change their place when re-cased. -/
def stall : Definitions :=
  let leaf : Definition := .schema (.scalar .string) .bare none [] []
  [("Stall", .schema .object ⟨none, none, none, [], ["İd", "wares", "rent"]⟩ none
    [("wares", .schema .array .bare (some (.reference "#/components/schemas/Stall")) [] []),
      ("Keeper", .schema .object .bare none [("Name", leaf)] []),
      ("İd", leaf)] [])]

/-- What `stall` resolves to. -/
def stallCatalog : Catalog Place := (resolve .type stall).1.toOption.getD ⟨[], []⟩

theorem object_rows_stall : ∃ s ∈ stall.objects, s.definition.fields.length = 3 ∧
    (resolve .type stall).1 = .ok stallCatalog ∧ s.NamesApart ∧
    ∃ node, stallCatalog.node? s.place = some node ∧ stall.WritesTable stallCatalog s node true
      (Html.tableText (Table.ofNode stallCatalog true .object node)) := by
  have ok : (resolve .type stall).1 = .ok stallCatalog := rfl
  have object : Standing.top stall[0] ∈ stall.objects := List.mem_cons_self
  have apart : (Standing.top stall[0]).NamesApart := by decide
  have loopless : stallCatalog.Loopless [.node (.registered "Stall")] :=
    -- the only array holds the registered schema, which is none
    Catalog.loopless_of_rank (fun place => place.steps.length) (by decide)
  obtain ⟨node, found, writes, -⟩ := object_rows (by decide) ok object apart true
  exact ⟨_, object, rfl, ok, apart, node, found, writes rfl loopless⟩

end Definitions
end SchemaTables
