import Mathlib.Data.List.Sort
import SchemaTables.Proofs.Agreement
import SchemaTables.Proofs.Faithfulness
import SchemaTables.Proofs.FirstFault

/-!
# Order and further definitions

A document may be put in another order and may be given further definitions: what the old ones
resolve to, and what is shown of them, stays the same. Their references lead where they led, because
no chain of aliases leaves them, and their places hold what they held. Only a reference of a further
definition can make the larger document fail.
-/
namespace SchemaTables

namespace Catalog
variable {α : Type} [BEq α]

/-- The catalog with these of its names alone. -/
def restrict (catalog : Catalog α) (keys : List String) : Catalog α :=
  { catalog with names := catalog.names.filter fun name => keys.contains name.1 }

/-- Under the names of `catalog`, the other catalog shows the same: the same graph, the same walk over
every selection of them and, where no array leads back to itself, the same page. -/
structure ShownAlike (catalog other : Catalog α) : Prop where
  graph : (other.restrict (catalog.names.map (·.1))).numbered = catalog.numbered
  walks : ∀ selection, selection ≠ [] → selection ⊆ catalog.names.map (·.1) →
    other.visitSelection selection = catalog.visitSelection selection
  pages : ∀ selection, selection ≠ [] → selection ⊆ catalog.names.map (·.1) →
    catalog.Loopless (catalog.roots selection) → ∀ title descriptions,
    Html.page title ((other.visitSelection selection).tables other descriptions) =
      Html.page title ((catalog.visitSelection selection).tables catalog descriptions)

variable {catalog other : Catalog α} [LawfulBEq α]

theorem lookup_filter_keys {β : Type} {keys : List String} {name : String} (hname : name ∈ keys)
    (fields : List (String × β)) :
    (fields.filter fun field => keys.contains field.1).lookup name = fields.lookup name := by
  induction fields with
  | nil => rfl
  | cons field rest ih =>
    obtain ⟨key, value⟩ := field
    by_cases kept : keys.contains key
    · rw [List.filter_cons_of_pos (by simpa using kept), List.lookup_cons, List.lookup_cons, ih]
    · have other : (name == key) = false := by
        simp only [beq_eq_false_iff_ne]
        rintro rfl
        exact kept (by simpa using hname)
      rw [List.filter_cons_of_neg (by simpa using kept), List.lookup_cons, ih, other]

/-- Catalogs that agree on their common names, and on all that can be reached from these, show the
same. -/
theorem shownAlike (names : (other.restrict (catalog.names.map (·.1))).names = catalog.names)
    (agrees : ∀ roots, (∀ slot, catalog.Leads roots slot → catalog.Reaches slot) →
      catalog.Agrees other roots) : catalog.ShownAlike other := by
  have bound : ∀ selection ⊆ catalog.names.map (·.1), ∀ name ∈ selection,
      other.names.lookup name = catalog.names.lookup name := by
    intro selection known name hname
    have same := lookup_filter_keys (known hname) other.names
    exact same.symm.trans (congrArg (List.lookup name) names)
  have walks : ∀ selection, selection ≠ [] → selection ⊆ catalog.names.map (·.1) →
      other.visitSelection selection = catalog.visitSelection selection := by
    intro selection nonempty known
    have agrees := agrees (catalog.roots selection) fun slot => Leads.reaches
    exact agrees.visitSelection_eq nonempty (bound selection known)
  refine ⟨?_, walks, ?_⟩
  · have reached : ∀ slot, catalog.Leads (catalog.names.map (·.2)) slot → catalog.Reaches slot := by
      intro slot leads
      induction leads with
      | root listed =>
        obtain ⟨⟨name, _⟩, bound, rfl⟩ := List.mem_map.mp listed
        exact .named bound
      | part _ found inside ih => exact ih.part found inside
    have agrees : catalog.Agrees (other.restrict (catalog.names.map (·.1)))
        (catalog.names.map (·.2)) := agrees _ reached
    exact agrees.numbered_eq names
  · intro selection nonempty known loopless title descriptions
    have agrees := agrees (catalog.roots selection) fun slot => Leads.reaches
    rw [walks selection nonempty known, agrees.tables_eq loopless]

end Catalog

namespace Definitions
variable {definitions definitions' : Definitions}

section
variable (distinct' : definitions'.Distinct) (grows : definitions ⊆ definitions')
include distinct' grows

theorem meaning_of_grows {name : String} (known : definitions.meaning name ≠ .absent) :
    definitions'.meaning name = definitions.meaning name := by
  unfold meaning at known ⊢
  cases found : definitions.lookup name with
  | none => simp [found] at known
  | some d =>
    rw [Keyed.lookup_of_mem distinct'.names (grows (Keyed.mem_of_lookup found))]

theorem after?_of_grows {count : Nat} {text last : String}
    (reached : Chain.after? definitions.meaning count text = some last) :
    Chain.after? definitions'.meaning count text = some last := by
  induction count generalizing text with
  | zero => exact reached
  | succ count ih =>
    obtain ⟨next, step, rest⟩ := Option.bind_eq_some_iff.mp reached
    obtain ⟨name, rfl, pointer⟩ := Chain.next?_eq_some_iff.mp step
    have same : definitions'.meaning name = definitions.meaning name :=
      meaning_of_grows distinct' grows (by simp [pointer])
    have step' : Chain.next? definitions'.meaning (Reference.root ++ name) = some next :=
      Chain.next?_eq_some_iff.mpr ⟨name, rfl, same.trans pointer⟩
    rw [Chain.after?, step', Option.bind_some]
    exact ih rest

/-- A reference that leads to a schema leads there still. -/
theorem verdict_of_grows {text name : String}
    (verdict : Chain.Verdict definitions.meaning text (.ok name)) :
    Chain.Verdict definitions'.meaning text (.ok name) := by
  cases verdict with
  | schema reached named found =>
    have same : definitions'.meaning name = definitions.meaning name :=
      meaning_of_grows distinct' grows (by simp [found])
    exact .schema (after?_of_grows distinct' grows reached) named (same.trans found)

theorem resolve_of_grows {text name : String}
    (resolved : Reference.resolve definitions.registry text = .ok name) :
    Reference.resolve definitions'.registry text = .ok name := by
  rw [Reference.resolve_eq_iff, meaning_registry] at resolved ⊢
  exact verdict_of_grows distinct' grows resolved

variable (clean : definitions.fault? = none)
include clean

theorem slot_of_grows {s : Standing} (hs : s ∈ definitions.standings) (place : Place) :
    s.definition.slot definitions'.registry place =
      s.definition.slot definitions.registry place := by
  cases hd : s.definition with
  | schema => rfl
  | reference text =>
    obtain ⟨name, resolved⟩ := reference_resolves clean hs hd
    have resolved' := resolve_of_grows distinct' grows resolved
    simp only [Definition.slot, resolved, resolved']

/-- The slots of a schema stay filled as they were. -/
theorem content_of_grows {s : Standing} (hs : s ∈ definitions.standings) :
    s.definition.content definitions'.registry s.place =
      s.definition.content definitions.registry s.place := by
  have part : ∀ part ∈ s.definition.parts, ∀ place,
      part.definition.slot definitions'.registry place =
        part.definition.slot definitions.registry place := by
    intro part hpart place
    have hs' : part.standing s.place s.id s.kept ∈ definitions.standings :=
      part_mem_standings hs (List.mem_map_of_mem hpart)
    exact slot_of_grows distinct' grows clean hs' place
  cases hd : s.definition with
  | reference text => rfl
  | schema kind details items properties oneOf =>
    rw [hd] at part
    cases kind with
    | scalar kind => rfl
    | array =>
      cases items with
      | none => rfl
      | some child =>
        have same := part ⟨.items, true, child⟩ (by simp [Definition.parts])
        simp only [Definition.content, Option.map_some, same]
    | object =>
      have same : ∀ field ∈ properties, ∀ place,
          field.2.slot definitions'.registry place = field.2.slot definitions.registry place := by
        intro field hfield
        obtain ⟨before, after, rfl⟩ := List.append_of_mem hfield
        exact part ⟨.property field.1, _, field.2⟩
          (Definition.mem_propertyParts.mpr ⟨before, field.1, field.2, after, rfl, rfl⟩)
      simp only [Definition.content]
      congr 3
      apply List.map_congr_left
      intro field hfield
      rw [same field hfield]
    | composed =>
      have same : ∀ child ∈ oneOf.zipIdx, ∀ place,
          child.1.slot definitions'.registry place = child.1.slot definitions.registry place := by
        intro child hchild
        apply part ⟨.alternative child.2, true, child.1⟩
        rw [Definition.parts, Definition.alternativeParts_eq]
        exact List.mem_map_of_mem hchild
      simp only [Definition.content]
      congr 2
      apply List.map_congr_left
      intro child hchild
      exact same child hchild _

omit distinct' clean in
/-- What stands in the document stands in the larger one. -/
theorem standings_of_grows {s : Standing} (hs : s ∈ definitions.standings) :
    s ∈ definitions'.standings := by
  obtain ⟨named, hnamed, hs⟩ := mem_standings_iff.mp hs
  exact mem_standings_iff.mpr ⟨named, grows hnamed, hs⟩

end

open Catalog (gallery galleryCatalog)

section
variable {convention : Case.Convention}

/-- Where no two names meet, every definition has its slot under its key. -/
theorem mem_names_iff (apart : ∀ a ∈ definitions, ∀ b ∈ definitions,
      convention.key a.1 = convention.key b.1 → a = b) {key : String} {slot : Slot Place} :
    (key, slot) ∈ definitions.names convention ↔
      ∃ named ∈ definitions, convention.key named.1 = key ∧
        named.2.slot definitions.registry (.registered named.1) = slot := by
  have listed : ∀ {slot : Slot Place}, (key, slot) ∈ definitions.names convention →
      ∃ named ∈ definitions, convention.key named.1 = key ∧
        named.2.slot definitions.registry (.registered named.1) = slot := by
    intro slot hslot
    obtain ⟨name, last⟩ := Keyed.mem_rekey_iff.mp hslot
    obtain ⟨named, hnamed, same⟩ := List.mem_map.mp last.mem
    obtain ⟨before, after, -, hkey, -⟩ := last
    cases same
    exact ⟨named, hnamed, hkey, rfl⟩
  refine ⟨listed, ?_⟩
  rintro ⟨named, hnamed, rfl, rfl⟩
  have bound : convention.key named.1 ∈ (definitions.names convention).map (·.1) :=
    (Keyed.mem_keys_rekey ..).mpr ⟨_, List.mem_map_of_mem hnamed, rfl⟩
  obtain ⟨⟨key, slot⟩, hslot, rfl⟩ := List.mem_map.mp bound
  obtain ⟨other, hother, same, rfl⟩ := listed hslot
  rw [apart other hother named hnamed same] at hslot
  exact hslot

variable {catalog catalog' : Catalog Place} (distinct' : definitions'.Distinct)
  (grows : definitions ⊆ definitions') (resolved : Resolved convention definitions catalog)
  (resolved' : Resolved convention definitions' catalog')
include distinct' grows resolved resolved'

/-- The places that can be reached hold what they held. -/
theorem agrees_of_grows {roots : List (Slot Place)}
    (reached : ∀ slot, catalog.Leads roots slot → catalog.Reaches slot) :
    catalog.Agrees catalog' roots := by
  intro place leads
  obtain ⟨_, node, ⟨⟩, found⟩ := resolved.exists_node_of_reaches (reached _ leads)
  obtain ⟨s, hs, kept, rfl, shown⟩ := resolved.exists_standing found
  have schema := Standing.isSchema_of_node? shown
  have content := content_of_grows distinct' grows resolved.clean hs
  have found' := node?_of_kept distinct' resolved' (standings_of_grows grows hs) kept schema
  rw [found, found', ← shown, Standing.node?, Standing.node?, content]

/-- Where no two names of the larger document meet, the old names are bound as they were. -/
theorem names_of_grows (keys : (definitions'.map (convention.key ·.1)).Nodup) :
    (catalog'.restrict (catalog.names.map (·.1))).names = catalog.names := by
  have apart' : ∀ a ∈ definitions', ∀ b ∈ definitions',
      convention.key a.1 = convention.key b.1 → a = b :=
    fun a ha b hb same => List.inj_on_of_nodup_map keys ha hb same
  have apart : ∀ a ∈ definitions, ∀ b ∈ definitions,
      convention.key a.1 = convention.key b.1 → a = b :=
    fun a ha b hb same => apart' a (grows ha) b (grows hb) same
  have slot : ∀ named ∈ definitions,
      named.2.slot definitions'.registry (.registered named.1) =
        named.2.slot definitions.registry (.registered named.1) := by
    intro named hnamed
    exact slot_of_grows distinct' grows resolved.clean (top_mem_standings hnamed) _
  -- both lists are sorted by key, so that they are equal if they have the same members
  let before (a b : String × Slot Place) : Prop := a.1 < b.1
  have irrefl : Std.Irrefl before := ⟨fun a => String.lt_irrefl a.1⟩
  have antisymm : Std.Antisymm before := ⟨fun a b lt gt => absurd gt (String.lt_asymm lt)⟩
  have sorted : catalog.names.Pairwise before := by
    rw [resolved.names]
    exact List.pairwise_map.mp (Keyed.rekey_sorted _ _)
  have sorted' : (catalog'.restrict (catalog.names.map (·.1))).names.Pairwise before := by
    apply List.Pairwise.filter
    rw [resolved'.names]
    exact List.pairwise_map.mp (Keyed.rekey_sorted _ _)
  apply sorted'.eq_of_mem_iff sorted
  rintro ⟨key, value⟩
  rw [Catalog.restrict, List.mem_filter, resolved'.names, resolved.names, mem_names_iff apart',
    mem_names_iff apart]
  constructor
  · rintro ⟨⟨named, hnamed, rfl, rfl⟩, bound⟩
    have bound : convention.key named.1 ∈ (definitions.names convention).map (·.1) := by
      simpa using bound
    obtain ⟨⟨key, value⟩, hold, same⟩ := List.mem_map.mp bound
    obtain ⟨old, hlisted, hkey, -⟩ := (mem_names_iff apart).mp hold
    cases apart' old (grows hlisted) named hnamed (hkey.trans same)
    exact ⟨named, hlisted, rfl, (slot named hlisted).symm⟩
  · rintro ⟨named, hnamed, rfl, rfl⟩
    refine ⟨⟨named, grows hnamed, rfl, slot named hnamed⟩, ?_⟩
    have listed := (mem_names_iff apart).mpr ⟨named, hnamed, rfl, rfl⟩
    simpa using ⟨_, listed⟩

end

/-- The fault of a reference that is a further definition, or stands inside one. -/
def FurtherFault (definitions definitions' : Definitions) (fault : ResolutionFault) : Prop :=
  ∃ named ∈ definitions', named ∉ definitions ∧ ∃ s ∈ (Standing.top named).inner,
    ∃ occurrence cause, s.occurrence? = some occurrence ∧
      Chain.Verdict definitions'.meaning occurrence.text (.error cause) ∧
      occurrence.report cause = fault

/-- Only a further definition can make the larger document fail. -/
theorem furtherFault_of_grows {convention : Case.Convention} (distinct' : definitions'.Distinct)
    (grows : definitions ⊆ definitions') (clean : definitions.fault? = none)
    {fault : ResolutionFault} (failed : (resolve convention definitions').1 = .error fault) :
    FurtherFault definitions definitions' fault := by
  rw [resolve_eq_error_iff] at failed
  obtain ⟨occurrence, hlive, hfault⟩ := List.exists_of_findSome?_eq_some failed
  obtain ⟨s, hs, reference⟩ := List.mem_filterMap.mp hlive
  obtain ⟨named, hnamed, hs⟩ := mem_standings_iff.mp hs
  obtain ⟨cause, verdict, report⟩ := Occurrence.fault?_eq_some_iff.mp hfault
  rw [meaning_registry] at verdict
  refine ⟨named, hnamed, ?_, s, hs, occurrence, cause, reference, verdict, report⟩
  -- a reference of an old definition leads to a schema, in the larger document too
  intro old
  have hs := mem_standings_iff.mpr ⟨named, old, hs⟩
  unfold Standing.occurrence? at reference
  cases hd : s.definition with
  | schema => simp [hd] at reference
  | reference text =>
    obtain ⟨name, resolved⟩ := reference_resolves clean hs hd
    have resolved := resolve_of_grows distinct' grows resolved
    rw [Reference.resolve_eq_iff, meaning_registry] at resolved
    rw [hd] at reference
    cases reference
    cases Chain.verdict_unique verdict resolved

/-- Whatever the order of its definitions and whatever is added to them, a document that resolves is
shown as before, and if it does not resolve any more, that is for a reference that was added. -/
theorem resolve_extension {convention : Case.Convention} (distinct' : definitions'.Distinct)
    (grows : definitions ⊆ definitions') {catalog : Catalog Place}
    (ok : (resolve convention definitions).1 = .ok catalog) :
    (∀ fault, (resolve convention definitions').1 = .error fault →
      FurtherFault definitions definitions' fault) ∧
    ((definitions'.map (convention.key ·.1)).Nodup → ∀ catalog',
      (resolve convention definitions').1 = .ok catalog' → catalog.ShownAlike catalog') := by
  have resolved := Resolved.of_resolve ok
  constructor
  · exact fun fault => furtherFault_of_grows distinct' grows resolved.clean
  · intro keys catalog' ok'
    have resolved' := Resolved.of_resolve ok'
    apply Catalog.shownAlike
    · exact names_of_grows distinct' grows resolved resolved' keys
    · exact fun roots reached => agrees_of_grows distinct' grows resolved resolved' reached

/-- `gallery` from the last definition to the first, after further ones that lead into it. -/
def exhibition : Definitions :=
  [("hall", .schema .object .bare none [("walls", .schema .array .bare
      (some (.reference "#/components/schemas/Loan")) [] [])] []),
    ("Loan", .reference "#/components/schemas/R&D")] ++ gallery.reverse

/-- What `exhibition` resolves to. -/
def exhibitionCatalog : Catalog Place := (resolve .type exhibition).1.toOption.getD ⟨[], []⟩

/-- `gallery` with a reference that leads nowhere. -/
def torn : Definitions := ("Attic", .reference "#/components/schemas/Cellar") :: gallery

theorem resolve_extension_gallery : exhibition.Distinct ∧ gallery ⊆ exhibition ∧
    (resolve .type gallery).1 = .ok galleryCatalog ∧
    (exhibition.map (Case.Convention.type.key ·.1)).Nodup ∧
    (resolve .type exhibition).1 = .ok exhibitionCatalog ∧
    galleryCatalog.ShownAlike exhibitionCatalog ∧
    torn.Distinct ∧ gallery ⊆ torn ∧
    ∃ fault, (resolve .type torn).1 = .error fault ∧ FurtherFault gallery torn fault := by
  have ok : (resolve .type gallery).1 = .ok galleryCatalog := rfl
  have distinct : exhibition.Distinct := by decide
  have grows : gallery ⊆ exhibition := fun _ listed =>
    List.mem_append_right _ (List.mem_reverse.mpr listed)
  have keys : (exhibition.map (Case.Convention.type.key ·.1)).Nodup := by decide
  have ok' : (resolve .type exhibition).1 = .ok exhibitionCatalog := rfl
  have alike := (resolve_extension distinct grows ok).2 keys exhibitionCatalog ok'
  have torn' : torn.Distinct := by decide
  have worse : gallery ⊆ torn := List.subset_cons_self ..
  have failed : (resolve .type torn).1 = .error _ := rfl
  have fault := (resolve_extension torn' worse ok).1 _ failed
  exact ⟨distinct, grows, ok, keys, ok', alike, torn', worse, _, failed, fault⟩

end Definitions
end SchemaTables
