import Mathlib.Data.List.Nodup
import SchemaTables.Proofs.Closure
import SchemaTables.Proofs.PathIdentifier

/-!
# One table for every compound schema

A walk takes two schemas for one another when they share an identifier. Over everything that is
named it gives each compound schema that can be reached its table exactly when no two of these share
an identifier and none of them lies behind an array that another array was taken for. Slash-free
names are enough for both; with slashes in them, tables are lost.
-/
namespace SchemaTables

namespace Catalog
variable {α : Type} [BEq α] (catalog : Catalog α)

/-- The tables asked for are those of the compound schemas that can be reached, one for each. -/
def EveryTableOnce (walk : Walk α) : Prop :=
  ∃ places : List α, places.Nodup ∧
    (∀ place, place ∈ places ↔ catalog.Reaches (.node place) ∧ (catalog.call? place).isSome) ∧
    walk.calls.map some = places.map catalog.call?

/-- No two compound schemas that can be reached share an identifier. -/
def TablesDistinct : Prop :=
  ∀ id place other, catalog.Reaches (.node place) → catalog.Reaches (.node other) →
    catalog.mark? place = some (.table id) → catalog.mark? other = some (.table id) → place = other

/-- An array that the walk does not go into, because it has taken another one for it. -/
def Blocked (entered : List α) (place : α) : Prop :=
  ∃ id, catalog.mark? place = some (.array id) ∧
    ∃ other ∈ entered, other ≠ place ∧ catalog.mark? other = some (.array id)

/-- A way from the names that passes no blocked array. -/
inductive OpenWay (entered : List α) : α → Prop
  | named {name : String} {place : α} (bound : (name, .node place) ∈ catalog.names)
      (free : ¬ catalog.Blocked entered place) : OpenWay entered place
  | part {place next : α} {node : Node α} (way : OpenWay entered place)
      (found : catalog.node? place = some node) (inside : .node next ∈ node.content.slots)
      (free : ¬ catalog.Blocked entered next) : OpenWay entered next

variable {catalog} {walk : Walk α} {entered : List α}

theorem OpenWay.reaches {place : α} (way : catalog.OpenWay entered place) :
    catalog.Reaches (.node place) := by
  induction way with
  | named bound _ => exact .named bound
  | part _ found inside _ ih => exact .part ih found inside

theorem OpenWay.not_blocked {place : α} (way : catalog.OpenWay entered place) :
    ¬ catalog.Blocked entered place := by
  cases way with
  | named _ free => exact free
  | part _ _ _ free => exact free

theorem isSome_call?_iff {place : α} :
    (catalog.call? place).isSome ↔ ∃ id, catalog.mark? place = some (.table id) := by
  unfold call? mark?
  cases catalog.node? place with
  | none => simp
  | some node => exact node.isSome_call?_iff

/-- The schemas that a walk gives a table. -/
def tables (catalog : Catalog α) (entered : List α) : List α :=
  entered.filter fun place => (catalog.call? place).isSome

theorem mem_tables {place : α} :
    place ∈ catalog.tables entered ↔ place ∈ entered ∧ (catalog.call? place).isSome :=
  List.mem_filter

theorem map_some_filterMap {β γ : Type} (f : β → Option γ) (items : List β) :
    (items.filterMap f).map some = (items.filter fun item => (f item).isSome).map f := by
  induction items with
  | nil => rfl
  | cons item rest ih => cases h : f item <;> simp [h, ih]

/-- Without two marks alike, every way is open. -/
theorem openWay_of_reaches
    (marks : ∀ mark place other, catalog.mark? place = some mark → catalog.mark? other = some mark →
      place = other)
    {place : α} (reached : catalog.Reaches (.node place)) : catalog.OpenWay entered place := by
  have free : ∀ place, ¬ catalog.Blocked entered place := by
    rintro place ⟨id, hmark, other, -, ne, same⟩
    exact ne (marks _ other place same hmark)
  suffices ∀ slot, catalog.Reaches slot → ∀ place, slot = .node place →
      catalog.OpenWay entered place from this _ reached place rfl
  intro slot reached
  induction reached with
  | named bound =>
    rintro place rfl
    exact .named bound (free place)
  | part _ found inside ih =>
    rintro place rfl
    exact .part (ih _ rfl) found inside (free place)

section
variable (tour : catalog.Tour ((catalog.selected []).map .name) .start entered walk)
include tour

theorem eq_of_mark? {place other : α} (hplace : place ∈ entered) (hother : other ∈ entered)
    (same : catalog.mark? place = catalog.mark? other) : place = other :=
  List.inj_on_of_nodup_map tour.nodup_marks hplace hother same

theorem not_blocked_of_mem {place : α} (hplace : place ∈ entered) :
    ¬ catalog.Blocked entered place := by
  rintro ⟨id, hmark, other, hother, ne, same⟩
  exact ne (eq_of_mark? tour hother hplace (same.trans hmark.symm))

/-- Whatever is entered lies on an open way: the way that the walk took. -/
theorem openWay_of_mem {place : α} (hplace : place ∈ entered) : catalog.OpenWay entered place := by
  have way := tour.within (P := fun slot => ∀ place, slot = .node place →
      ¬ catalog.Blocked entered place → catalog.OpenWay entered place) ?_ ?_
  · exact way.1 place hplace place rfl (not_blocked_of_mem tour hplace)
  · rintro outer houter way node found slot inside next rfl free
    exact .part (way outer rfl (not_blocked_of_mem tour houter)) found inside free
  · rw [List.forall_mem_map]
    rintro name - slot bound next rfl free
    exact .named (Keyed.mem_of_lookup bound) free

theorem reaches_of_mem {place : α} (hplace : place ∈ entered) : catalog.Reaches (.node place) :=
  (openWay_of_mem tour hplace).reaches

theorem exists_mem_of_settled {slot : Slot α} (settled : catalog.Settled walk slot) {place : α}
    (holds : slot = .node place) {mark : Mark} (hmark : catalog.mark? place = some mark) :
    ∃ other ∈ entered, catalog.mark? other = some mark := by
  obtain ⟨_, rfl, settled⟩ := settled
  cases holds
  rcases (tour.holds_iff mark).mp (settled mark hmark) with held | held
  · cases mark <;> simp [Walk.holds, Walk.start, Walk.rendered] at held
  · exact held

/-- Along an open way, where no two tables share an identifier, whatever has a mark is entered. -/
theorem mem_of_openWay (ok : walk.fault = none)
    (names : ∀ name slot, (name, slot) ∈ catalog.names → catalog.names.lookup name = some slot)
    (tables : catalog.TablesDistinct) {place : α} (way : catalog.OpenWay entered place) {mark : Mark}
    (hmark : catalog.mark? place = some mark) : place ∈ entered := by
  have settled := tour.settled ok
  have taken : ∀ {place : α}, catalog.Settled walk (.node place) → catalog.OpenWay entered place →
      ∀ {mark : Mark}, catalog.mark? place = some mark → place ∈ entered := by
    intro place hsettled way mark hmark
    obtain ⟨other, hother, same⟩ := exists_mem_of_settled tour hsettled rfl hmark
    cases mark with
    | table id =>
      rw [tables id place other way.reaches (reaches_of_mem tour hother) hmark same]
      exact hother
    | array id =>
      by_cases eq : other = place
      · exact eq ▸ hother
      · exact absurd ⟨id, hmark, other, hother, eq, same⟩ way.not_blocked
  induction way generalizing mark with
  | @named name place bound free =>
    have listed : name ∈ catalog.selected [] := List.mem_map_of_mem bound
    exact taken (settled.1 (.name name) (List.mem_map_of_mem listed) _ (names name _ bound))
      (.named bound free) hmark
  | @part place next node way found inside free ih =>
    have marked : ∃ mark, catalog.mark? place = some mark := by
      rw [mark?_of_found found]
      cases h : node.mark? with
      | none => simp [Node.slots_of_mark?_eq_none h] at inside
      | some mark => exact ⟨mark, rfl⟩
    obtain ⟨mark', hmark'⟩ := marked
    exact taken (settled.2 place (ih hmark') node found _ inside) (.part way found inside free)
      hmark

theorem map_some_calls : walk.calls.map some = (catalog.tables entered).map catalog.call? := by
  rw [tour.calls_eq, Walk.start, List.nil_append, map_some_filterMap]
  rfl

theorem nodup_tables : (catalog.tables entered).Nodup :=
  (List.Nodup.of_map _ tour.nodup_marks).filter _

/-- A walk over everything named loses no table exactly when it takes no two schemas for one
another. -/
theorem everyTableOnce_iff (ok : walk.fault = none)
    (names : ∀ name slot, (name, slot) ∈ catalog.names → catalog.names.lookup name = some slot) :
    catalog.EveryTableOnce walk ↔ catalog.TablesDistinct ∧
      ∀ place, catalog.Reaches (.node place) → (catalog.call? place).isSome →
        catalog.OpenWay entered place := by
  constructor
  · rintro ⟨places, nodup, reached, calls⟩
    rw [map_some_calls tour] at calls
    have within : catalog.tables entered ⊆ places := by
      intro place hplace
      obtain ⟨hplace, asks⟩ := mem_tables.mp hplace
      exact (reached place).mpr ⟨reaches_of_mem tour hplace, asks⟩
    have length : places.length ≤ (catalog.tables entered).length := by
      have := congrArg List.length calls
      simp only [List.length_map] at this
      omega
    have all : (catalog.tables entered).Perm places :=
      (List.subperm_of_subset (nodup_tables tour) within).perm_of_length_le length
    have mem : ∀ place, catalog.Reaches (.node place) → (catalog.call? place).isSome →
        place ∈ entered := fun place reaches asks =>
      (mem_tables.mp (all.mem_iff.mpr ((reached place).mpr ⟨reaches, asks⟩))).1
    constructor
    · intro id place other hplace hother hmark hmark'
      exact eq_of_mark? tour (mem place hplace (isSome_call?_iff.mpr ⟨id, hmark⟩))
        (mem other hother (isSome_call?_iff.mpr ⟨id, hmark'⟩)) (hmark.trans hmark'.symm)
    · exact fun place reaches asks => openWay_of_mem tour (mem place reaches asks)
  · rintro ⟨distinct, ways⟩
    refine ⟨catalog.tables entered, nodup_tables tour, fun place => ?_, map_some_calls tour⟩
    rw [mem_tables]
    refine and_congr_left fun asks => ⟨reaches_of_mem tour, fun reaches => ?_⟩
    obtain ⟨id, hmark⟩ := isSome_call?_iff.mp asks
    exact mem_of_openWay tour ok names distinct (ways place reaches asks) hmark

end
end Catalog

namespace Resolved
variable {convention : Case.Convention} {definitions : Definitions} {catalog : Catalog Place}

theorem lookup_names (resolved : Resolved convention definitions catalog) (name : String)
    (slot : Slot Place) (bound : (name, slot) ∈ catalog.names) :
    catalog.names.lookup name = some slot := by
  rw [resolved.names] at bound ⊢
  exact (Keyed.mem_iff_lookup (Keyed.rekey_sorted _ _)).mp bound

/-- The tables of a resolved document are all there exactly when no two schemas are taken for one
another. -/
theorem everyTableOnce_iff (resolved : Resolved convention definitions catalog) :
    ∃ entered, catalog.Tour ((catalog.selected []).map .name) .start entered
        (catalog.visitSelection []) ∧
      (catalog.EveryTableOnce (catalog.visitSelection []) ↔ catalog.TablesDistinct ∧
        ∀ place, catalog.Reaches (.node place) → (catalog.call? place).isSome →
          catalog.OpenWay entered place) := by
  obtain ⟨entered, tour⟩ := catalog.visitSelection_tour []
  have clean := resolved.visit_clean []
  exact ⟨entered, tour, Catalog.everyTableOnce_iff tour clean resolved.lookup_names⟩

/-- The marks of a resolved catalog are the identifiers of its document. -/
theorem exists_standing_of_mark? (resolved : Resolved convention definitions catalog)
    {place : Place} {mark : Mark} (hmark : catalog.mark? place = some mark) :
    ∃ s ∈ definitions.standings, s.place = place ∧ (mark = .table s.id ∨ mark = .array s.id) := by
  obtain ⟨node, found, hnode⟩ := Option.bind_eq_some_iff.mp hmark
  obtain ⟨s, hs, -, same, shown⟩ := resolved.exists_standing found
  have id : node.head.id = s.id := by
    rw [← Standing.head_id (Standing.isSchema_of_node? shown)]
    obtain ⟨content, -, rfl⟩ := Option.map_eq_some_iff.mp shown
    rfl
  exact ⟨s, hs, same, id ▸ Node.id_of_mark? hnode⟩

theorem eq_of_mark? (resolved : Resolved convention definitions catalog)
    (distinct : definitions.Distinct) (unidentified : definitions.Unidentified)
    (slashFree : definitions.SlashFree) (mark : Mark) (place other : Place)
    (hplace : catalog.mark? place = some mark) (hother : catalog.mark? other = some mark) :
    place = other := by
  obtain ⟨s, hs, rfl, hmark⟩ := resolved.exists_standing_of_mark? hplace
  obtain ⟨t, ht, rfl, hmark'⟩ := resolved.exists_standing_of_mark? hother
  have same : s.id = t.id := by
    rcases hmark with rfl | rfl <;> rcases hmark' with h | h
    · exact Mark.table.inj h
    · cases h
    · cases h
    · exact Mark.array.inj h
  rw [distinct.eq_of_id unidentified slashFree hs ht same]

end Resolved

namespace Definitions

/-- A walk over everything that a document names gives each compound schema that can be reached its
table exactly when it takes no two schemas for one another, and with slash-free names it never
does. -/
theorem resolve_tables {convention : Case.Convention} {definitions : Definitions}
    {catalog : Catalog Place} (ok : (resolve convention definitions).1 = .ok catalog) :
    ∃ entered, catalog.Tour ((catalog.selected []).map .name) .start entered
        (catalog.visitSelection []) ∧
      (catalog.EveryTableOnce (catalog.visitSelection []) ↔ catalog.TablesDistinct ∧
        ∀ place, catalog.Reaches (.node place) → (catalog.call? place).isSome →
          catalog.OpenWay entered place) ∧
      (definitions.Distinct → definitions.Unidentified → definitions.SlashFree →
        catalog.EveryTableOnce (catalog.visitSelection [])) := by
  have resolved := Resolved.of_resolve ok
  obtain ⟨entered, tour, iff⟩ := resolved.everyTableOnce_iff
  refine ⟨entered, tour, iff, fun distinct unidentified slashFree => iff.mpr ?_⟩
  have marks := resolved.eq_of_mark? distinct unidentified slashFree
  constructor
  · exact fun id place other _ _ hplace hother => marks (.table id) place other hplace hother
  · exact fun place reached _ => Catalog.openWay_of_reaches marks reached

/-- Two bodies, one of plain text, under names that run together when they are joined. -/
def mediaTypes : Definitions :=
  let text : Definition := .schema (.scalar .string) .bare none [] []
  let table (properties : List (String × Definition)) : Definition :=
    .schema .object .bare none properties []
  [("Body", table [("text", table [("plain", table [("charset", text)])]),
    ("text/plain", table [("content", text)])])]

theorem resolve_tables_kennel : ∃ catalog, (resolve .type kennel).1 = .ok catalog ∧
    catalog.EveryTableOnce (catalog.visitSelection []) := by
  have ok : (resolve .type kennel).1 = .ok _ := rfl
  obtain ⟨entered, -, -, slashFree⟩ := resolve_tables ok
  exact ⟨_, ok, slashFree (by decide) (by decide) (by decide)⟩

/-- What `mediaTypes` resolves to. -/
def mediaCatalog : Catalog Place := (resolve .type mediaTypes).1.toOption.getD ⟨[], []⟩

/-- The two tables of plain text are taken for one. -/
theorem not_everyTableOnce_mediaTypes : mediaTypes.Distinct ∧ mediaTypes.Unidentified ∧
    ∃ catalog, (resolve .type mediaTypes).1 = .ok catalog ∧
      ¬ catalog.EveryTableOnce (catalog.visitSelection []) := by
  have ok : (resolve .type mediaTypes).1 = .ok mediaCatalog := rfl
  refine ⟨by decide, by decide, mediaCatalog, ok, fun once => ?_⟩
  obtain ⟨entered, -, iff⟩ := (Resolved.of_resolve ok).everyTableOnce_iff
  have named : ("Body", .node (.registered "Body")) ∈ mediaCatalog.names := by decide
  have body := Catalog.Reaches.named named
  have text := Catalog.Reaches.part body rfl (List.mem_cons_self ..)
  have plain := Catalog.Reaches.part text rfl (List.mem_cons_self ..)
  have textPlain := Catalog.Reaches.part body rfl (List.mem_cons_of_mem _ (List.mem_cons_self ..))
  have same := (iff.mp once).1 "Body/text/plain" _ _ plain textPlain rfl rfl
  exact absurd same (by decide)

end Definitions
end SchemaTables
