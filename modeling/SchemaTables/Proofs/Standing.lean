import Mathlib.Data.List.Nodup
import SchemaTables.Schema.Linking

/-!
# Live positions

Where schemas and references stand in a document: the definitions themselves, and inside a schema the
parts that its kind makes live, in document order and never through a reference. The other modules
speak of a document through this list.
-/
namespace SchemaTables

namespace Step

/-- What a step adds to an identifier. -/
def segment : Step → String
  | items => "/items"
  | property name => "/" ++ name
  | alternative index => "/oneOf/" ++ toString index

/-- The name that a part goes by, inside a schema that goes by `outer`. -/
def basis (outer : String) : Step → String
  | items => outer
  | property name => name
  | alternative index => Entry.alternativeName outer index

end Step

def Root.name : Root → String
  | registered name | loose name => name

/-- The name that the schema of a place takes its title from. -/
def Place.basis (place : Place) : String := place.steps.foldl Step.basis place.root.name

/-- A live part of a definition. It is not kept when a later property takes its key. -/
structure Part where
  step : Step
  kept : Bool
  definition : Definition

/-- A definition at its place, with the identifier it gets there. It is kept when neither it nor
anything around it is a property whose key a later property takes. -/
structure Standing where
  place : Place
  id : String
  kept : Bool
  definition : Definition

namespace Definition

def overtaken (name : String) (later : List (String × Definition)) : Bool :=
  later.any fun field => Case.uncapitalize field.1 == Case.uncapitalize name

def propertyParts : List (String × Definition) → List Part
  | [] => []
  | (name, child) :: rest =>
    ⟨.property name, !overtaken name rest, child⟩ :: propertyParts rest

def alternativeParts (index : Nat) : List Definition → List Part
  | [] => []
  | child :: rest => ⟨.alternative index, true, child⟩ :: alternativeParts (index + 1) rest

/-- The live parts of a definition in document order. -/
def parts : Definition → List Part
  | reference _ => []
  | schema kind _ items properties oneOf =>
    match kind with
    | .scalar _ => []
    | .array => (items.map fun child => Part.mk .items true child).toList
    | .object => propertyParts properties
    | .composed => alternativeParts 0 oneOf

mutual

/-- Everything live in a definition, itself first and in document order. -/
def standings (place : Place) (id : String) (kept : Bool) : Definition → List Standing
  | reference text => [⟨place, id, kept, reference text⟩]
  | schema kind details items properties oneOf =>
    ⟨place, id, kept, schema kind details items properties oneOf⟩ ::
      match kind with
      | .scalar _ => []
      | .array => itemStandings place id kept items
      | .object => propertyStandings place id kept properties
      | .composed => alternativeStandings place id kept 0 oneOf

def itemStandings (place : Place) (id : String) (kept : Bool) : Option Definition → List Standing
  | none => []
  | some child => standings (place.child .items) (child.idOr (id ++ Step.items.segment)) kept child

def propertyStandings (place : Place) (id : String) (kept : Bool) :
    List (String × Definition) → List Standing
  | [] => []
  | (name, child) :: rest =>
    standings (place.child (.property name)) (child.idOr (id ++ (Step.property name).segment))
      (kept && !overtaken name rest) child ++ propertyStandings place id kept rest

def alternativeStandings (place : Place) (id : String) (kept : Bool) (index : Nat) :
    List Definition → List Standing
  | [] => []
  | child :: rest =>
    standings (place.child (.alternative index))
      (child.idOr (id ++ (Step.alternative index).segment)) kept child ++
        alternativeStandings place id kept (index + 1) rest

end

end Definition

namespace Part

/-- A part where it stands, inside a schema at `place`. -/
def standing (place : Place) (id : String) (kept : Bool) (part : Part) : Standing :=
  ⟨place.child part.step, part.definition.idOr (id ++ part.step.segment), kept && part.kept,
    part.definition⟩

end Part

namespace Standing

/-- Everything live in a standing, itself first. -/
def inner (standing : Standing) : List Standing :=
  standing.definition.standings standing.place standing.id standing.kept

def parts (standing : Standing) : List Standing :=
  standing.definition.parts.map (Part.standing standing.place standing.id standing.kept)

def isSchema (standing : Standing) : Bool := !standing.definition.isReference

end Standing

/-- A definition under its own name. -/
def Standing.top (named : String × Definition) : Standing :=
  ⟨.registered named.1, named.2.idOr named.1, true, named.2⟩

/-- Everything live in a document. -/
def Definitions.standings (definitions : Definitions) : List Standing :=
  definitions.flatMap fun named => (Standing.top named).inner

/-- No two definitions share a name, and no two properties of one object do. -/
structure Definitions.Distinct (definitions : Definitions) : Prop where
  names : (definitions.map (·.1)).Nodup
  steps : ∀ s ∈ definitions.standings, (s.definition.parts.map (·.step)).Nodup

instance (definitions : Definitions) : Decidable definitions.Distinct :=
  decidable_of_iff ((definitions.map (·.1)).Nodup ∧
      ∀ s ∈ definitions.standings, (s.definition.parts.map (·.step)).Nodup)
    ⟨fun h => ⟨h.1, h.2⟩, fun h => ⟨h.names, h.steps⟩⟩

/-- A live reference. It is outermost when it is a definition by itself. -/
structure Occurrence where
  outermost : Bool
  text : String
deriving DecidableEq, Repr

def Standing.occurrence? (standing : Standing) : Option Occurrence :=
  match standing.definition with
  | .reference text => some ⟨standing.place.steps.isEmpty, text⟩
  | .schema .. => none

/-- The live references of a document in document order. -/
def Definitions.occurrences (definitions : Definitions) : List Occurrence :=
  definitions.standings.filterMap Standing.occurrence?

namespace Place

@[simp] theorem child_root (place : Place) (step : Step) : (place.child step).root = place.root := rfl

@[simp] theorem child_steps (place : Place) (step : Step) :
    (place.child step).steps = place.steps ++ [step] := rfl

theorem basis_child (place : Place) (step : Step) :
    (place.child step).basis = step.basis place.basis := by
  simp [basis]

@[simp] theorem basis_registered (name : String) : (registered name).basis = name := rfl

end Place

namespace Definition

theorem mem_propertyParts {properties : List (String × Definition)} {part : Part} :
    part ∈ propertyParts properties ↔ ∃ before name child after,
      properties = before ++ (name, child) :: after ∧
        part = ⟨.property name, !overtaken name after, child⟩ := by
  induction properties with
  | nil => simp [propertyParts]
  | cons field rest ih =>
    obtain ⟨name, child⟩ := field
    simp only [propertyParts, List.mem_cons, ih]
    constructor
    · rintro (rfl | ⟨before, n, c, after, rfl, rfl⟩)
      · exact ⟨[], name, child, rest, rfl, rfl⟩
      · exact ⟨(name, child) :: before, n, c, after, rfl, rfl⟩
    · rintro ⟨before, n, c, after, split, rfl⟩
      cases before with
      | nil =>
        cases split
        exact .inl rfl
      | cons head before =>
        cases split
        exact .inr ⟨before, n, c, after, rfl, rfl⟩

theorem map_propertyParts {β : Type} (f : Step → Definition → β)
    (properties : List (String × Definition)) :
    (propertyParts properties).map (fun part => f part.step part.definition) =
      properties.map fun field => f (.property field.1) field.2 := by
  induction properties with
  | nil => rfl
  | cons field rest ih => rw [propertyParts, List.map_cons, List.map_cons, ih]

theorem alternativeParts_eq (index : Nat) (oneOf : List Definition) :
    alternativeParts index oneOf =
      (oneOf.zipIdx index).map fun child => ⟨.alternative child.2, true, child.1⟩ := by
  induction oneOf generalizing index with
  | nil => rfl
  | cons child rest ih => simp [alternativeParts, ih]

theorem sizeOf_lt_of_mem_parts {d : Definition} {part : Part} (h : part ∈ d.parts) :
    sizeOf part.definition < sizeOf d := by
  cases d with
  | reference text => simp [parts] at h
  | schema kind details items properties oneOf =>
    rw [schema.sizeOf_spec]
    cases kind with
    | scalar kind => simp [parts] at h
    | array =>
      obtain ⟨child, rfl, rfl⟩ : ∃ child, items = some child ∧ Part.mk .items true child = part := by
        simpa [parts] using h
      rw [Option.some.sizeOf_spec]
      change sizeOf child < _
      omega
    | object =>
      obtain ⟨before, name, child, after, rfl, rfl⟩ := mem_propertyParts.mp h
      have := List.sizeOf_lt_of_mem (List.mem_append_right before (List.mem_cons_self ..) :
        (name, child) ∈ before ++ (name, child) :: after)
      rw [Prod.mk.sizeOf_spec] at this
      change sizeOf child < _
      omega
    | composed =>
      rw [parts, alternativeParts_eq, List.mem_map] at h
      obtain ⟨child, hchild, rfl⟩ := h
      have := List.sizeOf_lt_of_mem (List.fst_mem_of_mem_zipIdx hchild)
      change sizeOf child.1 < _
      omega

/-- Induction over what is live in a definition: its dead parts are never looked at. -/
theorem partsInduction {motive : Definition → Prop}
    (step : ∀ d, (∀ part ∈ d.parts, motive part.definition) → motive d) (d : Definition) :
    motive d :=
  step d fun part _ => partsInduction step part.definition
termination_by sizeOf d
decreasing_by exact sizeOf_lt_of_mem_parts ‹_›

theorem propertyStandings_eq (place : Place) (id : String) (kept : Bool)
    (properties : List (String × Definition)) :
    propertyStandings place id kept properties =
      ((propertyParts properties).map (Part.standing place id kept)).flatMap Standing.inner := by
  induction properties with
  | nil => rfl
  | cons field rest ih =>
    rw [propertyStandings, ih]
    rfl

theorem alternativeStandings_eq (place : Place) (id : String) (kept : Bool) (index : Nat)
    (oneOf : List Definition) :
    alternativeStandings place id kept index oneOf =
      ((alternativeParts index oneOf).map (Part.standing place id kept)).flatMap
        Standing.inner := by
  induction oneOf generalizing index with
  | nil => rfl
  | cons child rest ih =>
    rw [alternativeStandings, ih]
    simp [alternativeParts, Part.standing, Standing.inner]

end Definition

namespace Standing

/-- A standing comes before its parts, and these follow one after the other. -/
theorem inner_eq (standing : Standing) :
    standing.inner = standing :: standing.parts.flatMap inner := by
  obtain ⟨place, id, kept, d⟩ := standing
  cases d with
  | reference text => rfl
  | schema kind details items properties oneOf =>
    unfold inner parts
    cases kind with
    | scalar kind => rfl
    | array => cases items <;> simp [Definition.standings, Definition.itemStandings,
        Definition.parts, Part.standing]
    | object => rw [Definition.standings, Definition.propertyStandings_eq]; rfl
    | composed => rw [Definition.standings, Definition.alternativeStandings_eq]; rfl

theorem mem_inner_iff {s t : Standing} :
    s ∈ t.inner ↔ s = t ∨ ∃ part ∈ t.parts, s ∈ part.inner := by
  rw [inner_eq, List.mem_cons, List.mem_flatMap]

theorem self_mem_inner (s : Standing) : s ∈ s.inner := mem_inner_iff.mpr (.inl rfl)

/-- What holds of a standing whenever it holds of its parts holds of all. -/
theorem induction {motive : Standing → Prop}
    (step : ∀ s, (∀ part ∈ s.parts, motive part) → motive s) (s : Standing) : motive s := by
  obtain ⟨place, id, kept, d⟩ := s
  induction d using Definition.partsInduction generalizing place id kept with
  | step d ih =>
    apply step
    intro part hpart
    obtain ⟨p, hp, rfl⟩ := List.mem_map.mp hpart
    exact ih p hp ..

theorem mem_inner_of_mem_parts {s part : Standing} (hpart : part ∈ s.parts) (t : Standing)
    (hs : s ∈ t.inner) : part ∈ t.inner := by
  induction t using induction with
  | step t ih =>
    rcases mem_inner_iff.mp hs with rfl | ⟨outer, houter, hs⟩
    · exact mem_inner_iff.mpr (.inr ⟨part, hpart, self_mem_inner part⟩)
    · exact mem_inner_iff.mpr (.inr ⟨outer, houter, ih outer houter hs⟩)

theorem place_of_mem_parts {part t : Standing} (h : part ∈ t.parts) :
    ∃ p ∈ t.definition.parts, part.place = t.place.child p.step := by
  obtain ⟨p, hp, rfl⟩ := List.mem_map.mp h
  exact ⟨p, hp, rfl⟩

/-- What is live inside a standing lies below it. -/
theorem place_of_mem_inner {s : Standing} (t : Standing) (h : s ∈ t.inner) :
    ∃ tail, s.place = ⟨t.place.root, t.place.steps ++ tail⟩ := by
  induction t using induction with
  | step t ih =>
    rcases mem_inner_iff.mp h with rfl | ⟨part, hpart, hs⟩
    · exact ⟨[], by simp⟩
    · obtain ⟨tail, htail⟩ := ih part hpart hs
      obtain ⟨p, -, hplace⟩ := place_of_mem_parts hpart
      exact ⟨p.step :: tail, by simp [htail, hplace]⟩

theorem not_mem_of_mem_parts {part t : Standing} (h : part ∈ t.parts) :
    t.place ∉ part.inner.map (·.place) := by
  intro hmem
  obtain ⟨s, hs, hplace⟩ := List.mem_map.mp hmem
  obtain ⟨tail, htail⟩ := place_of_mem_inner part hs
  obtain ⟨p, -, hpart⟩ := place_of_mem_parts h
  rw [hplace, hpart] at htail
  have := congrArg (fun place : Place => place.steps.length) htail
  simp at this

/-- Two parts at different steps have nothing in common. -/
theorem disjoint_of_step_ne {t : Standing} {p q : Part} (ne : p.step ≠ q.step) :
    List.Disjoint ((p.standing t.place t.id t.kept).inner.map (·.place))
      ((q.standing t.place t.id t.kept).inner.map (·.place)) := by
  intro place hp hq
  obtain ⟨s, hs, rfl⟩ := List.mem_map.mp hp
  obtain ⟨s', hs', same⟩ := List.mem_map.mp hq
  obtain ⟨tail, htail⟩ := place_of_mem_inner _ hs
  obtain ⟨tail', htail'⟩ := place_of_mem_inner _ hs'
  rw [htail, htail'] at same
  simp [Part.standing] at same
  exact ne same.1.symm

theorem nodup_inner_places {t : Standing}
    (steps : ∀ s ∈ t.inner, (s.definition.parts.map (·.step)).Nodup) :
    (t.inner.map (·.place)).Nodup := by
  induction t using induction with
  | step t ih =>
    rw [inner_eq, List.map_cons, List.nodup_cons, List.map_flatMap]
    refine ⟨?_, List.nodup_flatMap.mpr ⟨fun part hpart => ?_, ?_⟩⟩
    · intro hmem
      obtain ⟨part, hpart, hmem⟩ := List.mem_flatMap.mp hmem
      exact not_mem_of_mem_parts hpart hmem
    · exact ih part hpart fun s hs => steps s (mem_inner_iff.mpr (.inr ⟨part, hpart, hs⟩))
    · have distinct := steps t (self_mem_inner t)
      rw [List.Nodup, List.pairwise_map] at distinct
      rw [parts, List.pairwise_map]
      exact distinct.imp disjoint_of_step_ne

end Standing

namespace Definitions
variable {definitions : Definitions}

theorem mem_standings_iff {s : Standing} :
    s ∈ definitions.standings ↔ ∃ named ∈ definitions, s ∈ (Standing.top named).inner :=
  List.mem_flatMap

theorem top_mem_standings {named : String × Definition} (h : named ∈ definitions) :
    Standing.top named ∈ definitions.standings :=
  mem_standings_iff.mpr ⟨named, h, Standing.self_mem_inner _⟩

theorem part_mem_standings {s part : Standing} (hs : s ∈ definitions.standings)
    (hpart : part ∈ s.parts) : part ∈ definitions.standings := by
  obtain ⟨named, hnamed, hs⟩ := mem_standings_iff.mp hs
  exact mem_standings_iff.mpr ⟨named, hnamed, Standing.mem_inner_of_mem_parts hpart _ hs⟩

/-- What holds of the definitions, and of the parts of whatever it holds of, holds of all that is
live. -/
theorem standings_induction {motive : Standing → Prop}
    (top : ∀ named ∈ definitions, motive (Standing.top named))
    (part : ∀ s ∈ definitions.standings, motive s → ∀ p ∈ s.definition.parts,
      motive (p.standing s.place s.id s.kept)) {s : Standing} (hs : s ∈ definitions.standings) :
    motive s := by
  obtain ⟨named, hnamed, hs⟩ := mem_standings_iff.mp hs
  have below : ∀ u ∈ definitions.standings, motive u → ∀ t ∈ u.inner, motive t := by
    intro u
    induction u using Standing.induction with
    | step u ih =>
      intro hu holds t ht
      rcases Standing.mem_inner_iff.mp ht with rfl | ⟨child, hchild, ht⟩
      · exact holds
      · obtain ⟨p, hp, rfl⟩ := List.mem_map.mp hchild
        exact ih _ hchild (part_mem_standings hu hchild) (part u hu holds p hp) t ht
  exact below _ (top_mem_standings hnamed) (top named hnamed) s hs

/-- A place of a document says what stands there. -/
theorem Distinct.nodup_places (distinct : definitions.Distinct) :
    (definitions.standings.map (·.place)).Nodup := by
  rw [standings, List.map_flatMap]
  refine List.nodup_flatMap.mpr ⟨fun named hnamed => ?_, ?_⟩
  · exact Standing.nodup_inner_places fun s hs =>
      distinct.steps s (mem_standings_iff.mpr ⟨named, hnamed, hs⟩)
  · have names := distinct.names
    rw [List.Nodup, List.pairwise_map] at names
    refine names.imp fun ne place hmem hmem' => ?_
    obtain ⟨s, hs, rfl⟩ := List.mem_map.mp hmem
    obtain ⟨s', hs', same⟩ := List.mem_map.mp hmem'
    obtain ⟨tail, htail⟩ := Standing.place_of_mem_inner _ hs
    obtain ⟨tail', htail'⟩ := Standing.place_of_mem_inner _ hs'
    rw [htail, htail'] at same
    simp [Standing.top, Place.registered] at same
    exact ne same.1.symm

theorem Distinct.eq_of_place (distinct : definitions.Distinct) {s s' : Standing}
    (hs : s ∈ definitions.standings) (hs' : s' ∈ definitions.standings)
    (same : s.place = s'.place) : s = s' :=
  List.inj_on_of_nodup_map distinct.nodup_places hs hs' same

end Definitions
end SchemaTables
