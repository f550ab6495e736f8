import SchemaTables.Proofs.Faithfulness

/-!
# Titles by place

Every schema of a document goes by one name: its own if it is registered, else the one that its
property, its array or its list of alternatives gives it. A schema is titled by that name and by what
its definition says about itself, and by nothing that refers to it.
-/
namespace SchemaTables

/-- What stands at a place, and the name that it goes by there. -/
inductive Definitions.GoesBy (definitions : Definitions) : Place → String → Definition → Prop
  | registered {name : String} {d : Definition} (listed : (name, d) ∈ definitions) :
      GoesBy definitions (.registered name) name d
  | property {place : Place} {basis name : String} {details : Details} {items : Option Definition}
      {properties : List (String × Definition)} {oneOf : List Definition} {child : Definition}
      (outer : GoesBy definitions place basis (.schema .object details items properties oneOf))
      (listed : (name, child) ∈ properties) :
      GoesBy definitions (place.child (.property name)) name child
  | items {place : Place} {basis : String} {details : Details} {child : Definition}
      {properties : List (String × Definition)} {oneOf : List Definition}
      (outer : GoesBy definitions place basis
        (.schema .array details (some child) properties oneOf)) :
      GoesBy definitions (place.child .items) basis child
  | alternative {place : Place} {basis : String} {details : Details} {items : Option Definition}
      {properties : List (String × Definition)} {oneOf : List Definition} {child : Definition}
      {index : Nat}
      (outer : GoesBy definitions place basis (.schema .composed details items properties oneOf))
      (listed : oneOf[index]? = some child) :
      GoesBy definitions (place.child (.alternative index)) (basis ++ "OneOf" ++ toString index) child

/-- A title that is there and not empty. -/
def Details.HasTitle (details : Details) (title : String) : Prop :=
  details.title = some title ∧ title ≠ ""

/-- Strings and booleans are titled without regard to the document. -/
def Kind.isNamed (kind : Kind) : Prop := kind ≠ .scalar .string ∧ kind ≠ .scalar .boolean

/-- The schemas that are not titled: lists of alternatives that are not registered. -/
def Unnamed (registered : Bool) (kind : Kind) (oneOf : List Definition) : Prop :=
  registered = false ∧ kind = .composed ∧ oneOf ≠ []

/-- The title and the label of a schema that goes by `basis`. -/
structure Titled (registered : Bool) (basis : String) (kind : Kind) (details : Details)
    (oneOf : List Definition) (head : Head) : Prop where
  bare : kind = .scalar .string → details.members ≠ [] →
    (∀ text ∈ Title.keptTexts details.members, Identifier.isBare text) →
    head.title = some (Case.capitalize basis ++ "Enum")
  valued : kind = .scalar .string → details.members ≠ [] →
    (∃ text ∈ Title.keptTexts details.members, ¬ Identifier.isBare text) →
    head.title = some ("ValuedEnum<" ++ (Case.capitalize basis ++ "Enum") ++ ">")
  string : kind = .scalar .string → details.members = [] → head.title = some "String"
  boolean : kind = .scalar .boolean → head.title = some "boolean"
  given : kind.isNamed → ∀ title, details.HasTitle title → head.title = some title
  derived : kind.isNamed → (∀ title, ¬ details.HasTitle title) → ¬ Unnamed registered kind oneOf →
    ∃ title, head.title = some title ∧
      title.toList = (Case.capitalize basis).toList.filter fun c => c ∉ ['-', '_']
  document : Unnamed registered kind oneOf → head.title = details.title
  labelled : kind = .scalar .string → details.members ≠ [] →
    head.enumLabel = some (", ".intercalate (Title.keptTexts details.members))
  unlabelled : ¬ (kind = .scalar .string ∧ details.members ≠ []) → head.enumLabel = none

namespace Titled
variable {registered : Bool} {basis : String} {kind : Kind} {details : Details}
  {oneOf : List Definition} {head other : Head}

/-- A schema has a label exactly if it is a string with members. -/
theorem isSome_enumLabel_iff (titled : Titled registered basis kind details oneOf head) :
    head.enumLabel.isSome ↔ kind = .scalar .string ∧ details.members ≠ [] := by
  constructor
  · intro labelled
    by_contra plain
    rw [titled.unlabelled plain] at labelled
    cases labelled
  · rintro ⟨string, members⟩
    rw [titled.labelled string members]
    rfl

theorem eq_enumLabel (titled : Titled registered basis kind details oneOf head)
    (titled' : Titled registered basis kind details oneOf other) :
    head.enumLabel = other.enumLabel := by
  by_cases labelled : kind = .scalar .string ∧ details.members ≠ []
  · rw [titled.labelled labelled.1 labelled.2, titled'.labelled labelled.1 labelled.2]
  · rw [titled.unlabelled labelled, titled'.unlabelled labelled]

/-- Nothing else has a say in a title. -/
theorem eq_title (titled : Titled registered basis kind details oneOf head)
    (titled' : Titled registered basis kind details oneOf other) : head.title = other.title := by
  by_cases string : kind = .scalar .string
  · by_cases none : details.members = []
    · rw [titled.string string none, titled'.string string none]
    · by_cases bare : ∀ text ∈ Title.keptTexts details.members, Identifier.isBare text
      · rw [titled.bare string none bare, titled'.bare string none bare]
      · have valued : ∃ text ∈ Title.keptTexts details.members, ¬ Identifier.isBare text := by
          push Not at bare
          exact bare
        rw [titled.valued string none valued, titled'.valued string none valued]
  · by_cases boolean : kind = .scalar .boolean
    · rw [titled.boolean boolean, titled'.boolean boolean]
    · have named : kind.isNamed := ⟨string, boolean⟩
      by_cases unnamed : Unnamed registered kind oneOf
      · rw [titled.document unnamed, titled'.document unnamed]
      · by_cases given : ∃ title, details.HasTitle title
        · obtain ⟨title, given⟩ := given
          rw [titled.given named title given, titled'.given named title given]
        · have untitled : ∀ title, ¬ details.HasTitle title := fun title has => given ⟨title, has⟩
          obtain ⟨title, first, same⟩ := titled.derived named untitled unnamed
          obtain ⟨title', second, same'⟩ := titled'.derived named untitled unnamed
          have : title = title' := String.toList_inj.mp (same.trans same'.symm)
          rw [first, second, this]

end Titled

namespace Definition
variable {registered : Bool} {basis id : String} {kind : Kind} {details : Details}
  {oneOf : List Definition}

theorem toList_ofName (name : String) :
    (Title.ofName name).toList = (Case.capitalize name).toList.filter fun c => c ∉ ['-', '_'] := by
  rw [Title.ofName, String.toList_ofList]
  apply List.filter_congr
  intro c _
  by_cases hyphen : c = '-' <;> by_cases low : c = '_' <;> simp [hyphen, low]

/-- Schemas that are titled by name keep a title of their own. -/
theorem titled_titledByName (named : kind.isNamed) (titles : ¬ Unnamed registered kind oneOf) :
    Titled registered basis kind details oneOf ((head id details).titledByName basis) := by
  have title : ∀ title, details.HasTitle title →
      ((head id details).titledByName basis).title = some title := by
    rintro title ⟨has, nonempty⟩
    simp [Head.titledByName, Head.isTitled, head, has, nonempty]
  have derived : (∀ title, ¬ details.HasTitle title) →
      ((head id details).titledByName basis).title = some (Title.ofName basis) := by
    intro untitled
    have plain : (head id details).isTitled = false := by
      unfold Head.isTitled
      cases has : details.title with
      | none => simp [head, has]
      | some title =>
        have empty : title = "" := by
          by_contra nonempty
          exact untitled title ⟨has, nonempty⟩
        simp [head, has, empty]
    simp [Head.titledByName, plain]
  have label : ((head id details).titledByName basis).enumLabel = none := by
    unfold Head.titledByName Head.enumLabel
    split <;> rfl
  exact {
    bare := fun string => absurd string named.1
    valued := fun string => absurd string named.1
    string := fun string => absurd string named.1
    boolean := fun boolean => absurd boolean named.2
    given := fun _ => title
    derived := fun _ untitled _ => ⟨_, derived untitled, toList_ofName basis⟩
    document := fun unnamed => absurd unnamed titles
    labelled := fun string => absurd string named.1
    unlabelled := fun _ => label }

theorem titled_titledScalar (scalar : ScalarKind) :
    Titled registered basis (.scalar scalar) details oneOf
      ((head id details).titledScalar basis scalar) := by
  have titles : ¬ Unnamed registered (.scalar scalar) oneOf := fun unnamed => by cases unnamed.2.1
  cases scalar with
  | integer => exact titled_titledByName (by simp [Kind.isNamed]) titles
  | number => exact titled_titledByName (by simp [Kind.isNamed]) titles
  | boolean =>
    exact {
      bare := nofun
      valued := nofun
      string := nofun
      boolean := fun _ => rfl
      given := fun named => absurd rfl named.2
      derived := fun named => absurd rfl named.2
      document := fun unnamed => absurd unnamed titles
      labelled := nofun
      unlabelled := fun _ => rfl }
  | string =>
    by_cases none : details.members = []
    · have plain : (head id details).titledScalar basis .string =
          { head id details with title := some "String" } := by
        simp [Head.titledScalar, head, none]
      rw [plain]
      exact {
        bare := fun _ some => absurd none some
        valued := fun _ some => absurd none some
        string := fun _ _ => rfl
        boolean := fun same => by cases same
        given := fun named => absurd rfl named.1
        derived := fun named => absurd rfl named.1
        document := fun unnamed => absurd unnamed titles
        labelled := fun _ some => absurd none some
        unlabelled := fun _ => rfl }
    · have enumeration : (head id details).titledScalar basis .string =
          { head id details with
            title := some (Title.ofEnumeration basis (Title.keptTexts details.members))
            enumeration := some (Title.keptTexts details.members) } := by
        simp [Head.titledScalar, head, none]
      rw [enumeration]
      have bare (all : ∀ text ∈ Title.keptTexts details.members, Identifier.isBare text) :
          Title.ofEnumeration basis (Title.keptTexts details.members) =
            Case.capitalize basis ++ "Enum" := if_pos (List.all_eq_true.mpr all)
      have valued (some : ∃ text ∈ Title.keptTexts details.members, ¬ Identifier.isBare text) :
          Title.ofEnumeration basis (Title.keptTexts details.members) =
            "ValuedEnum<" ++ (Case.capitalize basis ++ "Enum") ++ ">" := by
        obtain ⟨text, htext, valued⟩ := some
        exact if_neg fun all => valued (List.all_eq_true.mp all text htext)
      exact {
        bare := fun _ _ all => congrArg Option.some (bare all)
        valued := fun _ _ some => congrArg Option.some (valued some)
        string := fun _ empty => absurd empty none
        boolean := fun same => by cases same
        given := fun named => absurd rfl named.1
        derived := fun named => absurd rfl named.1
        document := fun unnamed => absurd unnamed titles
        labelled := fun _ _ => rfl
        unlabelled := fun plain => absurd ⟨rfl, none⟩ plain }

/-- A list of alternatives that is not registered keeps what the document gave it. -/
theorem titled_of_unnamed (unnamed : oneOf ≠ []) :
    Titled false basis .composed details oneOf (head id details) where
  bare := nofun
  valued := nofun
  string := nofun
  boolean := nofun
  given _ _ has := has.1
  derived _ _ titles := absurd ⟨rfl, rfl, unnamed⟩ titles
  document _ := rfl
  labelled := nofun
  unlabelled _ := rfl

variable (items : Option Definition) (properties : List (String × Definition))

/-- A registered schema is titled by its own name. -/
theorem titled_titledHead :
    Titled true basis kind details oneOf
      ((schema kind details items properties oneOf).titledHead basis (head id details)) := by
  have titles : ¬ Unnamed true kind oneOf := fun unnamed => by cases unnamed.1
  cases kind with
  | scalar scalar => exact titled_titledScalar scalar
  | array | object | composed => exact titled_titledByName (by simp [Kind.isNamed]) titles

/-- An inline schema is titled by the name that it stands under. -/
theorem titled_settledHead :
    Titled false basis kind details oneOf
      ((schema kind details items properties oneOf).settledHead basis (head id details)) := by
  cases kind with
  | scalar scalar => exact titled_titledScalar scalar
  | array | object =>
    exact titled_titledByName (by simp [Kind.isNamed]) fun unnamed => by cases unnamed.2.1
  | composed =>
    cases oneOf with
    | nil => exact titled_titledByName (by simp [Kind.isNamed]) fun unnamed => unnamed.2.2 rfl
    | cons child rest => exact titled_of_unnamed (List.cons_ne_nil child rest)

end Definition

namespace Standing
variable {s : Standing} {kind : Kind} {details : Details} {items : Option Definition}
  {properties : List (String × Definition)} {oneOf : List Definition}

theorem titled_head (schema : s.definition = .schema kind details items properties oneOf) :
    Titled s.place.steps.isEmpty s.place.basis kind details oneOf s.head := by
  unfold head
  rw [schema]
  cases s.place.steps.isEmpty with
  | true => exact Definition.titled_titledHead items properties
  | false => exact Definition.titled_settledHead items properties

end Standing

namespace Definitions
variable {definitions : Definitions}

/-- What goes by a name stands in the document, and the name is the one that its place gives. -/
theorem GoesBy.exists_standing {place : Place} {basis : String} {d : Definition}
    (goes : definitions.GoesBy place basis d) :
    ∃ s ∈ definitions.standings, s.place = place ∧ s.place.basis = basis ∧ s.definition = d := by
  have part : ∀ {s : Standing} {p : Part}, s ∈ definitions.standings → p ∈ s.definition.parts →
      ∃ t ∈ definitions.standings, t.place = s.place.child p.step ∧
        t.place.basis = p.step.basis s.place.basis ∧ t.definition = p.definition := by
    intro s p hs hp
    refine ⟨p.standing s.place s.id s.kept, part_mem_standings hs (List.mem_map_of_mem hp), rfl, ?_,
      rfl⟩
    exact Place.basis_child s.place p.step
  induction goes with
  | @registered name d listed => exact ⟨_, top_mem_standings listed, rfl, rfl, rfl⟩
  | @property place basis name details items properties oneOf child outer listed ih =>
    obtain ⟨s, hs, rfl, rfl, schema⟩ := ih
    obtain ⟨before, after, rfl⟩ := List.append_of_mem listed
    exact part (p := ⟨.property name, _, child⟩) hs
      (by rw [schema]; exact Definition.mem_propertyParts.mpr ⟨before, name, child, after, rfl, rfl⟩)
  | @items place basis details child properties oneOf outer ih =>
    obtain ⟨s, hs, rfl, rfl, schema⟩ := ih
    exact part (p := ⟨.items, true, child⟩) hs (by simp [schema, Definition.parts])
  | @alternative place basis details items properties oneOf child index outer listed ih =>
    obtain ⟨s, hs, rfl, rfl, schema⟩ := ih
    refine part (p := ⟨.alternative index, true, child⟩) hs ?_
    rw [schema, Definition.parts, Definition.alternativeParts_eq, List.mem_map]
    exact ⟨(child, index), List.mk_mem_zipIdx_iff_getElem?.mpr listed, rfl⟩

/-- Whatever stands in the document goes by the name that its place gives. -/
theorem goesBy_of_standing {s : Standing} (hs : s ∈ definitions.standings) :
    definitions.GoesBy s.place s.place.basis s.definition := by
  refine standings_induction (motive := fun s =>
    definitions.GoesBy s.place s.place.basis s.definition) ?_ ?_ hs
  · exact fun named hnamed => .registered hnamed
  · rintro ⟨place, id, kept, d⟩ - outer p hp
    rw [Part.standing, Place.basis_child]
    cases d with
    | reference text => simp [Definition.parts] at hp
    | schema kind details items properties oneOf =>
      cases kind with
      | scalar kind => simp [Definition.parts] at hp
      | array =>
        obtain ⟨child, rfl, rfl⟩ : ∃ child, items = some child ∧ Part.mk .items true child = p := by
          simpa [Definition.parts] using hp
        exact .items outer
      | object =>
        obtain ⟨before, name, child, after, rfl, rfl⟩ := Definition.mem_propertyParts.mp hp
        exact .property outer (List.mem_append_right before List.mem_cons_self)
      | composed =>
        rw [Definition.parts, Definition.alternativeParts_eq, List.mem_map] at hp
        obtain ⟨child, hchild, rfl⟩ := hp
        exact .alternative outer (List.mk_mem_zipIdx_iff_getElem?.mp hchild)

section
variable {convention : Case.Convention} {catalog : Catalog Place} {place : Place} {basis : String}
  {node : Node Place}

/-- A place says which definition its node comes from, and by which name that goes. -/
theorem GoesBy.exists_shown (distinct : definitions.Distinct)
    (resolved : Resolved convention definitions catalog) {d : Definition}
    (goes : definitions.GoesBy place basis d) (found : catalog.node? place = some node) :
    ∃ s : Standing, s.place = place ∧ s.place.basis = basis ∧ s.definition = d ∧
      s.node? definitions.registry = some node := by
  obtain ⟨s, hs, rfl, rfl, rfl⟩ := goes.exists_standing
  obtain ⟨t, ht, -, same, shown⟩ := resolved.exists_standing found
  cases distinct.eq_of_place ht hs same
  exact ⟨s, rfl, rfl, rfl, shown⟩

/-- A node is the schema that goes by the name of its place. -/
theorem GoesBy.titled (distinct : definitions.Distinct)
    (resolved : Resolved convention definitions catalog) {kind : Kind} {details : Details}
    {items : Option Definition} {properties : List (String × Definition)} {oneOf : List Definition}
    (goes : definitions.GoesBy place basis (.schema kind details items properties oneOf))
    (found : catalog.node? place = some node) :
    node.content.kind = kind ∧ node.head.members = details.members ∧
      Titled place.steps.isEmpty basis kind details oneOf node.head := by
  obtain ⟨s, rfl, rfl, schema, shown⟩ := goes.exists_shown distinct resolved found
  obtain ⟨content, filled, rfl⟩ := Option.map_eq_some_iff.mp shown
  have members := s.head_restates.members
  rw [schema] at filled members
  refine ⟨?_, members, Standing.titled_head schema⟩
  cases kind <;> cases filled <;> rfl

theorem exists_goesBy (resolved : Resolved convention definitions catalog)
    (found : catalog.node? place = some node) :
    ∃ basis kind details items properties oneOf,
      definitions.GoesBy place basis (.schema kind details items properties oneOf) := by
  obtain ⟨s, hs, -, rfl, shown⟩ := resolved.exists_standing found
  have goes := goesBy_of_standing hs
  have schema := Standing.isSchema_of_node? shown
  cases hd : s.definition with
  | reference text => simp [Standing.isSchema, hd, Definition.isReference] at schema
  | schema kind details items properties oneOf => exact ⟨_, _, _, _, _, _, hd ▸ goes⟩

end

/-- Every schema of a graph goes by a name, registered schemas by their own, and is titled by it. -/
structure TitledByPlace (definitions : Definitions) (catalog : Catalog Place) : Prop where
  named : ∀ place node, catalog.node? place = some node →
    ∃ basis kind details items properties oneOf,
      definitions.GoesBy place basis (.schema kind details items properties oneOf)
  registered : ∀ name d, (name, d) ∈ definitions → d.isReference = false →
    (catalog.node? (.registered name)).isSome
  titled : ∀ place basis kind details items properties oneOf,
    definitions.GoesBy place basis (.schema kind details items properties oneOf) →
    ∀ node, catalog.node? place = some node → node.content.kind = kind ∧
      Titled place.steps.isEmpty basis kind details oneOf node.head
  labelled : ∀ place node, catalog.node? place = some node →
    (node.head.enumLabel.isSome ↔ node.content.kind = .scalar .string ∧ node.head.members ≠ [])

/-- Each schema of a resolved document is titled by the name that it goes by at its place, and the
same definition under that name gets the same title in any other document, whatever refers to it. -/
theorem titles_by_place (distinct : definitions.Distinct) {convention : Case.Convention}
    {catalog : Catalog Place} (ok : (resolve convention definitions).1 = .ok catalog) :
    definitions.TitledByPlace catalog ∧
    ∀ (convention' : Case.Convention) (definitions' : Definitions) (catalog' : Catalog Place),
      definitions'.Distinct → (resolve convention' definitions').1 = .ok catalog' →
      ∀ place place' basis d node node',
        definitions.GoesBy place basis d → definitions'.GoesBy place' basis d →
        place.steps.isEmpty = place'.steps.isEmpty →
        catalog.node? place = some node → catalog'.node? place' = some node' →
        node.head.title = node'.head.title ∧ node.head.enumLabel = node'.head.enumLabel := by
  have resolved := Resolved.of_resolve ok
  refine ⟨⟨fun place node => exists_goesBy resolved, ?_, ?_, ?_⟩, ?_⟩
  · intro name d listed schema
    obtain ⟨node, found⟩ := resolved.exists_node (top_mem_standings listed) rfl
      (by simp [Standing.isSchema, Standing.top, schema])
    exact Option.isSome_iff_exists.mpr ⟨node, found⟩
  · intro place basis kind details items properties oneOf goes node found
    obtain ⟨shape, -, titled⟩ := goes.titled distinct resolved found
    exact ⟨shape, titled⟩
  · intro place node found
    obtain ⟨basis, kind, details, items, properties, oneOf, goes⟩ := exists_goesBy resolved found
    obtain ⟨rfl, members, titled⟩ := goes.titled distinct resolved found
    rw [members]
    exact titled.isSome_enumLabel_iff
  · intro convention' definitions' catalog' distinct' ok' place place' basis d node node' goes goes'
      depth found found'
    have resolved' := Resolved.of_resolve ok'
    cases d with
    | reference text =>
      obtain ⟨s, -, -, reference, shown⟩ := goes.exists_shown distinct resolved found
      simp [Standing.node?, Definition.content, reference] at shown
    | schema kind details items properties oneOf =>
      obtain ⟨-, -, titled⟩ := goes.titled distinct resolved found
      obtain ⟨-, -, titled'⟩ := goes'.titled distinct' resolved' found'
      rw [← depth] at titled'
      exact ⟨titled.eq_title titled', titled.eq_enumLabel titled'⟩

/-- Titles of every kind: given, derived, of enumerations and of alternatives inline or registered. -/
def wardrobe : Definitions :=
  let sized (members : List Value) : Definition :=
    .schema (.scalar .string) { Details.bare with members := members } none [] []
  [("coat-rack", .schema .object .bare none
      [("Hook_size", sized [.text "small", .null, .text " x-l "]),
        ("pegs", .schema .array .bare (some (sized [.text "brass"])) [] []),
        ("top", .schema .composed .bare none []
          [.schema (.scalar .integer) { Details.bare with title := some "Height" } none [] [],
            .reference "#/components/schemas/hat_box"])] []),
    ("hat_box", .schema .composed .bare none [] [.schema (.scalar .boolean) .bare none [] []])]

/-- What `wardrobe` resolves to. -/
def wardrobeCatalog : Catalog Place := (resolve .type wardrobe).1.toOption.getD ⟨[], []⟩

theorem titles_by_place_wardrobe : wardrobe.Distinct ∧
    (resolve .type wardrobe).1 = .ok wardrobeCatalog ∧ wardrobe.TitledByPlace wardrobeCatalog ∧
    wardrobeCatalog.nodes.map (fun entry => (entry.1.basis, entry.2.head.title)) =
      [("coat-rack", some "Coatrack"), ("Hook_size", some "ValuedEnum<Hook_sizeEnum>"),
        ("pegs", some "Pegs"), ("pegs", some "PegsEnum"), ("top", none),
        ("topOneOf0", some "Height"), ("hat_box", some "Hatbox"),
        ("hat_boxOneOf0", some "boolean")] :=
  have distinct : wardrobe.Distinct := by decide
  have ok : (resolve .type wardrobe).1 = .ok wardrobeCatalog := rfl
  ⟨distinct, ok, (titles_by_place distinct ok).1, rfl⟩

end Definitions
end SchemaTables
