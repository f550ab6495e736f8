import SchemaTables.Proofs.Settlement

/-!
# Schemas titled more than once

A registered schema is titled where it is registered and again when it is settled. Strings and booleans
are titled anew each time, so that the last name has its way; other schemas keep the first title that is
not empty. Either way the same name twice does what it does once.
-/
namespace SchemaTables

def Value.isNull : Value → Bool
  | .null => true
  | _ => false

theorem Value.isNull_iff {value : Value} : value.isNull = true ↔ value = .null := by
  cases value <;> simp [isNull]

namespace Title

/-- What an enumeration has to show: its members without the nulls, as texts without the blanks around
them, and of these neither the empty ones nor any that says null. -/
def shownTexts (members : List Value) : List String :=
  ((members.filter (!·.isNull)).map fun member => Blank.trim member.display).filter
    fun text => text ≠ "" ∧ text ≠ "null"

theorem keptText?_of_value {member : Value} (value : member ≠ .null) : keptText? member =
    if Blank.trim member.display ≠ "" ∧ Blank.trim member.display ≠ "null"
      then some (Blank.trim member.display) else none := by
  unfold keptText?
  split
  · exact absurd rfl value
  · generalize Blank.trim member.display = text
    by_cases empty : text = ""
    · simp [empty]
    · by_cases null : text = "null" <;> simp [empty, null]

theorem keptTexts_eq_shownTexts (members : List Value) : keptTexts members = shownTexts members := by
  unfold keptTexts shownTexts
  induction members with
  | nil => rfl
  | cons member members ih =>
    by_cases null : member = .null
    · have skipped : keptText? member = none := null ▸ rfl
      rw [List.filterMap_cons_none skipped, ih, List.filter_cons_of_neg (by simp [null, Value.isNull])]
    · have value : member.isNull = false := by simpa [← Value.isNull_iff] using null
      have kept := keptText?_of_value null
      rw [List.filter_cons_of_pos (by simp [value]), List.map_cons]
      by_cases shown : Blank.trim member.display ≠ "" ∧ Blank.trim member.display ≠ "null"
      · rw [if_pos shown] at kept
        rw [List.filterMap_cons_some kept, List.filter_cons_of_pos (by simpa using shown), ih]
      · rw [if_neg shown] at kept
        rw [List.filterMap_cons_none kept, List.filter_cons_of_neg (by simpa using shown), ih]

/-- The first text that is not empty, if there is one. -/
def firstText (texts : List String) : String := (texts.find? (· ≠ "")).getD ""

theorem firstText_cons_empty (texts : List String) : firstText ("" :: texts) = firstText texts := by
  simp [firstText]

theorem firstText_cons {text : String} (nonempty : text ≠ "") (texts : List String) :
    firstText (text :: texts) = text := by
  simp [firstText, nonempty]

theorem firstText_singleton (text : String) : firstText [text] = text := by
  by_cases empty : text = ""
  · rw [empty, firstText_cons_empty]
    rfl
  · exact firstText_cons empty []

/-- The first text of some stands for all of them. -/
theorem firstText_firstText (texts others : List String) :
    firstText (firstText texts :: others) = firstText (texts ++ others) := by
  induction texts with
  | nil => exact firstText_cons_empty others
  | cons text texts ih =>
    by_cases empty : text = ""
    · rw [empty, firstText_cons_empty, List.cons_append, firstText_cons_empty, ih]
    · rw [firstText_cons empty, List.cons_append, firstText_cons empty, firstText_cons empty]

end Title

namespace Head

/-- The title that names give a head: its own if that is not empty, else the first that is not empty of
those that the names make. -/
def titleAmong (names : List String) (head : Head) : String :=
  Title.firstText (head.title.toList ++ names.map Title.ofName)

def retitled (names : List String) (head : Head) : Head :=
  { head with title := some (head.titleAmong names) }

theorem titledByName_eq_retitled (name : String) (head : Head) :
    head.titledByName name = head.retitled [name] := by
  obtain ⟨id, title, description, members, required, enumeration⟩ := head
  have made : Title.firstText [Title.ofName name] = Title.ofName name := Title.firstText_singleton _
  cases title with
  | none => simp [titledByName, isTitled, retitled, titleAmong, made]
  | some title =>
    by_cases empty : title = ""
    · simp [titledByName, isTitled, retitled, titleAmong, empty, Title.firstText_cons_empty, made]
    · simp [titledByName, isTitled, retitled, titleAmong, empty, Title.firstText_cons empty]

theorem retitled_retitled (earlier names : List String) (head : Head) :
    (head.retitled earlier).retitled names = head.retitled (earlier ++ names) := by
  have chosen : (head.retitled earlier).titleAmong names = head.titleAmong (earlier ++ names) := by
    show Title.firstText (Title.firstText (head.title.toList ++ earlier.map Title.ofName) ::
      names.map Title.ofName) = _
    rw [Title.firstText_firstText, List.append_assoc, ← List.map_append]
    rfl
  rw [retitled, chosen]
  rfl

/-- The first name sticks: what a head is titled by stays with it from then on. -/
theorem foldl_titledByName (name : String) (names : List String) (head : Head) :
    (name :: names).foldl (fun head name => head.titledByName name) head =
      head.retitled (name :: names) := by
  induction names generalizing name head with
  | nil => exact titledByName_eq_retitled name head
  | cons next names ih =>
    rw [List.foldl_cons, ih, titledByName_eq_retitled, retitled_retitled]
    rfl

end Head

namespace Entry

/-- Titles a schema by several names, one after another. -/
def titledInTurn (names : List String) (entry : Entry) : Entry :=
  names.foldl (fun entry name => entry.titled name) entry

/-- Strings and booleans. -/
def isTitledAnew : Entry → Bool
  | scalar _ _ .string | scalar _ _ .boolean => true
  | _ => false

/-- A schema whose head alone is changed. -/
def mapHead (change : Head → Head) : Entry → Entry
  | scalar site head kind => scalar site (change head) kind
  | array site head items => array site (change head) items
  | object site head properties => object site (change head) properties
  | composed site head alternatives => composed site (change head) alternatives
  | entry => entry

theorem mapHead_id (entry : Entry) : entry.mapHead id = entry := by
  cases entry <;> rfl

theorem mapHead_mapHead (first second : Head → Head) (entry : Entry) :
    (entry.mapHead first).mapHead second = entry.mapHead fun head => second (first head) := by
  cases entry <;> rfl

theorem isTitledAnew_titled (name : String) (entry : Entry) :
    (entry.titled name).isTitledAnew = entry.isTitledAnew := by
  cases entry with
  | scalar site head kind => cases kind <;> rfl
  | _ => rfl

theorem titled_of_named {entry : Entry} (named : entry.isTitledAnew = false) (name : String) :
    entry.titled name = entry.mapHead (Head.titledByName name) := by
  cases entry with
  | scalar site head kind => cases kind <;> first | rfl | cases named
  | _ => rfl

/-- A string or a boolean does not remember the names before. -/
theorem titled_titled_of_anew {entry : Entry} (anew : entry.isTitledAnew = true)
    (earlier name : String) : (entry.titled earlier).titled name = entry.titled name := by
  cases entry with
  | scalar site head kind =>
    have forgets : (head.titledScalar earlier kind).titledScalar name kind =
        head.titledScalar name kind := by
      cases kind with
      | string => by_cases none : head.members.isEmpty <;> simp [Head.titledScalar, none]
      | boolean => rfl
      | integer | number => cases anew
    rw [titled, titled, titled, forgets]
  | _ => cases anew

theorem titledInTurn_of_anew {entry : Entry} (anew : entry.isTitledAnew = true) (name : String)
    (names : List String) : entry.titledInTurn (name :: names) =
      entry.titled ((name :: names).getLast (by simp)) := by
  induction names generalizing name entry with
  | nil => rfl
  | cons next names ih =>
    have still : (entry.titled name).isTitledAnew = true := by rw [isTitledAnew_titled, anew]
    have rest := ih still next
    rw [titled_titled_of_anew anew] at rest
    rw [List.getLast_cons (by simp), ← rest]
    rfl

theorem titledInTurn_of_named {entry : Entry} (named : entry.isTitledAnew = false)
    (names : List String) : entry.titledInTurn names =
      entry.mapHead fun head => names.foldl (fun head name => head.titledByName name) head := by
  induction names generalizing entry with
  | nil => exact (mapHead_id entry).symm
  | cons name names ih =>
    have still : (entry.titled name).isTitledAnew = false := by rw [isTitledAnew_titled, named]
    calc entry.titledInTurn (name :: names)
        = (entry.titled name).titledInTurn names := rfl
      _ = (entry.titled name).mapHead fun head =>
            names.foldl (fun head name => head.titledByName name) head := ih still
      _ = _ := by rw [titled_of_named named, mapHead_mapHead]; rfl

theorem titled_titled (name : String) (entry : Entry) :
    (entry.titled name).titled name = entry.titled name := by
  cases entry with
  | reference | target => rfl
  | scalar site head kind => rw [titled, titled, Definition.titledScalar_titledScalar]
  | array site head | object site head | composed site head =>
    rw [titled, titled, Definition.titledByName_titledByName]

/-- Settling a schema under the name that it is titled by leaves its head alone, whatever becomes of its
parts. -/
theorem head?_settle_titled (registry : Registry) (name : String) (entry : Entry) :
    ((entry.titled name).settle registry name).after.head? = (entry.titled name).head? := by
  have kept := fun head => Definition.titledByName_titledByName name head
  cases entry with
  | reference | target => rfl
  | scalar site head kind =>
    have same := Definition.titledScalar_titledScalar name kind head
    by_cases settled : site.settled <;> simp [titled, settle, settled, head?, same]
  | array site head items =>
    by_cases settled : site.settled
    · simp [titled, settle, settled, head?]
    · simp only [titled, settle, settled, close]
      cases (settleItems registry name items).fault <;> simp [Visit.map, head?, kept]
  | object site head properties =>
    by_cases settled : site.settled
    · simp [titled, settle, settled, head?]
    · simp only [titled, settle, settled, close]
      cases (settleFields registry .field false [] properties).fault <;> simp [Visit.map, head?, kept]
  | composed site head alternatives =>
    by_cases settled : site.settled
    · simp [titled, settle, settled, head?]
    · simp only [titled, settle, settled, close]
      cases (settleAlternatives registry name 0 alternatives).fault with
      | none =>
        by_cases empty : (settleAlternatives registry name 0 alternatives).after.isEmpty <;>
          simp [Visit.map, head?, kept, empty]
      | some fault => simp [Visit.map, head?]

/-- What stands under each name, by its head. -/
def heads (entries : List (String × Entry)) : List (String × Option Head) :=
  entries.map fun named => (named.1, named.2.head?)

theorem heads_settleFields (registry : Registry) (convention : Case.Convention) (outermost : Bool)
    (met : List String) (entries : List (String × Entry)) :
    let titled := entries.map fun named => (named.1, named.2.titled named.1)
    heads (settleFields registry convention outermost met titled).after = heads titled := by
  dsimp only
  induction entries generalizing met with
  | nil => rfl
  | cons named entries ih =>
    have head := head?_settle_titled registry named.1 named.2
    rw [List.map_cons, settleFields]
    dsimp only
    cases (settle registry named.1 (named.2.titled named.1)).fault with
    | some fault =>
      show (named.1, _) :: _ = (named.1, _) :: _
      rw [head]
    | none =>
      show (named.1, _) :: heads _ = (named.1, _) :: heads _
      rw [head, ih]

/-- What becomes of a schema that is titled by `name` and then by `names`. -/
structure Retitled (entry : Entry) (name : String) (names : List String) : Prop where
  last : entry.isTitledAnew = true → entry.titledInTurn (name :: names) =
    entry.titled ((name :: names).getLast (by simp))
  first : entry.isTitledAnew = false → entry.titledInTurn (name :: names) =
    entry.mapHead (Head.retitled (name :: names))
  twice : (entry.titled name).titled name = entry.titled name
  settled : ∀ (registry : Registry) (convention : Case.Convention) (outermost : Bool),
    heads (registry.titled.settleAll convention outermost).after = heads registry.titled
  shown : ∀ {site head}, entry = .scalar site head .string → head.members ≠ [] →
    ∃ after, entry.titledInTurn (name :: names) = .scalar site after .string ∧
      after.enumValues = Title.shownTexts head.members ∧
      after.enumLabel = some (", ".intercalate (Title.shownTexts head.members))

/-- The last name decides for strings and booleans, the first that gives a text for the others, and no
later visit under the name changes what it decided. -/
theorem titled_in_turn (entry : Entry) (name : String) (names : List String) :
    entry.Retitled name names where
  last anew := titledInTurn_of_anew anew name names
  first named := by
    rw [titledInTurn_of_named named]
    congr 1
    exact funext fun head => head.foldl_titledByName name names
  twice := titled_titled name entry
  settled registry convention outermost :=
    heads_settleFields registry.titled convention outermost [] registry
  shown := by
    rintro site head rfl members
    have some : head.members.isEmpty = false := by simpa using members
    rw [titledInTurn_of_anew rfl, titled, Head.titledScalar, some, Title.keptTexts_eq_shownTexts]
    exact ⟨_, rfl, rfl, rfl⟩

example : ((composed ⟨.loose "pet", false⟩ ⟨"pet", some "", none, [], [], none⟩ []).titledInTurn
    ["-", "_pet-shop", "other"]).head?.map Head.title = some (some "petshop") := by decide

end Entry
end SchemaTables
