import SchemaTables.Run.YamlFile
import SchemaTables.Text.Blank
import SchemaTables.Value.Display

/-! The settings of a run, as a configuration file states them. -/
namespace SchemaTables

structure Settings where
  descriptions : Bool
  selection : List String
  output : Option FilePath
deriving DecidableEq, Repr

def Settings.default : Settings := ⟨true, [], none⟩

inductive ConfigurationFault where
  | file (path : FilePath) (fault : YamlFileFault)
  | rootNotMapping
  | unknownKeys (keys : List String)
  | untoldKey
  | descriptionNotBoolean
  | selectionEntryNotText
  | selectionNotList
  | outputNotText
  | outputUnreachable (flaw : NameFlaw)
deriving DecidableEq, Repr

namespace ConfigurationFault

def message : ConfigurationFault → String
  | file path .notFound => "Configuration file not found: " ++ path.text
  | file _ (.malformed violation) => "Failed to parse configuration file: " ++ violation.message
  | file _ fault => fault.abruptMessage
  | rootNotMapping => "Configuration root must be a mapping."
  | unknownKeys keys => "Unknown configuration keys: " ++ ", ".intercalate keys
  | untoldKey => Value.untoldMessage
  | descriptionNotBoolean => "description must be true or false."
  | selectionEntryNotText => "selection entries must be strings."
  | selectionNotList => "selection must be a string or list of strings."
  | outputNotText => "output must be a string."
  | outputUnreachable flaw => flaw.message

end ConfigurationFault

namespace Configuration

/-- What a configuration states; `output` is a text that is not blank, and still seen from the
configuration file. -/
structure Statement where
  descriptions : Bool
  selection : List String
  output : Option String
deriving DecidableEq, Repr

def knownKeys : List String := ["description", "selection", "output"]

def isKnown (key : Value) : Bool := knownKeys.any fun known => key.sameKey (.text known)

def insertSorted (text : String) : List String → List String
  | [] => [text]
  | t :: rest => if text ≤ t then text :: t :: rest else t :: insertSorted text rest

theorem insertSorted_perm (text : String) (texts : List String) :
    (insertSorted text texts).Perm (text :: texts) := by
  induction texts with
  | nil => exact .refl _
  | cons t rest ih =>
    unfold insertSorted
    split
    · exact .refl _
    · exact (ih.cons t).trans (.swap text t rest)

theorem insertSorted_sorted (text : String) {texts : List String} (h : texts.Pairwise (· ≤ ·)) :
    (insertSorted text texts).Pairwise (· ≤ ·) := by
  induction texts with
  | nil => simp [insertSorted]
  | cons t rest ih =>
    have hr := List.pairwise_cons.mp h
    unfold insertSorted
    split
    · next le =>
      refine List.pairwise_cons.mpr ⟨fun u hu => ?_, h⟩
      rcases List.mem_cons.mp hu with rfl | hu
      · exact le
      · exact String.le_trans le (hr.1 u hu)
    · next nle =>
      refine List.pairwise_cons.mpr ⟨fun u hu => ?_, ih hr.2⟩
      rcases List.mem_cons.mp ((insertSorted_perm text rest).mem_iff.mp hu) with rfl | hu
      · exact (String.le_total u t).resolve_left nle
      · exact hr.1 u hu

def sortTexts (texts : List String) : List String := texts.foldr insertSorted []

theorem sortTexts_perm (texts : List String) : (sortTexts texts).Perm texts := by
  induction texts with
  | nil => exact .refl _
  | cons text rest ih => exact (insertSorted_perm text (sortTexts rest)).trans (ih.cons text)

theorem sortTexts_sorted (texts : List String) : (sortTexts texts).Pairwise (· ≤ ·) := by
  induction texts with
  | nil => exact .nil
  | cons text rest ih => exact insertSorted_sorted text ih

def unknownKeys (fields : List (Value × Value)) : List Value :=
  (fields.map (·.1)).filter fun key => !isKnown key

/-- A missing description counts as true. -/
def descriptions : Option Value → Except ConfigurationFault Bool
  | none => .ok true
  | some (.bool value) => .ok value
  | some _ => .error .descriptionNotBoolean

/-- Adds a name without the blanks around it, unless nothing is left or it is there already. -/
def addName (names : List String) (name : String) : List String :=
  let name := Blank.trim name
  if name.isEmpty || names.contains name then names else names ++ [name]

theorem addName_nodup {names : List String} (h : names.Nodup) (name : String) :
    (addName names name).Nodup := by
  simp only [addName]
  split
  · exact h
  · next new =>
    simp only [Bool.or_eq_true, not_or, List.contains_iff_mem] at new
    refine List.nodup_append.mpr ⟨h, by simp, fun a ha b hb e => ?_⟩
    rw [List.mem_singleton] at hb
    subst hb e
    exact new.2 ha

def entryTexts : List Value → Except ConfigurationFault (List String)
  | [] => .ok []
  | .text text :: rest => (entryTexts rest).map (text :: ·)
  | _ :: _ => .error .selectionEntryNotText

def selection : Value → Except ConfigurationFault (List String)
  | .null => .ok []
  | .text text => .ok (addName [] text)
  | value =>
    match value.sequence? with
    | some items => (entryTexts items).map (·.foldl addName [])
    | none => .error .selectionNotList

def output : Value → Except ConfigurationFault (Option String)
  | .null => .ok none
  | .text text =>
    let text := Blank.trim text
    .ok (if text.isEmpty then none else some text)
  | _ => .error .outputNotText

def ofFields (fields : List (Value × Value)) : Except ConfigurationFault Statement := do
  let unknown := unknownKeys fields
  if !unknown.all Value.isTold then throw .untoldKey
  if !unknown.isEmpty then throw (.unknownKeys (sortTexts (unknown.map Value.display)))
  return {
    descriptions := ← descriptions (Value.field? "description" fields)
    selection := ← selection (Value.field "selection" fields)
    output := ← output (Value.field "output" fields) }

section
variable {fields : List (Value × Value)}

theorem ofFields_of_untold {key : Value} (unknown : key ∈ unknownKeys fields)
    (untold : ¬ key.isTold) : ofFields fields = .error .untoldKey := by
  have some : (unknownKeys fields).all Value.isTold = false := by
    rw [← Bool.not_eq_true, List.all_eq_true]
    exact fun told => untold (told key unknown)
  unfold ofFields
  dsimp only
  rw [some]
  rfl

theorem ofFields_of_unknown (told : ∀ key ∈ unknownKeys fields, key.isTold)
    (some : unknownKeys fields ≠ []) : ofFields fields =
      .error (.unknownKeys (sortTexts ((unknownKeys fields).map Value.display))) := by
  have filled : (unknownKeys fields).isEmpty = false := by simpa using some
  unfold ofFields
  dsimp only
  rw [List.all_eq_true.mpr told, filled]
  rfl

theorem ofFields_of_known (none : unknownKeys fields = []) : ofFields fields = do
      let shown ← descriptions (Value.field? "description" fields)
      let names ← selection (Value.field "selection" fields)
      let path ← output (Value.field "output" fields)
      return ⟨shown, names, path⟩ := by
  unfold ofFields
  rw [none]
  rfl

end

/-- The statement of a parsed configuration; null states nothing. -/
def ofValue : Value → Except ConfigurationFault Statement
  | .null => ofFields []
  | .map fields => ofFields fields
  | _ => .error .rootNotMapping

/-- An output is relative to the directory of its configuration file. -/
def outputPath (working path : FilePath) (text : String) : Except ConfigurationFault FilePath :=
  let output := FilePath.ofText text
  if output.isAbsolute then .ok output
  else
    let full := path.parent.under output
    match full.firstFlaw? with
    | some flaw => .error (.outputUnreachable flaw)
    | none => .ok (FilePath.resolve working full)

def settings (working path : FilePath) (statement : Statement) :
    Except ConfigurationFault Settings := do
  let output ← statement.output.mapM (outputPath working path)
  return ⟨statement.descriptions, statement.selection, output⟩

/-- The settings that a parsed configuration states, seen from its file. -/
def read (working path : FilePath) (value : Value) : Except ConfigurationFault Settings := do
  settings working path (← ofValue value)

variable {m : Type → Type} [Monad m] [FileStore m]

def load (path : FilePath) : m (Except ConfigurationFault Settings) := do
  match ← YamlFile.load .configuration path with
  | .error fault => return .error (.file path fault)
  | .ok value =>
    let working ← FileStore.workingDirectory
    return read working path value

end Configuration
end SchemaTables
