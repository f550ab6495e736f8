/-! Splitting command line arguments into options and positional arguments. -/
namespace SchemaTables

/-- An option with its short letters and long names, without their hyphens. -/
structure OptionSpec where
  key : String
  letters : List Char
  words : List String
  takesValue : Bool
deriving Repr

/-- An option met on the command line, with its value if it takes one. -/
structure OptionUse where
  key : String
  value : Option String
deriving DecidableEq, Repr

inductive OptionFault where
  | unknown (name : String)
  | missingValue (name : String)
  | unwantedValue (name : String)
deriving DecidableEq, Repr

/-- The options in order of appearance, and the other arguments. -/
structure Arguments where
  options : List OptionUse
  positional : List String
deriving DecidableEq, Repr

namespace OptionSpec

def ofLetter? (specs : List OptionSpec) (letter : Char) : Option OptionSpec :=
  specs.find? fun spec => spec.letters.contains letter

def ofWord? (specs : List OptionSpec) (word : String) : Option OptionSpec :=
  specs.find? fun spec => spec.words.contains word

end OptionSpec

namespace Arguments

/-- What one argument says: uses of options, and the option that still waits for its value. -/
structure Reading where
  uses : List OptionUse
  waiting : Option (OptionSpec × String)

/-- The text before the first equals sign, and the text after it. -/
def splitEquals : List Char → List Char × Option (List Char)
  | [] => ([], none)
  | '=' :: cs => ([], some cs)
  | c :: cs =>
    let (name, value) := splitEquals cs
    (c :: name, value)

/-- A cluster of letters. The first that takes a value takes the rest of the cluster, or else the
next argument. -/
def readLetters (specs : List OptionSpec) : List Char → Except OptionFault Reading
  | [] => .ok ⟨[], none⟩
  | letter :: rest =>
    let name := String.ofList ['-', letter]
    match OptionSpec.ofLetter? specs letter with
    | none => .error (.unknown name)
    | some spec =>
      if spec.takesValue then
        if rest.isEmpty then .ok ⟨[], some (spec, name)⟩
        else .ok ⟨[⟨spec.key, some (String.ofList rest)⟩], none⟩
      else (readLetters specs rest).map fun reading => { reading with
        uses := ⟨spec.key, none⟩ :: reading.uses }

def readWord (spec : OptionSpec) (name : String) (value : Option (List Char)) :
    Except OptionFault Reading :=
  match spec.takesValue, value with
  | true, some cs => .ok ⟨[⟨spec.key, some (String.ofList cs)⟩], none⟩
  | true, none => .ok ⟨[], some (spec, name)⟩
  | false, none => .ok ⟨[⟨spec.key, none⟩], none⟩
  | false, some _ => .error (.unwantedValue name)

/-- Two hyphens begin a word, one begins letters. -/
def readOption (specs : List OptionSpec) : List Char → Except OptionFault Reading
  | '-' :: '-' :: cs =>
    let (word, value) := splitEquals cs
    let name := String.ofList ('-' :: '-' :: word)
    match OptionSpec.ofWord? specs (String.ofList word) with
    | some spec => readWord spec name value
    | none => .error (.unknown name)
  | _ :: cs => readLetters specs cs
  | [] => .ok ⟨[], none⟩

/-- A hyphen alone is no option. -/
def isOption : List Char → Bool
  | '-' :: _ :: _ => true
  | _ => false

def withOptions (uses : List OptionUse) (arguments : Arguments) : Arguments :=
  { arguments with options := uses ++ arguments.options }

/-- Reads arguments up to two hyphens alone. Where options and other arguments may not be mixed, the
first other argument ends the options too. -/
def parse (specs : List OptionSpec) (mixed : Bool) : List String → Except OptionFault Arguments
  | [] => .ok ⟨[], []⟩
  | "--" :: rest => .ok ⟨[], rest⟩
  | arg :: rest =>
    if isOption arg.toList then
      match readOption specs arg.toList with
      | .error fault => .error fault
      | .ok ⟨uses, none⟩ => (parse specs mixed rest).map (withOptions uses)
      | .ok ⟨uses, some (spec, name)⟩ =>
        match rest with
        | [] => .error (.missingValue name)
        | value :: rest =>
          (parse specs mixed rest).map (withOptions (uses ++ [⟨spec.key, some value⟩]))
    else if mixed then
      (parse specs mixed rest).map fun arguments =>
        { arguments with positional := arg :: arguments.positional }
    else .ok ⟨[], arg :: rest⟩

/-- The value of an option; of several the last counts. -/
def value? (arguments : Arguments) (key : String) : Option String :=
  ((arguments.options.filter fun use => use.key == key).getLast?).bind (·.value)

/-- The values of options in the order in which the options appear first. -/
def values (arguments : Arguments) (keys : List String) : List String :=
  let appearing := (arguments.options.map (·.key)).filter keys.contains
  appearing.filterMap arguments.value?

def has (arguments : Arguments) (key : String) : Bool :=
  arguments.options.any fun use => use.key == key

/-- The option among `keys` that appears first. -/
def first? (arguments : Arguments) (keys : List String) : Option String :=
  (arguments.options.find? fun use => keys.contains use.key).map (·.key)

end Arguments
end SchemaTables
