import SchemaTables.Text.Surrogate

/-! Paths as they are written. Empty components and dots are dropped; two dots stay, because they mean
the parent of a directory that may not be there. -/
namespace SchemaTables

/-- Why a text is no name of a file. Names are bytes without a zero. The surrogates from U+DC80 to
U+DCFF stand for bytes that are no text; no other surrogate stands for any. -/
inductive NameFlaw where
  | surrogate
  | null
deriving DecidableEq, Repr

namespace NameFlaw

def message : NameFlaw → String
  | surrogate => "surrogates not allowed"
  | null => "embedded null byte"

def isNoByte (code : Nat) : Bool :=
  Surrogate.isSurrogate code && !(0xDC80 ≤ code && code < 0xDD00)

def of? (text : String) : Option NameFlaw :=
  let codes := Surrogate.codes text.toList
  if codes.any isNoByte then some surrogate else if codes.contains 0 then some null else none

end NameFlaw

/-- Two slashes at the beginning, and not more, are a root of their own. -/
inductive PathRoot where
  | none
  | slash
  | doubleSlash
deriving DecidableEq, Repr

structure FilePath where
  root : PathRoot
  parts : List String
deriving DecidableEq, Repr

namespace FilePath

/-- The components of a text between slashes; `pending` is the one begun. -/
def components (pending : List Char) : List Char → List String
  | [] => [String.ofList pending]
  | c :: cs =>
    if c = '/' then String.ofList pending :: components [] cs else components (pending ++ [c]) cs

def rootOf : List Char → PathRoot
  | '/' :: '/' :: '/' :: _ => .slash
  | '/' :: '/' :: _ => .doubleSlash
  | '/' :: _ => .slash
  | _ => .none

def ofText (text : String) : FilePath :=
  ⟨rootOf text.toList, (components [] text.toList).filter fun part => part != "" && part != "."⟩

def rootText : PathRoot → String
  | .none => ""
  | .slash => "/"
  | .doubleSlash => "//"

def text (path : FilePath) : String :=
  if path.root = .none && path.parts.isEmpty then "."
  else rootText path.root ++ "/".intercalate path.parts

def isAbsolute (path : FilePath) : Bool := path.root != .none

def parent (path : FilePath) : FilePath := { path with parts := path.parts.dropLast }

/-- `path` seen from `base`. -/
def under (base path : FilePath) : FilePath :=
  if path.isAbsolute then path else ⟨base.root, base.parts ++ path.parts⟩

/-- Goes through components from `walked`, the innermost first. -/
def ascend (walked : List String) : List String → List String
  | [] => walked
  | part :: parts => ascend (if part = ".." then walked.drop 1 else part :: walked) parts

/-- The absolute path without two dots, seen from a working directory. -/
def resolve (working path : FilePath) : FilePath :=
  ⟨.slash, (ascend [] (working.under path).parts).reverse⟩

/-- What is met first where the directories of a path are looked up one after the other. -/
def firstFlaw? (path : FilePath) : Option NameFlaw := path.parts.findSome? NameFlaw.of?

/-- What an access to a path meets: the whole path is encoded before a null is looked for. -/
def flaw? (path : FilePath) : Option NameFlaw :=
  let flaws := path.parts.filterMap NameFlaw.of?
  if flaws.contains .surrogate then some .surrogate else flaws.head?

/-- The directory around a path has no flaw that the path has not. -/
theorem flaw?_parent {path : FilePath} (sound : path.flaw? = none) : path.parent.flaw? = none := by
  have flawless : path.parts.filterMap NameFlaw.of? = [] := by
    unfold flaw? at sound
    dsimp only at sound
    split at sound
    · cases sound
    · exact List.head?_eq_none_iff.mp sound
  have fewer : path.parent.parts.filterMap NameFlaw.of? = [] := by
    rw [List.filterMap_eq_nil_iff] at flawless ⊢
    exact fun part inside => flawless part ((List.dropLast_sublist _).subset inside)
  unfold flaw?
  dsimp only
  rw [fewer]
  rfl

end FilePath
end SchemaTables
