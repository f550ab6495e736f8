import SchemaTables.Storage.FilePath
import SchemaTables.Text.Quoted
import SchemaTables.Value.Basic

/-! What the program asks of the machine it runs on: accesses to a file system, and an order. -/
namespace SchemaTables

inductive FileKind where
  | file
  | directory
deriving DecidableEq, Repr

/-- The reason a file system gives for a refusal. -/
inductive Refusal where
  | notFound
  | occupied
  | notDirectory
  | isDirectory
  | other (number : Nat) (text : String)
deriving DecidableEq, Repr

namespace Refusal

def number : Refusal → Nat
  | notFound => 2
  | occupied => 17
  | notDirectory => 20
  | isDirectory => 21
  | other number _ => number

def text : Refusal → String
  | notFound => "No such file or directory"
  | occupied => "File exists"
  | notDirectory => "Not a directory"
  | isDirectory => "Is a directory"
  | other _ text => text

end Refusal

/-- A failed access: the file system refuses it, or there is no such path at all. -/
inductive StorageFault where
  | refused (refusal : Refusal) (path : FilePath)
  | unnameable (flaw : NameFlaw)
deriving DecidableEq, Repr

def StorageFault.message : StorageFault → String
  | refused refusal path =>
    "[Errno " ++ toString refusal.number ++ "] " ++ refusal.text ++ ": " ++ Quoted.quote path.text
  | unnameable flaw => flaw.message

/-- The accesses to files. `write` replaces the content of a file or makes a new one; `makeDirectory`
makes one directory inside a directory that is there. `arrangement` is the order in which a set goes
through its members. -/
class FileStore (m : Type → Type) where
  arrangement : m (List Value → List Value)
  workingDirectory : m FilePath
  status : FilePath → m (Option FileKind)
  read : FilePath → m (Except StorageFault ByteArray)
  write : FilePath → ByteArray → m (Except StorageFault Unit)
  makeDirectory : FilePath → m (Except StorageFault Unit)

namespace FileStore
variable {m : Type → Type} [Monad m] [FileStore m]

/-- Makes a directory and those around it; one that is there already will do. `depth` bounds the
directories to make. -/
def makeDirectories : (depth : Nat) → FilePath → m (Except StorageFault Unit)
  | depth, path => do
    match ← makeDirectory path with
    | .ok () => return .ok ()
    | .error (.refused .notFound refused) =>
      match depth with
      | 0 => return .error (.refused .notFound refused)
      | depth + 1 =>
        if path.parts.isEmpty then return .error (.refused .notFound refused)
        match ← makeDirectories depth path.parent with
        | .error fault => return .error fault
        | .ok () => orThere path (← makeDirectory path)
    | .error fault => orThere path (.error fault)
where
  /-- The outcome of making `path`, if it is not there as a directory. -/
  orThere (path : FilePath) : Except StorageFault Unit → m (Except StorageFault Unit)
    | .ok () => return .ok ()
    | .error (.refused .notFound refused) => return .error (.refused .notFound refused)
    | .error (.unnameable flaw) => return .error (.unnameable flaw)
    | .error fault => do
      return if (← status path) = some .directory then .ok () else .error fault

def ensureDirectory (path : FilePath) : m (Except StorageFault Unit) :=
  makeDirectories path.parts.length path

end FileStore

/-- Line breaks of all systems become line feeds. -/
def normalizeBreaks : List Char → List Char
  | '\r' :: '\n' :: cs => '\n' :: normalizeBreaks cs
  | '\r' :: cs => '\n' :: normalizeBreaks cs
  | c :: cs => c :: normalizeBreaks cs
  | [] => []

/-- The text of a file in UTF-8. -/
def decodeText? (bytes : ByteArray) : Option (List Char) :=
  (String.fromUTF8? bytes).map fun text => normalizeBreaks text.toList

end SchemaTables
