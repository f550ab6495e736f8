import SchemaTables.Run.YamlFile
import SchemaTables.Schema.Document

/-! API documents in files. -/
namespace SchemaTables

inductive DocumentFileFault where
  | file (path : FilePath) (fault : YamlFileFault)
  | rootNotMapping (path : FilePath)
deriving DecidableEq, Repr

namespace DocumentFileFault

def message : DocumentFileFault → String
  | file path .notFound => "API document not found: " ++ path.text
  | file path (.malformed violation) =>
    "Failed to parse API document " ++ path.text ++ ": " ++ violation.message
  | file _ fault => fault.abruptMessage
  | rootNotMapping path => "API document root must be a mapping: " ++ path.text

end DocumentFileFault

namespace DocumentFile

def ofValue (path : FilePath) : Value → Except DocumentFileFault Document.Fields
  | .map fields => .ok fields
  | _ => .error (.rootNotMapping path)

variable {m : Type → Type} [Monad m] [FileStore m]

def load (path : FilePath) : m (Except DocumentFileFault Document.Fields) := do
  match ← YamlFile.load .document path with
  | .error fault => return .error (.file path fault)
  | .ok value => return ofValue path value

end DocumentFile
end SchemaTables
