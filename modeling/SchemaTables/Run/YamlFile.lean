import SchemaTables.Storage.FileStore
import SchemaTables.Yaml.NodeValue

/-! YAML files: UTF-8 texts with one document. -/
namespace SchemaTables

inductive YamlFileFault where
  | notFound
  | unreadable (fault : StorageFault)
  | undecodable
  | malformed (violation : Yaml.Violation)
  | valueless (fault : Yaml.Fault)
deriving DecidableEq, Repr

namespace YamlFile

/-- The value of the bytes of a file. -/
def parse (arrange : List Value → List Value) (dialect : Yaml.Dialect) (bytes : ByteArray) :
    Except YamlFileFault Value :=
  match decodeText? bytes with
  | none => .error .undecodable
  | some text =>
    match Yaml.load arrange dialect text with
    | .ok value => .ok value
    | .error (.malformed violation) => .error (.malformed violation)
    | .error fault => .error (.valueless fault)

variable {m : Type → Type} [Monad m] [FileStore m]

def load (dialect : Yaml.Dialect) (path : FilePath) : m (Except YamlFileFault Value) := do
  match ← FileStore.status path with
  | none => return .error .notFound
  | some _ =>
    match ← FileStore.read path with
    | .error fault => return .error (.unreadable fault)
    | .ok bytes => return parse (← FileStore.arrangement) dialect bytes

end YamlFile

/-- The outcome of a decoding that has to stop the program. -/
def YamlFileFault.abruptMessage : YamlFileFault → String
  | notFound => "file not found"
  | unreadable fault => fault.message
  | undecodable => "invalid UTF-8"
  | malformed violation => violation.message
  | valueless fault => fault.message

end SchemaTables
