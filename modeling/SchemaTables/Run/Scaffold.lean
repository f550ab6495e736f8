import SchemaTables.Storage.FileStore

/-! A configuration file to begin with. -/
namespace SchemaTables.Scaffold

def defaultFileName : String := "api2html.yaml"

/-- The file states the defaults and shows where other settings go. -/
def text : String := String.join [
  "# Run configuration for api2html.\n",
  "# Every key is optional; command line options override these values.\n\n",
  "# Include schema and field descriptions in the generated tables.\n",
  "description: true\n\n",
  "# Schema names to render, in this order. Leave empty to render every schema.\n",
  "selection: []\n",
  "#  - Pet\n",
  "#  - Order\n\n",
  "# Destination HTML file, relative to this file. Omit to write to stdout.\n",
  "# output: \"schemas.html\"\n"]

inductive Fault where
  | present (path : FilePath)
  | storage (fault : StorageFault)
deriving DecidableEq, Repr

def Fault.message : Fault → String
  | present path => "Configuration file already exists: " ++ path.text
  | storage fault => fault.message

variable {m : Type → Type} [Monad m] [FileStore m]

/-- Writes the scaffold where nothing is yet, and tells where that is. -/
def write (path : FilePath) : m (Except Fault FilePath) := do
  let resolved := FilePath.resolve (← FileStore.workingDirectory) path
  match ← FileStore.status path with
  | some _ => return .error (.present resolved)
  | none =>
    match ← FileStore.write path text.toUTF8 with
    | .ok () => return .ok resolved
    | .error fault => return .error (.storage fault)

end SchemaTables.Scaffold
