import SchemaTables.Page.Html
import SchemaTables.Run.DocumentFile
import SchemaTables.Run.Settings
import SchemaTables.Schema.Untold

/-! A whole run: the configuration is read first, then the document, and all of its schemas are
resolved before anything is written. The page goes out table by table, and a table that cannot be
encoded ends the run where it stands. -/
namespace SchemaTables

/-- What a run is asked to do. What is absent falls back to the configuration, then to the defaults;
an empty path counts as absent. -/
structure RunTask where
  input : String
  selection : List String
  output : Option String
  descriptions : Option Bool
  configuration : Option String

structure RunSummary where
  output : Option FilePath
  total : Nat
  rendered : List String
  missing : List String
deriving DecidableEq, Repr

inductive RunFault where
  | configuration (fault : ConfigurationFault)
  | document (fault : DocumentFileFault)
  | definitions (fault : DocumentFault)
  | resolution (fault : ResolutionFault)
  | untoldMember
  | output (path : FilePath) (fault : StorageFault)
  | unresolved (text : String)
  | unencodable
deriving DecidableEq, Repr

namespace RunFault

def message : RunFault → String
  | configuration fault => fault.message
  | document fault => fault.message
  | definitions fault => fault.message
  | resolution fault => fault.message
  | untoldMember => Value.untoldMessage
  | output path (.refused refusal refused) =>
    "Cannot write output " ++ path.text ++ ": " ++ (StorageFault.refused refusal refused).message
  | output _ (.unnameable flaw) => flaw.message
  | unresolved text => unresolvedMessage text
  | unencodable => NameFlaw.surrogate.message

/-- Whether a run reports the fault as its own. Undecodable bytes, impossible values, integers that
cannot be written out, paths that are none, tables that cannot be encoded, and a configuration that
cannot be read end it abruptly instead. -/
def isReported : RunFault → Bool
  | configuration (.file _ fault) =>
    match fault with
    | .notFound | .malformed _ => true
    | _ => false
  | configuration .untoldKey | configuration (.outputUnreachable _) => false
  | configuration _ => true
  | document (.file _ fault) =>
    match fault with
    | .notFound | .malformed _ | .unreadable (.refused ..) => true
    | _ => false
  | document (.rootNotMapping _) => true
  | definitions .untold | untoldMember => false
  | definitions _ | resolution _ => true
  | output _ (.refused ..) => true
  | output _ (.unnameable _) => false
  | unresolved _ | unencodable => false

end RunFault

/-- The result of a run, what it reported, and what it printed. -/
structure RunReport where
  result : Except RunFault RunSummary
  notices : List Notice
  printed : String

namespace RunReport

def failed (fault : RunFault) (notices : List Notice) : RunReport := ⟨.error fault, notices, ""⟩

end RunReport

namespace Run

/-- An absent or empty path is no path. -/
def given (path : Option String) : Option FilePath :=
  match path with
  | some text => if text.isEmpty then none else some (.ofText text)
  | none => none

def effective (task : RunTask) (configured : Settings) : Settings where
  descriptions := task.descriptions.getD configured.descriptions
  selection := if task.selection.isEmpty then configured.selection else task.selection
  output := (given task.output).or configured.output

/-- Whether the table that a walk asks for can be encoded. -/
def goesOut (catalog : Catalog Place) (settings : Settings) (call : Call Place) : Bool :=
  Surrogate.encodable
    (Html.tableText (.ofNode catalog settings.descriptions call.template call.node))

/-- The page of a walk, up to its last table where the walk broke off or an unresolved reference
stopped it. -/
def page (catalog : Catalog Place) (settings : Settings) (walk : Walk Place) (whole : Bool) :
    String :=
  let tables := walk.tables catalog settings.descriptions
  if walk.fault.isSome || !whole then
    Html.prologue Html.defaultTitle ++ Html.tablesText tables
  else Html.page Html.defaultTitle tables

def summary (catalog : Catalog Place) (output : Option FilePath) (walk : Walk Place) : RunSummary :=
  ⟨output, catalog.names.length, walk.rendered, walk.missing⟩

def finished (catalog : Catalog Place) (walk : Walk Place) : Notice :=
  .finished walk.rendered.length catalog.names.length walk.missing.length

variable {m : Type → Type} [Monad m] [FileStore m]

def configured (task : RunTask) : m (Except ConfigurationFault Settings) := do
  match given task.configuration with
  | some path => Configuration.load path
  | none => return .ok .default

/-- The resolved schemas of definitions, and what was reported on the way. The strings that are
registered get their titles first. -/
def resolved (definitions : Definitions) : Except RunFault (Catalog Place) × List Notice :=
  if definitions.any fun named => named.2.isUntold then (.error .untoldMember, [])
  else if definitions.stop? = some .enumeration then
    (.error .untoldMember, (resolve .type definitions.barred).2)
  else
    let (result, notices) := resolve .type definitions
    (result.mapError .resolution, notices)

/-- The resolved schemas of a document file, and what was reported on the way. -/
def schemas (input : String) : m (Except RunFault (Catalog Place) × List Notice) := do
  match ← DocumentFile.load (.ofText input) with
  | .error fault => return (.error (.document fault), [])
  | .ok fields =>
    match Document.definitions fields with
    | .error fault => return (.error (.definitions fault), [])
    | .ok definitions => return resolved definitions

/-- Makes the directories around a file, and writes it. -/
def writeOutput (path : FilePath) (content : String) : m (Except StorageFault Unit) := do
  match ← FileStore.ensureDirectory path.parent with
  | .error fault => return .error fault
  | .ok () => FileStore.write path (Surrogate.bytes content)

/-- The report of a run whose page went to `output`, or was printed. -/
def report (catalog : Catalog Place) (walk : Walk Place) (whole : Bool) (output : Option FilePath)
    (printed : String) (notices : List Notice) : RunReport :=
  if !whole then ⟨.error .unencodable, notices ++ walk.notices, printed⟩
  else match walk.fault with
    | some text => ⟨.error (.unresolved text), notices ++ walk.notices, printed⟩
    | none =>
      ⟨.ok (summary catalog output walk), notices ++ walk.notices ++ [finished catalog walk], printed⟩

/-- The page is on its way out while the walk goes on. -/
def render (catalog : Catalog Place) (settings : Settings) (notices : List Notice) :
    m RunReport := do
  let (walk, whole) := catalog.visitSelectionWhile (goesOut catalog settings) settings.selection
  let page := page catalog settings walk whole
  match settings.output with
  | none => return report catalog walk whole none page notices
  | some path =>
    match ← writeOutput path page with
    | .error fault => return .failed (.output path fault) notices
    | .ok () =>
      let resolved := FilePath.resolve (← FileStore.workingDirectory) path
      return report catalog walk whole (some resolved) "" notices

def execute (task : RunTask) : m RunReport := do
  match ← configured task with
  | .error fault => return .failed (.configuration fault) []
  | .ok settings =>
    match ← schemas task.input with
    | (.error fault, notices) => return .failed fault notices
    | (.ok catalog, notices) => render catalog (effective task settings) notices

end Run
end SchemaTables
