import SchemaTables.CommandLine.Invocation
import SchemaTables.Proofs.Closure
import SchemaTables.Proofs.Footprint
import SchemaTables.Proofs.Outgoing

/-!
# The stages of an invocation

`Course` tells what a run can come to, stage by stage, with the disk that it leaves; `Immediate` tells
what an invocation can answer that does not come to a run.
-/
namespace SchemaTables

namespace Configuration
variable {working file : FilePath}

/-- An output as it is, or from the directory of the configuration. -/
def located (working file : FilePath) (text : String) : FilePath :=
  if (FilePath.ofText text).isAbsolute then .ofText text
  else .resolve working (file.parent.under (.ofText text))

theorem outputPath_eq_located {text : String} {output : FilePath}
    (found : outputPath working file text = .ok output) : output = located working file text := by
  unfold outputPath at found
  dsimp only at found
  split at found
  · next absolute =>
    cases found
    rw [located, if_pos absolute]
  · next relative =>
    split at found
    · cases found
    · cases found
      rw [located, if_neg relative]

/-- The settings of a statement, where its output can be placed. -/
theorem settings_eq_located {statement : Statement} {stated : Settings}
    (placed : settings working file statement = .ok stated) :
    stated = ⟨statement.descriptions, statement.selection,
      statement.output.map (located working file)⟩ := by
  unfold settings at placed
  cases output : statement.output with
  | none =>
    rw [output] at placed
    cases placed
    rfl
  | some text =>
    rw [output, Option.mapM_some] at placed
    cases found : outputPath working file text with
    | error fault =>
      rw [found] at placed
      cases placed
    | ok path =>
      rw [found] at placed
      cases placed
      rw [Option.map_some, ← outputPath_eq_located found]

end Configuration

namespace Run

/-- An output that a configuration file states, seen from the directory of that file. -/
def placed (disk : Disk) (file : FilePath) (text : String) : FilePath :=
  if (FilePath.ofText text).isAbsolute then .ofText text
  else .resolve ⟨.slash, disk.working⟩ (file.parent.under (.ofText text))

/-- The output of a task: the path on the command line, or else the one that the configuration file
states. -/
inductive Outputs (disk : Disk) (task : RunTask) : FilePath → Prop
  | commandLine {path : FilePath} (asked : given task.output = some path) : Outputs disk task path
  | configured {file : FilePath} {value : Value} {statement : Configuration.Statement} {text : String}
      (unasked : given task.output = none) (settings : given task.configuration = some file)
      (read : disk.answer (YamlFile.load .configuration file) = .ok value)
      (states : Configuration.ofValue value = .ok statement) (output : statement.output = some text) :
      Outputs disk task (placed disk file text)

/-- The tables that a run with these settings asks for can all be encoded. -/
def Encodes (catalog : Catalog Place) (settings : Settings) : Prop :=
  ∀ call ∈ (catalog.visitSelection settings.selection).calls, goesOut catalog settings call

/-- The walk of a run with these settings, and whether all of its tables go out. -/
def walkOf (catalog : Catalog Place) (settings : Settings) : Walk Place × Bool :=
  catalog.visitSelectionWhile (goesOut catalog settings) settings.selection

/-- The page of a run with these settings, as far as it goes out. -/
def pageOf (catalog : Catalog Place) (settings : Settings) : String :=
  page catalog settings (walkOf catalog settings).1 (walkOf catalog settings).2

/-- The report of a run with these settings whose page is out. -/
def reportOf (catalog : Catalog Place) (settings : Settings) (output : Option FilePath)
    (printed : String) (notices : List Notice) : RunReport :=
  report catalog (walkOf catalog settings).1 (walkOf catalog settings).2 output printed notices

section
variable (disk : Disk) (task : RunTask)

/-- The ways of a run: it stops at the configuration, at the document or at its output, or it prints
or writes its page. -/
inductive Course : RunReport → Disk → Prop
  | unconfigured {fault : ConfigurationFault} (configured : disk.answer (configured task) = .error fault) :
      Course (.failed (.configuration fault) []) disk
  | unresolved {settings : Settings} {fault : RunFault} {notices : List Notice}
      (configured : disk.answer (configured task) = .ok settings)
      (schemas : disk.answer (schemas task.input) = (.error fault, notices)) :
      Course (.failed fault notices) disk
  | printed {settings : Settings} {catalog : Catalog Place} {notices : List Notice}
      (configured : disk.answer (configured task) = .ok settings)
      (schemas : disk.answer (schemas task.input) = (.ok catalog, notices))
      (output : (effective task settings).output = none) :
      Course (reportOf catalog (effective task settings) none
        (pageOf catalog (effective task settings)) notices) disk
  | unwritten {settings : Settings} {catalog : Catalog Place} {notices : List Notice}
      {path : FilePath} {fault : StorageFault}
      (configured : disk.answer (configured task) = .ok settings)
      (schemas : disk.answer (schemas task.input) = (.ok catalog, notices))
      (output : (effective task settings).output = some path)
      (refused : disk.answer (writeOutput path (pageOf catalog (effective task settings))) =
        .error fault) :
      Course (.failed (.output path fault) notices)
        (disk.after (writeOutput path (pageOf catalog (effective task settings))))
  | written {settings : Settings} {catalog : Catalog Place} {notices : List Notice} {path : FilePath}
      (configured : disk.answer (configured task) = .ok settings)
      (schemas : disk.answer (schemas task.input) = (.ok catalog, notices))
      (output : (effective task settings).output = some path)
      (done : disk.answer (writeOutput path (pageOf catalog (effective task settings))) = .ok ()) :
      Course (reportOf catalog (effective task settings)
          (some (.resolve ⟨.slash, disk.working⟩ path)) "" notices)
        (disk.after (writeOutput path (pageOf catalog (effective task settings))))

variable {disk task} {settings : Settings}

theorem run_unconfigured {fault : ConfigurationFault}
    (configured : disk.answer (configured task) = .error fault) :
    disk.outcome (execute task) = (.failed (.configuration fault) [], disk) := by
  unfold execute
  rw [Disk.outcome_bind, Disk.after_configured, configured]
  rfl

theorem run_unresolved {fault : RunFault} {notices : List Notice}
    (configured : disk.answer (configured task) = .ok settings)
    (schemas : disk.answer (schemas task.input) = (.error fault, notices)) :
    disk.outcome (execute task) = (.failed fault notices, disk) := by
  unfold execute
  rw [Disk.outcome_bind, Disk.after_configured, configured]
  dsimp only
  rw [Disk.outcome_bind, Disk.after_schemas, schemas]
  rfl

/-- What resolves is rendered. -/
theorem run_resolved {catalog : Catalog Place} {notices : List Notice}
    (configured : disk.answer (configured task) = .ok settings)
    (schemas : disk.answer (schemas task.input) = (.ok catalog, notices)) :
    disk.outcome (execute task) = disk.outcome (render catalog (effective task settings) notices) := by
  unfold execute
  rw [Disk.outcome_bind, Disk.after_configured, configured]
  dsimp only
  rw [Disk.outcome_bind, Disk.after_schemas, schemas]

theorem run_printed {catalog : Catalog Place} {notices : List Notice}
    (output : settings.output = none) :
    disk.outcome (render catalog settings notices) =
      (reportOf catalog settings none (pageOf catalog settings) notices, disk) := by
  unfold render
  rw [output]
  rfl

theorem run_unwritten {catalog : Catalog Place} {notices : List Notice} {path : FilePath}
    {fault : StorageFault} (output : settings.output = some path)
    (refused : disk.answer (writeOutput path (pageOf catalog settings)) = .error fault) :
    disk.outcome (render catalog settings notices) =
      (.failed (.output path fault) notices,
        disk.after (writeOutput path (pageOf catalog settings))) := by
  unfold pageOf walkOf at refused ⊢
  unfold render
  rw [output]
  dsimp only
  rw [Disk.outcome_bind, refused]
  rfl

theorem run_written {catalog : Catalog Place} {notices : List Notice} {path : FilePath}
    (output : settings.output = some path)
    (done : disk.answer (writeOutput path (pageOf catalog settings)) = .ok ()) :
    disk.outcome (render catalog settings notices) =
      (reportOf catalog settings (some (.resolve ⟨.slash, disk.working⟩ path)) "" notices,
        disk.after (writeOutput path (pageOf catalog settings))) := by
  have working : (disk.after (writeOutput path (pageOf catalog settings))).working = disk.working := by
    rcases Disk.writeOutput_cases disk path (pageOf catalog settings) with ⟨_, _, gains⟩ | ⟨_, writes⟩
    · exact gains.working
    · exact writes.working
  rw [← working]
  unfold reportOf pageOf walkOf at *
  unfold render
  rw [output]
  dsimp only
  rw [Disk.outcome_bind, done]
  rfl

/-- A run takes one of the ways. -/
theorem course (disk : Disk) (task : RunTask) :
    Course disk task (disk.answer (execute task)) (disk.after (execute task)) := by
  have takes {report : RunReport} {last : Disk} (run : disk.outcome (execute task) = (report, last))
      (way : Course disk task report last) :
      Course disk task (disk.answer (execute task)) (disk.after (execute task)) := by
    obtain ⟨rfl, rfl⟩ := Prod.mk.inj run
    exact way
  cases configured : disk.answer (configured task) with
  | error fault => exact takes (run_unconfigured configured) (.unconfigured configured)
  | ok settings =>
    cases schemas : disk.answer (schemas task.input) with
    | mk result notices =>
    cases result with
    | error fault => exact takes (run_unresolved configured schemas) (.unresolved configured schemas)
    | ok catalog =>
      have rendered := run_resolved configured schemas
      cases output : (effective task settings).output with
      | none =>
        exact takes (rendered.trans (run_printed output)) (.printed configured schemas output)
      | some path =>
        cases written : disk.answer (writeOutput path (pageOf catalog (effective task settings))) with
        | error fault =>
          exact takes (rendered.trans (run_unwritten output written))
            (.unwritten configured schemas output written)
        | ok =>
          exact takes (rendered.trans (run_written output written))
            (.written configured schemas output written)

end

variable {disk : Disk} {task : RunTask} {settings : Settings}

/-- A configuration that can be loaded states the settings. -/
theorem exists_statement {file : FilePath}
    (loaded : disk.answer (Configuration.load file) = .ok settings) :
    ∃ value statement, disk.answer (YamlFile.load .configuration file) = .ok value ∧
      Configuration.ofValue value = .ok statement ∧
        settings.output = statement.output.map (placed disk file) := by
  rw [Disk.answer_loadConfiguration] at loaded
  split at loaded
  · cases loaded
  · next value read =>
    cases states : Configuration.ofValue value with
    | error fault =>
      rw [states] at loaded
      cases loaded
    | ok statement =>
      rw [states] at loaded
      refine ⟨value, statement, read, states, ?_⟩
      rw [Configuration.settings_eq_located loaded]
      rfl

/-- The output of the settings that count is that of the task. -/
theorem output_eq_some_iff (configured : disk.answer (configured task) = .ok settings)
    (path : FilePath) : (effective task settings).output = some path ↔ Outputs disk task path := by
  have either : (effective task settings).output = (given task.output).or settings.output := rfl
  unfold Run.configured at configured
  rw [either]
  cases asked : given task.output with
  | some text =>
    rw [Option.some_or, Option.some.injEq]
    constructor
    · rintro rfl
      exact .commandLine asked
    · intro outputs
      cases outputs with
      | commandLine asked' => exact Option.some.inj (asked.symm.trans asked')
      | configured unasked => cases asked.symm.trans unasked
  | none =>
    rw [Option.none_or]
    cases file? : given task.configuration with
    | none =>
      rw [file?] at configured
      cases configured
      constructor
      · intro output
        cases output
      · intro outputs
        cases outputs with
        | commandLine asked' => cases asked.symm.trans asked'
        | configured _ file?' => cases file?.symm.trans file?'
    | some file =>
      rw [file?] at configured
      obtain ⟨value, statement, read, states, output⟩ := exists_statement configured
      rw [output, Option.map_eq_some_iff]
      constructor
      · rintro ⟨text, stated, rfl⟩
        exact .configured asked file? read states stated
      · intro outputs
        cases outputs with
        | commandLine asked' => cases asked.symm.trans asked'
        | configured _ file?' read' states' stated =>
          cases file?.symm.trans file?'
          cases read.symm.trans read'
          cases states.symm.trans states'
          exact ⟨_, stated, rfl⟩

theorem resolve_of_resolved {definitions : Definitions} {catalog : Catalog Place}
    {notices : List Notice} (ok : resolved definitions = (.ok catalog, notices)) :
    (resolve .type definitions).1 = .ok catalog := by
  unfold resolved at ok
  split at ok
  · cases ok
  · split at ok
    · cases ok
    · have result : (resolve .type definitions).1.mapError RunFault.resolution = .ok catalog :=
        congrArg Prod.fst ok
      cases given : (resolve .type definitions).1 with
      | error fault =>
        rw [given] at result
        cases result
      | ok found =>
        rw [given] at result
        cases result
        rfl

/-- What `schemas` gives is resolved. -/
theorem resolve_of_schemas {input : String} {catalog : Catalog Place} {notices : List Notice}
    (schemas : disk.answer (schemas input) = (.ok catalog, notices)) :
    ∃ definitions, (resolve .type definitions).1 = .ok catalog := by
  rw [Disk.answer_schemas] at schemas
  split at schemas
  · cases schemas
  · split at schemas
    · cases schemas
    · next definitions _ => exact ⟨definitions, resolve_of_resolved schemas⟩

/-- No walk of a run stops at a reference. -/
theorem visit_clean_of_schemas {input : String} {catalog : Catalog Place} {notices : List Notice}
    (schemas : disk.answer (schemas input) = (.ok catalog, notices)) (selection : List String) :
    (catalog.visitSelection selection).fault = none := by
  obtain ⟨definitions, ok⟩ := resolve_of_schemas schemas
  exact (Resolved.of_resolve ok).visit_clean selection

section
variable {catalog : Catalog Place}

theorem walkOf_of_encodes (encodes : Encodes catalog settings) :
    walkOf catalog settings = (catalog.visitSelection settings.selection, true) :=
  Catalog.visitSelectionWhile_eq encodes

theorem walkOf_of_not_encodes (withheld : ¬ Encodes catalog settings) :
    (walkOf catalog settings).2 = false := by
  rw [← Bool.not_eq_true, walkOf, Catalog.visitSelectionWhile_whole_iff]
  exact withheld

/-- A page whose tables go out is complete, as far as no reference stops its walk. -/
theorem pageOf_of_encodes (encodes : Encodes catalog settings)
    (clean : (catalog.visitSelection settings.selection).fault = none) :
    pageOf catalog settings = Html.page Html.defaultTitle
      ((catalog.visitSelection settings.selection).tables catalog settings.descriptions) := by
  rw [pageOf, walkOf_of_encodes encodes, page, clean]
  rfl

theorem reportOf_of_encodes (encodes : Encodes catalog settings)
    (clean : (catalog.visitSelection settings.selection).fault = none) (output : Option FilePath)
    (printed : String) (notices : List Notice) :
    reportOf catalog settings output printed notices =
      ⟨.ok (summary catalog output (catalog.visitSelection settings.selection)),
        notices ++ (catalog.visitSelection settings.selection).notices ++
          [finished catalog (catalog.visitSelection settings.selection)], printed⟩ := by
  rw [reportOf, walkOf_of_encodes encodes, report, clean]
  rfl

/-- What goes out of another page are its prologue and the tables before the first that does not. -/
theorem pageOf_of_not_encodes (withheld : ¬ Encodes catalog settings) :
    pageOf catalog settings = Html.prologue Html.defaultTitle ++ Html.tablesText
      (((catalog.visitSelection settings.selection).calls.takeWhile (goesOut catalog settings)).map
        fun call => .ofNode catalog settings.descriptions call.template call.node) := by
  have stops := withheld
  simp only [Encodes, not_forall, Bool.not_eq_true] at stops
  obtain ⟨call, asked, held⟩ := stops
  have tables := (Catalog.visitSelectionWhile_of_withheld asked held).2
  rw [pageOf, page, walkOf_of_not_encodes withheld, Bool.not_false, Bool.or_true, if_pos rfl,
    Walk.tables, walkOf, tables]

theorem reportOf_of_not_encodes (withheld : ¬ Encodes catalog settings) (output : Option FilePath)
    (printed : String) (notices : List Notice) :
    (reportOf catalog settings output printed notices).result = .error .unencodable ∧
      (reportOf catalog settings output printed notices).printed = printed := by
  rw [reportOf, report, walkOf_of_not_encodes withheld]
  exact ⟨rfl, rfl⟩

end

end Run

/-- What an invocation answers without a look at its files: a text that it is asked for, the way it
was misused, or that a path is none. -/
inductive InvocationResult.Immediate : InvocationResult → Prop
  | informed (text : String) : Immediate (.exit 0 text "")
  | misused (topic : Help.Topic) (fault : UsageFault) : Immediate (.misused topic fault)
  | helpless : Immediate (.exit 2 "" Help.Topic.program.help)
  | unnameable (flaw : NameFlaw) : Immediate ⟨.error (.unnameable flaw), "", ""⟩

namespace Invocation
open InvocationResult (Immediate)

theorem immediate_of_generate {args : List String} {result : InvocationResult}
    (answers : generate args = .answer result) : Immediate result := by
  unfold generate at answers
  split at answers
  · cases answers
    exact .misused ..
  · dsimp only at answers
    split at answers
    · cases answers
      exact .informed _
    · split at answers
      · cases answers
        exact .unnameable _
      · split at answers
        · cases answers
        · cases answers
          exact .misused ..

theorem immediate_of_render {verbose : Bool} {args : List String} {result : InvocationResult}
    (answers : render verbose args = .answer result) : Immediate result := by
  unfold render at answers
  split at answers
  · cases answers
    exact .misused ..
  · split at answers
    · cases answers
      exact .informed _
    · split at answers
      · cases answers
        exact .unnameable _
      · split at answers
        · cases answers
          exact .misused ..
        · split at answers
          · cases answers
            exact .unnameable _
          · cases answers

theorem immediate_of_immediate? {arguments : Arguments} {result : InvocationResult}
    (settled : immediate? arguments = some result) : Immediate result := by
  unfold immediate? at settled
  split at settled <;> cases settled <;> exact .informed _

theorem immediate_unknownCommand (name : String) (args : List String) :
    Immediate (unknownCommand name args) := by
  unfold unknownCommand
  split
  · exact .misused ..
  · split
    · next settled => exact immediate_of_immediate? settled
    · exact .misused ..

theorem immediate_of_command {verbose : Bool} {name : String} {args : List String}
    {result : InvocationResult} (answers : command verbose name args = .answer result) :
    Immediate result := by
  unfold command at answers
  split at answers
  · exact immediate_of_generate answers
  · split at answers
    · exact immediate_of_render answers
    · cases answers
      exact immediate_unknownCommand ..

theorem immediate_of_request {args : List String} {result : InvocationResult}
    (answers : request args = .answer result) : Immediate result := by
  unfold request at answers
  split at answers
  · cases answers
    exact .helpless
  · split at answers
    · cases answers
      exact .misused ..
    · split at answers
      · next settled =>
        cases answers
        exact immediate_of_immediate? settled
      · split at answers
        · cases answers
          exact .misused ..
        · exact immediate_of_command answers

end Invocation
end SchemaTables
