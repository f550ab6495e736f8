import SchemaTables.CommandLine.Help
import SchemaTables.CommandLine.Options
import SchemaTables.Run.Report
import SchemaTables.Run.Scaffold

/-! One invocation of the program: from its arguments to its exit code and its output. -/
namespace SchemaTables

/-- Why an invocation ends without an exit code of its own. -/
inductive AbruptEnd where
  | unnameable (flaw : NameFlaw)
  | unencodable
  | run (fault : RunFault)
deriving DecidableEq, Repr

def AbruptEnd.message : AbruptEnd → String
  | unnameable flaw => flaw.message
  | unencodable => NameFlaw.surrogate.message
  | run fault => fault.message

structure InvocationResult where
  ending : Except AbruptEnd Nat
  stdout : String
  stderr : String

/-- A mistake in the use of the program. -/
inductive UsageFault where
  | option (fault : OptionFault)
  | missingCommand
  | unknownCommand (name : String)
  | missingInput
  | extraArguments (arguments : List String)
deriving DecidableEq, Repr

namespace UsageFault

def message : UsageFault → String
  | option (.unknown name) => "No such option: " ++ name
  | option (.missingValue name) => "Option " ++ Quoted.quote name ++ " requires an argument."
  | option (.unwantedValue name) => "Option " ++ Quoted.quote name ++ " does not take a value."
  | missingCommand => "Missing command."
  | unknownCommand name => "No such command " ++ Quoted.quote name ++ "."
  | missingInput => "Missing argument 'INPUT_PATH'."
  | extraArguments [argument] => "Got unexpected extra argument (" ++ argument ++ ")"
  | extraArguments arguments =>
    "Got unexpected extra arguments (" ++ " ".intercalate arguments ++ ")"

/-- A fault inside an option is shown without the usage of its command. -/
def showsUsage : UsageFault → Bool
  | option (.unknown _) => true
  | option _ => false
  | _ => true

def text (topic : Help.Topic) (fault : UsageFault) : String :=
  (if fault.showsUsage then topic.usage ++ "\n" ++ topic.hint ++ "\n\n" else "") ++
    "Error: " ++ fault.message ++ "\n"

end UsageFault

namespace InvocationResult

def exit (code : Nat) (stdout stderr : String) : InvocationResult := ⟨.ok code, stdout, stderr⟩

def misused (topic : Help.Topic) (fault : UsageFault) : InvocationResult :=
  exit 2 "" (fault.text topic)

def helped (topic : Help.Topic) : InvocationResult := exit 0 topic.help ""

end InvocationResult

/-- What an invocation asks for: an answer that needs no files, or something to do with them. -/
inductive Request where
  | answer (result : InvocationResult)
  | scaffold (path : String)
  | run (verbose : Bool) (task : RunTask)

namespace Invocation

def helpOption : OptionSpec := ⟨"help", ['h'], ["help"], false⟩

def programOptions : List OptionSpec :=
  [⟨"version", [], ["version"], false⟩, ⟨"verbose", ['v'], ["verbose"], false⟩, helpOption]

def generateOptions : List OptionSpec := [⟨"output", [], ["output"], true⟩, helpOption]

def renderOptions : List OptionSpec :=
  [⟨"output", ['o'], ["output"], true⟩, ⟨"no-description", [], ["no-description"], false⟩,
    ⟨"config", [], ["config"], true⟩, helpOption]

/-- The notices that are shown: warnings, and progress when it is asked for. -/
def noticeText (verbose : Bool) (notices : List Notice) : String :=
  let least := if verbose then Level.info.rank else Level.warning.rank
  String.join ((notices.filter fun notice => least ≤ notice.level.rank).map fun notice =>
    notice.level.name ++ " " ++ notice.source ++ ": " ++ notice.message ++ "\n")

def distinct (names : List String) : List String :=
  names.foldl (fun kept name => if kept.contains name then kept else kept ++ [name]) []

def unnameable (flaw : NameFlaw) : Request := .answer ⟨.error (.unnameable flaw), "", ""⟩

def generate (args : List String) : Request :=
  match Arguments.parse generateOptions true args with
  | .error fault => .answer (.misused .generate (.option fault))
  | .ok arguments =>
    let path := (arguments.value? "output").getD Scaffold.defaultFileName
    if arguments.has "help" then .answer (.helped .generate)
    else match NameFlaw.of? path with
      | some flaw => unnameable flaw
      | none =>
        if arguments.positional.isEmpty then .scaffold path
        else .answer (.misused .generate (.extraArguments arguments.positional))

def renderTask (arguments : Arguments) (input : String) (selection : List String) :
    RunTask where
  input := input
  selection := distinct selection
  output := arguments.value? "output"
  descriptions := if arguments.has "no-description" then some false else none
  configuration := arguments.value? "config"

def render (verbose : Bool) (args : List String) : Request :=
  match Arguments.parse renderOptions true args with
  | .error fault => .answer (.misused .render (.option fault))
  | .ok arguments =>
    if arguments.has "help" then .answer (.helped .render)
    else match (arguments.values ["output", "config"]).findSome? NameFlaw.of? with
      | some flaw => unnameable flaw
      | none =>
        match arguments.positional with
        | [] => .answer (.misused .render .missingInput)
        | input :: selection =>
          match NameFlaw.of? input with
          | some flaw => unnameable flaw
          | none => .run verbose (renderTask arguments input selection)

/-- What the options of the program itself settle, if they settle the invocation. -/
def immediate? (arguments : Arguments) : Option InvocationResult :=
  match arguments.first? ["help", "version"] with
  | some "help" => some (.helped .program)
  | some _ => some (.exit 0 Help.versionText "")
  | none => none

/-- An unknown command that looks like an option is read as one before it is refused. -/
def unknownCommand (name : String) (args : List String) : InvocationResult :=
  match Arguments.parse programOptions false (name :: args) with
  | .error fault => .misused .program (.option fault)
  | .ok arguments =>
    match immediate? arguments with
    | some result => result
    | none => .misused .program (.unknownCommand name)

def command (verbose : Bool) (name : String) (args : List String) : Request :=
  if name = "generate-config" then generate args
  else if name = "render" then render verbose args
  else .answer (unknownCommand name args)

/-- What the arguments of the program ask for. -/
def request (args : List String) : Request :=
  if args.isEmpty then .answer (.exit 2 "" Help.Topic.program.help)
  else match Arguments.parse programOptions false args with
    | .error fault => .answer (.misused .program (.option fault))
    | .ok arguments =>
      match immediate? arguments with
      | some result => .answer result
      | none =>
        match arguments.positional with
        | [] => .answer (.misused .program .missingCommand)
        | name :: rest => command (arguments.has "verbose") name rest

/-- The place of a scaffold is told when the scaffold is there, if it can be told. -/
def scaffoldResult : Except Scaffold.Fault FilePath → InvocationResult
  | .ok resolved =>
    if Surrogate.encodable resolved.text then .exit 0 (resolved.text ++ "\n") ""
    else ⟨.error .unencodable, "", ""⟩
  | .error fault => .exit 1 "" (fault.message ++ "\n")

def renderResult (verbose : Bool) (report : RunReport) : InvocationResult :=
  let noted := noticeText verbose report.notices
  match report.result with
  | .ok summary =>
    let written := match summary.output with
      | some path => path.text ++ "\n"
      | none => ""
    .exit 0 report.printed (noted ++ written)
  | .error fault =>
    if fault.isReported then .exit 1 report.printed (noted ++ fault.message ++ "\n")
    else ⟨.error (.run fault), report.printed, noted⟩

variable {m : Type → Type} [Monad m] [FileStore m]

def perform : Request → m InvocationResult
  | .answer result => return result
  | .scaffold path => return scaffoldResult (← Scaffold.write (.ofText path))
  | .run verbose task => return renderResult verbose (← Run.execute task)

/-- Runs the program on its arguments. -/
def run (args : List String) : m InvocationResult := perform (request args)

end Invocation
end SchemaTables
