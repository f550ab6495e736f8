/-! What a run reports on its way, besides its result. -/
namespace SchemaTables

inductive Notice where
  | collision (name : String)
  | resolved (count total : Nat)
  | arrayVisited (id : String)
  | tableRendered (id : String)
  | notFound (name : String)
  | finished (rendered total missing : Nat)
deriving DecidableEq, Repr

inductive Level where
  | debug
  | info
  | warning
deriving DecidableEq, Repr

namespace Level

def rank : Level → Nat
  | debug => 0
  | info => 1
  | warning => 2

def name : Level → String
  | debug => "DEBUG"
  | info => "INFO"
  | warning => "WARNING"

end Level

namespace Notice

def level : Notice → Level
  | collision _ | notFound _ => .warning
  | tableRendered _ | finished .. => .info
  | resolved .. | arrayVisited _ => .debug

/-- The part of the program that speaks. -/
def source : Notice → String
  | collision _ | resolved .. => "api2html.schema_resolution.schema_normalizer"
  | arrayVisited _ | tableRendered _ | notFound _ => "api2html.document_rendering.render_dispatcher"
  | finished .. => "api2html.run_execution.documentation_run_use_case"

def message : Notice → String
  | collision name => "Schema name " ++ name ++ " collides with another entry after re-casing"
  | resolved count total =>
    "Resolved " ++ toString count ++ " schemas from " ++ toString total ++ " definitions"
  | arrayVisited id => "Array schema " ++ id ++ " visited already"
  | tableRendered id => "Schema " ++ id ++ " rendered already"
  | notFound name => "Cannot find schema " ++ name
  | finished rendered total missing =>
    "Rendered " ++ toString rendered ++ " of " ++ toString total ++ " schemas (" ++
      toString missing ++ " missing)"

/-- The messages of one level, in order. -/
def messages (level : Level) (notices : List Notice) : List String :=
  (notices.filter fun notice => notice.level = level).map message

@[simp] theorem messages_append (level : Level) (first second : List Notice) :
    messages level (first ++ second) = messages level first ++ messages level second := by
  simp [messages]

end Notice
end SchemaTables
