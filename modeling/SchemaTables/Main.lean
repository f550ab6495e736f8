import SchemaTables.CommandLine.Invocation

/-! The program: the invocation on the files of the machine. -/
namespace SchemaTables

def refusalOf : IO.Error → Refusal
  | .noFileOrDirectory .. => .notFound
  | .alreadyExists .. => .occupied
  | .inappropriateType _ number text =>
    if number = 20 then .notDirectory else if number = 21 then .isDirectory
    else .other number.toNat text
  | .resourceExhausted _ number text => .other number.toNat text
  | .permissionDenied _ number text => .other number.toNat text
  | .invalidArgument _ number text => .other number.toNat text
  | fault => .other 5 (toString fault)

/-- An access at a path, with its error as a fault. Names that are no text are out of reach here. -/
def accessing {β : Type} (path : FilePath) (access : String → IO β) :
    IO (Except StorageFault β) := do
  if let some flaw := path.flaw? then return .error (.unnameable flaw)
  if !Surrogate.encodable path.text then return .error (.refused (.other 84 "Invalid name") path)
  try return .ok (← access (Surrogate.plainText path.text))
  catch fault => return .error (.refused (refusalOf fault) path)

def kindOf (path : String) : IO FileKind := do
  let metadata ← (← IO.FS.realPath path).metadata
  return if metadata.type == .dir then .directory else .file

instance : FileStore IO where
  arrangement := return id
  workingDirectory := return .ofText (Surrogate.spelled (← IO.currentDir).toString)
  status path := return (← accessing path kindOf).toOption
  read path := accessing path fun place => do
    if (← kindOf place) = .directory then throw (.inappropriateType none 21 "")
    IO.FS.readBinFile place
  write path content := accessing path fun place => IO.FS.writeBinFile place content
  makeDirectory path := accessing path fun place => IO.FS.createDir place

end SchemaTables

open SchemaTables in
def main (args : List String) : IO UInt32 := do
  let result : InvocationResult ← Invocation.run (args.map Surrogate.spelled)
  (← IO.getStdout).write (Surrogate.bytes result.stdout)
  IO.eprint (Quoted.shown result.stderr)
  match result.ending with
  | .ok code => return UInt32.ofNat code
  | .error fault =>
    IO.eprintln fault.message
    return 1
