import SchemaTables.Text.Surrogate
import SchemaTables.Yaml.Cursor

/-! Plain scalars: unquoted text over one or more lines, which are folded. -/
namespace SchemaTables.Yaml.PlainScalar

def flowMarks : List Char := [',', '[', ']', '\x7b', '\x7d']

/-- Whether a colon that `following` follows ends a key. -/
def endsKey (inFlow : Bool) (following : Char) : Bool :=
  isGap following || (inFlow && flowMarks.contains following)

/-- The text up to the next gap or mark. -/
def run (inFlow : Bool) : List Char → List Char
  | [] => []
  | c :: rest =>
    if isGap c || (c == ':' && endsKey inFlow (rest.headD '\x00')) ||
        (inFlow && (c == '?' || flowMarks.contains c)) then []
    else c :: run inFlow rest

/-- The line breaks from here on, with the spaces between them skipped. Nothing is kept before a
document marker. -/
def breaks : (fuel : Nat) → Cursor → Option (List Char) × Cursor
  | 0, cursor => (some [], cursor)
  | fuel + 1, cursor =>
    if cursor.peek = ' ' then breaks fuel cursor.next
    else if isBreak cursor.peek then
      if cursor.next.atMarker then (none, cursor.next)
      else
        let (rest, after) := breaks fuel cursor.next
        (rest.map (breakContent cursor.peek :: ·), after)
    else (some [], cursor)

/-- What a gap between two runs stands for, whether a line ended in it, and where it ends. Spaces
stand for themselves, a single line feed for a space, further breaks for themselves. -/
def gap (cursor : Cursor) : List Char × Bool × Cursor :=
  let (spaces, after) := cursor.span (· == ' ')
  if isBreak after.peek then
    let first := breakContent after.peek
    if after.next.atMarker then ([], true, after.next)
    else
      match breaks (after.rest.length + 1) after.next with
      | (none, after) => ([], true, after)
      | (some others, after) =>
        let shown := if first ≠ '\n' then first :: others else if others.isEmpty then [' '] else others
        (shown, true, after)
  else (spaces, false, after)

/-- The scalar from `cursor` on, as what the gap before stood for, whether a line ended there, and
the rest. A line of a block scalar must be indented by `indent` at least. -/
def scanRuns (inFlow : Bool) (indent : Int) : (fuel : Nat) → (pending : List Char) →
    (newLine : Bool) → Cursor → List Char × Bool × Cursor
  | 0, _, newLine, cursor => ([], newLine, cursor)
  | fuel + 1, pending, newLine, cursor =>
    let found := run inFlow cursor.rest
    if cursor.peek = '#' || found.isEmpty then ([], newLine, cursor)
    else
      let after := Cursor.advance found.length cursor
      let (shown, newLine, after) := gap after
      if shown.isEmpty || after.peek = '#' || (!inFlow && after.column < indent) then
        (pending ++ found, newLine, after)
      else
        let (rest, newLine, after) := scanRuns inFlow indent fuel shown newLine after
        (pending ++ found ++ rest, newLine, after)

/-- The text of the scalar, whether a line ended after it, and the position after it. -/
def scan (inFlow : Bool) (indent : Int) (cursor : Cursor) : String × Bool × Cursor :=
  let (text, newLine, after) := scanRuns inFlow indent (cursor.rest.length + 1) [] false cursor
  (String.ofList (Surrogate.spellChars text), newLine, after)

end SchemaTables.Yaml.PlainScalar
