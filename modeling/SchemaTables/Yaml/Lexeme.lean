import SchemaTables.Yaml.Cursor
import SchemaTables.Yaml.Token

/-! Names, tags and directives, read from a position that stands at their first character. -/
namespace SchemaTables.Yaml.Lexeme

def isWordChar (c : Char) : Bool := c.isAlphanum || c == '-' || c == '_'

def isHexDigit (c : Char) : Bool :=
  c.isDigit || ('a' ≤ c && c ≤ 'f') || ('A' ≤ c && c ≤ 'F')

def hexValue (cs : List Char) : Nat :=
  cs.foldl (fun sum c =>
    sum * 16 + (if c.isDigit then c.toNat - 48 else if 'a' ≤ c then c.toNat - 87 else c.toNat - 55)) 0

def uriMarks : List Char :=
  ['-', ';', '/', '?', ':', '@', '&', '=', '+', '$', ',', '_', '.', '!', '~', '*', '\x27', '(', ')',
    '[', ']', '%']

def isUriChar (c : Char) : Bool := c.isAlphanum || uriMarks.contains c

/-- What may follow the name of an anchor or alias. -/
def endsAnchor (c : Char) : Bool :=
  isGap c || ['?', ':', ',', ']', '\x7d', '%', '@', '\x60'].contains c

/-- The name after the mark of an anchor or alias. -/
def anchorName (cursor : Cursor) : Except Fault (String × Cursor) :=
  let (name, after) := cursor.next.span isWordChar
  if name.isEmpty || !endsAnchor after.peek then .error (.malformed .malformedAnchor)
  else .ok (String.ofList name, after)

/-- The bytes written with percent signs at the beginning of a text. -/
def escapedBytes : List Char → Option (List UInt8)
  | '%' :: a :: b :: rest =>
    if isHexDigit a && isHexDigit b then
      (escapedBytes rest).map (UInt8.ofNat (hexValue [a, b]) :: ·)
    else none
  | '%' :: _ => none
  | _ => some []

/-- The characters of a tag, with its percent escapes decoded; `fuel` bounds the parts. -/
def uriParts : (fuel : Nat) → Cursor → Except Fault (List Char × Cursor)
  | 0, cursor => .ok ([], cursor)
  | fuel + 1, cursor =>
    let (run, after) := cursor.span fun c => isUriChar c && c != '%'
    if after.peek ≠ '%' then .ok (run, after)
    else match escapedBytes after.rest with
      | none => .error (.malformed .malformedTag)
      | some bytes =>
        match String.fromUTF8? ⟨bytes.toArray⟩ with
        | none => .error (.malformed .malformedTag)
        | some text => do
          let (rest, after) ← uriParts fuel (Cursor.advance (3 * bytes.length) after)
          return (run ++ text.toList ++ rest, after)

def uri (cursor : Cursor) : Except Fault (String × Cursor) := do
  if !isUriChar cursor.peek then throw (.malformed .malformedTag)
  let (cs, after) ← uriParts (cursor.rest.length + 1) cursor
  return (String.ofList cs, after)

/-- A handle: an exclamation mark, or a word between two of them. -/
def handle (cursor : Cursor) : Except Fault (String × Cursor) :=
  if cursor.peek ≠ '!' then .error (.malformed .malformedTag)
  else
    let (word, after) := cursor.next.span isWordChar
    if cursor.peekAt 1 = ' ' then .ok ("!", cursor.next)
    else if after.peek ≠ '!' then .error (.malformed .malformedTag)
    else .ok (String.ofList ('!' :: word ++ ['!']), after.next)

/-- A tag, as its handle and the rest. The tag is verbatim in angle brackets, or has a handle of its
own if a second exclamation mark stands in it. -/
def tag (cursor : Cursor) : Except Fault (Token × Cursor) := do
  let (token, after) ←
    if cursor.peekAt 1 = '<' then do
      let (suffix, after) ← uri (Cursor.advance 2 cursor)
      if after.peek ≠ '>' then throw (.malformed .malformedTag)
      pure (Token.tag none suffix, after.next)
    else if isGap (cursor.peekAt 1) then pure (Token.tag none "!", cursor.next)
    else do
      let word := cursor.next.rest.takeWhile fun c => !isSpaceOrLineEnd c
      let (handle, after) ← if word.contains '!' then handle cursor else pure ("!", cursor.next)
      let (suffix, after) ← uri after
      pure (Token.tag (some handle) suffix, after)
  if isSpaceOrLineEnd after.peek then return (token, after) else throw (.malformed .malformedTag)

/-- The rest of a line that may hold nothing but a comment. -/
def ignoredLine (violation : Violation) (cursor : Cursor) : Except Fault Cursor :=
  let cursor := cursor.skip (· == ' ')
  let cursor := if cursor.peek = '#' then cursor.skip (!isLineEnd ·) else cursor
  if isLineEnd cursor.peek then .ok cursor.next else .error (.malformed violation)

def malformedDirective : Fault := .malformed .malformedDirective

def directiveNumber (cursor : Cursor) : Except Fault (Nat × Cursor) :=
  let (digits, after) := cursor.span Char.isDigit
  if digits.isEmpty then .error malformedDirective
  else .ok (digits.foldl (fun sum c => 10 * sum + (c.toNat - 48)) 0, after)

def versionValue (cursor : Cursor) : Except Fault (Token × Cursor) := do
  let (major, after) ← directiveNumber (cursor.skip (· == ' '))
  if after.peek ≠ '.' then throw malformedDirective
  let (_, after) ← directiveNumber after.next
  if isSpaceOrLineEnd after.peek then return (.versionDirective major, after)
  else throw malformedDirective

def tagValue (cursor : Cursor) : Except Fault (Token × Cursor) := do
  let (handle, after) ← handle (cursor.skip (· == ' '))
  if after.peek ≠ ' ' then throw malformedDirective
  let (expansion, after) ← uri (after.skip (· == ' '))
  if isSpaceOrLineEnd after.peek then return (.tagDirective handle expansion, after)
  else throw malformedDirective

def directive (cursor : Cursor) : Except Fault (Token × Cursor) := do
  let (name, after) := cursor.next.span isWordChar
  if name.isEmpty || !isSpaceOrLineEnd after.peek then throw malformedDirective
  let (token, after) ←
    if name = ['Y', 'A', 'M', 'L'] then versionValue after
    else if name = ['T', 'A', 'G'] then tagValue after
    else pure (.otherDirective, after.skip (!isLineEnd ·))
  return (token, ← ignoredLine .malformedDirective after)

end SchemaTables.Yaml.Lexeme
