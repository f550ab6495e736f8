import SchemaTables.Text.Surrogate
import SchemaTables.Yaml.Fault
import SchemaTables.Yaml.Lexeme

/-! Quoted scalars. In single quotes only the quote is escaped, by doubling it; in double quotes a
backslash escapes. Line breaks are folded in both. -/
namespace SchemaTables.Yaml.QuotedScalar

def malformed : Fault := .malformed .malformedScalar

/-- What a backslash and one letter stand for. -/
def escapes : List (Char × Char) := [
  ('0', '\x00'), ('a', '\x07'), ('b', '\x08'), ('t', '\t'), ('\t', '\t'), ('n', '\n'),
  ('v', '\x0B'), ('f', '\x0C'), ('r', '\r'), ('e', '\x1B'), (' ', ' '), ('"', '"'), ('\\', '\\'),
  ('/', '/'), ('N', '\x85'), ('_', '\xA0'), ('L', '\u2028'), ('P', '\u2029')]

/-- How many hexadecimal digits follow a letter. -/
def codeLengths : List (Char × Nat) := [('x', 2), ('u', 4), ('U', 8)]

/-- The number written by `count` hexadecimal digits. -/
def code? (count : Nat) (text : List Char) : Option Nat :=
  let digits := text.take count
  if digits.length = count && digits.all Lexeme.isHexDigit then some (Lexeme.hexValue digits) else none

/-- The character of a code, as it is spelled in a text. Each escape stands for itself: an escaped pair
of surrogates is two of them, and not the character that the pair would encode. -/
def decode (code : Nat) : Except Fault (List Char) :=
  if 0x7FFFFFFF < code then .error .codePointTooWide
  else if 0x10FFFF < code then .error .codePointTooLarge
  else .ok (Surrogate.spell code)

/-- The line breaks from here on, with the blanks between them skipped. -/
def breaks : (fuel : Nat) → Cursor → Except Fault (List Char × Cursor)
  | 0, cursor => .ok ([], cursor)
  | fuel + 1, cursor =>
    if cursor.atMarker then .error malformed
    else
      let after := cursor.skip fun c => c == ' ' || c == '\t'
      if isBreak after.peek then do
        let (rest, last) ← breaks fuel after.next
        return (breakContent after.peek :: rest, last)
      else .ok ([], after)

/-- An escape after its backslash. -/
def escape (cursor : Cursor) : Except Fault (List Char × Cursor) :=
  match escapes.lookup cursor.peek with
  | some c => .ok ([c], cursor.next)
  | none =>
    match codeLengths.lookup cursor.peek with
    | some count =>
      match code? count cursor.next.rest with
      | none => .error malformed
      | some code => (decode code).map fun cs => (cs, Cursor.advance count cursor.next)
    | none =>
      if isBreak cursor.peek then breaks (cursor.rest.length + 1) cursor.next else .error malformed

def isPlainPart (c : Char) : Bool := !isGap c && c != '\x27' && c != '"' && c != '\\'

/-- The text up to the next gap or to the closing quote. -/
def solid (double : Bool) : (fuel : Nat) → Cursor → Except Fault (List Char × Cursor)
  | 0, cursor => .ok ([], cursor)
  | fuel + 1, cursor =>
    let more (found : List Char) (after : Cursor) : Except Fault (List Char × Cursor) := do
      let (rest, after) ← solid double fuel after
      return (found ++ rest, after)
    let c := cursor.peek
    if isPlainPart c then more (Surrogate.spell c.toNat) cursor.next
    else if !double && c == '\x27' && cursor.peekAt 1 == '\x27' then more [c] (Cursor.advance 2 cursor)
    else if (double && c == '\x27') || (!double && (c == '"' || c == '\\')) then more [c] cursor.next
    else if double && c == '\\' then do
      let (found, after) ← escape cursor.next
      more found after
    else .ok ([], cursor)

/-- What a gap stands for: blanks for themselves, a single line feed for a space, further breaks for
themselves. -/
def gap (cursor : Cursor) : Except Fault (List Char × Cursor) := do
  let (blanks, after) := cursor.span fun c => c == ' ' || c == '\t'
  if after.peek = '\x00' then throw malformed
  if isBreak after.peek then
    let first := breakContent after.peek
    let (others, last) ← breaks (after.rest.length + 1) after.next
    return (if first ≠ '\n' then first :: others else if others.isEmpty then [' '] else others, last)
  else return (blanks, after)

/-- The text up to the closing quote, from a gap on. -/
def parts (double : Bool) : (fuel : Nat) → Cursor → Except Fault (List Char × Cursor)
  | 0, _ => .error malformed
  | fuel + 1, cursor =>
    if cursor.peek = (if double then '"' else '\x27') then .ok ([], cursor.next)
    else do
      let (shown, after) ← gap cursor
      let (found, after) ← solid double (after.rest.length + 1) after
      let (rest, after) ← parts double fuel after
      return (shown ++ found ++ rest, after)

/-- The text between the quotes, the first of which stands at `cursor`. -/
def scan (double : Bool) (cursor : Cursor) : Except Fault (String × Cursor) := do
  let (found, after) ← solid double (cursor.rest.length + 1) cursor.next
  let (rest, after) ← parts double (after.rest.length + 1) after
  return (String.ofList (found ++ rest), after)

end SchemaTables.Yaml.QuotedScalar
