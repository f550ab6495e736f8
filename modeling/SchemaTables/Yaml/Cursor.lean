/-! A position in a text. Lines end with a line feed, a next-line character or a Unicode separator;
the end of the text is seen as a null character, which no YAML text contains. -/
namespace SchemaTables.Yaml

structure Cursor where
  rest : List Char
  index : Nat
  line : Nat
  column : Nat
deriving Repr

def isBreak (c : Char) : Bool := c == '\n' || c == '\x85' || c == '\u2028' || c == '\u2029'

/-- A line break or the end of the text. -/
def isLineEnd (c : Char) : Bool := c == '\x00' || isBreak c

/-- What separates tokens outside of directives and tags. -/
def isGap (c : Char) : Bool := c == ' ' || c == '\t' || isLineEnd c

/-- A space or the end of a line, but no tab. -/
def isSpaceOrLineEnd (c : Char) : Bool := c == ' ' || isLineEnd c

/-- A line break as content: separators stand for themselves. -/
def breakContent (c : Char) : Char := if c == '\x85' then '\n' else c

namespace Cursor

def start (text : List Char) : Cursor := ⟨text, 0, 0, 0⟩

def peek (cursor : Cursor) : Char := cursor.rest.headD '\x00'

def peekAt (cursor : Cursor) (distance : Nat) : Char := (cursor.rest.drop distance).headD '\x00'

/-- One character further. A byte order mark takes no column. -/
def next (cursor : Cursor) : Cursor :=
  match cursor.rest with
  | [] => cursor
  | c :: rest =>
    if isBreak c then ⟨rest, cursor.index + 1, cursor.line + 1, 0⟩
    else ⟨rest, cursor.index + 1, cursor.line, if c == '\uFEFF' then cursor.column else cursor.column + 1⟩

def advance : Nat → Cursor → Cursor
  | 0, cursor => cursor
  | distance + 1, cursor => advance distance cursor.next

/-- The longest run of characters in a class, and the position after it. -/
def span (isIn : Char → Bool) (cursor : Cursor) : List Char × Cursor :=
  let run := cursor.rest.takeWhile isIn
  (run, advance run.length cursor)

def skip (isIn : Char → Bool) (cursor : Cursor) : Cursor := (cursor.span isIn).2

def startsWith (cursor : Cursor) (text : List Char) : Bool := text.isPrefixOf cursor.rest

/-- Whether a document marker stands here, at the beginning of a line. -/
def atMarker (cursor : Cursor) : Bool :=
  (cursor.startsWith ['-', '-', '-'] || cursor.startsWith ['.', '.', '.']) && isGap (cursor.peekAt 3)

end Cursor
end SchemaTables.Yaml
