import SchemaTables.Text.Surrogate
import SchemaTables.Yaml.Fault
import SchemaTables.Yaml.Lexeme

/-! Block scalars: indented lines after a bar, which keeps the line breaks, or after a right angle
bracket, which folds them. -/
namespace SchemaTables.Yaml.BlockScalar

/-- What becomes of the line breaks at the end. -/
inductive Chomping where
  | strip
  | clip
  | keep
deriving DecidableEq, Repr

structure Header where
  chomping : Chomping
  indentation : Option Nat

def malformed : Fault := .malformed .malformedScalar

def chomping? (c : Char) : Option Chomping :=
  if c = '+' then some .keep else if c = '-' then some .strip else none

def indentation? (c : Char) : Option Nat := if c.isDigit then some (c.toNat - 48) else none

/-- The marks for chomping and indentation, in either order. -/
def header (cursor : Cursor) : Header × Cursor :=
  match chomping? cursor.peek with
  | some chomping =>
    match indentation? cursor.next.peek with
    | some n => (⟨chomping, some n⟩, cursor.next.next)
    | none => (⟨chomping, none⟩, cursor.next)
  | none =>
    match indentation? cursor.peek with
    | some n =>
      match chomping? cursor.next.peek with
      | some chomping => (⟨chomping, some n⟩, cursor.next.next)
      | none => (⟨.clip, some n⟩, cursor.next)
    | none => (⟨.clip, none⟩, cursor)

/-- Empty lines and the spaces before the first other line: the breaks, and the widest column. -/
def leading : (fuel : Nat) → Cursor → List Char × Nat × Cursor
  | 0, cursor => ([], 0, cursor)
  | fuel + 1, cursor =>
    if cursor.peek = ' ' then
      let (breaks, width, after) := leading fuel cursor.next
      (breaks, max width cursor.next.column, after)
    else if isBreak cursor.peek then
      let (breaks, width, after) := leading fuel cursor.next
      (breakContent cursor.peek :: breaks, width, after)
    else ([], 0, cursor)

/-- Spaces up to column `indent`. -/
def indentTo (indent : Nat) : (fuel : Nat) → Cursor → Cursor
  | 0, cursor => cursor
  | fuel + 1, cursor =>
    if cursor.column < indent && cursor.peek = ' ' then indentTo indent fuel cursor.next else cursor

/-- Empty lines between lines that begin at column `indent`. -/
def breaks (indent : Nat) : (fuel : Nat) → Cursor → List Char × Cursor
  | 0, cursor => ([], cursor)
  | fuel + 1, cursor =>
    let after := indentTo indent indent cursor
    if isBreak after.peek then
      let (rest, last) := breaks indent fuel after.next
      (breakContent after.peek :: rest, last)
    else ([], after)

def startsWithBlank (c : Char) : Bool := c == ' ' || c == '\t'

/-- The break after a line, if there is one. -/
def lineBreak (cursor : Cursor) : List Char :=
  if isBreak cursor.peek then [breakContent cursor.peek] else []

/-- The lines at column `indent`, and the breaks at the end as `chomping` wants them. `before` are
the empty lines before the first line. -/
def lines (folded : Bool) (chomping : Chomping) (indent : Nat) :
    (fuel : Nat) → (before : List Char) → Cursor → List Char × Cursor
  | 0, before, cursor => (before, cursor)
  | fuel + 1, before, cursor =>
    let (line, atEnd) := cursor.span (!isLineEnd ·)
    let ending := lineBreak atEnd
    let (between, after) := breaks indent (atEnd.rest.length + 1) atEnd.next
    if after.column = indent && after.peek ≠ '\x00' then
      let glue :=
        if folded && ending = ['\n'] && !startsWithBlank cursor.peek && !startsWithBlank after.peek then
          if between.isEmpty then [' '] else []
        else ending
      let (rest, last) := lines folded chomping indent fuel between after
      (before ++ line ++ glue ++ rest, last)
    else
      let tail := match chomping with
        | .strip => []
        | .clip => ending
        | .keep => ending ++ between
      (before ++ line ++ tail, after)

/-- The text of the scalar whose mark stands at `cursor`, inside a block indented by `parent`. -/
def scan (folded : Bool) (parent : Int) (cursor : Cursor) : Except Fault (String × Cursor) := do
  let (header, after) := header cursor.next
  if header.indentation = some 0 || !isSpaceOrLineEnd after.peek then throw malformed
  let start ← Lexeme.ignoredLine .malformedScalar after
  let least := max (parent + 1) 1
  let fuel := start.rest.length + 1
  let (before, indent, first) :=
    match header.indentation with
    | none =>
      let (breaks, width, first) := leading fuel start
      (breaks, max least.toNat width, first)
    | some n =>
      let indent := least.toNat + n - 1
      let (breaks, first) := breaks indent fuel start
      (breaks, indent, first)
  if first.column = indent && first.peek ≠ '\x00' then
    let (text, after) := lines folded header.chomping indent fuel before first
    return (String.ofList (Surrogate.spellChars text), after)
  else
    return (if header.chomping = .keep then String.ofList before else "", first)

end SchemaTables.Yaml.BlockScalar
