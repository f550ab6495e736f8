import SchemaTables.Text.IdentifierTable
import SchemaTables.Text.Ranges

/-! Words that can stand as a plain symbolic constant: an identifier of Unicode Annex 31 that does
not begin with a low line. -/
namespace SchemaTables.Identifier

def isStart (c : Char) : Bool :=
  if c.toNat < 128 then c.isAlpha || c == '_' else Ranges.covers IdentifierTable.starts c

def isContinuation (c : Char) : Bool :=
  if c.toNat < 128 then c.isAlphanum || c == '_'
  else Ranges.covers IdentifierTable.starts c || Ranges.covers IdentifierTable.continuations c

def isBareWord : List Char → Bool
  | [] => false
  | c :: cs => isStart c && c != '_' && cs.all isContinuation

def isBare (text : String) : Bool := isBareWord text.toList

end SchemaTables.Identifier
