import SchemaTables.Text.CaseTable

/-! Re-casing of names. Only the first character of a name is mapped, through its full Unicode
mapping, so one character may become two or three; all other characters stay as they are. -/
namespace SchemaTables.Case

def upper (c : Char) : List Char :=
  if c.toNat < 128 then [c.toUpper]
  else (CaseTable.image CaseTable.upperRows CaseTable.upperExpansions c.toNat).map Char.ofNat

def lower (c : Char) : List Char :=
  if c.toNat < 128 then [c.toLower]
  else (CaseTable.image CaseTable.lowerRows CaseTable.lowerExpansions c.toNat).map Char.ofNat

def mapFirst (f : Char → List Char) : List Char → List Char
  | [] => []
  | c :: cs => f c ++ cs

def capitalize (name : String) : String := String.ofList (mapFirst upper name.toList)

def uncapitalize (name : String) : String := String.ofList (mapFirst lower name.toList)

/-- How a collection of named schemas is keyed: types by capitalized names, fields by
un-capitalized ones. -/
inductive Convention where
  | type
  | field
deriving DecidableEq, Repr

def Convention.key : Convention → String → String
  | .type => capitalize
  | .field => uncapitalize

end SchemaTables.Case
