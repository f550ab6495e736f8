import SchemaTables.Schema.Entry
import SchemaTables.Text.Blank
import SchemaTables.Text.Case
import SchemaTables.Text.Identifier
import SchemaTables.Value.Display

/-! Display titles. Strings and booleans are always titled anew; other kinds keep a title that is
there and not empty, and else take one from their name. -/
namespace SchemaTables.Title

/-- The member texts that an enumeration shows: trimmed, without blanks and nulls. -/
def keptText? (member : Value) : Option String :=
  match member with
  | .null => none
  | member =>
    let text := Blank.trim member.display
    if text.isEmpty || text == "null" then none else some text

def keptTexts (members : List Value) : List String := members.filterMap keptText?

def ofEnumeration (name : String) (texts : List String) : String :=
  let enumeration := Case.capitalize name ++ "Enum"
  if texts.all Identifier.isBare then enumeration else "ValuedEnum<" ++ enumeration ++ ">"

/-- The capitalized name without hyphens and low lines. -/
def ofName (name : String) : String :=
  String.ofList ((Case.capitalize name).toList.filter fun c => c != '-' && c != '_')

end SchemaTables.Title

namespace SchemaTables

namespace Head

def isTitled (head : Head) : Bool :=
  match head.title with
  | some title => !title.isEmpty
  | none => false

/-- The head of a schema that is neither a string nor a boolean. -/
def titledByName (name : String) (head : Head) : Head :=
  if head.isTitled then head else { head with title := some (Title.ofName name) }

def titledScalar (name : String) (kind : ScalarKind) (head : Head) : Head :=
  match kind with
  | .string =>
    if head.members.isEmpty then { head with title := some "String" }
    else
      let texts := Title.keptTexts head.members
      { head with title := some (Title.ofEnumeration name texts), enumeration := some texts }
  | .boolean => { head with title := some "boolean" }
  | .integer | .number => head.titledByName name

end Head

/-- Titles a schema by `name`; its parts are left alone. -/
def Entry.titled (name : String) : Entry → Entry
  | .scalar site head kind => .scalar site (head.titledScalar name kind) kind
  | .array site head items => .array site (head.titledByName name) items
  | .object site head properties => .object site (head.titledByName name) properties
  | .composed site head alternatives => .composed site (head.titledByName name) alternatives
  | entry => entry

end SchemaTables
