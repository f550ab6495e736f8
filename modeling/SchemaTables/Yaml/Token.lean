import SchemaTables.Yaml.Fault

/-! The tokens of a YAML text. -/
namespace SchemaTables.Yaml

inductive Token where
  | streamEnd
  | documentStart
  | documentEnd
  | versionDirective (major : Nat)
  | tagDirective (handle expansion : String)
  | otherDirective
  | blockSequenceStart
  | blockMappingStart
  | blockEnd
  | flowSequenceStart
  | flowSequenceEnd
  | flowMappingStart
  | flowMappingEnd
  | blockEntry
  | flowEntry
  | key
  | value
  | aliasOf (name : String)
  | anchor (name : String)
  | tag (handle : Option String) (suffix : String)
  | scalar (text : String) (plain : Bool)
  | broken (fault : Fault)
deriving DecidableEq, Repr

namespace Token

def isDirective : Token → Bool
  | versionDirective _ | tagDirective .. | otherDirective => true
  | _ => false

end Token
end SchemaTables.Yaml
