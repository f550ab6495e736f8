/-! Why a YAML text has no value. -/
namespace SchemaTables.Yaml

/-- Violations of the rules of YAML. -/
inductive Violation where
  | specialCharacter
  | unexpectedCharacter
  | missingColon
  | misplacedEntry
  | malformedDirective
  | malformedAnchor
  | malformedTag
  | malformedScalar
  | misplacedToken
  | severalDocuments
  | undefinedHandle
  | undefinedAlias
  | repeatedAnchor
  | wrongNode
  | collectionAsKey
  | undecodableBytes
deriving DecidableEq, Repr

/-- A violation, or a scalar that is well formed but stands for no value. A document that contains
itself is left aside: it has a value, but none that can be written out. -/
inductive Fault where
  | malformed (violation : Violation)
  | endless
  | codePointTooLarge
  | codePointTooWide
  | emptyNumber
  | badNumber
  | notBoolean (text : String)
  | notTimestamp
  | indirectTimestamp
  | impossibleDate
deriving DecidableEq, Repr

def Violation.message : Violation → String
  | specialCharacter => "special characters are not allowed"
  | unexpectedCharacter => "found a character that cannot start any token"
  | missingColon => "could not find expected ':'"
  | misplacedEntry => "an entry is not allowed here"
  | malformedDirective => "found a malformed directive"
  | malformedAnchor => "found a malformed anchor or alias"
  | malformedTag => "found a malformed tag"
  | malformedScalar => "found a malformed scalar"
  | misplacedToken => "found an unexpected token"
  | severalDocuments => "expected a single document"
  | undefinedHandle => "found an undefined tag handle"
  | undefinedAlias => "found an undefined alias"
  | repeatedAnchor => "found a duplicate anchor"
  | wrongNode => "found a node of the wrong kind for its tag"
  | collectionAsKey => "found an unhashable key"
  | undecodableBytes => "failed to decode binary data"

def Fault.message : Fault → String
  | malformed violation => violation.message
  | endless => "a node contains itself"
  | codePointTooLarge | codePointTooWide => "an escaped character is out of range"
  | emptyNumber => "a number has no digits"
  | badNumber => "a number is malformed"
  | notBoolean text => text
  | notTimestamp => "a timestamp is malformed"
  | indirectTimestamp => "a timestamp is not a scalar"
  | impossibleDate => "a date or time is out of range"

end SchemaTables.Yaml
