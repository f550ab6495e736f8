import SchemaTables.Yaml.BlockScalar
import SchemaTables.Yaml.PlainScalar
import SchemaTables.Yaml.QuotedScalar

/-! The tokens of a YAML text. Where a key begins is known only when its colon is found: until then
the place is a candidate, and the tokens that open the key are entered there afterwards. -/
namespace SchemaTables.Yaml

/-- A token that may begin a key, by its number. A required candidate must turn out to be one. -/
structure Candidate where
  token : Nat
  required : Bool
  index : Nat
  line : Nat
  column : Nat
deriving Repr

/-- What is known up to `cursor`. `produced` holds the tokens found, newest first; `openings` the
tokens to enter before the token of a number, highest first. `outer` are the candidates of the flow
collections around, and `indents` the columns of the block collections, innermost first. -/
structure TokenStream where
  cursor : Cursor
  produced : List Token
  count : Nat
  openings : List (Nat × List Token)
  candidate : Option Candidate
  outer : List (Option Candidate)
  indents : List Nat
  keyAllowed : Bool
  ended : Bool

namespace TokenStream

def start (text : List Char) : TokenStream := ⟨.start text, [], 0, [], none, [], [], true, false⟩

def inFlow (s : TokenStream) : Bool := !s.outer.isEmpty

/-- The column of the innermost block collection; -1 outside of all. -/
def indent (s : TokenStream) : Int :=
  match s.indents with
  | [] => -1
  | column :: _ => column

def emit (token : Token) (s : TokenStream) : TokenStream :=
  { s with produced := token :: s.produced, count := s.count + 1 }

/-- Emits a token and goes on behind it. -/
def emitTo (token : Token) (after : Cursor) (s : TokenStream) : TokenStream :=
  { s.emit token with cursor := after }

def allowKey (allowed : Bool) (s : TokenStream) : TokenStream := { s with keyAllowed := allowed }

def missingColon : Fault := .malformed .missingColon

/-- Spaces, comments and line breaks before the next token, and whether a line ended. -/
def blankLines : (fuel : Nat) → Cursor → Bool × Cursor
  | 0, cursor => (false, cursor)
  | fuel + 1, cursor =>
    let cursor := cursor.skip (· == ' ')
    let cursor := if cursor.peek = '#' then cursor.skip (!isLineEnd ·) else cursor
    if isBreak cursor.peek then (true, (blankLines fuel cursor.next).2) else (false, cursor)

/-- Goes to the next token. A new line allows a key, except in flow collections. -/
def toToken (s : TokenStream) : TokenStream :=
  let cursor := if s.cursor.index = 0 && s.cursor.peek = '\uFEFF' then s.cursor.next else s.cursor
  let (newLine, cursor) := blankLines (cursor.rest.length + 1) cursor
  { s with cursor := cursor, keyAllowed := s.keyAllowed || (newLine && !s.inFlow) }

/-- A candidate ends with its line, and after 1024 characters. -/
def isStale (cursor : Cursor) (candidate : Candidate) : Bool :=
  candidate.line != cursor.line || 1024 < cursor.index - candidate.index

def dropStale (s : TokenStream) : Except Fault TokenStream :=
  let stale : Option Candidate → Bool := (·.any (isStale s.cursor))
  let fresh (c : Option Candidate) : Option Candidate := if stale c then none else c
  if (s.candidate :: s.outer).any fun c => stale c && c.any (·.required) then .error missingColon
  else .ok { s with candidate := fresh s.candidate, outer := s.outer.map fresh }

/-- Forgets the candidate of the innermost collection. -/
def dropCandidate (s : TokenStream) : Except Fault TokenStream :=
  if s.candidate.any (·.required) then .error missingColon else .ok { s with candidate := none }

/-- Makes the next token a candidate, where a key is allowed. -/
def saveCandidate (s : TokenStream) : Except Fault TokenStream :=
  if s.keyAllowed then do
    let s ← s.dropCandidate
    let cursor := s.cursor
    let required := !s.inFlow && s.indent == cursor.column
    return { s with candidate := some ⟨s.count, required, cursor.index, cursor.line, cursor.column⟩ }
  else .ok s

/-- Closes the block collections that are indented further than `column`. -/
def closeBlocks (column : Int) (s : TokenStream) : TokenStream :=
  if s.inFlow then s
  else
    let closed := s.indents.takeWhile fun (c : Nat) => column < (c : Int)
    { s with
      indents := s.indents.drop closed.length
      produced := List.replicate closed.length .blockEnd ++ s.produced
      count := s.count + closed.length }

/-- Whether a block collection at `column` is a new one. -/
def opensBlock (s : TokenStream) (column : Nat) : Bool := !s.inFlow && s.indent < column

def openBlock (token : Token) (s : TokenStream) : TokenStream :=
  let column := s.cursor.column
  if s.opensBlock column then { s.emit token with indents := column :: s.indents } else s

/-- Enters tokens before the token of the number `at`. -/
def enter (number : Nat) (tokens : List Token) : List (Nat × List Token) → List (Nat × List Token)
  | [] => [(number, tokens)]
  | (n, ts) :: rest =>
    if n < number then (number, tokens) :: (n, ts) :: rest else (n, ts) :: enter number tokens rest

def streamEnd (s : TokenStream) : Except Fault TokenStream := do
  let s ← (s.closeBlocks (-1)).dropCandidate
  return { s.emit .streamEnd with ended := true }

def directive (s : TokenStream) : Except Fault TokenStream := do
  let s ← (s.closeBlocks (-1)).dropCandidate
  let (token, after) ← Lexeme.directive s.cursor
  return (s.allowKey false).emitTo token after

def documentMarker (token : Token) (s : TokenStream) : Except Fault TokenStream := do
  let s ← (s.closeBlocks (-1)).dropCandidate
  return (s.allowKey false).emitTo token (Cursor.advance 3 s.cursor)

def flowStart (token : Token) (s : TokenStream) : Except Fault TokenStream := do
  let s ← s.saveCandidate
  let s := { s with outer := s.candidate :: s.outer, candidate := none }
  return (s.allowKey true).emitTo token s.cursor.next

def flowEnd (token : Token) (s : TokenStream) : Except Fault TokenStream := do
  let s ← s.dropCandidate
  match s.outer with
  | [] => throw (.malformed .misplacedToken)
  | candidate :: outer =>
    let s := { s with candidate := candidate, outer := outer }
    return (s.allowKey false).emitTo token s.cursor.next

def flowEntry (s : TokenStream) : Except Fault TokenStream := do
  let s ← (s.allowKey true).dropCandidate
  return s.emitTo .flowEntry s.cursor.next

def misplacedEntry : Fault := .malformed .misplacedEntry

def blockEntry (s : TokenStream) : Except Fault TokenStream := do
  if !s.inFlow && !s.keyAllowed then throw misplacedEntry
  let s ← ((s.openBlock .blockSequenceStart).allowKey true).dropCandidate
  return s.emitTo .blockEntry s.cursor.next

def explicitKey (s : TokenStream) : Except Fault TokenStream := do
  if !s.inFlow && !s.keyAllowed then throw misplacedEntry
  let s ← ((s.openBlock .blockMappingStart).allowKey (!s.inFlow)).dropCandidate
  return s.emitTo .key s.cursor.next

/-- A colon: it turns the candidate into a key, or follows a key that is there already. -/
def mappingValue (s : TokenStream) : Except Fault TokenStream := do
  match s.candidate with
  | some candidate =>
    let opens := s.opensBlock candidate.column
    let tokens : List Token := if opens then [.blockMappingStart, .key] else [.key]
    let s := { s with
      candidate := none
      openings := enter candidate.token tokens s.openings
      indents := if opens then candidate.column :: s.indents else s.indents }
    return (s.allowKey false).emitTo .value s.cursor.next
  | none =>
    if !s.inFlow && !s.keyAllowed then throw misplacedEntry
    let s := (s.openBlock .blockMappingStart).allowKey (!s.inFlow)
    return s.emitTo .value s.cursor.next

def anchor (token : String → Token) (s : TokenStream) : Except Fault TokenStream := do
  let s ← s.saveCandidate
  let (name, after) ← Lexeme.anchorName s.cursor
  return (s.allowKey false).emitTo (token name) after

def tag (s : TokenStream) : Except Fault TokenStream := do
  let s ← s.saveCandidate
  let (token, after) ← Lexeme.tag s.cursor
  return (s.allowKey false).emitTo token after

def blockScalar (folded : Bool) (s : TokenStream) : Except Fault TokenStream := do
  let s ← (s.allowKey true).dropCandidate
  let (text, after) ← BlockScalar.scan folded s.indent s.cursor
  return s.emitTo (.scalar text false) after

def quotedScalar (double : Bool) (s : TokenStream) : Except Fault TokenStream := do
  let s ← s.saveCandidate
  let (text, after) ← QuotedScalar.scan double s.cursor
  return (s.allowKey false).emitTo (.scalar text false) after

def plainScalar (s : TokenStream) : Except Fault TokenStream := do
  let s ← s.saveCandidate
  let (text, newLine, after) := PlainScalar.scan s.inFlow (s.indent + 1) s.cursor
  return (s.allowKey newLine).emitTo (.scalar text true) after

/-- Characters that begin other tokens than plain scalars. -/
def marks : List Char :=
  ['-', '?', ':', ',', '[', ']', '\x7b', '\x7d', '#', '&', '*', '!', '|', '>', '\x27', '"', '%',
    '@', '\x60']

/-- A hyphen begins a plain scalar when no gap follows, and so do a question mark and a colon outside
of flow collections. -/
def beginsPlain (s : TokenStream) : Bool :=
  let c := s.cursor.peek
  (!isGap c && !marks.contains c) ||
    (!isGap (s.cursor.peekAt 1) && (c == '-' || (!s.inFlow && (c == '?' || c == ':'))))

def token (s : TokenStream) : Except Fault TokenStream :=
  let c := s.cursor.peek
  let atLineStart := s.cursor.column == 0
  let gapFollows := isGap (s.cursor.peekAt 1)
  if c = '\x00' then s.streamEnd
  else if c = '%' && atLineStart then s.directive
  else if c = '-' && atLineStart && s.cursor.atMarker then s.documentMarker .documentStart
  else if c = '.' && atLineStart && s.cursor.atMarker then s.documentMarker .documentEnd
  else if c = '[' then s.flowStart .flowSequenceStart
  else if c = '\x7b' then s.flowStart .flowMappingStart
  else if c = ']' then s.flowEnd .flowSequenceEnd
  else if c = '\x7d' then s.flowEnd .flowMappingEnd
  else if c = ',' then s.flowEntry
  else if c = '-' && gapFollows then s.blockEntry
  else if c = '?' && (s.inFlow || gapFollows) then s.explicitKey
  else if c = ':' && (s.inFlow || gapFollows) then s.mappingValue
  else if c = '*' then s.anchor .aliasOf
  else if c = '&' then s.anchor .anchor
  else if c = '!' then s.tag
  else if c = '|' && !s.inFlow then s.blockScalar false
  else if c = '>' && !s.inFlow then s.blockScalar true
  else if c = '\x27' then s.quotedScalar false
  else if c = '"' then s.quotedScalar true
  else if s.beginsPlain then s.plainScalar
  else .error (.malformed .unexpectedCharacter)

/-- Finds the next token and what it closes. -/
def step (s : TokenStream) : Except Fault TokenStream := do
  let s ← s.toToken.dropStale
  (s.closeBlocks s.cursor.column).token

/-- The tokens in their order, with the openings entered: `produced` are numbered downwards from
`count`. -/
def inOrder : (produced : List Token) → (count : Nat) → (openings : List (Nat × List Token)) →
    (after : List Token) → List Token
  | [], _, _, after => after
  | token :: produced, count, openings, after =>
    match openings with
    | (number, tokens) :: rest =>
      if number + 1 = count then inOrder produced (count - 1) rest (tokens ++ token :: after)
      else inOrder produced (count - 1) openings (token :: after)
    | [] => inOrder produced (count - 1) [] (token :: after)

def tokens (s : TokenStream) : List Token := inOrder s.produced s.count s.openings []

/-- The first token that may still begin a key. No reader gets to it before that is settled. -/
def undecided? (s : TokenStream) : Option Nat :=
  let fresh := (s.candidate :: s.outer).filterMap fun candidate =>
    candidate.filter fun c => !isStale s.cursor c
  (fresh.map (·.token)).min?

/-- What a reader has met when the next token cannot be scanned. -/
def met (s : TokenStream) : TokenStream :=
  match s.undecided? with
  | none => s
  | some number =>
    { s with
      produced := s.produced.drop (s.count - number)
      count := number
      openings := s.openings.filter fun opening => opening.1 < number }

/-- Scans to the end of the text. A fault becomes the last token. -/
def run : (fuel : Nat) → TokenStream → List Token
  | 0, s => s.tokens
  | fuel + 1, s =>
    if s.ended then s.tokens
    else match s.step with
      | .ok s => run fuel s
      | .error fault => (s.met.emit (.broken fault)).tokens

end TokenStream

/-- What YAML texts may hold besides the characters of ASCII. -/
def isTextChar (c : Char) : Bool :=
  let n := c.toNat
  c == '\t' || c == '\n' || c == '\r' || (0x20 ≤ n && n ≤ 0x7E) || n == 0x85 ||
    (0xA0 ≤ n && n ≤ 0xD7FF) || (0xE000 ≤ n && n ≤ 0xFFFD) || 0x10000 ≤ n

/-- The tokens of a text. Each step but the last takes at least one character. -/
def Token.ofText (text : List Char) : List Token :=
  if text.all isTextChar then TokenStream.run (text.length + 2) (.start text)
  else [.broken (.malformed .specialCharacter)]

end SchemaTables.Yaml
