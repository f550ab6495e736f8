import SchemaTables.Yaml.TokenStream

/-! The nodes of a YAML document as they are written: tags are spelled out, but no plain scalar is
interpreted yet. A node keeps its anchor, and an alias the anchor it means: no two nodes of a document
have the same, so that the tree tells the graph in which an alias is the node of its anchor. -/
namespace SchemaTables.Yaml

/-- How the tag of a node is found: by its text, for a plain scalar without a tag and for any scalar
behind an exclamation mark alone; by its kind; or by its own statement. -/
inductive TagMark where
  | plain
  | nonSpecific
  | byKind
  | explicit (tag : String)
deriving DecidableEq, Repr

inductive Tree where
  | aliasOf (anchor : String)
  | scalar (anchor : Option String) (mark : TagMark) (text : String)
  | sequence (anchor : Option String) (mark : TagMark) (items : List Tree)
  | mapping (anchor : Option String) (mark : TagMark) (entries : List (Tree × Tree))
deriving Repr

namespace Tree

/-- A node that is left out. -/
def empty : Tree := .scalar none .plain ""

/-- The tokens left, the anchors met, and the expansions of tag handles. -/
structure Reading where
  tokens : List Token
  anchors : List String
  handles : List (String × String)

abbrev Parse (β : Type) := Reading → Except Fault (β × Reading)

def misplaced {β : Type} : Except Fault β := .error (.malformed .misplacedToken)

namespace Reading

def peek (r : Reading) : Token := r.tokens.headD .streamEnd

def next (r : Reading) : Reading := { r with tokens := r.tokens.drop 1 }

/-- The fault at which the tokens end, or else a misplaced token. -/
def refuse {β : Type} (r : Reading) : Except Fault β :=
  match r.peek with
  | .broken fault => .error fault
  | _ => misplaced

end Reading

def standardHandles : List (String × String) := [("!", "!"), ("!!", "tag:yaml.org,2002:")]

/-- An anchor and a tag, in either order, as far as they are there. -/
def properties (r : Reading) : (Option String × Option (Option String × String)) × Reading :=
  match r.peek with
  | .anchor name =>
    match r.next.peek with
    | .tag handle suffix => ((some name, some (handle, suffix)), r.next.next)
    | _ => ((some name, none), r.next)
  | .tag handle suffix =>
    match r.next.peek with
    | .anchor name => ((some name, some (handle, suffix)), r.next.next)
    | _ => ((none, some (handle, suffix)), r.next)
  | _ => ((none, none), r)

/-- The tag that a handle and a suffix spell. -/
def spelled (handles : List (String × String)) :
    Option (Option String × String) → Except Fault (Option String)
  | none => .ok none
  | some (none, suffix) => .ok (some suffix)
  | some (some handle, suffix) =>
    match handles.lookup handle with
    | some expansion => .ok (some (expansion ++ suffix))
    | none => .error (.malformed .undefinedHandle)

/-- An exclamation mark alone leaves a collection to its kind. -/
def collectionMark : Option String → TagMark
  | none => .byKind
  | some tag => if tag = "!" then .byKind else .explicit tag

/-- An exclamation mark alone, or no tag for a plain scalar, leaves a scalar to its text. -/
def scalarMark (plain : Bool) : Option String → TagMark
  | none => if plain then .plain else .byKind
  | some tag => if tag = "!" then .nonSpecific else .explicit tag

/-- Opens an anchor, which must be a new one. -/
def openAnchor (anchor : Option String) (r : Reading) : Except Fault Reading :=
  match anchor with
  | none => .ok r
  | some name =>
    if r.anchors.contains name then .error (.malformed .repeatedAnchor)
    else .ok { r with anchors := name :: r.anchors }

/-- A node that consists of its anchor or tag alone. -/
def bare (anchor tag : Option String) : Parse Tree := fun r =>
  if anchor.isSome || tag.isSome then
    match r.peek with
    | .broken fault => .error fault
    | _ => .ok (.scalar anchor (scalarMark true tag) "", r)
  else r.refuse

mutual

/-- A node. Block collections are read where `block` allows them; where `indentless` does, a sequence
may stand at the column of the mapping around it. -/
def node : (fuel : Nat) → (block indentless : Bool) → Parse Tree
  | 0, _, _, r => r.refuse
  | fuel + 1, block, indentless, r =>
    match r.peek with
    | .aliasOf name =>
      -- the anchor may be that of a node around the alias: a node is known from its beginning on
      if r.anchors.contains name then .ok (.aliasOf name, r.next)
      else .error (.malformed .undefinedAlias)
    | _ => do
      let ((anchor, written), r) := properties r
      let tag ← spelled r.handles written
      let r ← openAnchor anchor r
      match r.peek with
      | .scalar text plain => return (Tree.scalar anchor (scalarMark plain tag) text, r.next)
      | .flowSequenceStart => do
        let (items, r) ← flowItems fuel true r.next
        return (Tree.sequence anchor (collectionMark tag) items, r)
      | .flowMappingStart => do
        let (entries, r) ← flowEntries fuel true r.next
        return (Tree.mapping anchor (collectionMark tag) entries, r)
      | .blockEntry =>
        if indentless then do
          let (items, r) ← indentlessItems fuel r
          return (Tree.sequence anchor (collectionMark tag) items, r)
        else bare anchor tag r
      | .blockSequenceStart =>
        if block then do
          let (items, r) ← blockItems fuel r.next
          return (Tree.sequence anchor (collectionMark tag) items, r)
        else bare anchor tag r
      | .blockMappingStart =>
        if block then do
          let (entries, r) ← blockEntries fuel r.next
          return (Tree.mapping anchor (collectionMark tag) entries, r)
        else bare anchor tag r
      | _ => bare anchor tag r

/-- A node, or nothing before the end of its entry. -/
def optional : (fuel : Nat) → (block indentless : Bool) → (ends : Token → Bool) → Parse Tree
  | 0, _, _, _, r => r.refuse
  | fuel + 1, block, indentless, ends, r =>
    if ends r.peek then .ok (empty, r) else node fuel block indentless r

def blockItems : (fuel : Nat) → Parse (List Tree)
  | 0, r => r.refuse
  | fuel + 1, r =>
    match r.peek with
    | .blockEntry => do
      let (item, r) ← optional fuel true false (fun t => t == .blockEntry || t == .blockEnd) r.next
      let (items, r) ← blockItems fuel r
      return (item :: items, r)
    | .blockEnd => .ok ([], r.next)
    | _ => r.refuse

def indentlessItems : (fuel : Nat) → Parse (List Tree)
  | 0, r => r.refuse
  | fuel + 1, r =>
    match r.peek with
    | .blockEntry => do
      let (item, r) ← optional fuel true false
        (fun t => t == .blockEntry || t == .key || t == .value || t == .blockEnd) r.next
      let (items, r) ← indentlessItems fuel r
      return (item :: items, r)
    | _ => .ok ([], r)

def blockEntries : (fuel : Nat) → Parse (List (Tree × Tree))
  | 0, r => r.refuse
  | fuel + 1, r => do
    let ends := fun t => t == Token.key || t == .value || t == .blockEnd
    match r.peek with
    | .key => do
      let (key, r) ← optional fuel true true ends r.next
      let (value, r) ← match r.peek with
        | .value => optional fuel true true ends r.next
        | _ => pure (empty, r)
      let (entries, r) ← blockEntries fuel r
      return ((key, value) :: entries, r)
    | .blockEnd => return ([], r.next)
    | _ => r.refuse

/-- The value after a key in a flow collection, if there is one. -/
def flowValue : (fuel : Nat) → (ends : Token → Bool) → Parse Tree
  | 0, _, r => r.refuse
  | fuel + 1, ends, r =>
    match r.peek with
    | .value => optional fuel false false ends r.next
    | _ => .ok (empty, r)

/-- The items up to the closing bracket. A key makes an item a mapping of one entry. -/
def flowItems : (fuel : Nat) → (first : Bool) → Parse (List Tree)
  | 0, _, r => r.refuse
  | fuel + 1, first, r => do
    if r.peek = .flowSequenceEnd then return ([], r.next)
    let r ← if first then pure r else if r.peek = .flowEntry then pure r.next else r.refuse
    let ends := fun t => t == Token.flowEntry || t == .flowSequenceEnd
    match r.peek with
    | .flowSequenceEnd => return ([], r.next)
    | .key => do
      let (key, r) ← optional fuel false false (fun t => t == .value || ends t) r.next
      let (value, r) ← flowValue fuel ends r
      let (items, r) ← flowItems fuel false r
      return (Tree.mapping none .byKind [(key, value)] :: items, r)
    | _ => do
      let (item, r) ← node fuel false false r
      let (items, r) ← flowItems fuel false r
      return (item :: items, r)

/-- The entries up to the closing brace. Without a key mark a node is a key without a value. -/
def flowEntries : (fuel : Nat) → (first : Bool) → Parse (List (Tree × Tree))
  | 0, _, r => r.refuse
  | fuel + 1, first, r => do
    if r.peek = .flowMappingEnd then return ([], r.next)
    let r ← if first then pure r else if r.peek = .flowEntry then pure r.next else r.refuse
    let ends := fun t => t == Token.flowEntry || t == .flowMappingEnd
    match r.peek with
    | .flowMappingEnd => return ([], r.next)
    | .key => do
      let (key, r) ← optional fuel false false (fun t => t == .value || ends t) r.next
      let (value, r) ← flowValue fuel ends r
      let (entries, r) ← flowEntries fuel false r
      return ((key, value) :: entries, r)
    | _ => do
      let (key, r) ← node fuel false false r
      let (entries, r) ← flowEntries fuel false r
      return ((key, empty) :: entries, r)

end

/-- The directives before a document: whether the version was stated, and the tag handles. -/
def directives : (tokens : List Token) → (versioned : Bool) → (handles : List (String × String)) →
    Except Fault (List (String × String) × List Token)
  | .versionDirective major :: rest, versioned, handles =>
    if versioned || major ≠ 1 then .error (.malformed .malformedDirective)
    else directives rest true handles
  | .tagDirective handle expansion :: rest, versioned, handles =>
    if (handles.lookup handle).isSome then .error (.malformed .malformedDirective)
    else directives rest versioned ((handle, expansion) :: handles)
  | .otherDirective :: rest, versioned, handles => directives rest versioned handles
  | tokens, _, handles => .ok (handles, tokens)

/-- Each node takes a token, directly or through the two functions that lead to it. -/
def fuelFor (tokens : List Token) : Nat := 4 * tokens.length + 8

/-- What may follow the only document of a stream. -/
def endOfStream (tokens : List Token) : Except Fault Unit :=
  match tokens.dropWhile (· == .documentEnd) with
  | .streamEnd :: _ => .ok ()
  | .broken fault :: _ => .error fault
  | _ => .error (.malformed .severalDocuments)

def document (handles : List (String × String)) (tokens : List Token) : Except Fault Tree := do
  let (tree, r) ← node (fuelFor tokens) true false ⟨tokens, [], handles⟩
  endOfStream r.tokens
  return tree

/-- A document after its start marker may be empty. -/
def contentEnds (token : Token) : Bool :=
  token.isDirective || token == .documentStart || token == .documentEnd || token == .streamEnd

/-- The document of a token stream, if the stream has one. -/
def ofTokens (tokens : List Token) : Except Fault (Option Tree) :=
  let first := tokens.headD .streamEnd
  if first == .streamEnd then .ok none
  else if first.isDirective || first == .documentStart then do
    let (handles, rest) ← directives tokens false []
    match rest with
    | .documentStart :: content =>
      let handles := handles ++ standardHandles
      if contentEnds (content.headD .streamEnd) then do
        endOfStream content
        return some empty
      else return some (← document handles content)
    | .broken fault :: _ => throw fault
    | _ => misplaced
  else do return some (← document standardHandles tokens)

def ofText (text : List Char) : Except Fault (Option Tree) := ofTokens (Token.ofText text)

end Tree
end SchemaTables.Yaml
