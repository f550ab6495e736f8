import SchemaTables.Value.Basic
import SchemaTables.Yaml.Binary
import SchemaTables.Yaml.Graph
import SchemaTables.Yaml.Number

/-! The values of nodes. A scalar is made where it is met; a collection is begun there and filled later,
after those begun before it. So of several faults in a document the one that is nested least is found,
and of those the first. A node is made only once, wherever its aliases stand. -/
namespace SchemaTables.Yaml

namespace Scalar

def truthWords : List (String × Bool) := [
  ("yes", true), ("no", false), ("true", true), ("false", false), ("on", true), ("off", false)]

def boolean (text : String) : Except Fault Value :=
  match truthWords.lookup (String.ofList (Reader.lowerAscii text.toList)) with
  | some value => .ok (.bool value)
  | none => .error (.notBoolean text)

def ofTimestamp (timestamp : Timestamp) : Except Fault Value :=
  match timestamp.clock with
  | none => if timestamp.date.Valid then .ok (.date timestamp.date) else .error .impossibleDate
  | some c =>
    let moment : Moment := ⟨timestamp.date, c.hour, c.minute, c.second, c.microsecond, c.offset⟩
    if moment.Valid then .ok (.moment moment) else .error .impossibleDate

def withoutLineFeed (cs : List Char) : List Char :=
  if cs.getLast? = some '\n' then cs.dropLast else cs

def timestamp (text : String) : Except Fault Value :=
  match Timestamp.ofChars? (withoutLineFeed text.toList) with
  | some timestamp => ofTimestamp timestamp
  | none => .error .notTimestamp

def binary (text : String) : Except Fault Value :=
  match Binary.decode text.toList with
  | some bytes => .ok (.bytes bytes)
  | none => .error (.malformed .undecodableBytes)

/-- The value of a text under a scalar tag. -/
def ofText (tag : Tag) (text : String) : Except Fault Value :=
  match tag with
  | .null => .ok .null
  | .bool => boolean text
  | .int => (Number.int text.toList).map .int
  | .float => (Number.float text.toList).map .float
  | .binary => binary text
  | .timestamp => timestamp text
  | .str => .ok (.text text)
  | _ => .error Graph.wrongNode

end Scalar

/-- What is made of a node: a value, or a collection whose parts are known by their numbers. -/
inductive Made where
  | scalar (value : Value)
  | list (items : List Nat)
  | pairs (entries : List (Nat × Nat))
  | map (entries : List (Value × Nat))
  | set (members : List Value)
deriving Inhabited

/-- What has been made of the nodes of a graph, and the collections that are still to be filled, the
last one first. -/
structure Making where
  graph : Graph
  made : Array (Option Made)
  waiting : List Nat

abbrev Make := StateT Making (Except Fault)

namespace Make
open Yaml.Graph (wrongNode)

def start (graph : Graph) : Making := ⟨graph, Array.replicate graph.size none, []⟩

def keep (number : Nat) (made : Made) : Make Unit :=
  modify fun making => { making with made := making.made.setIfInBounds number (some made) }

/-- What a node of a collection tag is until it is filled. -/
def hollow? : Tag → Option Made
  | .seq => some (.list [])
  | .orderedMap | .pairs => some (.pairs [])
  | .map => some (.map [])
  | .set => some (.set [])
  | _ => none

/-- The value of a node that stands for a scalar. A timestamp has to be written as a scalar itself. -/
def scalarValue (graph : Graph) (number : Nat) : Except Fault Value := do
  let text ← graph.scalarText graph.size number
  match graph.tag number, graph.form number with
  | .timestamp, .mapping _ => throw .indirectTimestamp
  | tag, _ => Scalar.ofText tag text

/-- What is made of a node, which is begun if it has not been met before. -/
def node (number : Nat) : Make Made := do
  let making ← get
  match making.made.getD number none with
  | some made => return made
  | none =>
    match hollow? (making.graph.tag number) with
    | some made =>
      keep number made
      modify fun making => { making with waiting := number :: making.waiting }
      return made
    | none =>
      let made := Made.scalar (← scalarValue making.graph number)
      keep number made
      return made

/-- A key, which must not be a collection. -/
def key (number : Nat) : Make Value := do
  match ← node number with
  | .scalar value => return value
  | _ => throw (.malformed .collectionAsKey)

/-- The entries of a mapping, with those that it merges. -/
def entries (number : Nat) : Make (List (Value × Nat)) := do
  let graph ← (← get).graph.flatten (← get).graph.size number
  modify fun making => { making with graph := graph }
  (← graph.entries number).mapM fun entry => do
    let made ← key entry.1
    let _ ← node entry.2
    return (made, entry.2)

/-- The only entry of a mapping. -/
def singleEntry (number : Nat) : Make (Nat × Nat) := do
  match (← get).graph.form number with
  | .mapping [entry] => return entry
  | _ => throw wrongNode

/-- Fills a collection that was begun. -/
def fill (number : Nat) : Make Unit := do
  let graph := (← get).graph
  match graph.tag number, graph.form number with
  | .map, _ => keep number (.map (← entries number))
  | .set, _ => keep number (.set ((← entries number).foldl (fun members entry =>
      Value.addMember entry.1 members) []))
  | .seq, .sequence items =>
    items.forM fun item => discard (node item)
    keep number (.list items)
  | .orderedMap, .sequence items | .pairs, .sequence items =>
    keep number (.pairs (← items.mapM fun item => do
      let entry ← singleEntry item
      let _ ← node entry.1
      let _ ← node entry.2
      return entry))
  | _, _ => throw wrongNode

/-- Fills what waits, and then what was begun meanwhile. A node waits only once. -/
def fillAll : (fuel : Nat) → Make Unit
  | 0 => return
  | fuel + 1 => do
    let waiting := (← get).waiting.reverse
    if waiting.isEmpty then return
    modify fun making => { making with waiting := [] }
    waiting.forM fill
    fillAll fuel

/-- Makes the last node of a graph and all that belongs to it. -/
def all (graph : Graph) : Except Fault (Array (Option Made)) := do
  let (_, making) ← (do discard (node (graph.size - 1)); fillAll (graph.size + 1)).run (start graph)
  return making.made

end Make

/-- The value of what was made of a node, from the values of the nodes before it. -/
def Made.value (arrange : List Value → List Value) (values : Array Value) : Made → Value
  | scalar value => value
  | list items => .list (items.map fun item => values.getD item .null)
  | pairs entries => .list (entries.map fun entry =>
      .pair (values.getD entry.1 .null) (values.getD entry.2 .null))
  | map entries => .map (entries.foldl (fun bound entry =>
      Value.insert entry.1 (values.getD entry.2 .null) bound) [])
  | set members => .set (arrange members)

/-- The value of a document. The members of a set stand as `arrange` wants it. -/
def Node.value (arrange : List Value → List Value) (node : Node) : Except Fault Value := do
  match node.graph? with
  | none => throw .endless
  | some graph =>
    let values := (← Make.all graph).foldl (fun values made =>
      values.push ((made.map (Made.value arrange values)).getD .null)) #[]
    return values.back?.getD .null

/-- The value of a YAML text; an empty text has the value null. -/
def load (arrange : List Value → List Value) (dialect : Dialect) (text : List Char) :
    Except Fault Value := do
  match ← compose dialect text with
  | none => return .null
  | some node => node.value arrange

end SchemaTables.Yaml
