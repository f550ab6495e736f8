import SchemaTables.Notice
import SchemaTables.Schema.Graph

/-! The walk that decides which schemas get a table and in which order. It goes over the selected
schemas in pre-order, from a compound schema to its parts and from an array to its items, and
remembers by their identifiers the tables made and the arrays passed. -/
namespace SchemaTables

/-- The two forms of a table. -/
inductive Template where
  | object
  | composed
deriving DecidableEq, Repr

namespace Template

def name : Template → String
  | object => "object"
  | composed => "composed"

def ofName? (text : String) : Option Template :=
  if text = "object" then some object else if text = "composed" then some composed else none

theorem ofName?_eq_some_iff {text : String} {template : Template} :
    ofName? text = some template ↔ text = template.name := by
  unfold ofName?
  split
  · next first => cases template <;> simp [name, first]
  · next other =>
    split
    · next second => cases template <;> simp [name, second]
    · next neither => cases template <;> simp [name, other, neither]

end Template

/-- A table asked for: its form and the schema it shows. -/
structure Call (α : Type) where
  template : Template
  node : Node α
deriving Repr

/-- What a walk has done so far. `fault` is the text of a reference that no schema replaced. -/
structure Walk (α : Type) where
  calls : List (Call α)
  skipped : List String
  missing : List String
  arrays : List String
  notices : List Notice
  fault : Option String
deriving Repr

namespace Walk
variable {α : Type}

def start : Walk α := ⟨[], [], [], [], [], none⟩

def rendered (walk : Walk α) : List String := walk.calls.map (·.node.head.id)

def call (walk : Walk α) (template : Template) (node : Node α) : Walk α :=
  { walk with calls := walk.calls ++ [⟨template, node⟩] }

def skip (walk : Walk α) (id : String) : Walk α :=
  { walk with skipped := walk.skipped ++ [id], notices := walk.notices ++ [.tableRendered id] }

def pass (walk : Walk α) (id : String) : Walk α := { walk with arrays := id :: walk.arrays }

def passAgain (walk : Walk α) (id : String) : Walk α :=
  { walk with notices := walk.notices ++ [.arrayVisited id] }

def miss (walk : Walk α) (name : String) : Walk α :=
  { walk with missing := walk.missing ++ [name], notices := walk.notices ++ [.notFound name] }

/-- Meets a schema: what the walk has done then, and the slots to go on with. -/
def meet (walk : Walk α) (node : Node α) : Walk α × List (Slot α) :=
  let id := node.head.id
  let enter (template : Template) : Walk α × List (Slot α) :=
    if walk.rendered.contains id then (walk.skip id, [])
    else (walk.call template node, node.content.slots)
  match node.content with
  | .scalar _ => (walk, [])
  | .array items =>
    if walk.arrays.contains id then (walk.passAgain id, []) else (walk.pass id, items.toList)
  | .object properties => if properties.isEmpty then (walk, []) else enter .object
  | .composed alternatives => if alternatives.isEmpty then (walk, []) else enter .composed

end Walk

namespace Catalog
variable {α : Type} [BEq α]

/-- Goes through the pending slots, first to last, up to the first unresolved reference. -/
def visit (catalog : Catalog α) : (fuel : Nat) → (pending : List (Slot α)) → Walk α → Walk α
  | 0, _, walk => walk
  | _ + 1, [], walk => walk
  | _ + 1, .reference text :: _, walk => { walk with fault := some text }
  | fuel + 1, .node place :: pending, walk =>
    match catalog.node? place with
    | none => visit catalog fuel pending walk
    | some node =>
      let (walk, slots) := walk.meet node
      visit catalog fuel (slots ++ pending) walk

/-- One slot is taken off per step, and a schema adds its slots once at most. -/
def visitFuel (catalog : Catalog α) : Nat := catalog.slotCount + 2

def visitNames (catalog : Catalog α) : List String → Walk α → Walk α
  | [], walk => walk
  | name :: rest, walk =>
    match catalog.names.lookup name with
    | none => visitNames catalog rest (walk.miss name)
    | some slot =>
      let walk := catalog.visit catalog.visitFuel [slot] walk
      if walk.fault.isSome then walk else visitNames catalog rest walk

/-- The walk over a selection of names; an empty selection stands for all of them. -/
def visitSelection (catalog : Catalog α) (selection : List String) : Walk α :=
  catalog.visitNames (if selection.isEmpty then catalog.names.map (·.1) else selection) .start

/-- The same walk, but it breaks off before the first table that cannot go `out`; whether none was met
is told beside it. -/
def visitWhile (catalog : Catalog α) (out : Call α → Bool) :
    (fuel : Nat) → (pending : List (Slot α)) → Walk α → Walk α × Bool
  | 0, _, walk => (walk, true)
  | _ + 1, [], walk => (walk, true)
  | _ + 1, .reference text :: _, walk => ({ walk with fault := some text }, true)
  | fuel + 1, .node place :: pending, walk =>
    match catalog.node? place with
    | none => visitWhile catalog out fuel pending walk
    | some node =>
      let (met, slots) := walk.meet node
      if (met.calls.drop walk.calls.length).all out then
        visitWhile catalog out fuel (slots ++ pending) met
      else (walk, false)

def visitNamesWhile (catalog : Catalog α) (out : Call α → Bool) :
    List String → Walk α → Walk α × Bool
  | [], walk => (walk, true)
  | name :: rest, walk =>
    match catalog.names.lookup name with
    | none => visitNamesWhile catalog out rest (walk.miss name)
    | some slot =>
      let (walk, whole) := catalog.visitWhile out catalog.visitFuel [slot] walk
      if walk.fault.isSome || !whole then (walk, whole)
      else visitNamesWhile catalog out rest walk

def visitSelectionWhile (catalog : Catalog α) (out : Call α → Bool) (selection : List String) :
    Walk α × Bool :=
  catalog.visitNamesWhile out (if selection.isEmpty then catalog.names.map (·.1) else selection)
    .start

end Catalog

/-- Why a walk stops early. -/
def unresolvedMessage (text : String) : String :=
  "Unresolved reference " ++ text ++ " reached the renderer"

end SchemaTables
