import SchemaTables.Notice
import SchemaTables.Schema.Graph
import SchemaTables.Schema.Keyed
import SchemaTables.Schema.Reference
import SchemaTables.Schema.Title

/-! The resolution of a registry: every reference inside a schema becomes a link to the registered
schema that it leads to, the properties of every object are re-keyed and sorted, and every schema
gets its title.

Resolving a schema works on its tree alone; other schemas are only linked to, and resolved where they
are registered. A failure leaves the parts already visited resolved, and the slots of the schemas
around them as they were. -/
namespace SchemaTables

/-- The outcome of a visit: what stands there afterwards, what was reported, and what went wrong. -/
structure Visit (β : Type) where
  after : β
  notices : List Notice
  fault : Option ResolutionFault

namespace Visit

def map {β γ : Type} (f : β → γ) (visit : Visit β) : Visit γ :=
  ⟨f visit.after, visit.notices, visit.fault⟩

end Visit

def Site.settle (site : Site) : Site := { site with settled := true }

namespace Entry

/-- Replaces a reference that leads to a schema by a link to it. -/
def link (registry : Registry) : Entry → Entry
  | reference text =>
    match Reference.resolve registry text with
    | .ok name => target name
    | .error _ => reference text
  | entry => entry

/-- Whether a reference that stands alone can be resolved. -/
def check (registry : Registry) (text : String) : Option ResolutionFault :=
  match Reference.resolve registry text with
  | .ok _ => none
  | .error fault => some (.nested fault)

/-- The schema with its slots replaced, if its parts were visited without a fault. -/
def close {β : Type} (broken whole : β → Entry) (parts : Visit β) : Visit Entry :=
  match parts.fault with
  | none => parts.map whole
  | some _ => parts.map broken

def alternativeName (name : String) (index : Nat) : String := name ++ "OneOf" ++ toString index

mutual

/-- Visits the entry that stands under `name`. A schema that is settled already is left alone. -/
def settle (registry : Registry) (name : String) : Entry → Visit Entry
  | reference text => ⟨reference text, [], check registry text⟩
  | target name => ⟨target name, [], none⟩
  | scalar site head kind =>
    if site.settled then ⟨scalar site head kind, [], none⟩
    else ⟨scalar site.settle (head.titledScalar name kind) kind, [], none⟩
  | array site head items =>
    if site.settled then ⟨array site head items, [], none⟩
    else close (array site.settle head)
      (fun items => array site.settle (head.titledByName name) (items.map (link registry)))
      (settleItems registry name items)
  | object site head properties =>
    if site.settled then ⟨object site head properties, [], none⟩
    else close (object site.settle head)
      (fun fields => object site.settle (head.titledByName name)
        (Keyed.rekey Case.uncapitalize (fields.map fun f => (f.1, f.2.link registry))))
      (settleFields registry .field false [] properties)
  | composed site head alternatives =>
    if site.settled then ⟨composed site head alternatives, [], none⟩
    else close (composed site.settle head)
      (fun entries => composed site.settle
        (if entries.isEmpty then head.titledByName name else head) (entries.map (link registry)))
      (settleAlternatives registry name 0 alternatives)

def settleItems (registry : Registry) (name : String) : Option Entry → Visit (Option Entry)
  | none => ⟨none, [], none⟩
  | some entry => (settle registry name entry).map some

/-- Visits named entries in order up to the first fault. `met` are the keys met before; a name whose
key is met again is reported. -/
def settleFields (registry : Registry) (convention : Case.Convention) (outermost : Bool)
    (met : List String) : List (String × Entry) → Visit (List (String × Entry))
  | [] => ⟨[], [], none⟩
  | (name, entry) :: rest =>
    let first := settle registry name entry
    match first.fault with
    | some fault =>
      ⟨(name, first.after) :: rest, first.notices,
        some (if outermost && entry.isReference then .entry fault.cause else fault)⟩
    | none =>
      let key := convention.key name
      let others := settleFields registry convention outermost (key :: met) rest
      ⟨(name, first.after) :: others.after,
        first.notices ++ (if met.contains key then [.collision name] else []) ++ others.notices,
        others.fault⟩

def settleAlternatives (registry : Registry) (name : String) (index : Nat) :
    List Entry → Visit (List Entry)
  | [] => ⟨[], [], none⟩
  | entry :: rest =>
    let first := settle registry (alternativeName name index) entry
    match first.fault with
    | some fault => ⟨first.after :: rest, first.notices, some fault⟩
    | none =>
      let others := settleAlternatives registry name (index + 1) rest
      ⟨first.after :: others.after, first.notices ++ others.notices, others.fault⟩

end

end Entry

namespace Registry

/-- The names of a resolved collection with the slots they hold, re-keyed and sorted. -/
def boundNames (registry : Registry) (convention : Case.Convention)
    (entries : List (String × Entry)) : List (String × Slot Place) :=
  Keyed.rekey convention.key (entries.map fun e => (e.1, (e.2.link registry).slot))

/-- Titles the registered schemas by their own names. -/
def titled (registry : Registry) : Registry := registry.map fun e => (e.1, e.2.titled e.1)

def replace (registry : Registry) (key : String) (entry : Entry) : Registry :=
  registry.map fun e => (e.1, if e.1 = key then entry else e.2)

/-- Settles the schema registered under `key`, as if it stood under `name`. -/
def settleAt (registry : Registry) (key name : String) : Visit Registry :=
  match registry.lookup key with
  | none => ⟨registry, [], none⟩
  | some entry => (entry.settle registry name).map (registry.replace key)

/-- Settles everything registered, in order and up to the first fault. -/
def settleAll (registry : Registry) (convention : Case.Convention) (outermost : Bool) :
    Visit Registry :=
  Entry.settleFields registry convention outermost [] registry

end Registry

/-- The resolved schemas of a document, named by `convention`, and what was reported on the way. -/
def resolve (convention : Case.Convention) (definitions : Definitions) :
    Except ResolutionFault (Catalog Place) × List Notice :=
  let registry := (Registry.ofDefinitions definitions).titled
  let visit := registry.settleAll convention true
  match visit.fault with
  | some fault => (.error fault, visit.notices)
  | none =>
    let names := registry.boundNames convention visit.after
    (.ok ⟨names, visit.after.nodes⟩,
      visit.notices ++ [.resolved names.length definitions.length])

end SchemaTables
