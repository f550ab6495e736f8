import SchemaTables.Schema.Entry

/-! Following references. A reference names a registered entry; an entry that is itself a reference
is an alias, and is followed further until a schema is reached. -/
namespace SchemaTables

inductive ReferenceFault where
  | invalid (text : String)
  | missing (text : String)
  | circular (text : String)
deriving DecidableEq, Repr

/-- Why a resolution fails. A missing or circular reference that is a registered alias by itself is
unresolvable; inside a schema it is dangling. -/
inductive ResolutionFault where
  | nested (fault : ReferenceFault)
  | entry (fault : ReferenceFault)
deriving DecidableEq, Repr

namespace ReferenceFault

def message : ReferenceFault → String
  | invalid text => "Value \"" ++ text ++ "\" is not a ref"
  | missing text => "Cannot find reference " ++ text
  | circular text => "Reference cycle without a schema: " ++ text

@[simp] theorem message_invalid (text : String) :
    (invalid text).message = "Value \"" ++ text ++ "\" is not a ref" := rfl

@[simp] theorem message_missing (text : String) :
    (missing text).message = "Cannot find reference " ++ text := rfl

@[simp] theorem message_circular (text : String) :
    (circular text).message = "Reference cycle without a schema: " ++ text := rfl

/-- A message tells which fault it is about: the kinds differ in their first letters. -/
theorem message_injective : Function.Injective message := by
  intro fault other same
  have first : fault.message.toList.head? = other.message.toList.head? := by rw [same]
  cases fault with
  | invalid text =>
    cases other with
    | invalid text' => simpa using same
    | missing text' => simp at first
    | circular text' => simp at first
  | missing text =>
    cases other with
    | invalid text' => simp at first
    | missing text' => simpa using same
    | circular text' => simp at first
  | circular text =>
    cases other with
    | invalid text' => simp at first
    | missing text' => simp at first
    | circular text' => simpa using same

end ReferenceFault

namespace ResolutionFault

def cause : ResolutionFault → ReferenceFault
  | nested fault | entry fault => fault

def message (fault : ResolutionFault) : String := fault.cause.message

end ResolutionFault

namespace Reference

/-- Where the schemas of a document stand. -/
def root : String := "#/components/schemas/"

def stripRoot : (root text : List Char) → Option (List Char)
  | [], text => some text
  | _ :: _, [] => none
  | r :: root, c :: text => if r = c then stripRoot root text else none

theorem stripRoot_eq_some_iff {root text rest : List Char} :
    stripRoot root text = some rest ↔ text = root ++ rest := by
  fun_induction stripRoot root text with
  | case1 text => simp [eq_comm]
  | case2 => simp
  | case3 c root text ih => simp [ih]
  | case4 r root c text h => simp [Ne.symm h]

/-- The name a reference points to, if it points at the schemas at all. -/
def name? (text : String) : Option String :=
  (stripRoot root.toList text.toList).map String.ofList

theorem name?_eq_some_iff {text name : String} : name? text = some name ↔ text = root ++ name := by
  rw [name?, Option.map_eq_some_iff, ← String.toList_inj, String.toList_append]
  constructor
  · rintro ⟨cs, h, rfl⟩
    rw [String.toList_ofList]
    exact stripRoot_eq_some_iff.mp h
  · exact fun h => ⟨name.toList, stripRoot_eq_some_iff.mpr h, String.ofList_toList⟩

def name (text : String) : Except ReferenceFault String :=
  match name? text with
  | some name => .ok name
  | none => .error (.invalid text)

/-- Follows `current` for at most `steps` registered names; `start` is where the chain began. -/
def follow (registry : Registry) (start : String) :
    (steps : Nat) → (current : String) → Except ReferenceFault String
  | 0, _ => .error (.circular start)
  | steps + 1, current =>
    match name? current with
    | none => .error (.invalid current)
    | some name =>
      match registry.lookup name with
      | none => .error (.missing current)
      | some (.reference next) => follow registry start steps next
      | some _ => .ok name

/-- The name of the registered schema that a reference leads to. A chain that is longer than the
registry has met a name twice, and so runs in a circle. -/
def resolve (registry : Registry) (text : String) : Except ReferenceFault String :=
  follow registry text (registry.length + 1) text

/-- The schema that an entry is, or that its reference leads to. -/
def dereference (registry : Registry) : Entry → Except ReferenceFault Entry
  | .reference text => (resolve registry text).map fun name => (registry.lookup name).getD default
  | entry => .ok entry

end Reference
end SchemaTables
