import SchemaTables.Storage.FileStore

/-! A machine with a file system held in memory. Its items are known by their locations, the names on
the way from the root; the root is always there. Names may be as long as they like, and two names that
are different texts are different. -/
namespace SchemaTables

abbrev Location := List String

inductive Item where
  | file (content : ByteArray)
  | directory

def Item.kind : Item → FileKind
  | file _ => .file
  | directory => .directory

structure Disk where
  working : Location
  items : List (Location × Item)
  arrange : List Value → List Value

namespace Disk

def item? (disk : Disk) (location : Location) : Option Item :=
  if location.isEmpty then some .directory else disk.items.lookup location

/-- What a path leads to: the directory that two dots or the working directory stand for, or a name
in a directory. -/
inductive Destination where
  | directory (location : Location)
  | entry (location : Location)

def Destination.location : Destination → Location
  | directory location | entry location => location

/-- Follows names from a directory. All of them but the last must be directories. -/
def follow (disk : Disk) (location : Location) : List String → Except Refusal Destination
  | [] => .ok (.directory location)
  | ".." :: parts => follow disk location.dropLast parts
  | [part] => .ok (.entry (location ++ [part]))
  | part :: parts =>
    match disk.item? (location ++ [part]) with
    | none => .error .notFound
    | some (.file _) => .error .notDirectory
    | some .directory => follow disk (location ++ [part]) parts

def destination (disk : Disk) (path : FilePath) : Except StorageFault Destination :=
  match path.flaw? with
  | some flaw => .error (.unnameable flaw)
  | none => (disk.follow (if path.isAbsolute then [] else disk.working) path.parts).mapError
    fun refusal => .refused refusal path

def status (disk : Disk) (path : FilePath) : Option FileKind :=
  match disk.destination path with
  | .ok destination => (disk.item? destination.location).map Item.kind
  | .error _ => none

def read (disk : Disk) (path : FilePath) : Except StorageFault ByteArray := do
  match disk.item? (← disk.destination path).location with
  | none => throw (.refused .notFound path)
  | some .directory => throw (.refused .isDirectory path)
  | some (.file content) => return content

/-- The items with `item` at a location, in place of what was there. -/
def put (location : Location) (item : Item) : List (Location × Item) → List (Location × Item)
  | [] => [(location, item)]
  | (l, i) :: rest => if l = location then (l, item) :: rest else (l, i) :: put location item rest

theorem lookup_put (location : Location) (item : Item) (items : List (Location × Item))
    (l : Location) :
    (put location item items).lookup l = if l = location then some item else items.lookup l := by
  induction items with
  | nil => grind [put]
  | cons entry rest ih =>
    obtain ⟨name, old⟩ := entry
    unfold put
    grind

def place (disk : Disk) (location : Location) (item : Item) : Disk :=
  { disk with items := put location item disk.items }

/-- Only the place itself changes. -/
theorem item?_place (disk : Disk) {location : Location} (h : location ≠ []) (item : Item)
    (l : Location) :
    (disk.place location item).item? l = if l = location then some item else disk.item? l := by
  simp only [item?, place, lookup_put]
  cases l with
  | nil => simp [Ne.symm h]
  | cons part parts => rfl

def write (disk : Disk) (path : FilePath) (content : ByteArray) : Except StorageFault Disk := do
  let destination ← disk.destination path
  match disk.item? destination.location with
  | some .directory => throw (.refused .isDirectory path)
  | _ => return disk.place destination.location (.file content)

def makeDirectory (disk : Disk) (path : FilePath) : Except StorageFault Disk := do
  match ← disk.destination path with
  | .directory _ => throw (.refused .occupied path)
  | .entry location =>
    match disk.item? location with
    | some _ => throw (.refused .occupied path)
    | none => return disk.place location .directory

/-- Keeps the disk as it is after a failure. -/
def change (step : Disk → Except StorageFault Disk) : StateM Disk (Except StorageFault Unit) :=
  fun disk =>
    match step disk with
    | .ok after => (.ok (), after)
    | .error fault => (.error fault, disk)

instance : FileStore (StateM Disk) where
  arrangement := return (← get).arrange
  workingDirectory := return ⟨.slash, (← get).working⟩
  status path := return (← get).status path
  read path := return (← get).read path
  write path content := change (·.write path content)
  makeDirectory path := change (·.makeDirectory path)

end Disk
end SchemaTables
