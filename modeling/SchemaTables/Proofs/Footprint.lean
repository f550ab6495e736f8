import SchemaTables.Run.Report
import SchemaTables.Run.Scaffold
import SchemaTables.Storage.Disk

/-!
# What an access leaves on a disk

Reading leaves a disk as it is, making the directories on a way adds directories where nothing was,
and writing changes one place. A path names its place before anything is looked up: two dots go up
from wherever the components before them lead.
-/
namespace SchemaTables

namespace Location

def step (location : Location) (part : String) : Location :=
  if part = ".." then location.dropLast else location ++ [part]

/-- The place that components name, seen from a location. -/
def down (location : Location) (parts : List String) : Location := parts.foldl step location

end Location

/-- The place that a path names, seen from a working directory. -/
def FilePath.location (working : Location) (path : FilePath) : Location :=
  Location.down (if path.isAbsolute then [] else working) path.parts

/-- The places that a path goes through, from where it begins to where it ends. -/
def FilePath.Crosses (working : Location) (path : FilePath) (location : Location) : Prop :=
  ∃ parts, parts <+: path.parts ∧ location = FilePath.location working { path with parts }

namespace Disk
variable {β γ : Type} {disk middle last : Disk} {way more : Location → Prop}

/-- What an access tells of a disk. -/
def answer (disk : Disk) (access : StateM Disk β) : β := (access.run disk).1

/-- The disk that an access leaves. -/
def after (disk : Disk) (access : StateM Disk β) : Disk := (access.run disk).2

def outcome (disk : Disk) (access : StateM Disk β) : β × Disk := access.run disk

section
variable (disk : Disk) (path : FilePath) (first : StateM Disk β) (next : β → StateM Disk γ)

theorem outcome_eq (access : StateM Disk β) :
    disk.outcome access = (disk.answer access, disk.after access) := rfl

/-- What comes next is done on the disk that the first access leaves. -/
theorem outcome_bind :
    disk.outcome (first >>= next) = (disk.after first).outcome (next (disk.answer first)) := rfl

@[simp] theorem answer_bind :
    disk.answer (first >>= next) = (disk.after first).answer (next (disk.answer first)) := rfl

@[simp] theorem after_bind :
    disk.after (first >>= next) = (disk.after first).after (next (disk.answer first)) := rfl

@[simp] theorem answer_workingDirectory :
    disk.answer FileStore.workingDirectory = ⟨.slash, disk.working⟩ := rfl

@[simp] theorem after_workingDirectory : disk.after FileStore.workingDirectory = disk := rfl

@[simp] theorem answer_arrangement : disk.answer FileStore.arrangement = disk.arrange := rfl

@[simp] theorem after_arrangement : disk.after FileStore.arrangement = disk := rfl

@[simp] theorem answer_status : disk.answer (FileStore.status path) = disk.status path := rfl

@[simp] theorem after_status : disk.after (FileStore.status path) = disk := rfl

@[simp] theorem answer_read : disk.answer (FileStore.read path) = disk.read path := rfl

@[simp] theorem after_read : disk.after (FileStore.read path) = disk := rfl

end

/-- All items stay, and what is new is a directory, at a place that `way` allows. -/
structure Gains (disk last : Disk) (way : Location → Prop) : Prop where
  working : last.working = disk.working
  items : ∀ location, last.item? location = disk.item? location ∨
    disk.item? location = none ∧ last.item? location = some .directory ∧ way location

/-- One place, which was no directory, has a new item; elsewhere there may be new directories, where
`way` allows. -/
structure Writes (disk last : Disk) (place : Location) (item : Item) (way : Location → Prop) :
    Prop where
  working : last.working = disk.working
  fits : disk.item? place ≠ some .directory
  written : last.item? place = some item
  others : ∀ location ≠ place, last.item? location = disk.item? location ∨
    disk.item? location = none ∧ last.item? location = some .directory ∧ way location

theorem Gains.refl (disk : Disk) (way : Location → Prop) : disk.Gains disk way :=
  ⟨rfl, fun _ => .inl rfl⟩

theorem Gains.weaken (gains : disk.Gains last way) (wider : ∀ location, way location → more location) :
    disk.Gains last more where
  working := gains.working
  items location := (gains.items location).imp_right fun ⟨free, made, allowed⟩ =>
    ⟨free, made, wider location allowed⟩

theorem Gains.item_trans (first : disk.Gains middle way) {location : Location}
    (second : last.item? location = middle.item? location ∨
      middle.item? location = none ∧ last.item? location = some .directory ∧ way location) :
    last.item? location = disk.item? location ∨
      disk.item? location = none ∧ last.item? location = some .directory ∧ way location := by
  rcases second with kept | ⟨free, made, allowed⟩
  · rw [kept]
    exact first.items location
  · rcases first.items location with same | ⟨-, taken, -⟩
    · exact .inr ⟨same ▸ free, made, allowed⟩
    · rw [taken] at free
      cases free

theorem Gains.trans (first : disk.Gains middle way) (second : middle.Gains last way) :
    disk.Gains last way where
  working := second.working.trans first.working
  items location := first.item_trans (second.items location)

theorem Gains.writes (first : disk.Gains middle way) {place : Location} {item : Item}
    (second : middle.Writes last place item way) : disk.Writes last place item way where
  working := second.working.trans first.working
  fits taken := by
    rcases first.items place with same | ⟨free, -⟩
    · exact second.fits (same.trans taken)
    · rw [free] at taken
      cases taken
  written := second.written
  others location elsewhere := first.item_trans (second.others location elsewhere)

/-- Following components ends where they lead to, if it ends. -/
theorem location_of_follow {location : Location} {parts : List String} {destination : Destination}
    (found : disk.follow location parts = .ok destination) :
    destination.location = location.down parts := by
  fun_induction follow disk location parts with
  | case1 location =>
    cases found
    rfl
  | case2 location parts ih => exact ih found
  | case3 location part name =>
    cases found
    exact (if_neg name).symm
  | case4 => cases found
  | case5 => cases found
  | case6 location part parts name _ there ih =>
    rw [ih found, Location.down, Location.down, List.foldl_cons, Location.step, if_neg name]

theorem location_of_destination {path : FilePath} {destination : Destination}
    (found : disk.destination path = .ok destination) :
    destination.location = path.location disk.working := by
  unfold Disk.destination at found
  split at found
  · cases found
  · cases followed : disk.follow (if path.isAbsolute then [] else disk.working) path.parts with
    | error refusal =>
      rw [followed] at found
      cases found
    | ok found' =>
      rw [followed] at found
      cases found
      exact location_of_follow followed

theorem gains_place {location : Location} (free : disk.item? location = none) (allowed : way location) :
    disk.Gains (disk.place location .directory) way where
  working := rfl
  items other := by
    have inside : location ≠ [] := by
      rintro rfl
      cases free
    rw [item?_place disk inside]
    split
    · next same => exact .inr ⟨same ▸ free, rfl, same ▸ allowed⟩
    · exact .inl rfl

theorem writes_place {location : Location} (fits : disk.item? location ≠ some .directory)
    (item : Item) : disk.Writes (disk.place location item) location item way := by
  have inside : location ≠ [] := by
    rintro rfl
    exact fits rfl
  constructor
  · rfl
  · exact fits
  · rw [item?_place disk inside, if_pos rfl]
  · intro other elsewhere
    rw [item?_place disk inside, if_neg elsewhere]
    exact .inl rfl

theorem answer_change (disk : Disk) (step : Disk → Except StorageFault Disk) :
    disk.answer (change step) = (step disk).map fun _ => () := by
  simp only [answer, change, StateT.run]
  cases step disk <;> rfl

theorem after_change (disk : Disk) (step : Disk → Except StorageFault Disk) :
    disk.after (change step) = (step disk).toOption.getD disk := by
  simp only [after, change, StateT.run]
  cases step disk <;> rfl

/-- A change is refused and leaves the disk as it is, or is made. -/
theorem change_cases (disk : Disk) (step : Disk → Except StorageFault Disk) :
    (∃ fault, disk.answer (change step) = .error fault ∧ disk.after (change step) = disk) ∨
      ∃ last, step disk = .ok last ∧ disk.answer (change step) = .ok () ∧
        disk.after (change step) = last := by
  rw [answer_change, after_change]
  cases step disk with
  | error fault => exact .inl ⟨fault, rfl, rfl⟩
  | ok last => exact .inr ⟨last, rfl, rfl, rfl⟩

/-- A directory is made where its path leads to. -/
theorem gains_makeDirectory (disk : Disk) (path : FilePath) :
    disk.Gains (disk.after (FileStore.makeDirectory path)) (· = path.location disk.working) := by
  have outcome := change_cases disk (·.makeDirectory path)
  change (∃ fault, disk.answer (FileStore.makeDirectory path) = _ ∧
    disk.after (FileStore.makeDirectory path) = _) ∨
      ∃ last, _ ∧ _ ∧ disk.after (FileStore.makeDirectory path) = last at outcome
  rcases outcome with ⟨fault, -, same⟩ | ⟨last, made, -, same⟩ <;> rw [same]
  · exact .refl disk _
  · unfold Disk.makeDirectory at made
    cases found : disk.destination path with
    | error fault =>
      rw [found] at made
      cases made
    | ok destination =>
      have place := location_of_destination found
      rw [found] at made
      cases destination with
      | directory location => cases made
      | entry location =>
        dsimp only [bind, Except.bind] at made
        split at made
        · cases made
        · next free =>
          cases made
          exact gains_place free place

/-- A file is written where its path leads to, and not over a directory. -/
theorem write_cases (disk : Disk) (path : FilePath) (content : ByteArray) :
    (∃ fault, disk.answer (FileStore.write path content) = .error fault ∧
      disk.after (FileStore.write path content) = disk) ∨
    disk.answer (FileStore.write path content) = .ok () ∧
      disk.status path = (disk.item? (path.location disk.working)).map Item.kind ∧
      ∀ way, disk.Writes (disk.after (FileStore.write path content))
        (path.location disk.working) (.file content) way := by
  rcases change_cases disk (·.write path content) with refused | ⟨last, written, done, same⟩
  · exact .inl refused
  · have same : disk.after (FileStore.write path content) = last := same
    refine .inr ⟨done, ?_⟩
    rw [same]
    unfold Disk.write at written
    cases found : disk.destination path with
    | error fault =>
      rw [found] at written
      cases written
    | ok destination =>
      have place := location_of_destination found
      have status : disk.status path = (disk.item? destination.location).map Item.kind := by
        rw [Disk.status, found]
      rw [found] at written
      dsimp only [bind, Except.bind] at written
      rw [← place]
      split at written
      · cases written
      · next free =>
        cases written
        exact ⟨status, fun way => writes_place free _⟩

theorem after_orThere (disk : Disk) (path : FilePath) (outcome : Except StorageFault Unit) :
    disk.after (FileStore.makeDirectories.orThere path outcome) = disk := by
  unfold FileStore.makeDirectories.orThere
  split <;> rfl

theorem gains_makeDirectory_crosses (disk : Disk) (path : FilePath) :
    disk.Gains (disk.after (FileStore.makeDirectory path)) (path.Crosses disk.working) :=
  (gains_makeDirectory disk path).weaken fun _ same => ⟨path.parts, List.prefix_refl _, same⟩

/-- The directories around a directory are made before it is. -/
theorem gains_makeDirectories (depth : Nat) (path : FilePath) (disk : Disk) :
    disk.Gains (disk.after (FileStore.makeDirectories depth path)) (path.Crosses disk.working) := by
  induction depth generalizing path disk with
  | zero =>
    have first := gains_makeDirectory_crosses disk path
    unfold FileStore.makeDirectories
    rw [after_bind]
    split
    · exact first
    · exact first
    · rw [after_orThere]
      exact first
  | succ depth ih =>
    have first := gains_makeDirectory_crosses disk path
    unfold FileStore.makeDirectories
    rw [after_bind]
    split
    · exact first
    · dsimp only
      split
      · exact first
      · have outer := ih path.parent (disk.after (FileStore.makeDirectory path))
        rw [first.working] at outer
        have around := first.trans (outer.weaken fun location ⟨parts, before, same⟩ =>
          ⟨parts, before.trans (List.dropLast_prefix _), same⟩)
        rw [after_bind]
        split
        · exact around
        · have again := gains_makeDirectory_crosses
            ((disk.after (FileStore.makeDirectory path)).after
              (FileStore.makeDirectories depth path.parent)) path
          rw [around.working] at again
          rw [after_bind, after_orThere]
          exact around.trans again
    · rw [after_orThere]
      exact first

theorem gains_ensureDirectory (disk : Disk) (path : FilePath) :
    disk.Gains (disk.after (FileStore.ensureDirectory path)) (path.Crosses disk.working) :=
  gains_makeDirectories path.parts.length path disk

/-- A page that cannot be written leaves at most directories on the way to its place. -/
theorem writeOutput_cases (disk : Disk) (path : FilePath) (content : String) :
    (∃ fault, disk.answer (Run.writeOutput path content) = .error fault ∧
      disk.Gains (disk.after (Run.writeOutput path content)) (path.parent.Crosses disk.working)) ∨
    disk.answer (Run.writeOutput path content) = .ok () ∧
      disk.Writes (disk.after (Run.writeOutput path content)) (path.location disk.working)
        (.file (Surrogate.bytes content)) (path.parent.Crosses disk.working) := by
  have around := gains_ensureDirectory disk path.parent
  unfold Run.writeOutput
  rw [answer_bind, after_bind]
  split
  · next fault _ => exact .inl ⟨fault, rfl, around⟩
  · rcases write_cases (disk.after (FileStore.ensureDirectory path.parent)) path
      (Surrogate.bytes content) with ⟨fault, refused, same⟩ | ⟨written, -, writes⟩
    · exact .inl ⟨fault, refused, by rw [same]; exact around⟩
    · have writes := writes (path.parent.Crosses disk.working)
      rw [around.working] at writes
      exact .inr ⟨written, around.writes writes⟩

/-- A scaffold is written where nothing is, and changes nothing where it cannot be. -/
theorem scaffold_cases (disk : Disk) (path : FilePath) :
    (∃ fault, disk.answer (Scaffold.write path) = .error fault ∧
      disk.after (Scaffold.write path) = disk) ∨
    disk.answer (Scaffold.write path) = .ok (.resolve ⟨.slash, disk.working⟩ path) ∧
      disk.item? (path.location disk.working) = none ∧
        disk.Writes (disk.after (Scaffold.write path)) (path.location disk.working)
          (.file Scaffold.text.toUTF8) fun _ => False := by
  unfold Scaffold.write
  simp only [answer_bind, after_bind, answer_workingDirectory, after_workingDirectory,
    answer_status, after_status]
  split
  · next there => exact .inl ⟨_, rfl, rfl⟩
  · next free =>
    rcases write_cases disk path Scaffold.text.toUTF8 with
      ⟨fault, refused, same⟩ | ⟨written, status, writes⟩
    · rw [answer_bind, after_bind, refused, same]
      exact .inl ⟨_, rfl, rfl⟩
    · rw [answer_bind, after_bind, written]
      rw [free] at status
      exact .inr ⟨rfl, Option.map_eq_none_iff.mp status.symm, writes _⟩

section
variable (disk : Disk) (path : FilePath) (dialect : Yaml.Dialect) (task : RunTask) (input : String)

@[simp] theorem after_loadYaml : disk.after (YamlFile.load dialect path) = disk := by
  unfold YamlFile.load
  simp only [after_bind, after_status, answer_status]
  split
  · rfl
  · simp only [after_bind, after_read]
    split <;> rfl

@[simp] theorem after_loadDocument : disk.after (DocumentFile.load path) = disk := by
  unfold DocumentFile.load
  rw [after_bind, after_loadYaml]
  split <;> rfl

@[simp] theorem after_loadConfiguration : disk.after (Configuration.load path) = disk := by
  unfold Configuration.load
  rw [after_bind, after_loadYaml]
  split <;> rfl

/-- A configuration is read, understood, and its output placed. -/
theorem answer_loadConfiguration : disk.answer (Configuration.load path) =
    match disk.answer (YamlFile.load .configuration path) with
    | .error fault => .error (.file path fault)
    | .ok value =>
      (Configuration.ofValue value).bind (Configuration.settings ⟨.slash, disk.working⟩ path) := by
  unfold Configuration.load
  rw [answer_bind, after_loadYaml]
  cases disk.answer (YamlFile.load .configuration path) <;> rfl

theorem answer_loadDocument : disk.answer (DocumentFile.load path) =
    match disk.answer (YamlFile.load .document path) with
    | .error fault => .error (.file path fault)
    | .ok value => DocumentFile.ofValue path value := by
  unfold DocumentFile.load
  rw [answer_bind, after_loadYaml]
  cases disk.answer (YamlFile.load .document path) <;> rfl

@[simp] theorem after_configured : disk.after (Run.configured task) = disk := by
  unfold Run.configured
  split
  · exact after_loadConfiguration ..
  · rfl

@[simp] theorem after_schemas : disk.after (Run.schemas input) = disk := by
  unfold Run.schemas
  rw [after_bind, after_loadDocument]
  split
  · rfl
  · split <;> rfl

/-- A document is read, its definitions are understood, and they are resolved. -/
theorem answer_schemas : disk.answer (Run.schemas input) =
    match disk.answer (DocumentFile.load (.ofText input)) with
    | .error fault => (.error (.document fault), [])
    | .ok fields =>
      match Document.definitions fields with
      | .error fault => (.error (.definitions fault), [])
      | .ok definitions => Run.resolved definitions := by
  unfold Run.schemas
  rw [answer_bind, after_loadDocument]
  cases disk.answer (DocumentFile.load (.ofText input)) with
  | error fault => rfl
  | ok fields =>
    dsimp only
    cases Document.definitions fields <;> rfl

end

end Disk
end SchemaTables
