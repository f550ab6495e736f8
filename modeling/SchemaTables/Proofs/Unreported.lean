import SchemaTables.Proofs.Acceptance
import SchemaTables.Proofs.ArrayChain
import SchemaTables.Proofs.Configurations
import SchemaTables.Proofs.Stops

/-!
# What a run does not report

A run reports most faults of its configuration and of its document. It does not report a file whose
bytes are no text, a value that YAML cannot make, an integer that cannot be written out where its text
is asked for, a configuration that is a directory, and a configured output that is no path. Nodes that
contain themselves are left aside, and arrays whose items lead back to them.
-/
namespace SchemaTables

/-- The bytes of a YAML file are no text, or the text breaks no rule and states a value that there is
none of. -/
inductive YamlFile.Garbled (arrange : List Value → List Value) (dialect : Yaml.Dialect)
    (bytes : ByteArray) : Prop
  | undecodable (nothing : decodeText? bytes = none) : Garbled arrange dialect bytes
  | valueless {text : List Char} {fault : Yaml.Fault} (decoded : decodeText? bytes = some text)
      (fails : Yaml.load arrange dialect text = .error fault)
      (wellFormed : ∀ violation, fault ≠ .malformed violation) (finite : fault ≠ .endless) :
      Garbled arrange dialect bytes

/-- The faults of a YAML file that garbled bytes lead to. -/
inductive YamlFileFault.Garbles : YamlFileFault → Prop
  | undecodable : Garbles .undecodable
  | valueless {fault : Yaml.Fault} (finite : fault ≠ .endless) : Garbles (.valueless fault)

/-- What is parsed to a value, or breaks a rule of YAML, or contains itself, is not garbled. -/
theorem YamlFile.parse_cases (arrange : List Value → List Value) (dialect : Yaml.Dialect)
    (bytes : ByteArray) :
    (∃ value, parse arrange dialect bytes = .ok value) ∧ ¬ Garbled arrange dialect bytes ∨
    (∃ violation, parse arrange dialect bytes = .error (.malformed violation)) ∧
      ¬ Garbled arrange dialect bytes ∨
    parse arrange dialect bytes = .error (.valueless .endless) ∨
    (∃ fault, parse arrange dialect bytes = .error fault ∧ fault.Garbles) ∧
      Garbled arrange dialect bytes := by
  unfold parse
  cases decoded : decodeText? bytes with
  | none => exact .inr (.inr (.inr ⟨⟨_, rfl, .undecodable⟩, .undecodable decoded⟩))
  | some text =>
    dsimp only
    have impossible : Garbled arrange dialect bytes →
        ∃ fault, Yaml.load arrange dialect text = .error fault ∧
          ∀ violation, fault ≠ .malformed violation := by
      intro garbled
      cases garbled with
      | undecodable nothing => cases decoded.symm.trans nothing
      | valueless decoded' fails wellFormed =>
        cases decoded.symm.trans decoded'
        exact ⟨_, fails, wellFormed⟩
    cases loaded : Yaml.load arrange dialect text with
    | ok value =>
      refine .inl ⟨⟨value, rfl⟩, fun garbled => ?_⟩
      obtain ⟨fault, fails, -⟩ := impossible garbled
      cases loaded.symm.trans fails
    | error fault =>
      cases fault with
      | malformed violation =>
        refine .inr (.inl ⟨⟨violation, rfl⟩, fun garbled => ?_⟩)
        obtain ⟨fault, fails, wellFormed⟩ := impossible garbled
        cases loaded.symm.trans fails
        exact wellFormed violation rfl
      | endless => exact .inr (.inr (.inl rfl))
      | _ =>
        exact .inr (.inr (.inr ⟨⟨_, rfl, .valueless nofun⟩, .valueless decoded loaded nofun nofun⟩))

namespace Disk

/-- The file at a path is there, and garbled. -/
def Garbled (disk : Disk) (dialect : Yaml.Dialect) (path : FilePath) : Prop :=
  ∃ bytes, disk.read path = .ok bytes ∧ YamlFile.Garbled disk.arrange dialect bytes

/-- The file at a path is there, and states a node that contains itself. -/
def Endless (disk : Disk) (dialect : Yaml.Dialect) (path : FilePath) : Prop :=
  ∃ bytes, disk.read path = .ok bytes ∧
    YamlFile.parse disk.arrange dialect bytes = .error (.valueless .endless)

/-- The ways in which loading a YAML file comes out. -/
inductive Loads (disk : Disk) (dialect : Yaml.Dialect) (path : FilePath) :
    Except YamlFileFault Value → Prop
  | missing (status : disk.status path = none) (sound : ¬ disk.Garbled dialect path) :
      Loads disk dialect path (.error .notFound)
  | directory (status : disk.status path = some .directory) (sound : ¬ disk.Garbled dialect path) :
      Loads disk dialect path (.error (.unreadable (.refused .isDirectory path)))
  | value (value : Value) (status : disk.status path = some .file)
      (sound : ¬ disk.Garbled dialect path) : Loads disk dialect path (.ok value)
  | malformed (violation : Yaml.Violation) (status : disk.status path = some .file)
      (sound : ¬ disk.Garbled dialect path) :
      Loads disk dialect path (.error (.malformed violation))
  | garbled {fault : YamlFileFault} (garbles : fault.Garbles) (status : disk.status path = some .file)
      (garbled : disk.Garbled dialect path) : Loads disk dialect path (.error fault)

/-- A path leads to nothing, to a directory, or to a file that can be read. -/
theorem read_cases (disk : Disk) (path : FilePath) :
    disk.status path = none ∧ (∀ bytes, disk.read path ≠ .ok bytes) ∨
    disk.status path = some .directory ∧ disk.read path = .error (.refused .isDirectory path) ∨
    disk.status path = some .file ∧ ∃ bytes, disk.read path = .ok bytes := by
  unfold status read
  cases found : disk.destination path with
  | error fault => exact .inl ⟨rfl, nofun⟩
  | ok destination =>
    dsimp only [bind, Except.bind]
    cases there : disk.item? destination.location with
    | none => exact .inl ⟨rfl, nofun⟩
    | some item =>
      cases item with
      | directory => exact .inr (.inl ⟨rfl, rfl⟩)
      | file content => exact .inr (.inr ⟨rfl, content, rfl⟩)

theorem loads {disk : Disk} {dialect : Yaml.Dialect} {path : FilePath}
    (finite : ¬ disk.Endless dialect path) :
    disk.Loads dialect path (disk.answer (YamlFile.load dialect path)) := by
  unfold YamlFile.load
  rw [answer_bind, answer_status, after_status]
  rcases read_cases disk path with ⟨status, unread⟩ | ⟨status, read⟩ | ⟨status, bytes, read⟩
  · rw [status]
    exact .missing status fun ⟨bytes, read, _⟩ => unread bytes read
  · rw [status]
    dsimp only
    rw [answer_bind, answer_read, read]
    refine .directory status fun ⟨bytes, read', _⟩ => ?_
    cases read.symm.trans read'
  · rw [status]
    dsimp only
    rw [answer_bind, answer_read, read]
    have sound : ¬ YamlFile.Garbled disk.arrange dialect bytes → ¬ disk.Garbled dialect path := by
      intro sound ⟨_, read', garbled⟩
      cases read.symm.trans read'
      exact sound garbled
    change Loads disk dialect path (YamlFile.parse disk.arrange dialect bytes)
    rcases YamlFile.parse_cases disk.arrange dialect bytes with ⟨⟨value, parsed⟩, clear⟩ |
      ⟨⟨violation, parsed⟩, clear⟩ | parsed | ⟨⟨fault, parsed, garbles⟩, garbled⟩
    · exact parsed ▸ .value value status (sound clear)
    · exact parsed ▸ .malformed violation status (sound clear)
    · exact absurd ⟨bytes, read, parsed⟩ finite
    · exact parsed ▸ .garbled garbles status ⟨bytes, read, garbled⟩

variable {disk : Disk} {dialect : Yaml.Dialect} {path : FilePath}

theorem not_endless_of_not_read (dialect : Yaml.Dialect)
    (unread : ∀ bytes, disk.read path ≠ .ok bytes) :
    ¬ disk.Endless dialect path :=
  fun ⟨bytes, read, _⟩ => unread bytes read

theorem answer_directory (status : disk.status path = some .directory) :
    disk.answer (YamlFile.load dialect path) = .error (.unreadable (.refused .isDirectory path)) := by
  have unread : ∀ bytes, disk.read path ≠ .ok bytes := by
    rcases read_cases disk path with ⟨other, -⟩ | ⟨-, read⟩ | ⟨other, -⟩
    · cases status.symm.trans other
    · rw [read]
      nofun
    · cases status.symm.trans other
  generalize read : disk.answer (YamlFile.load dialect path) = outcome
  have loads := read ▸ loads (not_endless_of_not_read dialect unread)
  cases loads with
  | directory => rfl
  | missing other => cases status.symm.trans other
  | value _ other => cases status.symm.trans other
  | malformed _ other => cases status.symm.trans other
  | garbled _ other => cases status.symm.trans other

theorem answer_garbled (finite : ¬ disk.Endless dialect path) (garbled : disk.Garbled dialect path) :
    ∃ fault, disk.answer (YamlFile.load dialect path) = .error fault ∧ fault.Garbles := by
  generalize read : disk.answer (YamlFile.load dialect path) = outcome
  have loads := read ▸ loads finite
  cases loads with
  | garbled garbles => exact ⟨_, rfl, garbles⟩
  | missing _ sound => exact absurd garbled sound
  | directory _ sound => exact absurd garbled sound
  | value _ _ sound => exact absurd garbled sound
  | malformed _ _ sound => exact absurd garbled sound

end Disk

namespace Run

/-- What ends a run abruptly at its configuration: a directory, a garbled file, an unknown key that
cannot be told, or an output that is no path, seen from the directory of the file. -/
inductive Misconfigured (disk : Disk) (task : RunTask) : Prop
  | directory {file : FilePath} (settings : given task.configuration = some file)
      (status : disk.status file = some .directory) : Misconfigured disk task
  | garbled {file : FilePath} (settings : given task.configuration = some file)
      (garbled : disk.Garbled .configuration file) : Misconfigured disk task
  | untold {file : FilePath} {value : Value} (settings : given task.configuration = some file)
      (read : disk.answer (YamlFile.load .configuration file) = .ok value)
      (untold : Configuration.HasUntold value) : Misconfigured disk task
  | output {file : FilePath} {value : Value} {statement : Configuration.Statement} {text : String}
      {flaw : NameFlaw} (settings : given task.configuration = some file)
      (read : disk.answer (YamlFile.load .configuration file) = .ok value)
      (states : Configuration.ofValue value = .ok statement) (output : statement.output = some text)
      (flawed : Configuration.outputFlaw? file text = some flaw) : Misconfigured disk task

/-- The part of a run that is looked at here: its YAML files state no node that contains itself, and
none of the arrays that its selection leads to leads back to itself through items alone. -/
structure Grounded (disk : Disk) (task : RunTask) : Prop where
  configuration : ∀ file, given task.configuration = some file → ¬ disk.Endless .configuration file
  document : ¬ disk.Endless .document (.ofText task.input)
  arrays : ∀ settings catalog, disk.answer (configured task) = .ok settings →
    (disk.answer (schemas task.input)).1 = .ok catalog →
      catalog.Loopless (catalog.roots (effective task settings).selection)

variable {disk : Disk} {task : RunTask}

theorem misconfigured_of_configured (grounded : Grounded disk task) {fault : ConfigurationFault}
    (failed : disk.answer (configured task) = .error fault)
    (unreported : (RunFault.configuration fault).isReported = false) : Misconfigured disk task := by
  unfold configured at failed
  split at failed
  · next file settings =>
    rw [Disk.answer_loadConfiguration] at failed
    generalize read : disk.answer (YamlFile.load .configuration file) = outcome at failed
    have loads := read ▸ Disk.loads (grounded.configuration file settings)
    cases loads with
    | missing => cases failed; cases unreported
    | directory status => exact .directory settings status
    | malformed => cases failed; cases unreported
    | garbled _ _ garbled => exact .garbled settings garbled
    | value value =>
      rcases bind_eq_error.mp failed with misstated | ⟨statement, states, failed⟩
      · rcases Configuration.reported_of_ofValue misstated with reported | untold
        · rw [reported] at unreported
          cases unreported
        · exact .untold settings read untold
      · obtain ⟨text, flaw, output, flawed, -⟩ := Configuration.settings_eq_error_iff.mp failed
        exact .output settings read states output flawed
  · cases failed

theorem configured_of_misconfigured (grounded : Grounded disk task)
    (broken : Misconfigured disk task) :
    ∃ fault, disk.answer (configured task) = .error fault ∧
      (RunFault.configuration fault).isReported = false := by
  have loaded : ∀ {file : FilePath}, given task.configuration = some file →
      disk.answer (configured task) = disk.answer (Configuration.load file) := by
    intro file settings
    unfold configured
    rw [settings]
  cases broken with
  | directory settings status =>
    rw [loaded settings, Disk.answer_loadConfiguration]
    rw [Disk.answer_directory status]
    exact ⟨_, rfl, rfl⟩
  | @garbled file settings garbled =>
    obtain ⟨fault, failed, garbles⟩ :=
      Disk.answer_garbled (grounded.configuration file settings) garbled
    rw [loaded settings, Disk.answer_loadConfiguration, failed]
    cases garbles <;> exact ⟨_, rfl, rfl⟩
  | untold settings read untold =>
    rw [loaded settings, Disk.answer_loadConfiguration, read]
    exact ⟨_, bind_eq_error.mpr (.inl (Configuration.ofValue_of_hasUntold untold)), rfl⟩
  | @output _ _ _ text flaw settings read states output flawed =>
    rw [loaded settings, Disk.answer_loadConfiguration, read]
    refine ⟨.outputUnreachable flaw, ?_, rfl⟩
    exact bind_eq_error.mpr (.inr ⟨_, states,
      Configuration.settings_eq_error_iff.mpr ⟨text, flaw, output, flawed, rfl⟩⟩)

/-- What ends a run abruptly at its document: bytes that are garbled, a text that is asked for and
cannot be written, or a string that cannot be titled. -/
inductive Spoiled (disk : Disk) (input : String) : Prop
  | garbled (garbled : disk.Garbled .document (.ofText input)) : Spoiled disk input
  | untold {fields : Document.Fields}
      (read : disk.answer (DocumentFile.load (.ofText input)) = .ok fields)
      (violates : Document.FirstViolation Value.isTold fields .untold) : Spoiled disk input
  | untellable {fields : Document.Fields} {definitions : Definitions}
      (read : disk.answer (DocumentFile.load (.ofText input)) = .ok fields)
      (states : Document.definitions fields = .ok definitions)
      (untellable : definitions.Untellable) : Spoiled disk input

theorem isReported_definitions (fault : DocumentFault) :
    (RunFault.definitions fault).isReported = false ↔ fault.breach = .untold := by
  cases fault <;> simp [RunFault.isReported, DocumentFault.breach]

/-- A resolution ends abruptly just where a string cannot be titled. -/
theorem resolved_untellable_iff {definitions : Definitions} : definitions.Untellable ↔
    ∃ fault, (resolved definitions).1 = .error fault ∧ fault.isReported = false := by
  unfold resolved
  split
  · next registered =>
    obtain ⟨named, listed, untold⟩ := List.any_eq_true.mp registered
    exact iff_of_true (.registered listed untold) ⟨.untoldMember, rfl, rfl⟩
  · next plain =>
    have inside : definitions.Untellable ↔ definitions.stop? = some .enumeration := by
      rw [Definitions.stop?_eq_enumeration_iff]
      constructor
      · intro untellable
        cases untellable with
        | registered listed untold => exact absurd (List.any_eq_true.mpr ⟨_, listed, untold⟩) plain
        | inside split earlier untold => exact ⟨_, _, _, split, earlier, untold⟩
      · intro ⟨before, s, after, split, earlier, untold⟩
        exact .inside split earlier untold
    rw [inside]
    split
    · next stops => exact iff_of_true stops ⟨.untoldMember, rfl, rfl⟩
    · next other =>
      refine iff_of_false other fun ⟨fault, failed, unreported⟩ => ?_
      cases result : (resolve .type definitions).1 with
      | error cause =>
        have failed : (resolve .type definitions).1.mapError .resolution = .error fault := failed
        rw [result] at failed
        cases failed
        cases unreported
      | ok catalog =>
        have failed : (resolve .type definitions).1.mapError .resolution = .error fault := failed
        rw [result] at failed
        cases failed

theorem unreported_of_spoiled {input : String} (finite : ¬ disk.Endless .document (.ofText input))
    (spoiled : Spoiled disk input) : ∃ fault notices,
      disk.answer (schemas input) = (.error fault, notices) ∧ fault.isReported = false := by
  rw [Disk.answer_schemas]
  cases spoiled with
  | garbled garbled =>
    obtain ⟨fault, failed, garbles⟩ := Disk.answer_garbled finite garbled
    rw [Disk.answer_loadDocument, failed]
    cases garbles <;> exact ⟨_, _, rfl, rfl⟩
  | untold read violates =>
    obtain ⟨fault, failed, breach⟩ := ((Document.judged_definitions _).raises _).mpr violates
    rw [read]
    dsimp only
    rw [failed]
    exact ⟨_, _, rfl, (isReported_definitions fault).mpr breach⟩
  | untellable read states untellable =>
    obtain ⟨fault, failed, unreported⟩ := resolved_untellable_iff.mp untellable
    rw [read]
    dsimp only
    rw [states]
    exact ⟨fault, _, Prod.ext failed rfl, unreported⟩

theorem spoiled_of_unreported {input : String} (finite : ¬ disk.Endless .document (.ofText input))
    {fault : RunFault} {notices : List Notice}
    (failed : disk.answer (schemas input) = (.error fault, notices))
    (unreported : fault.isReported = false) : Spoiled disk input := by
  rw [Disk.answer_schemas] at failed
  cases read : disk.answer (DocumentFile.load (.ofText input)) with
  | ok fields =>
    rw [read] at failed
    dsimp only at failed
    cases states : Document.definitions fields with
    | error cause =>
      rw [states] at failed
      cases failed
      have breach := (isReported_definitions cause).mp unreported
      exact .untold read (((Document.judged_definitions fields).raises _).mp ⟨cause, states, breach⟩)
    | ok definitions =>
      rw [states] at failed
      exact .untellable read states
        (resolved_untellable_iff.mpr ⟨fault, congrArg Prod.fst failed, unreported⟩)
  | error cause =>
    rw [read] at failed
    cases failed
    rw [Disk.answer_loadDocument] at read
    generalize loaded : disk.answer (YamlFile.load .document (.ofText input)) = outcome at read
    have loads := loaded ▸ Disk.loads finite
    cases loads with
    | missing => cases read; cases unreported
    | directory => cases read; cases unreported
    | malformed => cases read; cases unreported
    | garbled _ _ garbled => exact .garbled garbled
    | value value =>
      dsimp only at read
      unfold DocumentFile.ofValue at read
      split at read <;> cases read
      cases unreported

end Run

end SchemaTables
