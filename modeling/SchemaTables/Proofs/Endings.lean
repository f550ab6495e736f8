import SchemaTables.Proofs.ArgumentValues
import SchemaTables.Proofs.Unreported

/-!
# How an invocation ends

Misuse and the faults of documents, configurations, references and outputs end an invocation with an
exit code and a message. What ends it without are the faults that a run does not report, a path that is
no name, and a text that cannot be encoded where it goes out.
-/
namespace SchemaTables

namespace Disk
variable {path : FilePath} {flaw : NameFlaw}

theorem destination_unnameable_iff (disk : Disk) :
    disk.destination path = .error (.unnameable flaw) ↔ path.flaw? = some flaw := by
  unfold destination
  cases path.flaw? with
  | some other => simp
  | none =>
    dsimp only
    cases disk.follow (if path.isAbsolute then [] else disk.working) path.parts with
    | error refusal => simp [Except.mapError]
    | ok found => simp [Except.mapError]

/-- A change begins at the place that its path leads to, and a path is found to be none there only. -/
theorem change_unnameable_iff {step : Disk → Except StorageFault Disk}
    {next : Destination → Except StorageFault Disk} (disk : Disk)
    (begins : step disk = disk.destination path >>= next)
    (sound : ∀ destination, next destination ≠ .error (.unnameable flaw)) :
    disk.answer (change step) = .error (.unnameable flaw) ↔ path.flaw? = some flaw := by
  have failed : disk.answer (change step) = .error (.unnameable flaw) ↔
      step disk = .error (.unnameable flaw) := by
    rw [answer_change]
    cases step disk with
    | error fault => simp [Except.map]
    | ok last => simp [Except.map]
  rw [failed, begins, bind_eq_error, ← destination_unnameable_iff disk]
  simp [sound]

theorem makeDirectory_unnameable_iff (disk : Disk) (path : FilePath) :
    disk.answer (FileStore.makeDirectory path) = .error (.unnameable flaw) ↔
      path.flaw? = some flaw := by
  refine change_unnameable_iff disk rfl fun destination => ?_
  cases destination with
  | directory location => nofun
  | entry location =>
    dsimp only
    split <;> nofun

theorem write_unnameable_iff (disk : Disk) (path : FilePath) (content : ByteArray) :
    disk.answer (FileStore.write path content) = .error (.unnameable flaw) ↔
      path.flaw? = some flaw := by
  refine change_unnameable_iff disk rfl fun destination => ?_
  split <;> nofun

theorem unnameable_of_orThere {disk : Disk} {outcome : Except StorageFault Unit}
    (failed : disk.answer (FileStore.makeDirectories.orThere path outcome) =
      .error (.unnameable flaw)) : outcome = .error (.unnameable flaw) := by
  unfold FileStore.makeDirectories.orThere at failed
  split at failed
  · cases failed
  · cases failed
  · exact failed
  · rw [answer_bind, answer_status, after_status] at failed
    split at failed
    · cases failed
    · exact failed

theorem orThere_nameable {outcome : Except StorageFault Unit} {disk last : Disk}
    (sound : path.flaw? = none) (made : disk.answer (FileStore.makeDirectory path) = outcome) :
    last.answer (FileStore.makeDirectories.orThere path outcome) ≠ .error (.unnameable flaw) := by
  intro failed
  rw [unnameable_of_orThere failed, makeDirectory_unnameable_iff, sound] at made
  cases made

/-- Directories are made around a path without a flaw as far as they can be. -/
theorem makeDirectories_nameable {depth : Nat} {disk : Disk} (sound : path.flaw? = none) :
    disk.answer (FileStore.makeDirectories depth path) ≠ .error (.unnameable flaw) := by
  induction depth generalizing path disk with
  | zero =>
    unfold FileStore.makeDirectories
    rw [answer_bind]
    split
    · nofun
    · nofun
    · next made => exact orThere_nameable sound made
  | succ depth ih =>
    unfold FileStore.makeDirectories
    rw [answer_bind]
    split
    · nofun
    · dsimp only
      split
      · nofun
      · rw [answer_bind]
        split
        · next outer =>
          intro failed
          cases failed
          exact ih (FilePath.flaw?_parent sound) outer
        · rw [answer_bind]
          exact orThere_nameable sound rfl
    · next made => exact orThere_nameable sound made

theorem ensureDirectory_unnameable_iff (disk : Disk) (path : FilePath) :
    disk.answer (FileStore.ensureDirectory path) = .error (.unnameable flaw) ↔
      path.flaw? = some flaw := by
  cases flawed : path.flaw? with
  | none => exact iff_of_false (makeDirectories_nameable flawed) nofun
  | some other =>
    have made := (makeDirectory_unnameable_iff disk path).mpr flawed
    have failed : disk.answer (FileStore.ensureDirectory path) = .error (.unnameable other) := by
      unfold FileStore.ensureDirectory FileStore.makeDirectories
      rw [answer_bind, made]
      rfl
    rw [failed]
    simp

/-- An output is no path, or the directory around it is none; the latter is met first. -/
theorem writeOutput_unnameable_iff (disk : Disk) (path : FilePath) (content : String) :
    disk.answer (Run.writeOutput path content) = .error (.unnameable flaw) ↔
      path.parent.flaw? = some flaw ∨
        path.flaw? = some flaw ∧ disk.answer (FileStore.ensureDirectory path.parent) = .ok () := by
  have around : disk.answer (FileStore.ensureDirectory path.parent) = .error (.unnameable flaw) ↔
      path.parent.flaw? = some flaw := ensureDirectory_unnameable_iff disk path.parent
  unfold Run.writeOutput
  rw [answer_bind]
  cases made : disk.answer (FileStore.ensureDirectory path.parent) with
  | error fault =>
    rw [made] at around
    rw [← around]
    change Except.error fault = Except.error (.unnameable flaw) ↔ _
    simp
  | ok _ =>
    rw [made] at around
    have sound : path.parent.flaw? ≠ some flaw := fun flawed => nomatch around.mpr flawed
    dsimp only
    rw [write_unnameable_iff]
    simp [sound]

/-- Whether a page can be put out does not depend on what it shows. -/
theorem answer_writeOutput (disk : Disk) (path : FilePath) (content other : String) :
    disk.answer (Run.writeOutput path content) = disk.answer (Run.writeOutput path other) := by
  have written : ∀ (disk : Disk) (content other : ByteArray),
      disk.answer (FileStore.write path content) = disk.answer (FileStore.write path other) := by
    intro disk content other
    have same : (disk.write path content).map (fun _ => ()) =
        (disk.write path other).map (fun _ => ()) := by
      unfold Disk.write
      cases disk.destination path with
      | error fault => rfl
      | ok destination =>
        dsimp only [bind, Except.bind]
        split <;> rfl
    exact (answer_change disk _).trans (same.trans (answer_change disk (·.write path other)).symm)
  unfold Run.writeOutput
  rw [answer_bind, answer_bind]
  cases disk.answer (FileStore.ensureDirectory path.parent) with
  | error fault => rfl
  | ok _ => exact written _ _ _

end Disk
namespace Run
variable {disk : Disk} {task : RunTask}

/-- What ends a run abruptly: its configuration, its document, an output that is no path, met where the
directories before it can be made, or a table that cannot be encoded, met where the output can be
opened. -/
inductive Breaks (disk : Disk) (task : RunTask) : Prop
  | configuration (broken : Misconfigured disk task) : Breaks disk task
  | document {settings : Settings} (configured : disk.answer (configured task) = .ok settings)
      (spoiled : Spoiled disk task.input) : Breaks disk task
  | output {settings : Settings} {catalog : Catalog Place} {path : FilePath} {flaw : NameFlaw}
      (configured : disk.answer (configured task) = .ok settings)
      (resolved : (disk.answer (schemas task.input)).1 = .ok catalog)
      (outputs : Outputs disk task path)
      (flawed : path.parent.flaw? = some flaw ∨
        path.flaw? = some flaw ∧ disk.answer (FileStore.ensureDirectory path.parent) = .ok ()) :
      Breaks disk task
  | unencodable {settings : Settings} {catalog : Catalog Place}
      (configured : disk.answer (configured task) = .ok settings)
      (resolved : (disk.answer (schemas task.input)).1 = .ok catalog)
      (opens : ∀ path, Outputs disk task path → disk.answer (writeOutput path "") = .ok ())
      (withheld : ¬ Encodes catalog (effective task settings)) : Breaks disk task

theorem Course.breaks {report : RunReport} {last : Disk} {fault : RunFault}
    (course : Course disk task report last) (grounded : Grounded disk task)
    (failed : report.result = .error fault) (unreported : fault.isReported = false) :
    Breaks disk task := by
  cases course with
  | unconfigured configured =>
    cases failed
    exact .configuration (misconfigured_of_configured grounded configured unreported)
  | unresolved configured schemas =>
    cases failed
    exact .document configured (spoiled_of_unreported grounded.document schemas unreported)
  | @printed settings catalog notices configured schemas output =>
    by_cases encodes : Encodes catalog (effective task settings)
    · rw [reportOf_of_encodes encodes (visit_clean_of_schemas schemas _)] at failed
      cases failed
    · refine .unencodable configured (congrArg Prod.fst schemas) ?_ encodes
      intro path outputs
      rw [← output_eq_some_iff configured, output] at outputs
      cases outputs
  | @unwritten settings catalog notices path refusal configured schemas output refused =>
    cases failed
    cases refusal with
    | refused => cases unreported
    | unnameable flaw =>
      exact .output configured (congrArg Prod.fst schemas)
        ((output_eq_some_iff configured path).mp output)
        ((disk.writeOutput_unnameable_iff path _).mp refused)
  | @written settings catalog notices path configured schemas output done =>
    by_cases encodes : Encodes catalog (effective task settings)
    · rw [reportOf_of_encodes encodes (visit_clean_of_schemas schemas _)] at failed
      cases failed
    · refine .unencodable configured (congrArg Prod.fst schemas) ?_ encodes
      intro other outputs
      rw [← output_eq_some_iff configured, output] at outputs
      cases outputs
      exact (disk.answer_writeOutput path _ _).trans done

/-- A run ends abruptly in these ways and in no others. -/
theorem breaks_iff (grounded : Grounded disk task) : Breaks disk task ↔
    ∃ fault, (disk.answer (execute task)).result = .error fault ∧ fault.isReported = false := by
  have paired : ∀ {catalog : Catalog Place}, (disk.answer (schemas task.input)).1 = .ok catalog →
      disk.answer (schemas task.input) = (.ok catalog, (disk.answer (schemas task.input)).2) :=
    fun resolved => Prod.ext resolved rfl
  constructor
  · intro breaks
    cases breaks with
    | configuration broken =>
      obtain ⟨fault, configured, unreported⟩ := configured_of_misconfigured grounded broken
      exact ⟨_, congrArg (·.1.result) (run_unconfigured configured), unreported⟩
    | document configured spoiled =>
      obtain ⟨fault, notices, schemas, unreported⟩ := unreported_of_spoiled grounded.document spoiled
      exact ⟨_, congrArg (·.1.result) (run_unresolved configured schemas), unreported⟩
    | @output settings catalog path flaw configured resolved outputs flawed =>
      have output := (output_eq_some_iff configured path).mpr outputs
      have refused :=
        (disk.writeOutput_unnameable_iff path (pageOf catalog (effective task settings))).mpr flawed
      have run := (run_resolved configured (paired resolved)).trans (run_unwritten output refused)
      exact ⟨_, congrArg (·.1.result) run, rfl⟩
    | @unencodable settings catalog configured resolved opens withheld =>
      have rendered := run_resolved configured (paired resolved)
      refine ⟨.unencodable, ?_, rfl⟩
      cases output : (effective task settings).output with
      | none =>
        have run := rendered.trans (run_printed output)
        exact (congrArg (·.1.result) run).trans (reportOf_of_not_encodes withheld _ _ _).1
      | some path =>
        have opened := opens path ((output_eq_some_iff configured path).mp output)
        have done := (disk.answer_writeOutput path
          (pageOf catalog (effective task settings)) "").trans opened
        have run := rendered.trans (run_written output done)
        exact (congrArg (·.1.result) run).trans (reportOf_of_not_encodes withheld _ _ _).1
  · intro ⟨fault, failed, unreported⟩
    exact (course disk task).breaks grounded failed unreported

end Run

/-- The part of an invocation that is looked at here. -/
def Request.Grounded (disk : Disk) (asked : Request) : Prop :=
  ∀ verbose task, asked = .run verbose task → Run.Grounded disk task

namespace Invocation
open InvocationResult (Immediate)

/-- What ends an invocation abruptly. -/
inductive Abrupt (disk : Disk) : Request → Prop
  | unnameable (flaw : NameFlaw) : Abrupt disk (unnameable flaw)
  | scaffold {path : String} {resolved : FilePath}
      (made : disk.answer (Scaffold.write (.ofText path)) = .ok resolved)
      (untold : ¬ Surrogate.encodable resolved.text) : Abrupt disk (.scaffold path)
  | run {verbose : Bool} {task : RunTask} (breaks : Run.Breaks disk task) :
      Abrupt disk (.run verbose task)

inductive Misused : Request → Prop
  | helpless : Misused (.answer (.exit 2 "" Help.Topic.program.help))
  | fault (topic : Help.Topic) (fault : UsageFault) : Misused (.answer (.misused topic fault))

/-- What a request fails with, by the message of its fault. -/
inductive Faults (disk : Disk) : Request → String → Prop
  | scaffold {path : String} {fault : Scaffold.Fault}
      (failed : disk.answer (Scaffold.write (.ofText path)) = .error fault) :
      Faults disk (.scaffold path) fault.message
  | run {verbose : Bool} {task : RunTask} {fault : RunFault}
      (failed : (disk.answer (Run.execute task)).result = .error fault)
      (reported : fault.isReported) : Faults disk (.run verbose task) fault.message

/-- An invocation ends without an exit code just when something breaks it. The code is 2 for misuse
and 1 for a fault, whose message is the last that is told on the standard error; otherwise it is 0. -/
structure Ends (disk : Disk) (asked : Request) (result : InvocationResult) : Prop where
  abrupt : (∃ fault, result.ending = .error fault) ↔ Abrupt disk asked
  misuse : result.ending = .ok 2 ↔ Misused asked
  fault : result.ending = .ok 1 ↔ ∃ message, Faults disk asked message
  told : ∀ message, Faults disk asked message → ∃ noted, result.stderr = noted ++ message ++ "\n"
  code : ∀ code, result.ending = .ok code → code ≤ 2

namespace Ends
variable {disk : Disk} {asked : Request} {result : InvocationResult}

theorem of_faultless (abrupt : (∃ fault, result.ending = .error fault) ↔ Abrupt disk asked)
    (misuse : result.ending = .ok 2 ↔ Misused asked)
    (faultless : ∀ message, ¬ Faults disk asked message)
    (code : ∀ code, result.ending = .ok code → code = 0 ∨ code = 2) : Ends disk asked result where
  abrupt := abrupt
  misuse := misuse
  fault := by
    refine iff_of_false (fun failed => ?_) fun ⟨message, faults⟩ => faultless message faults
    rcases code 1 failed with same | same <;> cases same
  told message faults := absurd faults (faultless message)
  code ended ends := by
    rcases code ended ends with rfl | rfl <;> decide

theorem of_faults {message : String} (unbroken : ¬ Abrupt disk asked) (used : ¬ Misused asked)
    (faults : Faults disk asked message) (only : ∀ other, Faults disk asked other → other = message)
    (ending : result.ending = .ok 1) (told : ∃ noted, result.stderr = noted ++ message ++ "\n") :
    Ends disk asked result where
  abrupt := iff_of_false (by rw [ending]; nofun) unbroken
  misuse := iff_of_false (by rw [ending]; nofun) used
  fault := iff_of_true ending ⟨message, faults⟩
  told other faults := only other faults ▸ told
  code ended ends := by
    cases ending.symm.trans ends
    decide

end Ends

theorem ends_answer {result : InvocationResult} (immediate : Immediate result) (disk : Disk) :
    Ends disk (.answer result) result := by
  have faultless : ∀ message, ¬ Faults disk (.answer result) message := by
    intro message faults
    cases faults
  cases immediate with
  | informed text =>
    refine .of_faultless ⟨nofun, fun abrupt => by cases abrupt⟩
      ⟨nofun, fun misused => by cases misused⟩ faultless ?_
    intro code ends
    cases ends
    exact .inl rfl
  | misused topic fault =>
    refine .of_faultless ⟨nofun, fun abrupt => by cases abrupt⟩
      ⟨fun _ => .fault topic fault, fun _ => rfl⟩ faultless ?_
    intro code ends
    cases ends
    exact .inr rfl
  | helpless =>
    refine .of_faultless ⟨nofun, fun abrupt => by cases abrupt⟩
      ⟨fun _ => .helpless, fun _ => rfl⟩ faultless ?_
    intro code ends
    cases ends
    exact .inr rfl
  | unnameable flaw =>
    exact .of_faultless ⟨fun _ => .unnameable flaw, fun _ => ⟨_, rfl⟩⟩
      ⟨nofun, fun misused => by cases misused⟩ faultless nofun

theorem abrupt_scaffold_iff {disk : Disk} {path : String} {resolved : FilePath}
    (written : disk.answer (Scaffold.write (.ofText path)) = .ok resolved) :
    Abrupt disk (.scaffold path) ↔ ¬ Surrogate.encodable resolved.text := by
  refine ⟨fun abrupt => ?_, .scaffold written⟩
  cases abrupt with
  | scaffold made untold =>
    cases written.symm.trans made
    exact untold

theorem ends_scaffold (disk : Disk) (path : String) :
    Ends disk (.scaffold path) (disk.answer (perform (.scaffold path))) := by
  have answers : disk.answer (perform (.scaffold path)) =
      scaffoldResult (disk.answer (Scaffold.write (.ofText path))) := rfl
  have used : ¬ Misused (.scaffold path) := by
    intro misused
    cases misused
  rw [answers]
  cases written : disk.answer (Scaffold.write (.ofText path)) with
  | ok resolved =>
    have faultless : ∀ message, ¬ Faults disk (.scaffold path) message := by
      intro message faults
      cases faults with
      | scaffold failed => cases written.symm.trans failed
    have abrupt := abrupt_scaffold_iff written
    unfold scaffoldResult
    dsimp only
    split
    · next told =>
      refine .of_faultless (iff_of_false nofun ?_) (iff_of_false nofun used) faultless ?_
      · rw [abrupt]
        exact not_not_intro told
      · intro code ends
        cases ends
        exact .inl rfl
    · next untold =>
      exact .of_faultless ⟨fun _ => abrupt.mpr untold, fun _ => ⟨_, rfl⟩⟩
        (iff_of_false nofun used) faultless nofun
  | error fault =>
    have unbroken : ¬ Abrupt disk (.scaffold path) := by
      intro abrupt
      cases abrupt with
      | scaffold made => cases written.symm.trans made
    refine .of_faults unbroken used (.scaffold written) ?_ rfl ⟨"", ?_⟩
    · intro other faults
      cases faults with
      | scaffold failed =>
        cases written.symm.trans failed
        rfl
    · rw [String.empty_append]
      rfl

theorem abrupt_run_iff {disk : Disk} {task : RunTask} (grounded : Run.Grounded disk task)
    (verbose : Bool) : Abrupt disk (.run verbose task) ↔
      ∃ fault, (disk.answer (Run.execute task)).result = .error fault ∧ fault.isReported = false := by
  rw [← Run.breaks_iff grounded]
  refine ⟨fun abrupt => ?_, .run⟩
  cases abrupt with
  | run breaks => exact breaks

theorem ends_run {disk : Disk} {task : RunTask} (grounded : Run.Grounded disk task)
    (verbose : Bool) :
    Ends disk (.run verbose task) (disk.answer (perform (.run verbose task))) := by
  have answers : disk.answer (perform (.run verbose task)) =
      renderResult verbose (disk.answer (Run.execute task)) := rfl
  have used : ¬ Misused (.run verbose task) := by
    intro misused
    cases misused
  have abrupt := abrupt_run_iff grounded verbose
  rw [answers]
  generalize outcome : (disk.answer (Run.execute task)).result = result at abrupt
  unfold renderResult
  rw [outcome]
  cases result with
  | ok summary =>
    refine .of_faultless (iff_of_false nofun ?_) (iff_of_false nofun used) ?_ ?_
    · rw [abrupt]
      nofun
    · intro message faults
      cases faults with
      | run failed => cases outcome.symm.trans failed
    · intro code ends
      cases ends
      exact .inl rfl
  | error fault =>
    dsimp only
    cases reported : fault.isReported with
    | true =>
      refine .of_faults ?_ used (.run outcome reported) ?_ rfl ⟨_, rfl⟩
      · rw [abrupt]
        intro ⟨other, same, unreported⟩
        cases same
        cases reported.symm.trans unreported
      · intro other faults
        cases faults with
        | run failed =>
          cases outcome.symm.trans failed
          rfl
    | false =>
      refine .of_faultless ⟨fun _ => abrupt.mpr ⟨fault, rfl, reported⟩, fun _ => ⟨_, rfl⟩⟩
        (iff_of_false nofun used) ?_ nofun
      intro message faults
      cases faults with
      | run failed reported' =>
        cases outcome.symm.trans failed
        cases reported.symm.trans reported'

/-- A disk with a document that states nothing. -/
def plainDisk : Disk :=
  ⟨["work"], [(["work"], .directory), (["work", "api.yaml"], .file "\x7b\x7d".toUTF8)], id⟩

def plainArgs : List String := ["render", "api.yaml"]

theorem grounded_plain : (request plainArgs).Grounded plainDisk := by
  intro verbose task asked
  have same : task = ⟨"api.yaml", [], none, none, none⟩ := by
    have plain : request plainArgs = .run false ⟨"api.yaml", [], none, none, none⟩ := rfl
    rw [plain] at asked
    cases asked
    rfl
  have parsed : ∀ bytes, plainDisk.read (.ofText "api.yaml") = .ok bytes →
      YamlFile.parse id .document bytes = .ok (.map []) := by
    intro bytes read
    cases read
    rfl
  have nothing : (plainDisk.answer (Run.schemas "api.yaml")).1 = .ok ⟨[], []⟩ := rfl
  rw [same]
  refine ⟨nofun, fun ⟨bytes, read, fails⟩ => ?_, fun settings catalog _ resolved => ?_⟩
  · cases (parsed bytes read).symm.trans fails
  · cases nothing.symm.trans resolved
    intro place _ loops
    obtain ⟨_, ⟨_, found, _⟩, _⟩ := Relation.TransGen.head'_iff.mp loops
    cases found

end Invocation
end SchemaTables
