import SchemaTables.Proofs.Stages

/-!
# All or nothing

A run that succeeds has written one page, to its output or else to the standard output. An invocation
that does not succeed has printed nothing and has changed no file, but for one case. The output is
opened before the walk begins, and resolution leaves no reference for the walk to stop at; a table that
cannot be encoded stops it all the same, and leaves the page as it is by then.
-/
namespace SchemaTables

namespace Html
open Surrogate

theorem head?_tableText (table : Table) : (tableText table).toList.head? = some '<' := by
  rw [tableText, String.join_cons, String.toList_append]
  rfl

theorem standsAlone_tablesText (tables : List Table) : StandsAlone (tablesText tables).toList := by
  cases tables with
  | nil => nofun
  | cons table rest =>
    intro c first
    rw [tablesText, List.map_cons, String.join_cons, String.toList_append, List.head?_append,
      head?_tableText] at first
    cases first
    decide

theorem encodable_tablesText {tables : List Table} (each : ∀ table ∈ tables, encodable (tableText table)) :
    encodable (tablesText tables) := by
  induction tables with
  | nil => rfl
  | cons table rest ih =>
    obtain ⟨here, others⟩ := List.forall_mem_cons.mp each
    have split : tablesText (table :: rest) = tableText table ++ tablesText rest := String.join_cons
    rw [split]
    exact encodable_append here (ih others) (standsAlone_tablesText rest)

theorem unmarked_stylesheet : ∀ c ∈ stylesheet.toList, c ≠ mark := by
  refine unmarked_join ?_
  simp only [List.forall_mem_cons]
  refine ⟨?_, ?_, ?_, ?_, ?_, ?_, ?_, nofun⟩ <;> exact unmarked_ofList (by decide +kernel)

theorem unmarked_prologue : ∀ c ∈ (prologue defaultTitle).toList, c ≠ mark := by
  have title : ∀ c ∈ (Markup.escape defaultTitle).toList, c ≠ mark := unmarked_ofList (by decide)
  refine unmarked_join ?_
  simp only [List.forall_mem_cons]
  refine ⟨?_, title, ?_, ?_, unmarked_stylesheet, ?_, nofun⟩ <;>
    exact unmarked_ofList (by decide +kernel)

/-- A page can be encoded if its tables can. -/
theorem encodable_page {tables : List Table} (each : ∀ table ∈ tables, encodable (tableText table)) :
    encodable (page defaultTitle tables) := by
  have parts : page defaultTitle tables = prologue defaultTitle ++ tablesText tables ++ epilogue := by
    rw [page, String.join_cons, String.join_cons, String.join_cons, String.join_nil,
      String.append_empty, String.append_assoc]
  have unmarked : ∀ c ∈ epilogue.toList, c ≠ mark := unmarked_ofList (by decide)
  have alone : StandsAlone epilogue.toList := by
    have head : epilogue.toList.head? = some '<' := rfl
    intro c first
    rw [head] at first
    cases first
    decide
  have begins := encodable_append (encodable_of_unmarked unmarked_prologue)
    (encodable_tablesText each) (standsAlone_tablesText tables)
  rw [parts]
  exact encodable_append begins (encodable_of_unmarked unmarked) alone

end Html

namespace Run

/-- A text stands at the output of the task and nothing else has changed, but for directories on the
way there; without an output it was printed and nothing has changed. -/
def PutsOut (disk last : Disk) (task : RunTask) (printed text : String) : Prop :=
  (∃ path, Outputs disk task path ∧ printed = "" ∧ disk.Writes last (path.location disk.working)
    (.file (Surrogate.bytes text)) (path.parent.Crosses disk.working)) ∨
  (∀ path, ¬ Outputs disk task path) ∧ last = disk ∧ printed = text

/-- The page of the task's selection is put out. -/
structure Delivers (disk last : Disk) (task : RunTask) (printed : String) (settings : Settings)
    (catalog : Catalog Place) (page : String) : Prop where
  configured : disk.answer (configured task) = .ok settings
  resolved : (disk.answer (schemas task.input)).1 = .ok catalog
  walked : (catalog.visitSelection (effective task settings).selection).fault = none
  shown : page = Html.page Html.defaultTitle
    ((catalog.visitSelection (effective task settings).selection).tables catalog
      (effective task settings).descriptions)
  encoded : Surrogate.encodable page
  delivered : PutsOut disk last task printed page

/-- Not all tables of the task's selection can be encoded, and no more is put out than what comes before
the first that cannot. -/
structure CutsShort (disk last : Disk) (task : RunTask) (printed : String) (settings : Settings)
    (catalog : Catalog Place) : Prop where
  configured : disk.answer (configured task) = .ok settings
  resolved : (disk.answer (schemas task.input)).1 = .ok catalog
  withheld : ¬ Encodes catalog (effective task settings)
  left : PutsOut disk last task printed (Html.prologue Html.defaultTitle ++ Html.tablesText
    (((catalog.visitSelection (effective task settings).selection).calls.takeWhile
      (goesOut catalog (effective task settings))).map fun call =>
        .ofNode catalog (effective task settings).descriptions call.template call.node))

variable {disk : Disk} {task : RunTask}

/-- What a run comes to that has put its page out, as far as it goes out. -/
theorem outcome_of_putsOut {settings : Settings} {catalog : Catalog Place} {notices : List Notice}
    {last : Disk} {printed : String} (output : Option FilePath)
    (configured : disk.answer (configured task) = .ok settings)
    (schemas : disk.answer (schemas task.input) = (.ok catalog, notices))
    (puts : PutsOut disk last task printed (pageOf catalog (effective task settings))) :
    let report := reportOf catalog (effective task settings) output printed notices
    report.printed = printed ∧
      (report.result = .error .unencodable ∧ CutsShort disk last task printed settings catalog ∨
        (∃ summary, report.result = .ok summary) ∧
          ∃ page, Delivers disk last task printed settings catalog page) := by
  have resolved := congrArg Prod.fst schemas
  dsimp only
  by_cases encodes : Encodes catalog (effective task settings)
  · have clean := visit_clean_of_schemas schemas (effective task settings).selection
    have page := pageOf_of_encodes encodes clean
    have each : ∀ table ∈ (catalog.visitSelection (effective task settings).selection).tables catalog
        (effective task settings).descriptions, Surrogate.encodable (Html.tableText table) := by
      intro table shown
      obtain ⟨call, asked, rfl⟩ := List.mem_map.mp shown
      exact encodes call asked
    have encoded : Surrogate.encodable (pageOf catalog (effective task settings)) :=
      page ▸ Html.encodable_page each
    rw [reportOf_of_encodes encodes clean]
    exact ⟨rfl, .inr ⟨⟨_, rfl⟩, _, configured, resolved, clean, page, encoded, puts⟩⟩
  · obtain ⟨failed, same⟩ := reportOf_of_not_encodes encodes output printed notices
    have left := pageOf_of_not_encodes encodes ▸ puts
    exact ⟨same, .inl ⟨failed, configured, resolved, encodes, left⟩⟩

/-- A run fails with nothing printed and no file changed, or is cut short, or delivers its page. -/
theorem Course.outcome {report : RunReport} {last : Disk} (course : Course disk task report last) :
    (∃ fault, report.result = .error fault ∧ report.printed = "" ∧
      disk.Gains last fun location =>
        ∃ path, Outputs disk task path ∧ path.parent.Crosses disk.working location) ∨
    ∃ settings catalog,
      report.result = .error .unencodable ∧
        CutsShort disk last task report.printed settings catalog ∨
      (∃ summary, report.result = .ok summary) ∧
        ∃ page, Delivers disk last task report.printed settings catalog page := by
  cases course with
  | unconfigured => exact .inl ⟨_, rfl, rfl, .refl disk _⟩
  | unresolved => exact .inl ⟨_, rfl, rfl, .refl disk _⟩
  | @printed settings catalog notices configured schemas output =>
    have nowhere : ∀ path, ¬ Outputs disk task path := by
      intro path outputs
      rw [← output_eq_some_iff configured, output] at outputs
      cases outputs
    obtain ⟨same, outcome⟩ := outcome_of_putsOut none configured schemas
      (.inr ⟨nowhere, rfl, rfl⟩)
    rw [same]
    exact .inr ⟨settings, catalog, outcome⟩
  | @unwritten settings catalog notices path fault configured schemas output refused =>
    rcases disk.writeOutput_cases path (pageOf catalog (effective task settings)) with
      ⟨_, -, gains⟩ | ⟨done, -⟩
    · refine .inl ⟨_, rfl, rfl, gains.weaken fun location crosses => ?_⟩
      exact ⟨path, (output_eq_some_iff configured path).mp output, crosses⟩
    · cases refused.symm.trans done
  | @written settings catalog notices path configured schemas output done =>
    rcases disk.writeOutput_cases path (pageOf catalog (effective task settings)) with
      ⟨_, refused, -⟩ | ⟨-, writes⟩
    · cases done.symm.trans refused
    · have outputs := (output_eq_some_iff configured path).mp output
      obtain ⟨same, outcome⟩ := outcome_of_putsOut
        (some (.resolve ⟨.slash, disk.working⟩ path)) configured schemas (.inl ⟨path, outputs, rfl, writes⟩)
      rw [same]
      exact .inr ⟨settings, catalog, outcome⟩

end Run

namespace Invocation

/-- What an invocation leaves half done: a run that is cut short, and a scaffold whose place cannot be
told. -/
inductive HalfDone (disk last : Disk) : Request → (printed : String) → Prop
  | page {verbose : Bool} {task : RunTask} {printed : String} {settings : Settings}
      {catalog : Catalog Place}
      (cuts : Run.CutsShort disk last task printed settings catalog) :
      HalfDone disk last (.run verbose task) printed
  | scaffold {path : String} {resolved : FilePath}
      (told : resolved = .resolve ⟨.slash, disk.working⟩ (.ofText path))
      (withheld : ¬ Surrogate.encodable resolved.text)
      (free : disk.item? ((FilePath.ofText path).location disk.working) = none)
      (made : disk.Writes last ((FilePath.ofText path).location disk.working)
        (.file Scaffold.text.toUTF8) fun _ => False) : HalfDone disk last (.scaffold path) ""

/-- A request that does not succeed has printed nothing and has left no more than directories on the
way to its output, unless it is half done. Whatever was there stays as it is, unless a run is asked
for. A run that succeeds delivers the page of its task and nothing else. -/
structure AllOrNothing (disk last : Disk) (asked : Request) (result : InvocationResult) : Prop where
  nothing : result.ending ≠ .ok 0 →
    (result.stdout = "" ∧ disk.Gains last fun location =>
      ∃ verbose task path, asked = .run verbose task ∧ Run.Outputs disk task path ∧
        path.parent.Crosses disk.working location) ∨
    HalfDone disk last asked result.stdout
  keeps : (∀ verbose task, asked ≠ .run verbose task) → ∀ location item,
    disk.item? location = some item → last.item? location = some item
  all : ∀ verbose task, asked = .run verbose task → result.ending = .ok 0 →
    ∃ settings catalog page, Run.Delivers disk last task result.stdout settings catalog page

theorem stdout_renderResult (verbose : Bool) (report : RunReport) :
    (renderResult verbose report).stdout = report.printed := by
  unfold renderResult
  dsimp only
  split
  · rfl
  · split <;> rfl

/-- Only a run with a summary succeeds. -/
theorem ending_renderResult (verbose : Bool) {report : RunReport} {fault : RunFault}
    (failed : report.result = .error fault) : (renderResult verbose report).ending ≠ .ok 0 := by
  unfold renderResult
  rw [failed]
  dsimp only
  split <;> nofun

theorem perform_answer {args : List String} {result : InvocationResult}
    (asked : request args = .answer result) (disk : Disk) :
    AllOrNothing disk (disk.after (perform (.answer result))) (.answer result)
      (disk.answer (perform (.answer result))) where
  nothing failed := by
    refine .inl ⟨?_, .refl disk _⟩
    cases immediate_of_request asked with
    | informed text => exact absurd rfl failed
    | misused => rfl
    | helpless => rfl
    | unnameable => rfl
  keeps _ _ _ there := there
  all _ _ other := by cases other

theorem perform_scaffold (disk : Disk) (path : String) :
    AllOrNothing disk (disk.after (perform (.scaffold path))) (.scaffold path)
      (disk.answer (perform (.scaffold path))) := by
  rcases disk.scaffold_cases (.ofText path) with ⟨fault, refused, same⟩ | ⟨done, free, writes⟩
  · have result : disk.answer (perform (.scaffold path)) = scaffoldResult (.error fault) :=
      congrArg scaffoldResult refused
    have last : disk.after (perform (.scaffold path)) = disk := same
    rw [result, last]
    exact ⟨fun _ => .inl ⟨rfl, .refl disk _⟩, fun _ _ _ there => there, fun _ _ other => by cases other⟩
  · have result : disk.answer (perform (.scaffold path)) =
        scaffoldResult (.ok (.resolve ⟨.slash, disk.working⟩ (.ofText path))) :=
      congrArg scaffoldResult done
    have last : disk.after (perform (.scaffold path)) = disk.after (Scaffold.write (.ofText path)) := rfl
    rw [result, last]
    refine ⟨fun failed => .inr ?_, fun _ location item there => ?_, fun _ _ other => by cases other⟩
    · unfold scaffoldResult at failed ⊢
      dsimp only at failed ⊢
      split at failed
      · exact absurd rfl failed
      · next withheld =>
        rw [if_neg withheld]
        exact .scaffold rfl withheld free writes
    · have elsewhere : location ≠ (FilePath.ofText path).location disk.working := by
        intro same
        rw [same, free] at there
        cases there
      rcases writes.others location elsewhere with same | ⟨-, -, none⟩
      · exact same.trans there
      · cases none

theorem perform_run (disk : Disk) (verbose : Bool) (task : RunTask) :
    AllOrNothing disk (disk.after (perform (.run verbose task))) (.run verbose task)
      (disk.answer (perform (.run verbose task))) := by
  have result : disk.answer (perform (.run verbose task)) =
      renderResult verbose (disk.answer (Run.execute task)) := rfl
  have last : disk.after (perform (.run verbose task)) = disk.after (Run.execute task) := rfl
  rw [result, last]
  constructor
  · intro failed
    rw [stdout_renderResult]
    rcases (Run.course disk task).outcome with
      ⟨_, -, quiet, gains⟩ | ⟨settings, catalog, ⟨-, cuts⟩ | ⟨⟨summary, done⟩, -⟩⟩
    · refine .inl ⟨quiet, gains.weaken ?_⟩
      intro location ⟨path, outputs, crosses⟩
      exact ⟨verbose, task, path, rfl, outputs, crosses⟩
    · exact .inr (.page cuts)
    · refine absurd ?_ failed
      rw [renderResult, done]
      rfl
  · intro other
    exact absurd rfl (other verbose task)
  · intro _ _ same succeeded
    cases same
    rw [stdout_renderResult]
    rcases (Run.course disk task).outcome with
      ⟨fault, failed, -⟩ | ⟨settings, catalog, ⟨failed, -⟩ | ⟨-, page, delivers⟩⟩
    · exact absurd succeeded (ending_renderResult verbose failed)
    · exact absurd succeeded (ending_renderResult verbose failed)
    · exact ⟨settings, catalog, page, delivers⟩

/-- The command for scaffolds asks for no run. -/
theorem generate_ne_run (args : List String) (verbose : Bool) (task : RunTask) :
    generate args ≠ .run verbose task := by
  unfold generate
  split
  · nofun
  · dsimp only
    split
    · nofun
    · split
      · nofun
      · split <;> nofun

/-- Whatever the files and the arguments are, an invocation does all that it was asked for, or it
prints nothing and changes no file, unless it meets a text that cannot be encoded when it has begun to
put out what it was asked for; and the command for scaffolds asks for no run. -/
theorem all_or_nothing (disk : Disk) (args : List String) :
    AllOrNothing disk (disk.after (run args)) (request args) (disk.answer (run args)) ∧
      ∀ verbose rest others task, command verbose "generate-config" rest ≠ .run others task := by
  refine ⟨?_, fun verbose rest => generate_ne_run rest⟩
  unfold run
  cases asked : request args with
  | answer result => exact perform_answer asked disk
  | scaffold path => exact perform_scaffold disk path
  | run verbose task => exact perform_run disk verbose task

/-- A disk with one document, whose only schema has an escaped pair of surrogates for a title. -/
def pairDisk : Disk :=
  let document := "components: \x7bschemas: \x7bA: \x7btitle: \"\\ud83d\\ude00\", oneOf: [\x7b\x7d]\x7d\x7d\x7d"
  ⟨["work"], [(["work"], .directory), (["work", "api.yaml"], .file document.toUTF8)], id⟩

def pairArgs : List String := ["render", "api.yaml", "-o", "out.html"]

/-- An abrupt end, though there is a file. -/
def endsWithFile (outcome : InvocationResult × Disk) (location : Location) : Bool :=
  match outcome.1.ending, outcome.2.item? location with
  | .error _, some (.file _) => true
  | _, _ => false

theorem exists_file_of_endsWithFile {disk : Disk} {access : StateM Disk InvocationResult}
    {location : Location} (left : endsWithFile (disk.outcome access) location) :
    (disk.answer access).ending ≠ .ok 0 ∧
      ∃ content, (disk.after access).item? location = some (.file content) := by
  rw [Disk.outcome_eq] at left
  unfold endsWithFile at left
  dsimp only at left
  split at left
  · next fault content failed there =>
    rw [failed]
    exact ⟨nofun, content, there⟩
  · cases left

/-- It is not so that an invocation which does not succeed leaves no new file and no new content: the
output of this one is there, and its page ends before the only table. -/
theorem not_everyFailure_traceless :
    ¬ ∀ (disk : Disk) (args : List String), (disk.answer (run args)).ending ≠ .ok 0 →
      ∀ location content, (disk.after (run args)).item? location = some (.file content) →
        disk.item? location = some (.file content) := by
  intro every
  have left : endsWithFile (pairDisk.outcome (run pairArgs)) ["work", "out.html"] := by
    decide +kernel
  obtain ⟨fails, content, there⟩ := exists_file_of_endsWithFile left
  have before : pairDisk.item? ["work", "out.html"] = none := rfl
  have kept := every pairDisk pairArgs fails _ content there
  rw [before] at kept
  cases kept

end Invocation
end SchemaTables
