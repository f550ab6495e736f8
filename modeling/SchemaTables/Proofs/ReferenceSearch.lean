import SchemaTables.Proofs.FirstFault
import SchemaTables.Schema.Keyed

/-!
# What following a reference answers

`recollect` follows a reference by memory: it keeps the names that it has met, and gives up as soon
as one comes back. `Reference.resolve` keeps nothing and counts its steps. They give one answer,
`recollect` after a step more than there are names registered at the latest, and the answer tells
how the chain that starts at the reference ends.
-/
namespace SchemaTables

namespace Chain

/-- How a chain of texts can end. -/
inductive Ending where
  | schema (name : String)
  | unrooted (text : String)
  | unregistered (text : String)
  | never
deriving DecidableEq, Repr

/-- The first text of a chain that `P` holds of. -/
def First (meaning : String → Meaning) (start : String) (P : String → Prop) (text : String) :
    Prop :=
  ∃ count, after? meaning count start = some text ∧ P text ∧
    ∀ earlier < count, ∀ other, after? meaning earlier start = some other → ¬ P other

/-- The chain that starts at `start` reaches a text that names a schema, or one that is outside the
schemas, or one that names nothing registered, or it goes on for ever. -/
def Ends (meaning : String → Meaning) (start : String) : Ending → Prop
  | .schema name =>
    ∃ count, after? meaning count start = some (Reference.root ++ name) ∧ meaning name = .schema
  | .unrooted text => First meaning start (fun text => ∀ name, text ≠ Reference.root ++ name) text
  | .unregistered text =>
    First meaning start (fun text => ∃ name, text = Reference.root ++ name ∧ meaning name = .absent)
      text
  | .never => Endless meaning start

/-- What is answered to a chain with that ending. -/
def Ending.outcome (start : String) : Ending → Except ReferenceFault String
  | schema name => .ok name
  | unrooted text => .error (.invalid text)
  | unregistered text => .error (.missing text)
  | never => .error (.circular start)

variable {meaning : String → Meaning} {start : String}

/-- Whatever the chain goes on from names an alias. -/
theorem pointer_of_earlier {count earlier : Nat} {text other : String} (lt : earlier < count)
    (reached : after? meaning count start = some text)
    (passed : after? meaning earlier start = some other) :
    ∃ name next, other = Reference.root ++ name ∧ meaning name = .pointer next := by
  have more : (after? meaning (earlier + 1) start).isSome := by
    have next : earlier + 1 ≤ count := lt
    exact isSome_after?_of_le next (by rw [reached]; rfl)
  rw [after?_add, passed, Option.bind_some] at more
  cases hnext : next? meaning other with
  | none => simp [after?, hnext] at more
  | some next =>
    obtain ⟨name, named, pointer⟩ := next?_eq_some_iff.mp hnext
    exact ⟨name, next, named, pointer⟩

/-- The verdict on a reference is the answer to the ending of its chain: what stops a chain is the
first text of its sort, since the ones before it all name aliases. -/
theorem verdict_outcome_iff {ending : Ending} :
    Verdict meaning start (ending.outcome start) ↔ Ends meaning start ending := by
  cases ending with
  | schema name =>
    constructor
    · intro verdict
      cases verdict with
      | schema reached named found => exact ⟨_, named ▸ reached, found⟩
    · intro ends
      obtain ⟨count, reached, found⟩ := ends
      exact .schema reached rfl found
  | unrooted text =>
    constructor
    · intro verdict
      cases verdict with
      | invalid reached unrooted =>
        refine ⟨_, reached, unrooted, fun earlier lt other passed outside => ?_⟩
        obtain ⟨name, next, named, -⟩ := pointer_of_earlier lt reached passed
        exact outside name named
    · intro ends
      obtain ⟨count, reached, unrooted, -⟩ := ends
      exact .invalid reached unrooted
  | unregistered text =>
    constructor
    · intro verdict
      cases verdict with
      | missing reached named absent =>
        refine ⟨_, reached, ⟨_, named, absent⟩, fun earlier lt other passed lost => ?_⟩
        obtain ⟨name, next, named, pointer⟩ := pointer_of_earlier lt reached passed
        obtain ⟨name', named', absent⟩ := lost
        have same : name = name' := (String.append_right_inj _).mp (named.symm.trans named')
        rw [same, absent] at pointer
        cases pointer
    · intro ends
      obtain ⟨count, reached, ⟨name, named, absent⟩, -⟩ := ends
      exact .missing reached named absent
  | never =>
    constructor
    · intro verdict
      cases verdict with
      | circular endless => exact endless
    · exact fun endless => .circular endless

theorem outcome_injective : Function.Injective (Ending.outcome start) := by
  intro ending other same
  cases ending <;> cases other <;> simp_all [Ending.outcome]

/-- Whatever is answered, it is answered to some ending. -/
theorem exists_ending {outcome : Except ReferenceFault String}
    (verdict : Verdict meaning start outcome) :
    ∃ ending, Ending.outcome start ending = outcome := by
  cases verdict with
  | schema => exact ⟨.schema _, rfl⟩
  | invalid => exact ⟨.unrooted _, rfl⟩
  | missing => exact ⟨.unregistered _, rfl⟩
  | circular => exact ⟨.never, rfl⟩

end Chain

namespace ReferenceFault

def errorClass (fault : ReferenceFault) : ErrorClass := (ResolutionFault.nested fault).errorClass

end ReferenceFault

namespace Reference
open Chain

/-- Follows `current` and keeps the names that it meets; `start` is where the chain began. The
second part of the answer is the number of texts looked at. -/
def recollect (registry : Registry) (start : String) (met : List String) (current : String) :
    Except ReferenceFault String × Nat :=
  match name? current with
  | none => (.error (.invalid current), 1)
  | some name =>
    if met.contains name then (.error (.circular start), 1)
    else match _ : registry.lookup name with
      | none => (.error (.missing current), 1)
      | some (.reference next) =>
        let rest := recollect registry start (name :: met) next
        (rest.1, rest.2 + 1)
      | some _ => (.ok name, 1)
termination_by (registry.filter fun entry => !met.contains entry.1).length
decreasing_by
  next found =>
    exact Keyed.length_unmet_lt ‹_› (Keyed.mem_of_lookup found)

/-- A reference is at fault in that class and with that message. -/
def Raises (registry : Registry) (text : String) (errorClass : ErrorClass) (message : String) :
    Prop :=
  ∃ fault, resolve registry text = .error fault ∧ fault.errorClass = errorClass ∧
    fault.message = message

variable {registry : Registry} {start current : String} {met : List String}

/-- Every step but the last one meets a name that is registered and new. -/
theorem steps_recollect (registry : Registry) (start : String) (met : List String)
    (current : String) :
    (recollect registry start met current).2 ≤
      (registry.filter fun entry => !met.contains entry.1).length + 1 := by
  fun_induction recollect registry start met current with
  | case1 | case2 | case3 | case5 => omega
  | case4 met current name named fresh next found rest ih =>
    have fewer := Keyed.length_unmet_lt fresh (Keyed.mem_of_lookup found)
    have few : rest.2 ≤ _ := ih
    change rest.2 + 1 ≤ _
    omega

/-- What has been followed so far: the chain has come to `current`, past the names in `met`. -/
structure Trail (registry : Registry) (start : String) (met : List String) (current : String) :
    Prop where
  reached : after? registry.meaning met.length start = some current
  passed : ∀ name ∈ met, ∃ count < met.length,
    after? registry.meaning count start = some (root ++ name)

theorem Trail.step (trail : Trail registry start met current) {name next : String}
    (named : current = root ++ name) (pointer : registry.meaning name = .pointer next) :
    Trail registry start (name :: met) next where
  reached := by
    have onward : next? registry.meaning current = some next :=
      next?_eq_some_iff.mpr ⟨name, named, pointer⟩
    rw [List.length_cons, after?_add, trail.reached, Option.bind_some]
    simp [after?, onward]
  passed := by
    intro other hother
    rw [List.length_cons]
    rcases List.mem_cons.mp hother with rfl | old
    · exact ⟨met.length, by omega, named ▸ trail.reached⟩
    · obtain ⟨count, lt, reached⟩ := trail.passed other old
      exact ⟨count, by omega, reached⟩

/-- The memory gives up only on chains that come back, and never before a text that ends one. -/
theorem verdict_recollect (trail : Trail registry start met current) :
    Verdict registry.meaning start (recollect registry start met current).1 := by
  fun_induction recollect registry start met current with
  | case1 met current unnamed => exact .invalid trail.reached (unrooted_iff.mpr unnamed)
  | case2 met current name named old =>
    have named := name?_eq_some_iff.mp named
    obtain ⟨count, lt, reached⟩ := trail.passed name (by simpa using old)
    exact .circular (endless_of_repeat lt reached (named ▸ trail.reached))
  | case3 met current name named fresh absent =>
    exact .missing trail.reached (name?_eq_some_iff.mp named) (by simp [Registry.meaning, absent])
  | case4 met current name named fresh next found rest ih =>
    have pointer : registry.meaning name = .pointer next := by simp [Registry.meaning, found]
    exact ih (trail.step (name?_eq_some_iff.mp named) pointer)
  | case5 met current name named fresh entry schema found =>
    have schema : registry.meaning name = .schema := by
      cases entry with
      | reference next => exact absurd rfl (schema next)
      | _ => simp [Registry.meaning, found]
    exact .schema trail.reached (name?_eq_some_iff.mp named) schema

theorem recollect_eq (registry : Registry) (text : String) :
    (recollect registry text [] text).1 = resolve registry text :=
  verdict_unique (verdict_recollect ⟨rfl, by simp⟩) (verdict_resolve registry text)

/-- What is answered tells how the chain ends. -/
theorem resolve_eq_outcome_iff {text : String} (ending : Ending) :
    resolve registry text = ending.outcome text ↔ Ends registry.meaning text ending :=
  resolve_eq_iff.trans verdict_outcome_iff

theorem raises_iff {text : String} (fault : ReferenceFault) :
    Raises registry text fault.errorClass fault.message ↔ resolve registry text = .error fault := by
  constructor
  · intro raises
    obtain ⟨other, answer, -, same⟩ := raises
    rwa [← ReferenceFault.message_injective same]
  · exact fun answer => ⟨fault, answer, rfl, rfl⟩

theorem existsUnique_ending (registry : Registry) (text : String) :
    ∃! ending, Ends registry.meaning text ending := by
  obtain ⟨ending, answer⟩ := exists_ending (verdict_resolve registry text)
  refine ⟨ending, (resolve_eq_outcome_iff ending).mp answer.symm, fun other ends => ?_⟩
  have answer' := (resolve_eq_outcome_iff other).mpr ends
  exact outcome_injective (answer'.symm.trans answer.symm)

theorem dereference_eq_ok_iff {text : String} {entry : Entry} :
    dereference registry (.reference text) = .ok entry ↔
      ∃ name, Ends registry.meaning text (.schema name) ∧ registry.lookup name = some entry := by
  simp only [← resolve_eq_outcome_iff, Ending.outcome, dereference]
  constructor
  · intro answer
    cases hname : resolve registry text with
    | error fault => simp [hname, Except.map] at answer
    | ok name =>
      obtain ⟨count, reached, found⟩ := (resolve_eq_outcome_iff (.schema name)).mp hname
      refine ⟨name, rfl, ?_⟩
      cases hentry : registry.lookup name with
      | none => simp [Registry.meaning, hentry] at found
      | some other => simpa [hname, Except.map, hentry] using answer
  · intro found
    obtain ⟨name, hname, hentry⟩ := found
    simp [hname, Except.map, hentry]

/-- An alias amounts to what its own text amounts to; only a circle is told from where it began. -/
theorem resolve_alias {name next : String} (found : registry.lookup name = some (.reference next)) :
    (resolve registry (root ++ name)).mapError ReferenceFault.errorClass =
      (resolve registry next).mapError ReferenceFault.errorClass := by
  have onward : next? registry.meaning (root ++ name) = some next :=
    next?_eq_some_iff.mpr ⟨name, rfl, by simp [Registry.meaning, found]⟩
  have shift (count : Nat) : after? registry.meaning (count + 1) (root ++ name) =
      after? registry.meaning count next := by
    simp [after?, onward]
  have verdict := verdict_resolve registry next
  generalize resolve registry next = outcome at verdict ⊢
  cases verdict with
  | schema reached named schema =>
    rw [resolve_eq_iff.mpr (.schema ((shift _).trans reached) named schema)]
  | invalid reached unrooted =>
    rw [resolve_eq_iff.mpr (.invalid ((shift _).trans reached) unrooted)]
  | missing reached named absent =>
    rw [resolve_eq_iff.mpr (.missing ((shift _).trans reached) named absent)]
  | circular endless =>
    have endless' : Endless registry.meaning (root ++ name) := by
      intro count
      cases count with
      | zero => rfl
      | succ count => rw [shift]; exact endless count
    rw [resolve_eq_iff.mpr (.circular endless')]
    rfl

/-- What is answered to a reference, and after how many steps. -/
structure Answers (registry : Registry) (text : String) : Prop where
  within : ∃ steps ≤ registry.length + 1,
    recollect registry text [] text = (resolve registry text, steps)
  one : ∃! ending, Ends registry.meaning text ending
  schema : ∀ entry, dereference registry (.reference text) = .ok entry ↔
    ∃ name, Ends registry.meaning text (.schema name) ∧ registry.lookup name = some entry
  unrooted : ∀ first, Raises registry text .invalid ("Value \"" ++ first ++ "\" is not a ref") ↔
    Ends registry.meaning text (.unrooted first)
  unregistered : ∀ first, Raises registry text .dangling ("Cannot find reference " ++ first) ↔
    Ends registry.meaning text (.unregistered first)
  never : Raises registry text .dangling ("Reference cycle without a schema: " ++ text) ↔
    Ends registry.meaning text .never
  pointer : ∀ name next, text = root ++ name → registry.lookup name = some (.reference next) →
    (resolve registry text).mapError ReferenceFault.errorClass =
      (resolve registry next).mapError ReferenceFault.errorClass

/-- Following a reference ends, and its answer tells how the chain of the reference ends. -/
theorem resolve_answers (registry : Registry) (text : String) : Answers registry text where
  within := by
    have few := steps_recollect registry text [] text
    have all : (registry.filter fun entry => !([] : List String).contains entry.1) = registry := by
      simp
    rw [all] at few
    refine ⟨_, few, ?_⟩
    rw [← recollect_eq]
  one := existsUnique_ending registry text
  schema _ := dereference_eq_ok_iff
  unrooted first := (raises_iff (.invalid first)).trans (resolve_eq_outcome_iff (.unrooted first))
  unregistered first :=
    (raises_iff (.missing first)).trans (resolve_eq_outcome_iff (.unregistered first))
  never := (raises_iff (.circular text)).trans (resolve_eq_outcome_iff .never)
  pointer name next named found := named ▸ resolve_alias found

end Reference
end SchemaTables
