import SchemaTables.Proofs.Resolution

/-!
# Resolution fails with the first bad reference

The live references of a document stand in one order, `Definitions.occurrences`. A resolution
succeeds exactly when the chain of every one of them ends at a schema. Otherwise it raises what the
first of them that does not is raised as, and neither re-keying nor the order of the visits changes
which one that is.
-/
namespace SchemaTables

/-- An unresolvable reference is a dangling one, of a class of its own. -/
inductive ErrorClass where
  | invalid
  | dangling
  | unresolvable
deriving DecidableEq, Repr

def ResolutionFault.errorClass : ResolutionFault → ErrorClass
  | nested (.invalid _) | entry (.invalid _) => .invalid
  | nested (.missing _) | nested (.circular _) => .dangling
  | entry (.missing _) | entry (.circular _) => .unresolvable

namespace Occurrence
open Chain

/-- What a missing or circular reference is raised as. -/
def lostClass (occurrence : Occurrence) : ErrorClass :=
  if occurrence.outermost then .unresolvable else .dangling

/-- What a bad reference is raised as, where the names mean `meaning`. -/
inductive Raises (meaning : String → Meaning) (occurrence : Occurrence) :
    ErrorClass → (message : String) → Prop
  | invalid {text : String} (verdict : Verdict meaning occurrence.text (.error (.invalid text))) :
      Raises meaning occurrence .invalid ("Value \"" ++ text ++ "\" is not a ref")
  | missing {text : String} (verdict : Verdict meaning occurrence.text (.error (.missing text))) :
      Raises meaning occurrence occurrence.lostClass ("Cannot find reference " ++ text)
  | circular (endless : Endless meaning occurrence.text) :
      Raises meaning occurrence occurrence.lostClass
        ("Reference cycle without a schema: " ++ occurrence.text)

variable {registry : Registry} {occurrence : Occurrence}

theorem fault?_eq_none_iff :
    occurrence.fault? registry = none ↔ Resolves registry.meaning occurrence.text := by
  simp only [Resolves, ← Reference.resolve_eq_iff]
  unfold fault?
  cases Reference.resolve registry occurrence.text with
  | ok name => simp
  | error cause => simp

theorem fault?_eq_some_iff {fault : ResolutionFault} :
    occurrence.fault? registry = some fault ↔
      ∃ cause, Verdict registry.meaning occurrence.text (.error cause) ∧
        occurrence.report cause = fault := by
  simp only [← Reference.resolve_eq_iff]
  unfold fault?
  cases Reference.resolve registry occurrence.text with
  | ok name => simp
  | error cause => simp [report]

theorem errorClass_report (cause : ReferenceFault) : (occurrence.report cause).errorClass =
    match cause with
    | .invalid _ => .invalid
    | .missing _ | .circular _ => occurrence.lostClass := by
  unfold report lostClass
  cases cause <;> split <;> rfl

theorem message_report (cause : ReferenceFault) :
    (occurrence.report cause).message = cause.message := by
  unfold report
  split <;> rfl

theorem raises_iff {errorClass : ErrorClass} {message : String} :
    occurrence.Raises registry.meaning errorClass message ↔
      ∃ fault, occurrence.fault? registry = some fault ∧ fault.errorClass = errorClass ∧
        fault.message = message := by
  simp only [fault?_eq_some_iff]
  constructor
  · rintro (verdict | verdict | endless)
    · exact ⟨_, ⟨_, verdict, rfl⟩, errorClass_report _, message_report _⟩
    · exact ⟨_, ⟨_, verdict, rfl⟩, errorClass_report _, message_report _⟩
    · exact ⟨_, ⟨_, .circular endless, rfl⟩, errorClass_report _, message_report _⟩
  · rintro ⟨_, ⟨cause, verdict, rfl⟩, rfl, rfl⟩
    rw [errorClass_report, message_report]
    cases cause with
    | invalid text => exact .invalid verdict
    | missing text => exact .missing verdict
    | circular text =>
      cases verdict with
      | circular endless => exact .circular endless

end Occurrence

namespace Definitions

/-- A resolution succeeds exactly when every live reference leads to a schema; otherwise it raises
what the first one that does not is raised as. -/
theorem resolve_first_fault (convention : Case.Convention) (definitions : Definitions) :
    ((∃ catalog, (resolve convention definitions).1 = .ok catalog) ↔
      ∀ occurrence ∈ definitions.occurrences,
        Chain.Resolves definitions.meaning occurrence.text) ∧
    ∀ errorClass message,
      (∃ fault, (resolve convention definitions).1 = .error fault ∧
        fault.errorClass = errorClass ∧ fault.message = message) ↔
      ∃ before occurrence after, definitions.occurrences = before ++ occurrence :: after ∧
        (∀ earlier ∈ before, Chain.Resolves definitions.meaning earlier.text) ∧
        occurrence.Raises definitions.meaning errorClass message := by
  rw [← meaning_registry]
  simp only [← Occurrence.fault?_eq_none_iff, Occurrence.raises_iff]
  constructor
  · rw [← List.findSome?_eq_none_iff, resolve_fst]
    change _ ↔ definitions.fault? = none
    cases definitions.fault? <;> simp
  · intro errorClass message
    simp only [resolve_eq_error_iff, fault?, List.findSome?_eq_some_iff]
    constructor
    · rintro ⟨fault, ⟨before, occurrence, after, split, hfault, clean⟩, raised⟩
      exact ⟨before, occurrence, after, split, clean, fault, hfault, raised⟩
    · rintro ⟨before, occurrence, after, split, clean, fault, hfault, raised⟩
      exact ⟨fault, ⟨before, occurrence, after, split, hfault, clean⟩, raised⟩

end Definitions
end SchemaTables
