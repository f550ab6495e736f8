import Mathlib.Data.Finset.Card
import Mathlib.Data.Finset.Range
import SchemaTables.Schema.Reference

/-!
# Alias chains

What a reference means, said without a bound on steps: it starts a chain of texts, each the text of
the alias that the one before names. The chain ends at a schema, at a text outside the schemas or at
a name that nothing is registered under, or it never ends. `Reference.resolve` answers exactly this:
a chain longer than the registry has met a name twice, and so never ends.
-/
namespace SchemaTables

/-- What a name stands for. -/
inductive Meaning where
  | absent
  | pointer (next : String)
  | schema
deriving DecidableEq, Repr

def Definitions.meaning (definitions : Definitions) (name : String) : Meaning :=
  match definitions.lookup name with
  | none => .absent
  | some (.reference next) => .pointer next
  | some (.schema ..) => .schema

def Registry.meaning (registry : Registry) (name : String) : Meaning :=
  match registry.lookup name with
  | none => .absent
  | some (.reference next) => .pointer next
  | some _ => .schema

namespace Chain

/-- The text that a text goes on to: that of the alias it names. -/
def next? (meaning : String → Meaning) (text : String) : Option String :=
  match (Reference.name? text).map meaning with
  | some (.pointer next) => some next
  | _ => none

/-- The text after so many aliases, if the chain gets there. -/
def after? (meaning : String → Meaning) : (count : Nat) → (text : String) → Option String
  | 0, text => some text
  | count + 1, text => (next? meaning text).bind (after? meaning count)

def Endless (meaning : String → Meaning) (text : String) : Prop :=
  ∀ count, (after? meaning count text).isSome

/-- What a reference amounts to. -/
inductive Verdict (meaning : String → Meaning) (start : String) :
    Except ReferenceFault String → Prop
  | schema {count : Nat} {text name : String} (reached : after? meaning count start = some text)
      (named : text = Reference.root ++ name) (found : meaning name = .schema) :
      Verdict meaning start (.ok name)
  | invalid {count : Nat} {text : String} (reached : after? meaning count start = some text)
      (unrooted : ∀ name, text ≠ Reference.root ++ name) :
      Verdict meaning start (.error (.invalid text))
  | missing {count : Nat} {text name : String} (reached : after? meaning count start = some text)
      (named : text = Reference.root ++ name) (absent : meaning name = .absent) :
      Verdict meaning start (.error (.missing text))
  | circular (endless : Endless meaning start) : Verdict meaning start (.error (.circular start))

/-- A reference is good when its chain ends at a schema. -/
def Resolves (meaning : String → Meaning) (text : String) : Prop :=
  ∃ name, Verdict meaning text (.ok name)

variable {meaning : String → Meaning}

theorem next?_eq_some_iff {text next : String} : next? meaning text = some next ↔
    ∃ name, text = Reference.root ++ name ∧ meaning name = .pointer next := by
  unfold next?
  constructor
  · intro h
    split at h
    · next target found =>
      obtain ⟨name, hname, hmeaning⟩ := Option.map_eq_some_iff.mp found
      cases h
      exact ⟨name, Reference.name?_eq_some_iff.mp hname, hmeaning⟩
    · cases h
  · rintro ⟨name, htext, hmeaning⟩
    rw [Reference.name?_eq_some_iff.mpr htext]
    simp [hmeaning]

theorem after?_add (first second : Nat) (text : String) :
    after? meaning (first + second) text =
      (after? meaning first text).bind (after? meaning second) := by
  induction first generalizing text with
  | zero => simp [after?]
  | succ first ih =>
    rw [Nat.add_right_comm]
    cases h : next? meaning text <;> simp [after?, h, ih]

theorem isSome_after?_of_le {few many : Nat} {text : String} (le : few ≤ many)
    (h : (after? meaning many text).isSome) : (after? meaning few text).isSome := by
  obtain ⟨rest, rfl⟩ := Nat.exists_eq_add_of_le le
  rw [after?_add] at h
  cases hfew : after? meaning few text with
  | none => simp [hfew] at h
  | some _ => rfl

/-- A text that comes back comes back for ever. -/
theorem after?_mul_of_return {period : Nat} {text : String}
    (h : after? meaning period text = some text) (rounds : Nat) :
    after? meaning (rounds * period) text = some text := by
  induction rounds with
  | zero => simp [after?]
  | succ rounds ih => rw [Nat.succ_mul, after?_add, ih, Option.bind_some, h]

theorem endless_of_return {before period : Nat} {start text : String} (pos : 0 < period)
    (reached : after? meaning before start = some text)
    (returns : after? meaning period text = some text) : Endless meaning start := by
  intro count
  have long : count ≤ before + count * period := by
    have := Nat.le_mul_of_pos_right count pos
    omega
  apply isSome_after?_of_le long
  rw [after?_add, reached, Option.bind_some, after?_mul_of_return returns]
  rfl

/-- A chain that meets a text twice runs round from there. -/
theorem endless_of_repeat {first second : Nat} {start text : String} (lt : first < second)
    (reached : after? meaning first start = some text)
    (again : after? meaning second start = some text) : Endless meaning start := by
  obtain ⟨period, rfl⟩ := Nat.exists_eq_add_of_lt lt
  rw [Nat.add_assoc, after?_add, reached, Option.bind_some] at again
  exact endless_of_return (Nat.succ_pos period) reached again

theorem mem_references_of_next? {registry : Registry} {text next : String}
    (h : next? registry.meaning text = some next) :
    text ∈ (registry.map (·.1)).map (Reference.root ++ ·) := by
  obtain ⟨name, rfl, hmeaning⟩ := next?_eq_some_iff.mp h
  apply List.mem_map_of_mem
  by_contra unknown
  have absent : registry.lookup name = none :=
    List.lookup_eq_none_iff.mpr fun entry hentry => by
      simp only [bne_iff_ne, ne_eq]
      rintro rfl
      exact unknown (List.mem_map_of_mem hentry)
  simp [Registry.meaning, absent] at hmeaning

/-- The pigeonhole: with so many names registered, a chain that is longer has met one twice. -/
theorem endless_of_long {registry : Registry} {start : String}
    (h : (after? registry.meaning (registry.length + 1) start).isSome) :
    Endless registry.meaning start := by
  let text (count : Nat) : String := (after? registry.meaning count start).getD ""
  have reached : ∀ count ≤ registry.length + 1,
      after? registry.meaning count start = some (text count) := by
    intro count le
    obtain ⟨t, ht⟩ := Option.isSome_iff_exists.mp (isSome_after?_of_le le h)
    simp [text, ht]
  have registered : ∀ count ∈ Finset.range (registry.length + 1),
      text count ∈ ((registry.map (·.1)).map (Reference.root ++ ·)).toFinset := by
    intro count hcount
    have le : count + 1 ≤ registry.length + 1 := Finset.mem_range.mp hcount
    have step := reached (count + 1) le
    rw [after?_add, reached count (by omega), Option.bind_some] at step
    obtain ⟨next, hnext, -⟩ := Option.bind_eq_some_iff.mp step
    exact List.mem_toFinset.mpr (mem_references_of_next? hnext)
  have card : ((registry.map (·.1)).map (Reference.root ++ ·)).toFinset.card <
      (Finset.range (registry.length + 1)).card := by
    rw [Finset.card_range]
    refine Nat.lt_succ_of_le ((List.toFinset_card_le _).trans ?_)
    simp
  obtain ⟨i, hi, j, hj, ne, same⟩ :=
    Finset.exists_ne_map_eq_of_card_lt_of_maps_to card registered
  have hi' := reached i (Nat.le_of_lt (Finset.mem_range.mp hi))
  have hj' := reached j (Nat.le_of_lt (Finset.mem_range.mp hj))
  rcases Nat.lt_or_gt_of_ne ne with lt | gt
  · exact endless_of_repeat lt hi' (same ▸ hj')
  · exact endless_of_repeat gt hj' (same ▸ hi')

/-- What the last text of a chain amounts to. -/
def ending (meaning : String → Meaning) (text : String) : Except ReferenceFault String :=
  match Reference.name? text with
  | none => .error (.invalid text)
  | some name => if meaning name = .absent then .error (.missing text) else .ok name

theorem unrooted_iff {text : String} :
    (∀ name, text ≠ Reference.root ++ name) ↔ Reference.name? text = none := by
  rw [Option.eq_none_iff_forall_ne_some]
  exact forall_congr' fun name => not_congr Reference.name?_eq_some_iff.symm

/-- The first three verdicts look at a text that the chain does not go on from. -/
theorem verdict_iff {start : String} {outcome : Except ReferenceFault String} :
    Verdict meaning start outcome ↔
      (∃ count text, after? meaning count start = some text ∧ next? meaning text = none ∧
        outcome = ending meaning text) ∨
      (Endless meaning start ∧ outcome = .error (.circular start)) := by
  constructor
  · rintro (⟨reached, rfl, found⟩ | ⟨reached, unrooted⟩ | ⟨reached, rfl, absent⟩ | endless)
    · refine .inl ⟨_, _, reached, ?_, ?_⟩ <;>
        simp [next?, ending, Reference.name?_eq_some_iff.mpr rfl, found]
    · refine .inl ⟨_, _, reached, ?_, ?_⟩ <;> simp [next?, ending, unrooted_iff.mp unrooted]
    · refine .inl ⟨_, _, reached, ?_, ?_⟩ <;>
        simp [next?, ending, Reference.name?_eq_some_iff.mpr rfl, absent]
    · exact .inr ⟨endless, rfl⟩
  · rintro (⟨count, text, reached, last, rfl⟩ | ⟨endless, rfl⟩)
    · unfold ending
      cases hname : Reference.name? text with
      | none => exact .invalid reached (unrooted_iff.mpr hname)
      | some name =>
        have named := Reference.name?_eq_some_iff.mp hname
        cases hmeaning : meaning name with
        | absent => simpa [hmeaning] using Verdict.missing reached named hmeaning
        | schema => simpa [hmeaning] using Verdict.schema reached named hmeaning
        | pointer next => simp [next?, hname, hmeaning] at last
    · exact .circular endless

theorem after?_succ_of_last {count : Nat} {start text : String}
    (reached : after? meaning count start = some text) (last : next? meaning text = none) :
    after? meaning (count + 1) start = none := by
  rw [after?_add, reached, Option.bind_some, after?, last, Option.bind_none]

theorem last_unique {m n : Nat} {start text other : String}
    (reached : after? meaning m start = some text) (last : next? meaning text = none)
    (reached' : after? meaning n start = some other) (last' : next? meaning other = none) :
    text = other := by
  have stop := after?_succ_of_last reached last
  have stop' := after?_succ_of_last reached' last'
  rcases Nat.lt_trichotomy m n with lt | rfl | gt
  · have := isSome_after?_of_le lt (Option.isSome_iff_exists.mpr ⟨_, reached'⟩)
    simp [stop] at this
  · exact Option.some.inj (reached.symm.trans reached')
  · have := isSome_after?_of_le gt (Option.isSome_iff_exists.mpr ⟨_, reached⟩)
    simp [stop'] at this

theorem not_endless_of_last {count : Nat} {start text : String}
    (reached : after? meaning count start = some text) (last : next? meaning text = none) :
    ¬ Endless meaning start := by
  intro endless
  have := endless (count + 1)
  simp [after?_succ_of_last reached last] at this

theorem verdict_unique {start : String} {one other : Except ReferenceFault String}
    (h : Verdict meaning start one) (h' : Verdict meaning start other) : one = other := by
  rcases verdict_iff.mp h with ⟨m, text, reached, last, rfl⟩ | ⟨endless, rfl⟩ <;>
    rcases verdict_iff.mp h' with ⟨n, text', reached', last', rfl⟩ | ⟨endless', rfl⟩
  · rw [last_unique reached last reached' last']
  · exact absurd endless' (not_endless_of_last reached last)
  · exact absurd endless (not_endless_of_last reached' last')
  · rfl

end Chain

namespace Reference
open Chain
variable {registry : Registry}

theorem follow_succ (start : String) (steps : Nat) (current : String) :
    follow registry start (steps + 1) current =
      match next? registry.meaning current with
      | some next => follow registry start steps next
      | none => ending registry.meaning current := by
  rw [follow]
  unfold next? ending Registry.meaning
  cases name? current with
  | none => rfl
  | some name =>
    cases hentry : registry.lookup name with
    | none => simp [hentry]
    | some entry => cases entry <;> simp [hentry]

theorem follow_of_last {count steps : Nat} {start current text : String} (lt : count < steps)
    (reached : after? registry.meaning count current = some text)
    (last : next? registry.meaning text = none) :
    follow registry start steps current = ending registry.meaning text := by
  induction steps generalizing count current with
  | zero => omega
  | succ steps ih =>
    rw [follow_succ]
    cases count with
    | zero =>
      cases Option.some.inj reached
      rw [last]
    | succ count =>
      obtain ⟨next, hnext, hreached⟩ := Option.bind_eq_some_iff.mp reached
      rw [hnext]
      exact ih (by omega) hreached

theorem follow_of_long {steps : Nat} {start current : String}
    (long : (after? registry.meaning steps current).isSome) :
    follow registry start steps current = .error (.circular start) := by
  induction steps generalizing current with
  | zero => rfl
  | succ steps ih =>
    obtain ⟨text, reached⟩ := Option.isSome_iff_exists.mp long
    obtain ⟨next, hnext, hreached⟩ := Option.bind_eq_some_iff.mp reached
    rw [follow_succ, hnext]
    exact ih (hreached ▸ rfl)

/-- Some step within the bound is the last one, or else the chain is that long. -/
theorem exists_last_or_long (steps : Nat) (text : String) :
    (∃ count < steps, ∃ last, after? registry.meaning count text = some last ∧
      next? registry.meaning last = none) ∨ (after? registry.meaning steps text).isSome := by
  induction steps with
  | zero => exact .inr rfl
  | succ steps ih =>
    rcases ih with ⟨count, lt, found⟩ | long
    · exact .inl ⟨count, by omega, found⟩
    · obtain ⟨current, reached⟩ := Option.isSome_iff_exists.mp long
      cases hnext : next? registry.meaning current with
      | none => exact .inl ⟨steps, by omega, current, reached, hnext⟩
      | some next =>
        refine .inr ?_
        rw [after?_add, reached, Option.bind_some, after?, hnext]
        rfl

/-- Following a reference gives its verdict: the bound on the steps cuts no chain short. -/
theorem verdict_resolve (registry : Registry) (text : String) :
    Verdict registry.meaning text (resolve registry text) := by
  rw [verdict_iff]
  rcases exists_last_or_long (registry.length + 1) text with ⟨count, lt, last, reached, ends⟩ | long
  · exact .inl ⟨count, last, reached, ends, follow_of_last lt reached ends⟩
  · exact .inr ⟨endless_of_long long, follow_of_long long⟩

theorem resolve_eq_iff {text : String} {outcome : Except ReferenceFault String} :
    resolve registry text = outcome ↔ Verdict registry.meaning text outcome := by
  constructor
  · rintro rfl
    exact verdict_resolve registry text
  · exact verdict_unique (verdict_resolve registry text)

end Reference
end SchemaTables
