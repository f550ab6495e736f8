import SchemaTables.Proofs.Standing

/-!
# Path identifiers

A schema without an identifier of its own is identified by the words of its place, joined by
slashes. Where no name has a slash in it, the text gives the words back, and the words give back the
place: which step a word stands for is told by the schema around it.
-/
namespace SchemaTables

def Step.words : Step → List String
  | items => ["items"]
  | property name => [name]
  | alternative index => ["oneOf", toString index]

def Place.words (place : Place) : List String :=
  place.root.name :: place.steps.flatMap Step.words

/-- Whether a definition has an identifier of its own; an empty one does not count. -/
def Definition.identified : Definition → Bool
  | reference _ => false
  | schema _ details _ _ _ => details.id.any fun id => !id.isEmpty

def Definitions.Unidentified (definitions : Definitions) : Prop :=
  ∀ s ∈ definitions.standings, s.definition.identified = false

instance (definitions : Definitions) : Decidable definitions.Unidentified :=
  inferInstanceAs (Decidable (∀ s ∈ definitions.standings, s.definition.identified = false))

def Bare (name : String) : Prop := '/' ∉ name.toList

instance : DecidablePred Bare := fun name => inferInstanceAs (Decidable ('/' ∉ name.toList))

def Step.name? : Step → Option String
  | property name => some name
  | items | alternative _ => none

/-- No name of a definition or of a live property has a slash in it. -/
structure Definitions.SlashFree (definitions : Definitions) : Prop where
  names : ∀ named ∈ definitions, Bare named.1
  properties : ∀ s ∈ definitions.standings, ∀ part ∈ s.definition.parts,
    ∀ name ∈ part.step.name?, Bare name

instance (definitions : Definitions) : Decidable definitions.SlashFree :=
  decidable_of_iff ((∀ named ∈ definitions, Bare named.1) ∧ ∀ s ∈ definitions.standings,
      ∀ part ∈ s.definition.parts, ∀ name ∈ part.step.name?, Bare name)
    ⟨fun h => ⟨h.1, h.2⟩, fun h => ⟨h.names, h.properties⟩⟩

namespace Step

theorem words_ne_nil (step : Step) : step.words ≠ [] := by cases step <;> simp [words]

/-- A segment is the words of its step, each after a slash. -/
theorem segment_eq (step : Step) : step.segment = "/" ++ "/".intercalate step.words := by
  cases step with
  | items => rfl
  | property name => simp [segment, words]
  | alternative index =>
    simp only [segment, words, String.intercalate_cons_cons, String.intercalate_singleton]
    rw [← String.append_assoc, ← String.append_assoc]
    rfl

theorem bare_toString (index : Nat) : Bare (toString index) := by
  intro h
  rw [Nat.toString_eq_ofList_toDigits, String.toList_ofList] at h
  simpa using Nat.isDigit_of_mem_toDigits (by decide) (by decide) h

theorem toString_inj {index other : Nat} (h : toString index = toString other) : index = other := by
  have digits : Nat.toDigits 10 index = Nat.toDigits 10 other := by
    rwa [Nat.toString_eq_ofList_toDigits, Nat.toString_eq_ofList_toDigits, String.ofList_inj] at h
  calc
    index = Nat.ofDigitChars 10 (Nat.toDigits 10 index) 0 := Nat.ofDigitChars_ten_toDigits.symm
    _ = Nat.ofDigitChars 10 (Nat.toDigits 10 other) 0 := by rw [digits]
    _ = other := Nat.ofDigitChars_ten_toDigits

end Step

namespace Place

theorem words_child (place : Place) (step : Step) :
    (place.child step).words = place.words ++ step.words := by
  simp [words]

theorem words_ne_nil (place : Place) : place.words ≠ [] := by simp [words]

/-- Slash-free words are read back from their joined text. -/
theorem splitOn_intercalate {words : List String} (bare : ∀ word ∈ words, Bare word)
    (ne : words ≠ []) : ("/".intercalate words).toList.splitOn '/' = words.map String.toList := by
  rw [String.toList_intercalate]
  apply List.splitOn_intercalate
  · rw [List.forall_mem_map]
    exact bare
  · simpa using ne

end Place

namespace Definition

theorem idOr_of_unidentified {d : Definition} (h : d.identified = false) (path : String) :
    d.idOr path = path := by
  cases d with
  | reference text => rfl
  | schema kind details items properties oneOf =>
    unfold idOr
    unfold identified at h
    cases hid : details.id with
    | none => simp [hid]
    | some id =>
      have blank : id = "" := by simpa [hid] using h
      simp [hid, blank]

/-- The kind of a schema tells which steps lead to its parts, and so where the words of one end. -/
theorem step_eq_of_words {d : Definition} {p q : Part} (hp : p ∈ d.parts) (hq : q ∈ d.parts)
    {after after' : List String} (same : p.step.words ++ after = q.step.words ++ after') :
    p.step = q.step ∧ after = after' := by
  cases d with
  | reference text => cases hp
  | schema kind details items properties oneOf =>
    cases kind with
    | scalar kind => cases hp
    | array =>
      cases items with
      | none => cases hp
      | some child =>
        cases List.mem_singleton.mp hp
        cases List.mem_singleton.mp hq
        exact ⟨rfl, List.append_cancel_left same⟩
    | object =>
      obtain ⟨_, name, _, _, -, rfl⟩ := mem_propertyParts.mp hp
      obtain ⟨_, name', _, _, -, rfl⟩ := mem_propertyParts.mp hq
      obtain ⟨rfl, rest⟩ := List.cons.inj same
      exact ⟨rfl, rest⟩
    | composed =>
      rw [parts, alternativeParts_eq, List.mem_map] at hp hq
      obtain ⟨⟨_, index⟩, -, rfl⟩ := hp
      obtain ⟨⟨_, index'⟩, -, rfl⟩ := hq
      obtain ⟨-, same⟩ := List.cons.inj same
      obtain ⟨number, rest⟩ := List.cons.inj same
      cases Step.toString_inj number
      exact ⟨rfl, rest⟩

end Definition

namespace Standing

/-- What is live in a standing adds words to those of its place, unless it is the standing itself. -/
theorem words_of_mem_parts {u part t : Standing} (hpart : part ∈ u.parts) (ht : t ∈ part.inner) :
    ∃ p ∈ u.definition.parts, ∃ after, part = p.standing u.place u.id u.kept ∧
      t.place.words = u.place.words ++ (p.step.words ++ after) := by
  obtain ⟨p, hp, rfl⟩ := List.mem_map.mp hpart
  obtain ⟨tail, htail⟩ := place_of_mem_inner _ ht
  refine ⟨p, hp, tail.flatMap Step.words, rfl, ?_⟩
  rw [htail]
  simp [Place.words, Part.standing]

theorem eq_of_words {u s t : Standing}
    (steps : ∀ v ∈ u.inner, (v.definition.parts.map (·.step)).Nodup)
    (hs : s ∈ u.inner) (ht : t ∈ u.inner) (same : s.place.words = t.place.words) : s = t := by
  induction u using induction with
  | step u ih =>
    rcases mem_inner_iff.mp hs with hsu | ⟨part, hpart, hs'⟩ <;>
      rcases mem_inner_iff.mp ht with htu | ⟨part', hpart', ht'⟩
    · rw [hsu, htu]
    · obtain ⟨p, -, after, -, hwords⟩ := words_of_mem_parts hpart' ht'
      rw [hsu, hwords, List.self_eq_append_right, List.append_eq_nil_iff] at same
      exact absurd same.1 p.step.words_ne_nil
    · obtain ⟨p, -, after, -, hwords⟩ := words_of_mem_parts hpart hs'
      rw [htu, hwords, List.append_right_eq_self, List.append_eq_nil_iff] at same
      exact absurd same.1 p.step.words_ne_nil
    · obtain ⟨p, hp, after, rfl, hwords⟩ := words_of_mem_parts hpart hs'
      obtain ⟨q, hq, after', rfl, hwords'⟩ := words_of_mem_parts hpart' ht'
      have tails := same
      rw [hwords, hwords', List.append_cancel_left_eq] at tails
      obtain ⟨step, -⟩ := Definition.step_eq_of_words hp hq tails
      cases List.inj_on_of_nodup_map (steps u (self_mem_inner u)) hp hq step
      exact ih _ hpart (fun v hv => steps v (mem_inner_iff.mpr (.inr ⟨_, hpart, hv⟩))) hs' ht'

end Standing

namespace Definitions
variable {definitions : Definitions}

theorem id_eq (unidentified : definitions.Unidentified) {s : Standing}
    (hs : s ∈ definitions.standings) : s.id = "/".intercalate s.place.words := by
  refine standings_induction (motive := fun s => s.id = "/".intercalate s.place.words)
    (fun named hnamed => ?_) (fun s hs ih p hp => ?_) hs
  · have own : named.2.identified = false := unidentified _ (top_mem_standings hnamed)
    change named.2.idOr named.1 = _
    rw [Definition.idOr_of_unidentified own]
    simp [Standing.top, Place.words, Place.registered, Root.name]
  · have own : p.definition.identified = false :=
      unidentified _ (part_mem_standings hs (List.mem_map_of_mem hp))
    have joined := String.intercalate_append_of_ne_nil (s := "/") s.place.words_ne_nil
      p.step.words_ne_nil
    change p.definition.idOr (s.id ++ p.step.segment) =
      "/".intercalate (s.place.child p.step).words
    rw [Definition.idOr_of_unidentified own, ih, Step.segment_eq, Place.words_child, joined,
      String.append_assoc]

theorem bare_words (bare : definitions.SlashFree) {s : Standing}
    (hs : s ∈ definitions.standings) : ∀ word ∈ s.place.words, Bare word := by
  refine standings_induction (motive := fun s => ∀ word ∈ s.place.words, Bare word)
    (fun named hnamed => ?_) (fun s hs ih p hp => ?_) hs
  · simpa [Standing.top, Place.words, Place.registered, Root.name] using bare.names named hnamed
  · change ∀ word ∈ (s.place.child p.step).words, Bare word
    rw [Place.words_child, List.forall_mem_append]
    refine ⟨ih, ?_⟩
    cases hstep : p.step with
    | items => simp [Step.words, Bare]
    | property name => simpa [Step.words] using bare.properties s hs p hp name (by simp [hstep, Step.name?])
    | alternative index => simpa [Step.words, Bare] using Step.bare_toString index

/-- Slash-free identifiers tell what stands where. -/
theorem Distinct.eq_of_id (distinct : definitions.Distinct)
    (unidentified : definitions.Unidentified) (bare : definitions.SlashFree) {s t : Standing}
    (hs : s ∈ definitions.standings) (ht : t ∈ definitions.standings) (same : s.id = t.id) :
    s = t := by
  have words : s.place.words = t.place.words := by
    have split := congrArg (fun id => id.toList.splitOn '/') same
    simp only [id_eq unidentified hs, id_eq unidentified ht,
      Place.splitOn_intercalate (bare_words bare hs) s.place.words_ne_nil,
      Place.splitOn_intercalate (bare_words bare ht) t.place.words_ne_nil] at split
    exact List.map_injective_iff.mpr (fun _ _ => String.toList_inj.mp) split
  obtain ⟨named, hnamed, hs⟩ := mem_standings_iff.mp hs
  obtain ⟨named', hnamed', ht⟩ := mem_standings_iff.mp ht
  obtain ⟨tail, htail⟩ := Standing.place_of_mem_inner _ hs
  obtain ⟨tail', htail'⟩ := Standing.place_of_mem_inner _ ht
  have roots : named.1 = named'.1 := by
    rw [htail, htail'] at words
    exact (List.cons.inj words).1
  cases List.inj_on_of_nodup_map distinct.names hnamed hnamed' roots
  refine Standing.eq_of_words (fun v hv => distinct.steps v ?_) hs ht words
  exact mem_standings_iff.mpr ⟨named, hnamed, hv⟩

end Definitions
end SchemaTables
