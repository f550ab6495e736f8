import SchemaTables.Proofs.Grammar
import SchemaTables.Proofs.Stages

/-!
# What a configuration is read as

`Gives` says which values are configurations and what they give, and `Refuses` which check any other
value fails first and with which words, both without reading anything. A configuration is accepted with
its selection tidied. Neither accepted nor reported are an output that cannot be seen from its file,
because it is no path, and an unknown key that is too long an integer to be written out.
-/
namespace SchemaTables

namespace Blank

theorem trimChars_of_ends {cs : List Char} (first : ∀ c ∈ cs.head?, isBlank c = false)
    (last : ∀ c ∈ cs.getLast?, isBlank c = false) : trimChars cs = cs := by
  have reversed : trimStart cs.reverse = cs.reverse :=
    trimStart_of_head (by simpa [List.head?_reverse] using last)
  rw [trimChars, trimStart_of_head first, trimEnd, reversed, List.reverse_reverse]

theorem head_trimChars (cs : List Char) : ∀ c ∈ (trimChars cs).head?, isBlank c = false := by
  rw [← trimStart_trimChars]
  exact head_trimStart _

theorem last_trimChars (cs : List Char) : ∀ c ∈ (trimChars cs).getLast?, isBlank c = false := by
  intro c last
  rw [← trimEnd_trimChars, trimEnd, List.getLast?_reverse] at last
  exact head_trimStart _ c last

end Blank

theorem bind_eq_error {ε β γ : Type} {first : Except ε β} {next : β → Except ε γ} {fault : ε} :
    (first >>= next) = .error fault ↔
      first = .error fault ∨ ∃ value, first = .ok value ∧ next value = .error fault := by
  cases first with
  | error other => simp [bind, Except.bind]
  | ok value => simp [bind, Except.bind]

namespace Configuration

/-- A name as a selection lists it: not empty, and without blanks at its ends. -/
structure Tidy (name : String) : Prop where
  nonempty : name ≠ ""
  first : ∀ c ∈ name.toList.head?, Blank.isBlank c = false
  last : ∀ c ∈ name.toList.getLast?, Blank.isBlank c = false

theorem Tidy.trim_eq {name : String} (tidy : Tidy name) : Blank.trim name = name := by
  rw [Blank.trim, Blank.trimChars_of_ends tidy.first tidy.last, String.ofList_toList]

theorem tidy_trim {name : String} (nonempty : Blank.trim name ≠ "") : Tidy (Blank.trim name) where
  nonempty := nonempty
  first := by
    rw [Blank.trim, String.toList_ofList]
    exact Blank.head_trimChars _
  last := by
    rw [Blank.trim, String.toList_ofList]
    exact Blank.last_trimChars _

/-- The names without the blanks around them, without those of which nothing is left, and each where it
occurs first. -/
def tidied (names : List String) : List String :=
  ((names.map Blank.trim).filter (· ≠ "")).eraseDups

theorem mem_tidied {names : List String} {name : String} :
    name ∈ tidied names ↔ name ≠ "" ∧ ∃ given ∈ names, Blank.trim given = name := by
  simp [tidied, and_comm]

theorem tidy_of_mem {names : List String} {name : String} (listed : name ∈ tidied names) :
    Tidy name := by
  obtain ⟨nonempty, given, -, rfl⟩ := mem_tidied.mp listed
  exact tidy_trim nonempty

/-- One more name is added at the end, unless it is blank or there already. -/
theorem addName_tidied (names : List String) (name : String) :
    addName (tidied names) name = tidied (names ++ [name]) := by
  have split : (names ++ [name]).map Blank.trim = names.map Blank.trim ++ [Blank.trim name] := by simp
  unfold addName tidied
  rw [split, List.filter_append, List.eraseDups_append]
  generalize (names.map Blank.trim).filter (· ≠ "") = kept
  by_cases blank : Blank.trim name = ""
  · simp [blank, List.removeAll]
  · by_cases there : Blank.trim name ∈ kept
    · simp [blank, there, List.removeAll]
    · simp [blank, there, List.removeAll, List.eraseDups_cons]

theorem foldl_addName (names : List String) : names.foldl addName [] = tidied names := by
  induction names using List.reverseRecOn with
  | nil => rfl
  | append_singleton names name ih => rw [List.foldl_concat, ih, addName_tidied]

example : tidied ["b", " a", "  ", "a\t", "b"] = ["b", "a"] := by decide

theorem nodup_tidied (names : List String) : (tidied names).Nodup := by
  induction names using List.reverseRecOn with
  | nil => exact List.nodup_nil
  | append_singleton names name ih =>
    rw [← addName_tidied]
    exact addName_nodup ih name

/-- The selection that names become: the law of it, and what follows from the law. -/
structure Selects (given selection : List String) : Prop where
  tidied : selection = tidied given
  distinct : selection.Nodup
  tidy : ∀ name ∈ selection, Tidy name
  complete : ∀ name ∈ given, Blank.trim name ≠ "" → Blank.trim name ∈ selection

theorem selects (given : List String) : Selects given (tidied given) where
  tidied := rfl
  distinct := nodup_tidied given
  tidy _ := tidy_of_mem
  complete name listed nonempty := mem_tidied.mpr ⟨nonempty, name, listed, rfl⟩

theorem eraseDups_of_nodup {names : List String} (distinct : names.Nodup) :
    names.eraseDups = names := by
  induction names with
  | nil => simp
  | cons name rest ih =>
    obtain ⟨fresh, distinct⟩ := List.nodup_cons.mp distinct
    have apart : rest.filter (fun other => !other == name) = rest := by
      rw [List.filter_eq_self]
      intro other listed
      have different : other ≠ name := fun same => fresh (same ▸ listed)
      simpa using different
    rw [List.eraseDups_cons, apart, ih distinct]

/-- A tidied selection stays as it is. -/
theorem tidied_tidied (names : List String) : tidied (tidied names) = tidied names := by
  have trimmed : (tidied names).map Blank.trim = tidied names := by
    rw [List.map_congr_left fun name listed => (tidy_of_mem listed).trim_eq, List.map_id']
  have nonempty : (tidied names).filter (· ≠ "") = tidied names := by
    rw [List.filter_eq_self]
    intro name listed
    simpa using (tidy_of_mem listed).nonempty
  rw [tidied, trimmed, nonempty, eraseDups_of_nodup (nodup_tidied names)]

/-- The keys that a configuration may have. -/
def Known (key : Value) : Prop := ∃ name ∈ knownKeys, key = .text name

theorem isKnown_iff {key : Value} : isKnown key = true ↔ Known key := by
  simp [isKnown, Known, Document.sameKey_text_iff]

instance (key : Value) : Decidable (Known key) := decidable_of_iff _ isKnown_iff

/-- What a configuration gives: whether to show descriptions, the names to select, and the output, all
as they stand there. -/
structure Given where
  descriptions : Bool
  names : List String
  output : Option String

inductive GivesDescriptions : Option Value → Bool → Prop
  | absent : GivesDescriptions none true
  | truth (value : Bool) : GivesDescriptions (some (.bool value)) value

inductive GivesNames : Value → List String → Prop
  | absent : GivesNames .null []
  | one (name : String) : GivesNames (.text name) [name]
  | several {value : Value} {names : List String}
      (sequence : value.sequence? = some (names.map .text)) : GivesNames value names

inductive GivesOutput : Value → Option String → Prop
  | absent : GivesOutput .null none
  | text (output : String) : GivesOutput (.text output) (some output)

section
open Value (field field?)

inductive Gives : Value → Given → Prop
  | nothing : Gives .null ⟨true, [], none⟩
  | mapping {fields : List (Value × Value)} {given : Given}
      (known : ∀ entry ∈ fields, Known entry.1)
      (descriptions : GivesDescriptions (field? "description" fields) given.descriptions)
      (names : GivesNames (field "selection" fields) given.names)
      (output : GivesOutput (field "output" fields) given.output) : Gives (.map fields) given

/-- What is wrong with a value that is no configuration: the first that is, in this order. -/
inductive Refuses : Value → (message : String) → Prop
  | root {value : Value} (something : value ≠ .null) (other : ∀ fields, value ≠ .map fields) :
      Refuses value "Configuration root must be a mapping."
  | unknown {fields : List (Value × Value)} {keys : List String} (some : keys ≠ [])
      (told : ∀ entry ∈ fields, ¬ Known entry.1 → entry.1.isTold)
      (all : keys.Perm ((fields.filter fun entry => ¬ Known entry.1).map (·.1.display)))
      (sorted : keys.Pairwise (· ≤ ·)) :
      Refuses (.map fields) ("Unknown configuration keys: " ++ ", ".intercalate keys)
  | descriptions {fields : List (Value × Value)} (known : ∀ entry ∈ fields, Known entry.1)
      (wrong : ∀ value, ¬ GivesDescriptions (field? "description" fields) value) :
      Refuses (.map fields) "description must be true or false."
  | entry {fields : List (Value × Value)} {shown : Bool} {items : List Value}
      (known : ∀ entry ∈ fields, Known entry.1)
      (descriptions : GivesDescriptions (field? "description" fields) shown)
      (sequence : (field "selection" fields).sequence? = some items)
      (wrong : ∃ item ∈ items, ∀ text, item ≠ .text text) :
      Refuses (.map fields) "selection entries must be strings."
  | selection {fields : List (Value × Value)} {shown : Bool}
      (known : ∀ entry ∈ fields, Known entry.1)
      (descriptions : GivesDescriptions (field? "description" fields) shown)
      (something : field "selection" fields ≠ .null)
      (other : ∀ text, field "selection" fields ≠ .text text)
      (wrong : (field "selection" fields).sequence? = none) :
      Refuses (.map fields) "selection must be a string or list of strings."
  | output {fields : List (Value × Value)} {shown : Bool} {names : List String}
      (known : ∀ entry ∈ fields, Known entry.1)
      (descriptions : GivesDescriptions (field? "description" fields) shown)
      (selection : GivesNames (field "selection" fields) names)
      (wrong : ∀ value, ¬ GivesOutput (field "output" fields) value) :
      Refuses (.map fields) "output must be a string."

end

/-- The output without the blanks around it; one that is blank is none. -/
def tidyOutput (output : Option String) : Option String :=
  (output.map Blank.trim).filter (· ≠ "")

def Given.statement (given : Given) : Statement :=
  ⟨given.descriptions, tidied given.names, tidyOutput given.output⟩

theorem descriptions_of_gives {value : Option Value} {shown : Bool}
    (gives : GivesDescriptions value shown) : descriptions value = .ok shown := by
  cases gives <;> rfl

theorem descriptions_of_wrong {value : Option Value}
    (wrong : ∀ shown, ¬ GivesDescriptions value shown) :
    descriptions value = .error .descriptionNotBoolean := by
  unfold descriptions
  split
  · exact absurd .absent (wrong true)
  · next shown => exact absurd (.truth shown) (wrong shown)
  · rfl

theorem entryTexts_texts (names : List String) : entryTexts (names.map .text) = .ok names := by
  induction names with
  | nil => rfl
  | cons name rest ih => simp [entryTexts, ih, Except.map]

/-- The entries of a sequence are texts, or one of them is not. -/
theorem entryTexts_cases (items : List Value) :
    (∃ names : List String, items = names.map .text) ∨
      (∃ item ∈ items, ∀ text, item ≠ .text text) ∧
        entryTexts items = .error .selectionEntryNotText := by
  fun_induction entryTexts items with
  | case1 => exact .inl ⟨[], rfl⟩
  | case2 text rest ih =>
    rcases ih with ⟨names, same⟩ | ⟨⟨item, listed, other⟩, failed⟩
    · exact .inl ⟨text :: names, by simp [same]⟩
    · exact .inr ⟨⟨item, List.mem_cons_of_mem _ listed, other⟩, by rw [failed]; rfl⟩
  | case3 item rest other => exact .inr ⟨⟨item, by simp, other⟩, rfl⟩

theorem selection_of_sequence {value : Value} {items : List Value}
    (sequence : value.sequence? = some items) :
    selection value = (entryTexts items).map (·.foldl addName []) := by
  unfold selection
  split
  · cases sequence
  · cases sequence
  · rw [sequence]

theorem selection_of_gives {value : Value} {names : List String} (gives : GivesNames value names) :
    selection value = .ok (tidied names) := by
  cases gives with
  | absent => rfl
  | one name => rw [← foldl_addName]; rfl
  | several sequence =>
    rw [selection_of_sequence sequence, entryTexts_texts, Except.map, foldl_addName]

theorem selection_of_entry {value : Value} {items : List Value}
    (sequence : value.sequence? = some items) (wrong : ∃ item ∈ items, ∀ text, item ≠ .text text) :
    selection value = .error .selectionEntryNotText := by
  have failed : entryTexts items = .error .selectionEntryNotText := by
    rcases entryTexts_cases items with ⟨names, same⟩ | ⟨-, failed⟩
    · obtain ⟨item, listed, other⟩ := wrong
      rw [same] at listed
      obtain ⟨name, -, text⟩ := List.mem_map.mp listed
      exact absurd text.symm (other name)
    · exact failed
  rw [selection_of_sequence sequence, failed, Except.map]

theorem selection_of_wrong {value : Value} (something : value ≠ .null)
    (other : ∀ text, value ≠ .text text) (wrong : value.sequence? = none) :
    selection value = .error .selectionNotList := by
  unfold selection
  split
  · exact absurd rfl something
  · next text => exact absurd rfl (other text)
  · rw [wrong]

theorem output_of_gives {value : Value} {given : Option String} (gives : GivesOutput value given) :
    output value = .ok (tidyOutput given) := by
  cases gives with
  | absent => rfl
  | text given =>
    by_cases blank : Blank.trim given = "" <;> simp [output, tidyOutput, blank, Option.filter]

theorem output_of_wrong {value : Value} (wrong : ∀ given, ¬ GivesOutput value given) :
    output value = .error .outputNotText := by
  unfold output
  split
  · exact absurd .absent (wrong none)
  · next text => exact absurd (.text text) (wrong (some text))
  · rfl

theorem unknownKeys_eq (fields : List (Value × Value)) :
    unknownKeys fields = (fields.filter fun entry => ¬ Known entry.1).map (·.1) := by
  unfold unknownKeys
  rw [List.filter_map]
  congr 1
  refine List.filter_congr fun entry _ => ?_
  simp [← isKnown_iff]

theorem mem_unknownKeys {fields : List (Value × Value)} {key : Value} :
    key ∈ unknownKeys fields ↔ ∃ entry ∈ fields, ¬ Known entry.1 ∧ entry.1 = key := by
  simp [unknownKeys_eq]

theorem unknownKeys_eq_nil {fields : List (Value × Value)} :
    unknownKeys fields = [] ↔ ∀ entry ∈ fields, Known entry.1 := by
  simp [unknownKeys_eq]

theorem sortTexts_unknownKeys_perm (fields : List (Value × Value)) :
    (sortTexts ((unknownKeys fields).map Value.display)).Perm
      ((fields.filter fun entry => ¬ Known entry.1).map (·.1.display)) := by
  refine (sortTexts_perm _).trans (.of_eq ?_)
  rw [unknownKeys_eq, List.map_map]
  rfl

/-- The names of the unknown keys are all of them, in the one order. -/
theorem eq_sortTexts {fields : List (Value × Value)} {keys : List String}
    (all : keys.Perm ((fields.filter fun entry => ¬ Known entry.1).map (·.1.display)))
    (sorted : keys.Pairwise (· ≤ ·)) :
    keys = sortTexts ((unknownKeys fields).map Value.display) := by
  have perm := all.trans (sortTexts_unknownKeys_perm fields).symm
  exact perm.eq_of_pairwise (fun _ _ _ _ => String.le_antisymm) sorted (sortTexts_sorted _)

theorem told_iff {fields : List (Value × Value)} : (∀ key ∈ unknownKeys fields, key.isTold) ↔
    ∀ entry ∈ fields, ¬ Known entry.1 → entry.1.isTold := by
  refine ⟨fun told entry listed unknown => ?_, fun told key inside => ?_⟩
  · exact told _ (mem_unknownKeys.mpr ⟨entry, listed, unknown, rfl⟩)
  · obtain ⟨entry, listed, unknown, same⟩ := mem_unknownKeys.mp inside
    rw [← same]
    exact told entry listed unknown

/-- A mapping with an unknown key that cannot be written out. -/
def HasUntold (value : Value) : Prop :=
  ∃ fields, value = .map fields ∧ ∃ entry ∈ fields, ¬ Known entry.1 ∧ ¬ entry.1.isTold

theorem ofValue_of_hasUntold {value : Value} (untold : HasUntold value) :
    ofValue value = .error .untoldKey := by
  obtain ⟨fields, rfl, entry, listed, unknown, untold⟩ := untold
  exact ofFields_of_untold (mem_unknownKeys.mpr ⟨entry, listed, unknown, rfl⟩) untold

theorem ofValue_of_gives {value : Value} {given : Given} (gives : Gives value given) :
    ofValue value = .ok given.statement := by
  cases gives with
  | nothing => rfl
  | mapping known descriptions names output =>
    rw [ofValue, ofFields_of_known (unknownKeys_eq_nil.mpr known), descriptions_of_gives descriptions,
      selection_of_gives names, output_of_gives output]
    rfl

/-- A value is refused with the words of the first check that it fails. -/
theorem ofValue_of_refuses {value : Value} {message : String} (refuses : Refuses value message) :
    ∃ fault, ofValue value = .error fault ∧ (RunFault.configuration fault).isReported ∧
      fault.message = message := by
  cases refuses with
  | root something other =>
    refine ⟨.rootNotMapping, ?_, rfl, rfl⟩
    unfold ofValue
    split
    · exact absurd rfl something
    · next fields => exact absurd rfl (other fields)
    · rfl
  | @unknown fields keys some told all sorted =>
    obtain rfl := eq_sortTexts all sorted
    have filled : unknownKeys fields ≠ [] := by
      intro none
      rw [none] at some
      exact some rfl
    exact ⟨_, ofFields_of_unknown (told_iff.mpr told) filled, rfl, rfl⟩
  | descriptions known wrong =>
    refine ⟨.descriptionNotBoolean, ?_, rfl, rfl⟩
    rw [ofValue, ofFields_of_known (unknownKeys_eq_nil.mpr known), descriptions_of_wrong wrong]
    rfl
  | entry known descriptions sequence wrong =>
    refine ⟨.selectionEntryNotText, ?_, rfl, rfl⟩
    rw [ofValue, ofFields_of_known (unknownKeys_eq_nil.mpr known), descriptions_of_gives descriptions,
      selection_of_entry sequence wrong]
    rfl
  | selection known descriptions something other wrong =>
    refine ⟨.selectionNotList, ?_, rfl, rfl⟩
    rw [ofValue, ofFields_of_known (unknownKeys_eq_nil.mpr known), descriptions_of_gives descriptions,
      selection_of_wrong something other wrong]
    rfl
  | output known descriptions selection wrong =>
    refine ⟨.outputNotText, ?_, rfl, rfl⟩
    rw [ofValue, ofFields_of_known (unknownKeys_eq_nil.mpr known), descriptions_of_gives descriptions,
      selection_of_gives selection, output_of_wrong wrong]
    rfl

/-- A selection names its names, has an entry that is no text, or is no sequence. -/
theorem names_cases (value : Value) : (∃ names, GivesNames value names) ∨
    (∃ items, value.sequence? = some items ∧ ∃ item ∈ items, ∀ text, item ≠ .text text) ∨
    (value ≠ .null ∧ (∀ text, value ≠ .text text) ∧ value.sequence? = none) := by
  cases sequence : value.sequence? with
  | some items =>
    rcases entryTexts_cases items with ⟨names, rfl⟩ | ⟨wrong, -⟩
    · exact .inl ⟨names, .several sequence⟩
    · exact .inr (.inl ⟨items, rfl, wrong⟩)
  | none =>
    by_cases something : value = .null
    · exact .inl ⟨[], something ▸ .absent⟩
    · by_cases text : ∃ text, value = .text text
      · obtain ⟨text, rfl⟩ := text
        exact .inl ⟨[text], .one text⟩
      · exact .inr (.inr ⟨something, not_exists.mp text, rfl⟩)

/-- There is no value that is none of these. -/
theorem gives_or_refuses (value : Value) :
    (∃ given, Gives value given) ∨ (∃ message, Refuses value message) ∨ HasUntold value := by
  by_cases nothing : value = .null
  case pos => exact .inl ⟨⟨true, [], none⟩, nothing ▸ .nothing⟩
  by_cases root : ∃ fields, value = .map fields
  case neg => exact .inr (.inl ⟨_, .root nothing (not_exists.mp root)⟩)
  obtain ⟨fields, rfl⟩ := root
  by_cases known : ∀ entry ∈ fields, Known entry.1
  case neg =>
    by_cases told : ∀ entry ∈ fields, ¬ Known entry.1 → entry.1.isTold
    case neg =>
      simp only [not_forall] at told
      obtain ⟨entry, listed, unknown, untold⟩ := told
      exact .inr (.inr ⟨fields, rfl, entry, listed, unknown, untold⟩)
    have all := sortTexts_unknownKeys_perm fields
    have some : sortTexts ((unknownKeys fields).map Value.display) ≠ [] := by
      intro none
      rw [none, List.nil_perm, List.map_eq_nil_iff, List.filter_eq_nil_iff] at all
      simp only [decide_eq_true_eq, not_not] at all
      exact known all
    exact .inr (.inl ⟨_, .unknown some told all (sortTexts_sorted _)⟩)
  by_cases shown : ∃ shown, GivesDescriptions (Value.field? "description" fields) shown
  case neg => exact .inr (.inl ⟨_, .descriptions known (not_exists.mp shown)⟩)
  obtain ⟨shown, descriptions⟩ := shown
  rcases names_cases (Value.field "selection" fields) with
    ⟨names, selection⟩ | ⟨items, sequence, wrong⟩ | ⟨something, other, wrong⟩
  · by_cases path : ∃ path, GivesOutput (Value.field "output" fields) path
    · obtain ⟨path, output⟩ := path
      exact .inl ⟨⟨shown, names, path⟩, .mapping known descriptions selection output⟩
    · exact .inr (.inl ⟨_, .output known descriptions selection (not_exists.mp path)⟩)
  · exact .inr (.inl ⟨_, .entry known descriptions sequence wrong⟩)
  · exact .inr (.inl ⟨_, .selection known descriptions something other wrong⟩)

/-- A run reports whatever a configuration states wrongly, unless it cannot tell a key. -/
theorem reported_of_ofValue {value : Value} {fault : ConfigurationFault}
    (failed : ofValue value = .error fault) :
    (RunFault.configuration fault).isReported ∨ HasUntold value := by
  rcases gives_or_refuses value with ⟨given, gives⟩ | ⟨message, refuses⟩ | untold
  · cases failed.symm.trans (ofValue_of_gives gives)
  · obtain ⟨other, refused, reported, -⟩ := ofValue_of_refuses refuses
    cases failed.symm.trans refused
    exact .inl reported
  · exact .inr untold

/-- Why an output that is seen from the directory of its file is no path, if it is none. -/
def outputFlaw? (file : FilePath) (text : String) : Option NameFlaw :=
  if (FilePath.ofText text).isAbsolute then none
  else (file.parent.under (.ofText text)).firstFlaw?

theorem outputFlaw?_eq_some_iff {file : FilePath} {text : String} {flaw : NameFlaw} :
    outputFlaw? file text = some flaw ↔ (FilePath.ofText text).isAbsolute = false ∧
      (file.parent.under (.ofText text)).firstFlaw? = some flaw := by
  unfold outputFlaw?
  cases (FilePath.ofText text).isAbsolute with
  | true => simp
  | false => simp

theorem outputPath_eq_error_iff {working file : FilePath} {text : String}
    {fault : ConfigurationFault} : outputPath working file text = .error fault ↔
      ∃ flaw, outputFlaw? file text = some flaw ∧ fault = .outputUnreachable flaw := by
  unfold outputPath outputFlaw?
  dsimp only
  cases (FilePath.ofText text).isAbsolute with
  | true => simp
  | false =>
    cases (file.parent.under (.ofText text)).firstFlaw? with
    | none => simp
    | some flaw => simp [eq_comm]

/-- Only an output that is no path cannot be placed. -/
theorem settings_eq_error_iff {working file : FilePath} {statement : Statement}
    {fault : ConfigurationFault} : settings working file statement = .error fault ↔
      ∃ text flaw, statement.output = some text ∧ outputFlaw? file text = some flaw ∧
        fault = .outputUnreachable flaw := by
  unfold settings
  cases statement.output with
  | none => exact iff_of_false nofun nofun
  | some text =>
    have stated : (∃ other flaw, some text = some other ∧ outputFlaw? file other = some flaw ∧
        fault = .outputUnreachable flaw) ↔ outputPath working file text = .error fault := by
      simp [outputPath_eq_error_iff]
    rw [stated, Option.mapM_some]
    cases outputPath working file text with
    | error other => simp [bind, Except.bind, Functor.map, Except.map]
    | ok path => simp [bind, Except.bind, Functor.map, Except.map, pure, Except.pure]

/-- A given output that is no path, seen from the directory of the configuration. -/
def Unplaced (path : FilePath) (given : Given) : Prop :=
  ∃ text flaw, tidyOutput given.output = some text ∧ (FilePath.ofText text).isAbsolute = false ∧
    (path.parent.under (.ofText text)).firstFlaw? = some flaw

variable {working path : FilePath} {value : Value} {given : Given}

theorem read_of_gives (gives : Gives value given) :
    read working path value = settings working path given.statement := by
  rw [read, ofValue_of_gives gives]
  rfl

theorem read_of_refuses (working path : FilePath) {message : String}
    (refuses : Refuses value message) : ∃ fault, read working path value = .error fault ∧
      (RunFault.configuration fault).isReported ∧ fault.message = message := by
  obtain ⟨fault, failed, reported, same⟩ := ofValue_of_refuses refuses
  have read : read working path value = .error fault := by
    rw [Configuration.read, failed]
    rfl
  exact ⟨fault, read, reported, same⟩

theorem read_of_hasUntold (working path : FilePath) (untold : HasUntold value) :
    read working path value = .error .untoldKey := by
  rw [Configuration.read, ofValue_of_hasUntold untold]
  rfl

theorem read_fails_iff (working : FilePath) (gives : Gives value given) :
    (∃ fault, read working path value = .error fault) ↔ Unplaced path given := by
  rw [read_of_gives gives]
  simp only [settings_eq_error_iff, outputFlaw?_eq_some_iff]
  refine ⟨fun ⟨_, text, flaw, output, flawed, _⟩ => ⟨text, flaw, output, flawed⟩, ?_⟩
  exact fun ⟨text, flaw, output, flawed⟩ => ⟨_, text, flaw, output, flawed, rfl⟩

theorem unreported_of_fails {fault : ConfigurationFault} (gives : Gives value given)
    (failed : read working path value = .error fault) :
    (RunFault.configuration fault).isReported = false := by
  rw [read_of_gives gives] at failed
  obtain ⟨text, flaw, -, -, rfl⟩ := settings_eq_error_iff.mp failed
  rfl

/-- The configuration of nothing but a selection. -/
def ofSelection (names : List String) : Value :=
  .map [(.text "selection", .list (names.map .text))]

theorem gives_ofSelection (names : List String) : Gives (ofSelection names) ⟨true, names, none⟩ := by
  refine .mapping ?_ .absent (.several rfl) .absent
  intro entry listed
  obtain rfl := List.mem_singleton.mp listed
  exact ⟨"selection", by decide, rfl⟩

theorem read_ofSelection (working path : FilePath) (names : List String) :
    read working path (ofSelection names) = .ok ⟨true, tidied names, none⟩ := by
  rw [read_of_gives (gives_ofSelection names)]
  rfl

/-- What becomes of a value that is read as a configuration: it is accepted, refused with the words of
one check, or neither. -/
structure Reads (working path : FilePath) (value : Value) : Prop where
  accepts : (∃ settings, read working path value = .ok settings) ↔
    ∃ given, Gives value given ∧ ¬ Unplaced path given
  refuses : ∀ message, (∃ fault, read working path value = .error fault ∧
      (RunFault.configuration fault).isReported ∧ fault.message = message) ↔ Refuses value message
  escapes : (∃ fault, read working path value = .error fault ∧
      (RunFault.configuration fault).isReported = false) ↔
    HasUntold value ∨ ∃ given, Gives value given ∧ Unplaced path given
  states : ∀ {given settings}, Gives value given → read working path value = .ok settings →
    settings.descriptions = given.descriptions ∧ Selects given.names settings.selection ∧
      settings.output = (tidyOutput given.output).map (located working path)
  settled : ∀ {settings}, read working path value = .ok settings →
    (∀ working path, read working path (ofSelection settings.selection) =
      .ok ⟨true, settings.selection, none⟩) ∧
    ∀ {fields working path others}, read working path (.map fields) = .ok others →
      Value.field "selection" fields = .list (settings.selection.map .text) →
      others.selection = settings.selection
  loads : ∀ {disk : Disk}, disk.answer (YamlFile.load .configuration path) = .ok value →
    disk.answer (load path) = read ⟨.slash, disk.working⟩ path value

/-- A value that is accepted gives its settings. -/
theorem gives_of_read {settings : Settings} (accepted : read working path value = .ok settings) :
    ∃ given, Gives value given ∧ settings = ⟨given.descriptions, tidied given.names,
      (tidyOutput given.output).map (located working path)⟩ := by
  rcases gives_or_refuses value with ⟨given, gives⟩ | ⟨message, refuses⟩ | untold
  · rw [read_of_gives gives] at accepted
    exact ⟨given, gives, settings_eq_located accepted⟩
  · obtain ⟨fault, failed, -⟩ := read_of_refuses working path refuses
    cases accepted.symm.trans failed
  · cases accepted.symm.trans (read_of_hasUntold working path untold)

theorem names_of_list {names given : List String} (gives : GivesNames (.list (names.map .text)) given) :
    given = names := by
  cases gives with
  | several sequence =>
    have injective : Function.Injective Value.text := fun _ _ same => Value.text.inj same
    exact List.map_injective_iff.mpr injective (Option.some.inj sequence).symm

theorem selection_of_list {fields : List (Value × Value)} {names : List String} {settings : Settings}
    (accepted : read working path (.map fields) = .ok settings)
    (list : Value.field "selection" fields = .list (names.map .text)) :
    settings.selection = tidied names := by
  obtain ⟨given, gives, rfl⟩ := gives_of_read accepted
  cases gives with
  | mapping known descriptions selection output =>
    rw [list] at selection
    show tidied given.names = tidied names
    rw [names_of_list selection]

theorem tidied_selection {settings : Settings} (accepted : read working path value = .ok settings) :
    tidied settings.selection = settings.selection := by
  obtain ⟨given, -, rfl⟩ := gives_of_read accepted
  exact tidied_tidied given.names

/-- A value is accepted just when it gives a configuration whose output can be seen from the file. -/
theorem accepts_iff : (∃ settings, read working path value = .ok settings) ↔
    ∃ given, Gives value given ∧ ¬ Unplaced path given := by
  constructor
  · intro ⟨settings, accepted⟩
    obtain ⟨given, gives, -⟩ := gives_of_read accepted
    refine ⟨given, gives, fun unplaced => ?_⟩
    obtain ⟨fault, failed⟩ := (read_fails_iff working gives).mpr unplaced
    cases accepted.symm.trans failed
  · intro ⟨given, gives, placed⟩
    cases outcome : read working path value with
    | ok settings => exact ⟨settings, rfl⟩
    | error fault => exact absurd ((read_fails_iff working gives).mp ⟨fault, outcome⟩) placed

/-- A value is refused with the words of the first check that it fails. -/
theorem refuses_iff {message : String} : (∃ fault, read working path value = .error fault ∧
    (RunFault.configuration fault).isReported ∧ fault.message = message) ↔ Refuses value message := by
  refine ⟨fun ⟨fault, failed, reported, said⟩ => ?_, read_of_refuses working path⟩
  rcases gives_or_refuses value with ⟨given, gives⟩ | ⟨message, refuses⟩ | untold
  · rw [unreported_of_fails gives failed] at reported
    cases reported
  · obtain ⟨other, refused, -, same⟩ := read_of_refuses working path refuses
    cases refused.symm.trans failed
    rwa [← said, same]
  · cases failed.symm.trans (read_of_hasUntold working path untold)
    cases reported

/-- Only an output that cannot be seen from the file and a key that cannot be written out are neither
accepted nor reported. -/
theorem escapes_iff : (∃ fault, read working path value = .error fault ∧
    (RunFault.configuration fault).isReported = false) ↔
    HasUntold value ∨ ∃ given, Gives value given ∧ Unplaced path given := by
  constructor
  · intro ⟨fault, failed, unreported⟩
    rcases gives_or_refuses value with ⟨given, gives⟩ | ⟨message, refuses⟩ | untold
    · exact .inr ⟨given, gives, (read_fails_iff working gives).mp ⟨fault, failed⟩⟩
    · obtain ⟨other, refused, reported, -⟩ := read_of_refuses working path refuses
      cases refused.symm.trans failed
      rw [reported] at unreported
      cases unreported
    · exact .inl untold
  · intro escapes
    rcases escapes with untold | ⟨given, gives, unplaced⟩
    · exact ⟨_, read_of_hasUntold working path untold, rfl⟩
    · obtain ⟨fault, failed⟩ := (read_fails_iff working gives).mpr unplaced
      exact ⟨fault, failed, unreported_of_fails gives failed⟩

/-- Every value is read so, from every file. -/
theorem reads_as_given (working path : FilePath) (value : Value) : Reads working path value where
  accepts := accepts_iff
  refuses _ := refuses_iff
  escapes := escapes_iff
  states gives accepted := by
    rw [read_of_gives gives] at accepted
    obtain rfl := settings_eq_located accepted
    exact ⟨rfl, selects _, rfl⟩
  settled accepted := by
    have settled := tidied_selection accepted
    constructor
    · intro working path
      rw [read_ofSelection, settled]
    · intro fields working path others accepted list
      rw [selection_of_list accepted list, settled]
  loads found := by
    rw [Disk.answer_loadConfiguration, found]
    rfl

/-- Not everything that gives a configuration is accepted. -/
theorem not_everyGiven_accepted : ¬ ∀ (working path : FilePath) (value : Value),
    (∃ given, Gives value given) → ∃ settings, read working path value = .ok settings := by
  intro accepted
  have gives : Gives (.map [(.text "output", .text "a\x00b")]) ⟨true, [], some "a\x00b"⟩ := by
    refine .mapping ?_ .absent .absent (.text _)
    intro entry listed
    obtain rfl := List.mem_singleton.mp listed
    exact ⟨"output", by decide, rfl⟩
  obtain ⟨settings, read⟩ := accepted ⟨.slash, ["work"]⟩ (.ofText "api2html.yaml") _ ⟨_, gives⟩
  have unplaced : Unplaced (.ofText "api2html.yaml") ⟨true, [], some "a\x00b"⟩ :=
    ⟨"a\x00b", .null, by decide, by decide, by decide⟩
  obtain ⟨fault, failed⟩ := (read_fails_iff ⟨.slash, ["work"]⟩ gives).mpr unplaced
  cases read.symm.trans failed

end Configuration
end SchemaTables
