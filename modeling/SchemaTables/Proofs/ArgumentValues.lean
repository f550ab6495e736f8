import SchemaTables.CommandLine.Invocation

/-!
# What is read from arguments was in them

Every value of an option is made of characters of the arguments, and every other argument is one of
them. So what keeps a path from being a name was in an argument.
-/
namespace SchemaTables

namespace NameFlaw

/-- The character without which a text does not have the flaw. -/
def sign : NameFlaw → Char
  | surrogate => Surrogate.mark
  | null => '\x00'

theorem null_mem_of_codes {cs : List Char} (coded : 0 ∈ Surrogate.codes cs) : '\x00' ∈ cs := by
  have zero : ∀ c : Char, 0 = c.toNat → c = '\x00' := by
    intro c number
    rw [← Char.ofNat_toNat c, ← number]
  fun_induction Surrogate.codes cs with
  | case1 => cases coded
  | case2 c => exact List.mem_singleton.mpr (zero c (List.mem_singleton.mp coded)).symm
  | case3 c d cs _ ih =>
    rcases List.mem_cons.mp coded with number | coded
    · cases number
    · exact List.mem_cons_of_mem _ (List.mem_cons_of_mem _ (ih coded))
  | case4 c d cs _ _ ih =>
    rcases List.mem_cons.mp coded with number | coded
    · unfold Surrogate.distance at number
      omega
    · exact List.mem_cons_of_mem _ (List.mem_cons_of_mem _ (ih coded))
  | case5 c d cs _ _ ih =>
    rcases List.mem_cons.mp coded with number | coded
    · rw [zero c number]
      exact List.mem_cons_self
    · exact List.mem_cons_of_mem _ (ih coded)

theorem mark_mem_of_isNoByte {cs : List Char} {code : Nat} (coded : code ∈ Surrogate.codes cs)
    (noByte : isNoByte code) : Surrogate.mark ∈ cs := by
  refine Classical.byContradiction fun plain => ?_
  have unmarked : ∀ c ∈ cs, c ≠ Surrogate.mark := by
    intro c inside same
    exact plain (same ▸ inside)
  rw [Surrogate.codes_of_unmarked unmarked] at coded
  obtain ⟨c, -, rfl⟩ := List.mem_map.mp coded
  have other := Surrogate.not_isSurrogate_toNat c
  simp [isNoByte, other] at noByte

theorem sign_mem {text : String} {flaw : NameFlaw} (found : of? text = some flaw) :
    flaw.sign ∈ text.toList := by
  unfold of? at found
  dsimp only at found
  split at found
  · next surrogates =>
    cases found
    obtain ⟨code, coded, noByte⟩ := List.any_eq_true.mp surrogates
    exact mark_mem_of_isNoByte coded noByte
  · split at found
    · next zero =>
      cases found
      exact null_mem_of_codes (List.contains_iff_mem.mp zero)
    · cases found

end NameFlaw

namespace Arguments
variable {P : Char → Prop}

theorem mem_of_splitEquals {cs name value : List Char} (split : splitEquals cs = (name, some value))
    {c : Char} (inside : c ∈ value) : c ∈ cs := by
  fun_induction splitEquals cs generalizing name value with
  | case1 => cases split
  | case2 cs =>
    cases split
    exact List.mem_cons_of_mem _ inside
  | case3 head cs _ first second inner ih =>
    cases split
    exact List.mem_cons_of_mem _ (ih inner inside)

/-- The values that uses of options bring with them. -/
def Made (P : Char → Prop) (uses : List OptionUse) : Prop :=
  ∀ use ∈ uses, ∀ value, use.value = some value → ∀ c ∈ value.toList, P c

theorem made_nil : Made P [] := nofun

theorem made_plain (key : String) : Made P [⟨key, none⟩] := by
  intro use huse value stated
  rw [List.mem_singleton.mp huse] at stated
  cases stated

theorem made_value {key text : String} (made : ∀ c ∈ text.toList, P c) : Made P [⟨key, some text⟩] := by
  intro use huse value stated
  rw [List.mem_singleton.mp huse] at stated
  cases stated
  exact made

theorem Made.append {uses others : List OptionUse} (first : Made P uses) (second : Made P others) :
    Made P (uses ++ others) := by
  intro use huse
  exact (List.mem_append.mp huse).elim (first use) (second use)

theorem made_of_readLetters {specs : List OptionSpec} {letters : List Char} {reading : Reading}
    (made : ∀ c ∈ letters, P c) (read : readLetters specs letters = .ok reading) :
    Made P reading.uses := by
  fun_induction readLetters specs letters generalizing reading with
  | case1 =>
    cases read
    exact made_nil
  | case2 => cases read
  | case3 =>
    cases read
    exact made_nil
  | case4 letter rest spec found takes more =>
    cases read
    refine made_value fun c hc => made c (List.mem_cons_of_mem _ ?_)
    rwa [String.toList_ofList] at hc
  | case5 letter rest spec found plain ih =>
    cases inner : readLetters specs rest with
    | error fault =>
      rw [inner] at read
      cases read
    | ok rest' =>
      rw [inner] at read
      cases read
      exact (made_plain spec.key).append
        (ih (fun c hc => made c (List.mem_cons_of_mem _ hc)) inner)

theorem made_of_readWord {spec : OptionSpec} {name : String} {stated : Option (List Char)}
    {reading : Reading} (made : ∀ value, stated = some value → ∀ c ∈ value, P c)
    (read : readWord spec name stated = .ok reading) : Made P reading.uses := by
  unfold readWord at read
  split at read
  · next cs _ =>
    cases read
    refine made_value fun c hc => made cs rfl c ?_
    rwa [String.toList_ofList] at hc
  · cases read
    exact made_nil
  · cases read
    exact made_plain spec.key
  · cases read

theorem made_of_readOption {specs : List OptionSpec} {cs : List Char} {reading : Reading}
    (made : ∀ c ∈ cs, P c) (read : readOption specs cs = .ok reading) : Made P reading.uses := by
  unfold readOption at read
  split at read
  · next cs =>
    dsimp only at read
    split at read
    · refine made_of_readWord (fun value stated c inside => made c ?_) read
      have split : splitEquals cs = ((splitEquals cs).1, some value) := Prod.ext rfl stated
      exact List.mem_cons_of_mem _ (List.mem_cons_of_mem _ (mem_of_splitEquals split inside))
    · cases read
  · exact made_of_readLetters (fun c hc => made c (List.mem_cons_of_mem _ hc)) read
  · cases read
    exact made_nil

theorem exists_of_map {γ : Type} {outcome : Except OptionFault γ} {f : γ → γ} {value : γ}
    (mapped : outcome.map f = .ok value) : ∃ inner, outcome = .ok inner ∧ f inner = value := by
  cases outcome with
  | error fault => cases mapped
  | ok inner => exact ⟨inner, rfl, Except.ok.inj mapped⟩

/-- The values of options are made of characters of the arguments; the other arguments are among
them. -/
theorem parse_made {specs : List OptionSpec} {mixed : Bool} {args : List String}
    {arguments : Arguments} (made : ∀ arg ∈ args, ∀ c ∈ arg.toList, P c)
    (parsed : parse specs mixed args = .ok arguments) :
    Made P arguments.options ∧ arguments.positional ⊆ args := by
  fun_induction parse specs mixed args generalizing arguments with
  | case1 =>
    cases parsed
    exact ⟨made_nil, List.Subset.refl _⟩
  | case2 rest =>
    cases parsed
    exact ⟨made_nil, List.subset_cons_self ..⟩
  | case3 => cases parsed
  | case4 arg rest _ _ uses read ih =>
    obtain ⟨here, later⟩ := List.forall_mem_cons.mp made
    obtain ⟨inner, more, rfl⟩ := exists_of_map parsed
    obtain ⟨options, positional⟩ := ih later more
    exact ⟨(made_of_readOption here read).append options, List.subset_cons_of_subset arg positional⟩
  | case5 => cases parsed
  | case6 arg _ _ uses spec name read value rest ih =>
    obtain ⟨here, later⟩ := List.forall_mem_cons.mp made
    obtain ⟨stated, later⟩ := List.forall_mem_cons.mp later
    obtain ⟨inner, more, rfl⟩ := exists_of_map parsed
    obtain ⟨options, positional⟩ := ih later more
    exact ⟨((made_of_readOption here read).append (made_value stated)).append options,
      List.subset_cons_of_subset arg (List.subset_cons_of_subset value positional)⟩
  | case7 arg rest _ _ _ ih =>
    obtain ⟨here, later⟩ := List.forall_mem_cons.mp made
    obtain ⟨inner, more, rfl⟩ := exists_of_map parsed
    obtain ⟨options, positional⟩ := ih later more
    exact ⟨options, List.cons_subset_cons arg positional⟩
  | case8 =>
    cases parsed
    exact ⟨made_nil, List.Subset.refl _⟩

theorem value?_made {arguments : Arguments} (made : Made P arguments.options) {key value : String}
    (stated : arguments.value? key = some value) : ∀ c ∈ value.toList, P c := by
  obtain ⟨use, last, stated⟩ := Option.bind_eq_some_iff.mp stated
  exact made use (List.mem_filter.mp (List.mem_of_getLast? last)).1 value stated

theorem values_made {arguments : Arguments} (made : Made P arguments.options) {keys : List String}
    {value : String} (stated : value ∈ arguments.values keys) : ∀ c ∈ value.toList, P c := by
  obtain ⟨key, -, stated⟩ := List.mem_filterMap.mp stated
  exact value?_made made stated

end Arguments

namespace Invocation
open Arguments (Made parse_made value?_made values_made)
variable {flaw : NameFlaw} {args : List String}

theorem flaw_eq_of_unnameable {other : NameFlaw} (same : unnameable other = unnameable flaw) :
    other = flaw := by
  unfold unnameable at same
  injection same with same
  injection same with ending
  injection ending with ending
  injection ending

/-- The arguments hold no sign of the flaw. -/
def Lacks (flaw : NameFlaw) (args : List String) : Prop :=
  ∀ arg ∈ args, ∀ c ∈ arg.toList, c ≠ flaw.sign

theorem ne_unnameable {other : NameFlaw} {text : String} (plain : ∀ c ∈ text.toList, c ≠ flaw.sign)
    (found : NameFlaw.of? text = some other) : unnameable other ≠ unnameable flaw := by
  intro same
  rw [flaw_eq_of_unnameable same] at found
  exact plain _ (NameFlaw.sign_mem found) rfl

theorem generate_ne_unnameable (lacks : Lacks flaw args) : generate args ≠ unnameable flaw := by
  unfold generate
  split
  · nofun
  · next arguments parsed =>
    have options := (parse_made lacks parsed).1
    have path : ∀ c ∈ ((arguments.value? "output").getD Scaffold.defaultFileName).toList,
        c ≠ flaw.sign := by
      cases stated : arguments.value? "output" with
      | none =>
        have plain : Scaffold.defaultFileName.toList.all (· != flaw.sign) := by
          cases flaw <;> decide
        simpa using plain
      | some text => exact value?_made options stated
    dsimp only
    split
    · nofun
    · split
      · next found => exact ne_unnameable path found
      · split <;> nofun

theorem render_ne_unnameable {verbose : Bool} (lacks : Lacks flaw args) :
    render verbose args ≠ unnameable flaw := by
  unfold render
  split
  · nofun
  · next arguments parsed =>
    obtain ⟨options, positional⟩ := parse_made lacks parsed
    split
    · nofun
    · split
      · next found =>
        obtain ⟨text, stated, found⟩ := List.exists_of_findSome?_eq_some found
        exact ne_unnameable (values_made options stated) found
      · split
        · nofun
        · next input selection inputs =>
          have inside : input ∈ args := positional (by rw [inputs]; exact List.mem_cons_self)
          split
          · next found => exact ne_unnameable (lacks input inside) found
          · nofun

theorem answer_ne_unnameable {result : InvocationResult} {code : Nat}
    (ends : result.ending = .ok code) : Request.answer result ≠ unnameable flaw := by
  intro same
  unfold unnameable at same
  injection same with same
  rw [same] at ends
  cases ends

theorem ending_of_immediate? {arguments : Arguments} {result : InvocationResult}
    (settled : immediate? arguments = some result) : result.ending = .ok 0 := by
  unfold immediate? at settled
  split at settled <;> cases settled <;> rfl

theorem unknownCommand_ne_unnameable (name : String) (args : List String) :
    Request.answer (unknownCommand name args) ≠ unnameable flaw := by
  unfold unknownCommand
  split
  · nofun
  · split
    · next settled => exact answer_ne_unnameable (ending_of_immediate? settled)
    · nofun

theorem command_ne_unnameable {verbose : Bool} {name : String} (lacks : Lacks flaw args) :
    command verbose name args ≠ unnameable flaw := by
  unfold command
  split
  · exact generate_ne_unnameable lacks
  · split
    · exact render_ne_unnameable lacks
    · exact unknownCommand_ne_unnameable name args

/-- A flaw for which a request cannot be met shows in an argument. -/
theorem sign_mem_of_unnameable (asked : request args = unnameable flaw) :
    ∃ arg ∈ args, flaw.sign ∈ arg.toList := by
  refine Classical.byContradiction fun nowhere => ?_
  have lacks : Lacks flaw args := by
    intro arg inside c hc same
    exact nowhere ⟨arg, inside, same ▸ hc⟩
  revert asked
  unfold request
  split
  · nofun
  · split
    · nofun
    · next arguments parsed =>
      split
      · next settled => exact answer_ne_unnameable (ending_of_immediate? settled)
      · split
        · nofun
        · next name rest inputs =>
          have inside : ∀ arg ∈ rest, arg ∈ args := by
            intro arg harg
            exact (parse_made lacks parsed).2 (by rw [inputs]; exact List.mem_cons_of_mem _ harg)
          exact command_ne_unnameable fun arg harg => lacks arg (inside arg harg)

end Invocation
end SchemaTables
