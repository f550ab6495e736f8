import SchemaTables.Proofs.Tour

/-!
# Walks that break off

A walk that must not ask for certain tables does all that the walk without this condition does, up to
the first such table. Where that walk asks for none, the two are the same.
-/
namespace SchemaTables.Catalog
variable {α : Type} {out : Call α → Bool} {walk middle after : Walk α} {came : Walk α × Bool}

/-- How a walk comes out that would go on to `after`: it does if all the tables on the way go out, and
otherwise it has asked for those before the first that does not. -/
def BreaksOff (out : Call α → Bool) (walk after : Walk α) (came : Walk α × Bool) : Prop :=
  ∃ more, after.calls = walk.calls ++ more ∧
    (more.all out = true → came = (after, true)) ∧
    (more.all out = false → came.2 = false ∧ came.1.calls = walk.calls ++ more.takeWhile out)

theorem breaksOff_of_calls_eq (same : after.calls = walk.calls) :
    BreaksOff out walk after (after, true) :=
  ⟨[], by rw [same, List.append_nil], fun _ => rfl, nofun⟩

/-- Tables that go out may be asked for before. -/
theorem BreaksOff.later {first : List (Call α)} (later : BreaksOff out middle after came)
    (calls : middle.calls = walk.calls ++ first) (goes : first.all out = true) :
    BreaksOff out walk after came := by
  obtain ⟨more, onward, whole, broken⟩ := later
  refine ⟨first ++ more, ?_, fun all => ?_, fun some => ?_⟩
  · rw [onward, calls, List.append_assoc]
  · rw [List.all_append, goes, Bool.true_and] at all
    exact whole all
  · rw [List.all_append, goes, Bool.true_and] at some
    obtain ⟨stopped, before⟩ := broken some
    have passed : (first ++ more).takeWhile out = first ++ more.takeWhile out :=
      List.takeWhile_append_of_pos fun call listed => List.all_eq_true.mp goes call listed
    rw [before, calls, passed, List.append_assoc]
    exact ⟨stopped, rfl⟩

/-- Where a table has been withheld, it does not matter what would have come after it. -/
theorem BreaksOff.withheld {first more : List (Call α)} (calls : middle.calls = walk.calls ++ first)
    (stops : first.all out = false) (onward : after.calls = middle.calls ++ more)
    (stopped : came.2 = false) (before : came.1.calls = walk.calls ++ first.takeWhile out) :
    BreaksOff out walk after came := by
  have short : (first ++ more).takeWhile out = first.takeWhile out := by
    rw [List.takeWhile_append, if_neg]
    intro same
    have whole := (List.takeWhile_prefix out (l := first)).eq_of_length same
    have goes : first.all out = true := whole ▸ List.all_takeWhile
    rw [goes] at stops
    cases stops
  refine ⟨first ++ more, by rw [onward, calls, List.append_assoc], fun all => ?_, fun _ => ?_⟩
  · rw [List.all_append, stops] at all
    cases all
  · exact ⟨stopped, by rw [before, short]⟩

variable [BEq α] {catalog : Catalog α}

theorem visit_breaksOff (fuel : Nat) (pending : List (Slot α)) (walk : Walk α) :
    BreaksOff out walk (catalog.visit fuel pending walk)
      (catalog.visitWhile out fuel pending walk) := by
  induction fuel generalizing pending walk with
  | zero => exact breaksOff_of_calls_eq rfl
  | succ fuel ih =>
    cases pending with
    | nil => exact breaksOff_of_calls_eq rfl
    | cons slot pending =>
      cases slot with
      | reference text => exact breaksOff_of_calls_eq rfl
      | node place =>
        rw [visit, visitWhile]
        cases catalog.node? place with
        | none => exact ih pending walk
        | some node =>
          dsimp only
          have onward := ih ((walk.meet node).2 ++ pending) (walk.meet node).1
          have few : (if walk.enters node then node.call?.toList else []).length ≤ 1 := by
            split
            · exact Option.length_toList_le
            · exact Nat.zero_le 1
          have calls := walk.meet_calls node
          generalize (if walk.enters node then node.call?.toList else []) = asked at few calls
          rw [calls, List.drop_left]
          cases goes : asked.all out with
          | true => exact onward.later calls goes
          | false =>
            obtain ⟨more, further, -⟩ := onward
            refine .withheld calls goes further rfl ?_
            -- a schema asks for one table at most, so this is the one that is withheld
            have single : ∃ call, asked = [call] := by
              cases asked with
              | nil => cases goes
              | cons call rest =>
                have alone : rest = [] := by simpa using few
                exact ⟨call, by rw [alone]⟩
            obtain ⟨call, rfl⟩ := single
            have held : out call = false := by simpa using goes
            simp [held]

theorem visitNames_breaksOff (names : List String) (walk : Walk α) :
    BreaksOff out walk (catalog.visitNames names walk) (catalog.visitNamesWhile out names walk) := by
  induction names generalizing walk with
  | nil => exact breaksOff_of_calls_eq rfl
  | cons name names ih =>
    rw [visitNames, visitNamesWhile]
    cases catalog.names.lookup name with
    | none => exact (ih (walk.miss name)).later (List.append_nil _).symm rfl
    | some slot =>
      dsimp only
      generalize onward : catalog.visit catalog.visitFuel [slot] walk = next
      have first : BreaksOff out walk next _ := onward ▸ visit_breaksOff catalog.visitFuel [slot] walk
      obtain ⟨more, calls, whole, broken⟩ := first
      cases goes : more.all out with
      | true =>
        rw [whole goes]
        cases failed : next.fault.isSome with
        | true => exact (breaksOff_of_calls_eq rfl).later calls goes
        | false => exact (ih next).later calls goes
      | false =>
        obtain ⟨stopped, before⟩ := broken goes
        rw [stopped, Bool.not_false, Bool.or_true, if_pos rfl]
        split
        · exact .withheld calls goes (List.append_nil _).symm rfl before
        · obtain ⟨rest, further, -⟩ := ih next
          exact .withheld calls goes further rfl before

theorem visitSelection_breaksOff (catalog : Catalog α) (out : Call α → Bool) (selection : List String) :
    BreaksOff out .start (catalog.visitSelection selection)
      (catalog.visitSelectionWhile out selection) :=
  visitNames_breaksOff (catalog.selected selection) .start

/-- Where all the tables of a selection go out, none is missing. -/
theorem visitSelectionWhile_eq {selection : List String}
    (goes : ∀ call ∈ (catalog.visitSelection selection).calls, out call) :
    catalog.visitSelectionWhile out selection = (catalog.visitSelection selection, true) := by
  obtain ⟨more, calls, whole, -⟩ := visitSelection_breaksOff catalog out selection
  refine whole (List.all_eq_true.mpr fun call listed => goes call ?_)
  exact calls ▸ List.mem_append_right _ listed

/-- Where one does not, the tables before it have been asked for, and no others. -/
theorem visitSelectionWhile_of_withheld {selection : List String} {call : Call α}
    (asked : call ∈ (catalog.visitSelection selection).calls) (held : out call = false) :
    (catalog.visitSelectionWhile out selection).2 = false ∧
      (catalog.visitSelectionWhile out selection).1.calls =
        (catalog.visitSelection selection).calls.takeWhile out := by
  obtain ⟨more, calls, -, broken⟩ := visitSelection_breaksOff catalog out selection
  have calls : (catalog.visitSelection selection).calls = more := calls
  rw [calls] at asked ⊢
  refine broken ?_
  rw [← Bool.not_eq_true, List.all_eq_true]
  intro goes
  rw [goes call asked] at held
  cases held

/-- A walk is whole just where all the tables of its selection go out. -/
theorem visitSelectionWhile_whole_iff {selection : List String} :
    (catalog.visitSelectionWhile out selection).2 = true ↔
      ∀ call ∈ (catalog.visitSelection selection).calls, out call := by
  refine ⟨fun whole call asked => ?_, fun goes => by rw [visitSelectionWhile_eq goes]⟩
  cases held : out call with
  | true => rfl
  | false =>
    rw [(visitSelectionWhile_of_withheld asked held).1] at whole
    cases whole

end SchemaTables.Catalog
