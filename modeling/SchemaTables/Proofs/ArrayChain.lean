import Mathlib.Data.List.Perm.Subperm
import Mathlib.Logic.Relation
import SchemaTables.Page.Label
import SchemaTables.Proofs.Leads

/-!
# Where nested arrays end

`Ends` tells without a bound what the items of arrays lead to. Where no array leads back to itself
through items alone, a chain of arrays passes each schema once at most, so that the number of schemas
bounds it and `element` finds its end.
-/
namespace SchemaTables.Catalog
variable {α : Type} [BEq α]

/-- The items of the array at `place` are what stands at `next`. -/
def Holds (catalog : Catalog α) (place next : α) : Prop :=
  ∃ node, catalog.node? place = some node ∧ node.content = .array (some (.node next))

/-- No array that `roots` lead to leads back to itself through items alone. -/
def Loopless (catalog : Catalog α) (roots : List (Slot α)) : Prop :=
  ∀ place, catalog.Leads roots (.node place) → ¬ Relation.TransGen catalog.Holds place place

/-- What a slot leads to through the items of arrays, after `depth` arrays already passed. -/
inductive Ends (catalog : Catalog α) : Nat → Slot α → Element α → Prop
  | reference {depth : Nat} {text : String} :
      Ends catalog depth (.reference text) (.reference depth text)
  | absent {depth : Nat} {place : α} (nothing : catalog.node? place = none) :
      Ends catalog depth (.node place) (.untyped depth)
  | bare {depth : Nat} {place : α} {node : Node α} (found : catalog.node? place = some node)
      (content : node.content = .array none) : Ends catalog depth (.node place) (.untyped depth)
  | items {depth : Nat} {place : α} {node : Node α} {items : Slot α} {element : Element α}
      (found : catalog.node? place = some node) (content : node.content = .array (some items))
      (rest : Ends catalog (depth + 1) items element) : Ends catalog depth (.node place) element
  | schema {depth : Nat} {place : α} {node : Node α} (found : catalog.node? place = some node)
      (other : ∀ items, node.content ≠ .array items) :
      Ends catalog depth (.node place) (.schema depth node)

variable {catalog : Catalog α} {roots : List (Slot α)} {depth : Nat} {slot : Slot α}

theorem Leads.items {place : α} {node : Node α} {items : Slot α}
    (leads : catalog.Leads roots (.node place)) (found : catalog.node? place = some node)
    (content : node.content = .array (some items)) : catalog.Leads roots items :=
  leads.part found (by simp [content, Content.slots])

theorem Ends.unique {element other : Element α} (h : catalog.Ends depth slot element)
    (h' : catalog.Ends depth slot other) : element = other := by
  induction h with
  | reference => cases h'; rfl
  | absent nothing =>
    cases h' with
    | absent => rfl
    | bare found | items found | schema found => simp [nothing] at found
  | bare found content =>
    cases h' with
    | absent nothing => simp [nothing] at found
    | bare => rfl
    | items found' content' =>
      cases found.symm.trans found'
      simp [content] at content'
    | schema found' other =>
      cases found.symm.trans found'
      exact absurd content (other _)
  | items found content _ ih =>
    cases h' with
    | absent nothing => simp [nothing] at found
    | bare found' content' =>
      cases found.symm.trans found'
      simp [content] at content'
    | items found' content' rest =>
      cases found.symm.trans found'
      cases content.symm.trans content'
      exact ih rest
    | schema found' other =>
      cases found.symm.trans found'
      exact absurd content (other _)
  | schema found other =>
    cases h' with
    | absent nothing => simp [nothing] at found
    | bare found' content | items found' content =>
      cases found.symm.trans found'
      exact absurd content (other _)
    | schema found' _ =>
      cases found.symm.trans found'
      rfl

/-- The arrays whose items are a schema, with that schema. -/
def arrayLinks (catalog : Catalog α) : List (α × α) :=
  catalog.nodes.filterMap fun entry =>
    match entry.2.content with
    | .array (some (.node next)) => some (entry.1, next)
    | _ => none

section
variable [LawfulBEq α]

/-- Where some rank falls from every array to its items, no array leads back to itself. -/
theorem loopless_of_rank (rank : α → Nat)
    (falls : ∀ link ∈ catalog.arrayLinks, rank link.2 < rank link.1) : catalog.Loopless roots := by
  have lower : ∀ {place next : α}, Relation.TransGen catalog.Holds place next →
      rank next < rank place := by
    intro place next chain
    have step : ∀ {place next : α}, catalog.Holds place next → rank next < rank place := by
      rintro place next ⟨node, found, content⟩
      apply falls (place, next)
      exact List.mem_filterMap.mpr ⟨_, mem_nodes_of_node? found, by simp [content]⟩
    induction chain with
    | single holds => exact step holds
    | tail _ holds ih => exact Nat.lt_trans (step holds) ih
  intro place _ loop
  exact absurd (lower loop) (Nat.lt_irrefl _)

/-- A chain that has passed the arrays in `passed` has steps left for all the others. -/
theorem ends_follow (loopless : catalog.Loopless roots) {fuel : Nat} {passed : List α}
    (leads : catalog.Leads roots slot) (nodup : passed.Nodup)
    (listed : passed ⊆ catalog.nodes.map (·.1))
    (before : ∀ place, slot = .node place →
      ∀ outer ∈ passed, Relation.TransGen catalog.Holds outer place)
    (enough : catalog.nodes.length < passed.length + fuel) :
    catalog.Ends depth slot (catalog.follow fuel depth slot) := by
  induction fuel generalizing depth slot passed with
  | zero =>
    -- more arrays passed than there are schemas
    have := (List.subperm_of_subset nodup listed).length_le
    rw [List.length_map] at this
    omega
  | succ fuel ih =>
    cases slot with
    | reference text => exact .reference
    | node place =>
      rw [follow]
      cases found : catalog.node? place with
      | none => exact .absent found
      | some node =>
        cases content : node.content with
        | array items =>
          cases items with
          | none =>
            simp only [content]
            exact .bare found content
          | some items =>
            simp only [content]
            -- an array met again would lead back to itself
            have fresh : place ∉ passed := fun passed =>
              loopless place leads (before place rfl place passed)
            have member : place ∈ catalog.nodes.map (·.1) :=
              List.mem_map_of_mem (f := (·.1)) (mem_nodes_of_node? found)
            have further : (place :: passed).Nodup := List.nodup_cons.mpr ⟨fresh, nodup⟩
            have nodes : place :: passed ⊆ catalog.nodes.map (·.1) :=
              List.cons_subset.mpr ⟨member, listed⟩
            refine .items found content (ih (leads.items found content) further nodes ?_ ?_)
            · rintro next rfl outer houter
              have step : catalog.Holds place next := ⟨node, found, content⟩
              rcases List.mem_cons.mp houter with rfl | houter
              · exact .single step
              · exact (before place rfl outer houter).tail step
            · rw [List.length_cons]
              omega
        | scalar _ | object _ | composed _ =>
          simp only [content]
          exact .schema found (by simp [content])

/-- Without loops, the end of a chain is what `element` finds. -/
theorem element_eq_iff (loopless : catalog.Loopless roots) (leads : catalog.Leads roots slot)
    {element : Element α} : catalog.element slot = element ↔ catalog.Ends 0 slot element := by
  have ends : catalog.Ends 0 slot (catalog.element slot) :=
    ends_follow loopless leads List.nodup_nil (List.nil_subset _) (by simp) (by simp)
  constructor
  · rintro rfl
    exact ends
  · exact ends.unique

/-- A slot links to the table of the compound schema that its chain of arrays ends at. -/
theorem linkedId?_eq_some_iff (loopless : catalog.Loopless roots) (leads : catalog.Leads roots slot)
    {id : String} : catalog.linkedId? slot = some id ↔
      ∃ passed node, catalog.Ends 0 slot (.schema passed node) ∧ node.content.isCompound ∧
        node.head.id = id := by
  have ends := (element_eq_iff loopless leads).mp rfl
  unfold linkedId?
  constructor
  · intro linked
    obtain ⟨node, target, rfl⟩ := Option.map_eq_some_iff.mp linked
    cases reached : catalog.element slot with
    | reference | untyped => simp [reached, Element.target?] at target
    | schema passed found =>
      rw [reached] at ends target
      obtain ⟨compound, rfl⟩ : found.content.isCompound ∧ found = node := by
        simpa [Element.target?] using target
      exact ⟨passed, found, ends, compound, rfl⟩
  · rintro ⟨passed, node, ends', compound, rfl⟩
    rw [ends.unique ends']
    simp [Element.target?, compound]

end
end SchemaTables.Catalog
