import Mathlib.Data.List.Find
import SchemaTables.Run.YamlFile

/-!
# Two dialects of one text

The dialect of documents is that of configurations with another resolver of truth values. Nothing else
is lost or reordered by the exchange, so a text is composed to the same nodes in both, except for the
scalars that are left to their texts and spell one of `Dialect.extraBooleans`: these are texts in a
document and truth values in a configuration.
-/
namespace SchemaTables.Yaml

/-- A text is one of the words, with at most one line feed behind it. -/
def Spells (words : List String) (text : String) : Prop :=
  ∃ word ∈ words, text = word ∨ text = word ++ "\n"

theorem spells_append {words others : List String} {text : String} :
    Spells (words ++ others) text ↔ Spells words text ∨ Spells others text := by
  simp only [Spells, List.mem_append, or_and_right, exists_or]

theorem Spells.exists_ending {words : List String} {text : String} (spells : Spells words text) :
    ∃ word ∈ words, ∃ ending ∈ ["", "\n"], text = word ++ ending := by
  obtain ⟨word, listed, same⟩ := spells
  cases same with
  | inl bare => exact ⟨word, listed, "", by simp, by simp [bare]⟩
  | inr ended => exact ⟨word, listed, "\n", by simp, ended⟩

namespace Resolver

theorem accepts_ofWords {tag : Tag} {words : List String} {text : String} :
    (ofWords tag words).accepts text.toList = true ↔ Spells words text := by
  have plain : (ofWords tag words).form text.toList = true ↔ ∃ word ∈ words, text = word := by
    simp only [ofWords, List.any_eq_true, beq_iff_eq, String.toList_inj, eq_comm (b := text)]
  have ended : (text.toList.getLast? == some '\n' &&
      (ofWords tag words).form text.toList.dropLast) = true ↔
      ∃ word ∈ words, text = word ++ "\n" := by
    simp only [ofWords, Bool.and_eq_true, beq_iff_eq, List.any_eq_true]
    constructor
    · intro h
      obtain ⟨last, word, listed, same⟩ := h
      obtain ⟨start, whole⟩ := List.getLast?_eq_some_iff.mp last
      rw [whole, List.dropLast_concat] at same
      refine ⟨word, listed, String.toList_inj.mp ?_⟩
      rw [whole, ← same, String.toList_append]
      rfl
    · intro h
      obtain ⟨word, listed, rfl⟩ := h
      exact ⟨by simp, word, listed, by simp⟩
  unfold accepts
  rw [Bool.or_eq_true, plain, ended]
  simp only [Spells, and_or_left, exists_or]

end Resolver

namespace Dialect

theorem mem_resolvers_foldl {forms : List (Resolver × List (Option Char))} {dialect : Dialect}
    {first : Option Char} {resolver : Resolver}
    (listed : resolver ∈
      (forms.foldl (fun dialect form => dialect.add form.1 form.2) dialect).resolvers first) :
    resolver ∈ dialect.resolvers first ∨ ∃ form ∈ forms, resolver = form.1 := by
  induction forms generalizing dialect with
  | nil => exact .inl listed
  | cons form rest ih =>
    have earlier := ih listed
    rw [resolvers_add, List.mem_append, List.mem_replicate] at earlier
    grind

/-- There is one resolver of truth values. -/
theorem eq_booleans_of_mem {first : Option Char} {resolver : Resolver}
    (listed : resolver ∈ configuration.resolvers first) (boolean : resolver.tag = .bool) :
    resolver = .booleans (plainBooleans ++ extraBooleans) := by
  have origin : ∃ form ∈ forms, resolver = form.1 := by
    rcases mem_resolvers_foldl listed with nothing | origin
    · cases nothing
    · exact origin
  have others : ∀ form ∈ forms.tail, form.1.tag ≠ .bool := by decide
  obtain ⟨form, member, rfl⟩ := origin
  rcases List.mem_cons.mp member with first | later
  · rw [first]
  · exact absurd boolean (others form later)

theorem resolvers_document (first : Option Char) : document.resolvers first =
    (configuration.resolvers first).filter (·.tag != .bool) ++
      List.replicate ((beginning "tTfF").count first) (.booleans plainBooleans) := by
  rw [document, resolvers_add, resolvers_without]

/-- The exchange of the resolver of truth values is not seen by texts that spell none of their words. -/
theorem find?_document {text : String} (other : ¬ Spells (plainBooleans ++ extraBooleans) text)
    (first : Option Char) :
    (document.resolvers first).find? (·.accepts text.toList) =
      (configuration.resolvers first).find? (·.accepts text.toList) := by
  have unplain : ¬ Spells plainBooleans text := fun spells => other (spells_append.mpr (.inl spells))
  have added : (List.replicate ((beginning "tTfF").count first) (Resolver.booleans plainBooleans)).find?
      (·.accepts text.toList) = none := by
    rw [List.find?_eq_none]
    intro resolver listed accepts
    rw [List.eq_of_mem_replicate listed] at accepts
    exact unplain (Resolver.accepts_ofWords.mp accepts)
  rw [resolvers_document, List.find?_append, added, Option.or_none, List.find?_filter]
  refine List.find?_congr fun resolver listed => ?_
  by_cases boolean : resolver.tag = .bool
  · have refused : ¬ resolver.accepts text.toList = true := by
      rw [eq_booleans_of_mem listed boolean]
      exact fun accepts => other (Resolver.accepts_ofWords.mp accepts)
    simp [boolean, refused]
  · simp [boolean]

end Dialect

open Dialect (plainBooleans extraBooleans)

theorem tag_of_spells {text : String} (spells : Spells extraBooleans text) :
    Implicit.tag .document text = .str ∧ Implicit.tag .configuration text = .bool := by
  have all : ∀ word ∈ extraBooleans, ∀ ending ∈ ["", "\n"],
      Implicit.tag .document (word ++ ending) = .str ∧
        Implicit.tag .configuration (word ++ ending) = .bool := by decide
  obtain ⟨word, listed, ending, possible, rfl⟩ := spells.exists_ending
  exact all word listed ending possible

theorem tag_of_not_spells {text : String} (other : ¬ Spells extraBooleans text) :
    Implicit.tag .document text = Implicit.tag .configuration text := by
  by_cases plain : Spells plainBooleans text
  · have all : ∀ word ∈ plainBooleans, ∀ ending ∈ ["", "\n"],
        Implicit.tag .document (word ++ ending) = Implicit.tag .configuration (word ++ ending) := by
      decide
    obtain ⟨word, listed, ending, possible, rfl⟩ := plain.exists_ending
    exact all word listed ending possible
  · have neither : ¬ Spells (plainBooleans ++ extraBooleans) text := by
      rw [spells_append]
      exact not_or.mpr ⟨plain, other⟩
    unfold Implicit.tag
    rw [Dialect.find?_document neither]

/-- The way to a part of a collection. -/
inductive Branch where
  | item (index : Nat)
  | key (index : Nat)
  | value (index : Nat)

namespace Tree

def part? : Tree → Branch → Option Tree
  | sequence _ _ items, .item index => items[index]?
  | mapping _ _ entries, .key index => entries[index]?.map (·.1)
  | mapping _ _ entries, .value index => entries[index]?.map (·.2)
  | _, _ => none

/-- What is written at a place, under any nesting. -/
def at? (tree : Tree) : List Branch → Option Tree
  | [] => some tree
  | branch :: path => (tree.part? branch).bind (·.at? path)

end Tree

/-- A node without its parts. -/
inductive Face where
  | aliasOf (anchor : String)
  | scalar (anchor : Option String) (tag : Tag) (text : String)
  | sequence (anchor : Option String) (tag : Tag) (size : Nat)
  | mapping (anchor : Option String) (tag : Tag) (size : Nat)
deriving DecidableEq, Repr

namespace Node

def part? : Node → Branch → Option Node
  | sequence _ _ items, .item index => items[index]?
  | mapping _ _ entries, .key index => entries[index]?.map (·.1)
  | mapping _ _ entries, .value index => entries[index]?.map (·.2)
  | _, _ => none

def at? (node : Node) : List Branch → Option Node
  | [] => some node
  | branch :: path => (node.part? branch).bind (·.at? path)

def face : Node → Face
  | aliasOf anchor => .aliasOf anchor
  | scalar anchor tag text => .scalar anchor tag text
  | sequence anchor tag items => .sequence anchor tag items.length
  | mapping anchor tag entries => .mapping anchor tag entries.length

/-- The face of what stands at a place, if anything does. -/
def face? (node : Node) (path : List Branch) : Option Face := (node.at? path).map face

section
variable (anchor : Option String) (tag : Tag) (index : Nat) (path : List Branch)

theorem face?_item (items : List Node) :
    (sequence anchor tag items).face? (.item index :: path) = items[index]?.bind (·.face? path) := by
  rw [face?, at?, part?, Option.map_bind]
  rfl

theorem face?_key (entries : List (Node × Node)) :
    (mapping anchor tag entries).face? (.key index :: path) =
      entries[index]?.bind (·.1.face? path) := by
  rw [face?, at?, part?, Option.bind_map, Option.map_bind]
  rfl

theorem face?_value (entries : List (Node × Node)) :
    (mapping anchor tag entries).face? (.value index :: path) =
      entries[index]?.bind (·.2.face? path) := by
  rw [face?, at?, part?, Option.bind_map, Option.map_bind]
  rfl

end

/-- Nodes are the same that have the same face at every place. -/
theorem eq_of_face? : ∀ node other : Node, (∀ path, node.face? path = other.face? path) → node = other
  | aliasOf anchor, other, alike => by
    have same := alike []
    cases other <;> simp_all [face?, at?, face]
  | scalar anchor tag text, other, alike => by
    have same := alike []
    cases other <;> simp_all [face?, at?, face]
  | sequence anchor tag items, other, alike => by
    have same := alike []
    cases other with
    | sequence anchor' tag' items' =>
      obtain ⟨rfl, rfl, size⟩ : anchor = anchor' ∧ tag = tag' ∧ items.length = items'.length := by
        simpa [face?, at?, face] using same
      congr 1
      refine List.ext_getElem size fun index inside inside' => ?_
      refine eq_of_face? items[index] items'[index] fun path => ?_
      have part := alike (.item index :: path)
      simpa [face?_item, inside, inside'] using part
    | _ => simp [face?, at?, face] at same
  | mapping anchor tag entries, other, alike => by
    have same := alike []
    cases other with
    | mapping anchor' tag' entries' =>
      obtain ⟨rfl, rfl, size⟩ :
          anchor = anchor' ∧ tag = tag' ∧ entries.length = entries'.length := by
        simpa [face?, at?, face] using same
      congr 1
      refine List.ext_getElem size fun index inside inside' => Prod.ext ?_ ?_
      · refine eq_of_face? entries[index].1 entries'[index].1 fun path => ?_
        have part := alike (.key index :: path)
        simpa [face?_key, inside, inside'] using part
      · refine eq_of_face? entries[index].2 entries'[index].2 fun path => ?_
        have part := alike (.value index :: path)
        simpa [face?_value, inside, inside'] using part
    | _ => simp [face?, at?, face] at same
  termination_by node => sizeOf node
  decreasing_by
    · have inner := List.sizeOf_lt_of_mem (List.getElem_mem inside)
      rw [sequence.sizeOf_spec]
      omega
    all_goals
      have inner := List.sizeOf_lt_of_mem (List.getElem_mem inside)
      have pair : sizeOf entries[index] = 1 + sizeOf entries[index].1 + sizeOf entries[index].2 := rfl
      rw [mapping.sizeOf_spec]
      omega

end Node

/-- A scalar is left to its text if it is plain and has no tag, or if an exclamation mark alone is its
tag. -/
def TagMark.IsFree (mark : TagMark) : Prop := mark = .plain ∨ mark = .nonSpecific

theorem Tree.isFree_scalarMark {plain : Bool} {tag : Option String} :
    (scalarMark plain tag).IsFree ↔ plain = true ∧ tag = none ∨ tag = some "!" := by
  cases tag with
  | none => cases plain <;> simp [scalarMark, TagMark.IsFree]
  | some tag => by_cases mark : tag = "!" <;> simp [scalarMark, TagMark.IsFree, mark]

theorem TagMark.scalarTag_of_not_isFree {mark : TagMark} (bound : ¬ mark.IsFree) (text : String) :
    mark.scalarTag .document text = mark.scalarTag .configuration text := by
  cases mark with
  | plain => exact absurd (.inl rfl) bound
  | nonSpecific => exact absurd (.inr rfl) bound
  | _ => rfl

theorem TagMark.scalarTag_of_isFree {mark : TagMark} (free : mark.IsFree) (dialect : Dialect)
    (text : String) : mark.scalarTag dialect text = Implicit.tag dialect text := by
  cases free with
  | inl plain => rw [plain, TagMark.scalarTag]
  | inr nonSpecific => rw [nonSpecific, TagMark.scalarTag]

namespace Tree
variable {tree : Tree} {path : List Branch} {dialect : Dialect}

theorem resolveItems_eq (items : List Tree) :
    resolveItems dialect items = items.map (resolve dialect) := by
  induction items with
  | nil => rfl
  | cons item rest ih => rw [resolveItems, ih, List.map_cons]

theorem resolveEntries_eq (entries : List (Tree × Tree)) :
    resolveEntries dialect entries =
      entries.map fun entry => (resolve dialect entry.1, resolve dialect entry.2) := by
  induction entries with
  | nil => rfl
  | cons entry rest ih => rw [resolveEntries, ih, List.map_cons]

theorem part?_resolve (branch : Branch) :
    (tree.resolve dialect).part? branch = (tree.part? branch).map (resolve dialect) := by
  cases tree with
  | aliasOf anchor => simp [resolve, part?, Node.part?]
  | scalar anchor mark text => simp [resolve, part?, Node.part?]
  | sequence anchor mark items =>
    cases branch <;> simp [resolve, part?, Node.part?, resolveItems_eq]
  | mapping anchor mark entries =>
    cases branch <;>
      simp [resolve, part?, Node.part?, resolveEntries_eq, Option.map_map, Function.comp_def]

/-- What stands at a place of a tree is resolved there. -/
theorem at?_resolve : (tree.resolve dialect).at? path = (tree.at? path).map (resolve dialect) := by
  induction path generalizing tree with
  | nil => rfl
  | cons branch path ih =>
    rw [Node.at?, at?, part?_resolve]
    cases tree.part? branch with
    | none => rfl
    | some part => exact ih

theorem face?_resolve (path : List Branch) :
    (tree.resolve dialect).face? path = (tree.at? path).map fun part => (part.resolve dialect).face := by
  rw [Node.face?, at?_resolve, Option.map_map]
  rfl

/-- A scalar with a mark of this class that spells a word which is a truth value to configurations
only. -/
def WordAt (apart : TagMark → Prop) (tree : Tree) (path : List Branch) (anchor : Option String)
    (text : String) : Prop :=
  ∃ mark, tree.at? path = some (.scalar anchor mark text) ∧ apart mark ∧ Spells extraBooleans text

/-- The nodes of a tree in both dialects: at the words they are a text and a truth value, elsewhere
they are the same; in particular configurations have a truth value wherever the nodes differ. -/
structure ReadApart (apart : TagMark → Prop) (tree : Tree) (document configuration : Node) : Prop where
  words : ∀ path anchor text, tree.WordAt apart path anchor text →
    document.face? path = some (.scalar anchor .str text) ∧
      configuration.face? path = some (.scalar anchor .bool text)
  others : ∀ path, (∀ anchor text, ¬ tree.WordAt apart path anchor text) →
    document.face? path = configuration.face? path
  kept : ∀ path face, configuration.face? path = some face →
    (∀ anchor text, face ≠ .scalar anchor .bool text) → document.face? path = some face

theorem face_resolve_of_not_word {part : Tree}
    (other : ∀ anchor mark text, part = .scalar anchor mark text → mark.IsFree →
      ¬ Spells extraBooleans text) :
    (part.resolve .document).face = (part.resolve .configuration).face := by
  cases part with
  | aliasOf anchor => rfl
  | scalar anchor mark text =>
    have tags : mark.scalarTag .document text = mark.scalarTag .configuration text := by
      by_cases free : mark.IsFree
      · rw [TagMark.scalarTag_of_isFree free, TagMark.scalarTag_of_isFree free]
        exact tag_of_not_spells (other anchor mark text rfl free)
      · exact TagMark.scalarTag_of_not_isFree free text
    rw [resolve, resolve, tags]
  | sequence anchor mark items => simp [resolve, Node.face, resolveItems_eq]
  | mapping anchor mark entries => simp [resolve, Node.face, resolveEntries_eq]

theorem readApart (tree : Tree) :
    tree.ReadApart TagMark.IsFree (tree.resolve .document) (tree.resolve .configuration) := by
  have words : ∀ path anchor text, tree.WordAt TagMark.IsFree path anchor text →
      (tree.resolve .document).face? path = some (.scalar anchor .str text) ∧
        (tree.resolve .configuration).face? path = some (.scalar anchor .bool text) := by
    intro path anchor text word
    obtain ⟨mark, found, free, spells⟩ := word
    have tags := tag_of_spells spells
    simp [face?_resolve, found, resolve, Node.face, TagMark.scalarTag_of_isFree free, tags]
  have others : ∀ path, (∀ anchor text, ¬ tree.WordAt TagMark.IsFree path anchor text) →
      (tree.resolve .document).face? path = (tree.resolve .configuration).face? path := by
    intro path wordless
    rw [face?_resolve, face?_resolve]
    cases found : tree.at? path with
    | none => rfl
    | some part =>
      have same : (part.resolve .document).face = (part.resolve .configuration).face := by
        refine face_resolve_of_not_word fun anchor mark text scalar free spells => ?_
        exact wordless anchor text ⟨mark, scalar ▸ found, free, spells⟩
      rw [Option.map_some, Option.map_some, same]
  refine ⟨words, others, fun path face shown plain => ?_⟩
  by_cases word : ∃ anchor text, tree.WordAt TagMark.IsFree path anchor text
  · obtain ⟨anchor, text, word⟩ := word
    have boolean := (words path anchor text word).2
    rw [shown] at boolean
    exact absurd (Option.some.inj boolean) (plain anchor text)
  · have wordless : ∀ anchor text, ¬ tree.WordAt TagMark.IsFree path anchor text :=
      fun anchor text here => word ⟨anchor, text, here⟩
    rw [others path wordless, shown]

end Tree

/-- A text is composed in both dialects: neither has a node, for the same fault or because the text
states none, or they have the nodes of one tree. -/
inductive Composed (text : List Char) :
    (document configuration : Except Fault (Option Node)) → Prop
  | malformed {fault : Fault} (failed : Tree.ofText text = .error fault) :
      Composed text (.error fault) (.error fault)
  | empty (nothing : Tree.ofText text = .ok none) : Composed text (.ok none) (.ok none)
  | node {tree : Tree} {document configuration : Node} (stated : Tree.ofText text = .ok (some tree))
      (apart : tree.ReadApart TagMark.IsFree document configuration) :
      Composed text (.ok (some document)) (.ok (some configuration))

/-- No scalar of the text that is left to its text spells one of the words. -/
def Wordless (text : List Char) : Prop :=
  ∀ tree, Tree.ofText text = .ok (some tree) →
    ∀ path anchor word, ¬ tree.WordAt TagMark.IsFree path anchor word

theorem compose_eq_of_wordless {text : List Char} (wordless : Wordless text) :
    compose .document text = compose .configuration text := by
  unfold compose
  cases written : Tree.ofText text with
  | error fault => rfl
  | ok stated =>
    cases stated with
    | none => rfl
    | some tree =>
      have same : tree.resolve .document = tree.resolve .configuration := by
        refine Node.eq_of_face? _ _ fun path => ?_
        exact tree.readApart.others path (wordless tree written path)
      simp [Except.map, same]

/-- Both dialects read a text alike but for the words among the scalars that are left to their texts,
which are those that are plain and have no tag and those with an exclamation mark alone. -/
theorem dialects_read_apart (text : List Char) :
    Composed text (compose .document text) (compose .configuration text) ∧
    (∀ plain tag, (Tree.scalarMark plain tag).IsFree ↔ plain = true ∧ tag = none ∨ tag = some "!") ∧
    (Wordless text → ∀ arrange, load arrange .document text = load arrange .configuration text ∧
      ∀ bytes, decodeText? bytes = some text →
        YamlFile.parse arrange .document bytes = YamlFile.parse arrange .configuration bytes) := by
  refine ⟨?_, fun plain tag => Tree.isFree_scalarMark,
    fun wordless arrange => ?_⟩
  · unfold compose
    cases written : Tree.ofText text with
    | error fault => exact .malformed written
    | ok stated =>
      cases stated with
      | none => exact .empty written
      | some tree => exact .node written tree.readApart
  · have loaded : load arrange .document text = load arrange .configuration text := by
      unfold load
      rw [compose_eq_of_wordless wordless]
    refine ⟨loaded, fun bytes decoded => ?_⟩
    unfold YamlFile.parse
    rw [decoded]
    dsimp only
    rw [loaded]

/-- A word in quotes, behind an exclamation mark. -/
def quotedYes : List Char := "! 'yes'".toList

/-- It is not only plain scalars without a tag that the dialects read apart: `quotedYes` has none, and is
a text to the one and a truth value to the other. -/
theorem not_readApart_plain :
    Token.ofText quotedYes = [.tag none "!", .scalar "yes" false, .streamEnd] ∧
    load id .document quotedYes = .ok (.text "yes") ∧
    load id .configuration quotedYes = .ok (.bool true) ∧
    ¬ ∀ (text : List Char) (tree : Tree), Tree.ofText text = .ok (some tree) →
      tree.ReadApart (· = .plain) (tree.resolve .document) (tree.resolve .configuration) := by
  have written : Tree.ofText quotedYes = .ok (some (.scalar none .nonSpecific "yes")) := rfl
  refine ⟨by decide, ?_, ?_, fun every => ?_⟩
  · unfold load compose
    rw [written]
    rfl
  · unfold load compose
    rw [written]
    rfl
  · have apart := every _ _ written
    have same := apart.others [] fun anchor text word => by
      obtain ⟨mark, found, plain, -⟩ := word
      cases found
      cases plain
    have different : (Tree.resolve .document (.scalar none .nonSpecific "yes")).face? [] ≠
        (Tree.resolve .configuration (.scalar none .nonSpecific "yes")).face? [] := by decide
    exact different same

end SchemaTables.Yaml
