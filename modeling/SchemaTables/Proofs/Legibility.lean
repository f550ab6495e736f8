import Mathlib.Data.List.Infix
import SchemaTables.Page.Html

/-!
# What a page tells

A text from a document ends on its page at the next bracket or quote of the markup, and the markup
around it tells what it stands for. So two pages with the same characters show the same tables.
Brackets and quotes are on a page as if all its texts were blank, and it opens a table for every
table that it shows.
-/
namespace SchemaTables

namespace Markup
variable {rest more : List Char}

/-- A bracket or a quote comes first. -/
def Fenced (text : List Char) : Prop := text.head?.any isDelimiter = true

theorem fenced_append {first : String} (fenced : first.toList.head?.any isDelimiter = true) :
    Fenced (first.toList ++ rest) := by
  unfold Fenced
  cases h : first.toList with
  | nil =>
    rw [h] at fenced
    cases fenced
  | cons c cs => rwa [h] at fenced

theorem takeWhile_escape (text : String) (fenced : Fenced rest) :
    ((escape text).toList ++ rest).takeWhile (fun c => !isDelimiter c) = (escape text).toList := by
  cases rest with
  | nil => cases fenced
  | cons c cs =>
    have delimiter : isDelimiter c = true := fenced
    have inside : ∀ c ∈ (escape text).toList, (!isDelimiter c) = true := by
      intro c hc
      rw [isDelimiter_of_mem_escape hc]
      rfl
    rw [List.takeWhile_append_of_pos inside, List.takeWhile_cons_of_neg (by simp [delimiter]),
      List.append_nil]

/-- What is written of a text, with a fence behind it, tells the text and where it ends. -/
theorem escape_append_inj {text other : String} (fenced : Fenced rest) (fenced' : Fenced more)
    (same : (escape text).toList ++ rest = (escape other).toList ++ more) :
    text = other ∧ rest = more := by
  have written := congrArg (List.takeWhile fun c => !isDelimiter c) same
  rw [takeWhile_escape text fenced, takeWhile_escape other fenced'] at written
  rw [written] at same
  exact ⟨escape_inj.mp (String.toList_inj.mp written), List.append_cancel_left same⟩

/-- A text that begins in the one way does not begin in the other. -/
theorem append_ne_append {first second : String}
    (apart : ¬ first.toList <+: second.toList ∧ ¬ second.toList <+: first.toList) :
    first.toList ++ rest ≠ second.toList ++ more := by
  intro same
  rcases List.prefix_or_prefix_of_prefix (List.prefix_append first.toList rest)
    (same ▸ List.prefix_append second.toList more) with begins | begins
  · exact apart.1 begins
  · exact apart.2 begins

theorem toList_join_cons (first : String) (others : List String) :
    (String.join (first :: others)).toList ++ rest =
      first.toList ++ ((String.join others).toList ++ rest) := by
  rw [String.join_cons, String.toList_append, List.append_assoc]

theorem toList_join_nil : (String.join []).toList ++ rest = rest := by
  rw [String.join_nil, String.toList_empty, List.nil_append]

/-- How often `mark` stands in a text. -/
def occurrences (mark : List Char) : List Char → Nat
  | [] => 0
  | c :: cs => occurrences mark cs + if mark.isPrefixOf (c :: cs) then 1 else 0

/-- Wherever the text stands, it opens so many tables. -/
def Opens (count : Nat) (text : String) : Prop :=
  ∀ rest, occurrences "<table".toList (text.toList ++ rest) =
    occurrences "<table".toList rest + count

namespace Opens
variable {first second : String} {count others : Nat}

theorem append (h : Opens count first) (h' : Opens others second) :
    Opens (others + count) (first ++ second) := by
  intro rest
  rw [String.toList_append, List.append_assoc, h, h', Nat.add_assoc]

theorem join_nil : Opens 0 (String.join []) := fun _ => by rw [toList_join_nil, Nat.add_zero]

theorem join_cons {rest : List String} (h : Opens count first)
    (h' : Opens others (String.join rest)) : Opens (others + count) (String.join (first :: rest)) := by
  rw [String.join_cons]
  exact h.append h'

theorem join_one (h : Opens count first) : Opens count (String.join [first]) := by
  have all := h.join_cons join_nil
  rwa [Nat.zero_add] at all

theorem join_map {β : Type} {text : β → String} {items : List β}
    (h : ∀ item ∈ items, Opens count (text item)) :
    Opens (items.length * count) (String.join (items.map text)) := by
  induction items with
  | nil =>
    rw [List.length_nil, Nat.zero_mul]
    exact join_nil
  | cons item items ih =>
    obtain ⟨here, later⟩ := List.forall_mem_cons.mp h
    have all := here.join_cons (ih later)
    rwa [← Nat.succ_mul] at all

/-- Without an opening bracket no table is opened. -/
theorem of_plain {text : String} (plain : ∀ c ∈ text.toList, c ≠ '<') : Opens 0 text := by
  intro rest
  generalize text.toList = cs at plain ⊢
  induction cs with
  | nil => rfl
  | cons c cs ih =>
    obtain ⟨here, later⟩ := List.forall_mem_cons.mp plain
    have no : "<table".toList.isPrefixOf (c :: (cs ++ rest)) = false := by
      simp [List.isPrefixOf, here.symm]
    rw [List.cons_append, occurrences, no, ih later]
    rfl

theorem of_all {text : String} (plain : text.toList.all (· != '<') = true) : Opens 0 text := by
  apply of_plain
  simpa using plain

theorem escape (text : String) : Opens 0 (escape text) := by
  apply of_plain
  rintro c hc rfl
  cases isDelimiter_of_mem_escape hc

end Opens

/-- The brackets and quotes of a text, in order. -/
def delimiters (text : String) : List Char := text.toList.filter isDelimiter

@[simp] theorem delimiters_append (first second : String) :
    delimiters (first ++ second) = delimiters first ++ delimiters second := by
  rw [delimiters, String.toList_append, List.filter_append]
  rfl

@[simp] theorem delimiters_join (texts : List String) :
    delimiters (String.join texts) = texts.flatMap delimiters := by
  rw [delimiters, String.toList_join, List.filter_flatMap]
  rfl

@[simp] theorem delimiters_escape (text : String) : delimiters (escape text) = [] :=
  List.filter_eq_nil_iff.mpr fun c hc => by simp [isDelimiter_of_mem_escape hc]

end Markup

def TypeCell.blank (cell : TypeCell) : TypeCell :=
  ⟨"", cell.link.map fun _ => "", cell.enumeration.map fun _ => ""⟩

/-- A row without its texts: whether a field is required stays. -/
def Row.blank (row : Row) : Row :=
  ⟨row.field.map fun field => ("", field.2), row.type.blank, row.description.map fun _ => ""⟩

namespace Table

/-- Each row has the columns that the head of the table names. -/
structure Regular (table : Table) : Prop where
  named : ∀ row ∈ table.rows, row.field.isSome = (table.template == .object)
  described : ∀ row ∈ table.rows, row.description.isSome = table.showsDescriptions

theorem regular_ofNode {α : Type} [BEq α] (catalog : Catalog α) (descriptions : Bool)
    (template : Template) (node : Node α) :
    (ofNode catalog descriptions template node).Regular := by
  constructor
  · intro row hrow
    cases template with
    | object =>
      obtain ⟨field, -, rfl⟩ := List.mem_map.mp hrow
      rfl
    | composed =>
      obtain ⟨slot, -, rfl⟩ := List.mem_map.mp hrow
      rfl
  · intro row hrow
    cases template with
    | object =>
      obtain ⟨field, -, rfl⟩ := List.mem_map.mp hrow
      cases descriptions <;> rfl
    | composed =>
      obtain ⟨slot, -, rfl⟩ := List.mem_map.mp hrow
      cases descriptions <;> rfl

/-- The table with all its texts blank. -/
def blank (table : Table) : Table := { table with
  id := "", caption := "", description := table.description.map fun _ => ""
  rows := table.rows.map Row.blank }

end Table

namespace Html
open Markup

def labelText (label : String) : Option String → String
  | some id => String.join ["<a href=\"#", escape id, "\">", escape label, "</a>"]
  | none => escape label

def membersText : Option String → String
  | some members => String.join ["<br>", escape members]
  | none => ""

theorem typeText_eq (cell : TypeCell) :
    typeText cell = labelText cell.label cell.link ++ membersText cell.enumeration := by
  obtain ⟨label, link, enumeration⟩ := cell
  cases link <;> cases enumeration <;> simp [typeText, labelText, membersText]

variable {rest more : List Char}

theorem fenced_close (rest : List Char) : Fenced ("</td>\n".toList ++ rest) :=
  fenced_append (by decide)

theorem fenced_members (members : Option String) (rest : List Char) :
    Fenced ((membersText members).toList ++ ("</td>\n".toList ++ rest)) := by
  cases members with
  | none => exact fenced_close rest
  | some members =>
    rw [membersText, toList_join_cons]
    exact fenced_append (by decide)

theorem membersText_append_inj {members others : Option String}
    (same : (membersText members).toList ++ ("</td>\n".toList ++ rest) =
      (membersText others).toList ++ ("</td>\n".toList ++ more)) :
    members = others ∧ rest = more := by
  cases members with
  | none =>
    cases others with
    | none => exact ⟨rfl, List.append_cancel_left same⟩
    | some others =>
      rw [membersText, membersText, toList_join_cons, String.toList_empty, List.nil_append] at same
      exact absurd same (append_ne_append (by decide))
  | some members =>
    cases others with
    | none =>
      rw [membersText, membersText, toList_join_cons, String.toList_empty, List.nil_append] at same
      exact absurd same (append_ne_append (by decide))
    | some others =>
      simp only [membersText, toList_join_cons, toList_join_nil] at same
      have shown := List.append_cancel_left same
      obtain ⟨equal, close⟩ := escape_append_inj (fenced_close rest) (fenced_close more) shown
      exact ⟨congrArg some equal, List.append_cancel_left close⟩

/-- A label does not begin as a link does. -/
theorem label_ne_link {label : String} {members : Option String} {tail : List Char} :
    (escape label).toList ++ ((membersText members).toList ++ ("</td>\n".toList ++ rest)) ≠
      "<a href=\"#".toList ++ tail := by
  intro same
  have opens : Fenced ("<a href=\"#".toList ++ tail) := fenced_append (by decide)
  have blank : (escape "").toList = [] := rfl
  rw [← List.nil_append ("<a href=\"#".toList ++ tail), ← blank] at same
  obtain ⟨-, begins⟩ := escape_append_inj (fenced_members members rest) opens same
  cases members with
  | none =>
    rw [membersText, String.toList_empty, List.nil_append] at begins
    exact append_ne_append (by decide) begins
  | some members =>
    rw [membersText, toList_join_cons] at begins
    exact append_ne_append (by decide) begins

theorem link_append_inj {label other id id' : String}
    (same : (labelText label (some id)).toList ++ rest = (labelText other (some id')).toList ++ more) :
    label = other ∧ id = id' ∧ rest = more := by
  simp only [labelText, toList_join_cons, toList_join_nil] at same
  have linked := List.append_cancel_left same
  obtain ⟨ids, quoted⟩ := escape_append_inj (fenced_append (by decide)) (fenced_append (by decide))
    linked
  have labelled := List.append_cancel_left quoted
  obtain ⟨labels, closed⟩ := escape_append_inj (fenced_append (by decide))
    (fenced_append (by decide)) labelled
  exact ⟨labels, ids, List.append_cancel_left closed⟩

theorem typeText_append_inj {cell other : TypeCell}
    (same : (typeText cell).toList ++ ("</td>\n".toList ++ rest) =
      (typeText other).toList ++ ("</td>\n".toList ++ more)) : cell = other ∧ rest = more := by
  obtain ⟨label, link, members⟩ := cell
  obtain ⟨label', link', members'⟩ := other
  simp only [typeText_eq, String.toList_append, List.append_assoc] at same
  cases link with
  | none =>
    cases link' with
    | none =>
      obtain ⟨labels, ends⟩ := escape_append_inj (fenced_members ..) (fenced_members ..) same
      obtain ⟨shown, tail⟩ := membersText_append_inj ends
      exact ⟨by rw [labels, shown], tail⟩
    | some id' =>
      rw [labelText, labelText, toList_join_cons] at same
      exact absurd same label_ne_link
  | some id =>
    cases link' with
    | none =>
      rw [labelText, labelText, toList_join_cons] at same
      exact absurd same.symm label_ne_link
    | some id' =>
      obtain ⟨labels, ids, ends⟩ := link_append_inj same
      obtain ⟨shown, tail⟩ := membersText_append_inj ends
      exact ⟨by rw [labels, ids, shown], tail⟩

theorem toList_cell (content : String) :
    (cell content).toList ++ rest =
      "      <td class=\"tg-0lax\">".toList ++ (content.toList ++ ("</td>\n".toList ++ rest)) := by
  rw [cell, toList_join_cons, toList_join_cons, toList_join_cons, toList_join_nil]

theorem cell_escape_append_inj {text other : String}
    (same : (cell (escape text)).toList ++ rest = (cell (escape other)).toList ++ more) :
    text = other ∧ rest = more := by
  rw [toList_cell, toList_cell] at same
  have shown := List.append_cancel_left same
  obtain ⟨texts, closed⟩ := escape_append_inj (fenced_close rest) (fenced_close more) shown
  exact ⟨texts, List.append_cancel_left closed⟩

theorem cell_typeText_append_inj {type other : TypeCell}
    (same : (cell (typeText type)).toList ++ rest = (cell (typeText other)).toList ++ more) :
    type = other ∧ rest = more := by
  rw [toList_cell, toList_cell] at same
  exact typeText_append_inj (List.append_cancel_left same)

theorem cell_required_append_inj {required other : Bool}
    (same : (cell (if required then "yes" else "")).toList ++ rest =
      (cell (if other then "yes" else "")).toList ++ more) : required = other ∧ rest = more := by
  have plain : ∀ mark : Bool, (if mark then "yes" else "") = escape (if mark then "yes" else "") := by
    decide
  have told : ∀ mark other : Bool,
      (if mark then "yes" else "") = (if other then "yes" else "") → mark = other := by
    decide
  rw [plain required, plain other] at same
  obtain ⟨marks, tail⟩ := cell_escape_append_inj same
  exact ⟨told required other marks, tail⟩

def nameText : Option (String × Bool) → String
  | some (name, _) => cell (escape name)
  | none => ""

def requiredText : Option (String × Bool) → String
  | some (_, required) => cell (if required then "yes" else "")
  | none => ""

def descriptionText : Option String → String
  | some description => cell (escape description)
  | none => ""

theorem toList_rowText (row : Row) :
    (rowText row).toList ++ rest = "    <tr>\n".toList ++ ((nameText row.field).toList ++
      ((cell (typeText row.type)).toList ++ ((requiredText row.field).toList ++
        ((descriptionText row.description).toList ++ ("    </tr>\n".toList ++ rest))))) := by
  simp only [rowText, toList_join_cons, toList_join_nil]
  rfl

theorem descriptionText_append_inj {description other : Option String}
    (described : description.isSome = other.isSome)
    (same : (descriptionText description).toList ++ rest = (descriptionText other).toList ++ more) :
    description = other ∧ rest = more := by
  cases description with
  | none =>
    cases other with
    | none => exact ⟨rfl, List.append_cancel_left same⟩
    | some _ => cases described
  | some description =>
    cases other with
    | none => cases described
    | some other =>
      obtain ⟨texts, tail⟩ := cell_escape_append_inj same
      exact ⟨congrArg some texts, tail⟩

/-- A row tells its cells, once it is known which it has. -/
theorem rowText_append_inj {row other : Row} (named : row.field.isSome = other.field.isSome)
    (described : row.description.isSome = other.description.isSome)
    (same : (rowText row).toList ++ rest = (rowText other).toList ++ more) :
    row = other ∧ rest = more := by
  obtain ⟨field, type, description⟩ := row
  obtain ⟨field', type', description'⟩ := other
  rw [toList_rowText, toList_rowText] at same
  have opened := List.append_cancel_left same
  dsimp only at opened named described
  cases field with
  | none =>
    cases field' with
    | some _ => cases named
    | none =>
      simp only [nameText, requiredText, String.toList_empty, List.nil_append] at opened
      obtain ⟨types, marked⟩ := cell_typeText_append_inj opened
      obtain ⟨descriptions, closed⟩ := descriptionText_append_inj described marked
      exact ⟨by rw [types, descriptions], List.append_cancel_left closed⟩
  | some field =>
    cases field' with
    | none => cases named
    | some field' =>
      obtain ⟨names, typed⟩ := cell_escape_append_inj opened
      obtain ⟨types, marked⟩ := cell_typeText_append_inj typed
      obtain ⟨marks, noted⟩ := cell_required_append_inj marked
      obtain ⟨descriptions, closed⟩ := descriptionText_append_inj described noted
      exact ⟨by rw [types, descriptions, Prod.ext names marks], List.append_cancel_left closed⟩

/-- Rows that all have the same columns are told one by one, up to the end of the table. -/
theorem rows_append_inj {rows others : List Row} {named described : Bool}
    (regular : ∀ row ∈ rows, row.field.isSome = named ∧ row.description.isSome = described)
    (regular' : ∀ row ∈ others, row.field.isSome = named ∧ row.description.isSome = described)
    (same : (String.join (rows.map rowText)).toList ++ ("  </tbody>\n</table>\n".toList ++ rest) =
      (String.join (others.map rowText)).toList ++ ("  </tbody>\n</table>\n".toList ++ more)) :
    rows = others ∧ rest = more := by
  induction rows generalizing others with
  | nil =>
    cases others with
    | nil => exact ⟨rfl, List.append_cancel_left same⟩
    | cons other others =>
      rw [List.map_nil, toList_join_nil, List.map_cons, toList_join_cons, toList_rowText] at same
      exact absurd same (append_ne_append (by decide))
  | cons row rows ih =>
    cases others with
    | nil =>
      rw [List.map_nil, toList_join_nil, List.map_cons, toList_join_cons, toList_rowText] at same
      exact absurd same.symm (append_ne_append (by decide))
    | cons other others =>
      obtain ⟨here, later⟩ := List.forall_mem_cons.mp regular
      obtain ⟨here', later'⟩ := List.forall_mem_cons.mp regular'
      rw [List.map_cons, List.map_cons, toList_join_cons, toList_join_cons] at same
      obtain ⟨first, tail⟩ := rowText_append_inj (here.1.trans here'.1.symm)
        (here.2.trans here'.2.symm) same
      obtain ⟨rest, tail⟩ := ih later later' tail
      exact ⟨by rw [first, rest], tail⟩

/-- The row that describes a whole schema. -/
def noteText (template : Template) : Option String → String
  | some description => String.join ["  <tr><td class=\"tg-0lax\" colspan=\"", span template, "\">",
      escape description, "</td></tr>\n"]
  | none => ""

/-- Spans have one digit each, which tells them apart. -/
theorem span_append_cancel {template other : Template}
    (same : (span template).toList ++ rest = (span other).toList ++ more) : rest = more := by
  cases template with
  | object =>
    cases other with
    | object => exact List.append_cancel_left same
    | composed => exact absurd same (append_ne_append (by decide))
  | composed =>
    cases other with
    | object => exact absurd same (append_ne_append (by decide))
    | composed => exact List.append_cancel_left same

theorem noteText_append_inj {template other : Template} {note note' : Option String}
    (same : (noteText template note).toList ++ ("  <thead>\n    <tr>".toList ++ rest) =
      (noteText other note').toList ++ ("  <thead>\n    <tr>".toList ++ more)) :
    note = note' ∧ rest = more := by
  cases note with
  | none =>
    cases note' with
    | none => exact ⟨rfl, List.append_cancel_left same⟩
    | some _ =>
      rw [noteText, noteText, toList_join_cons, String.toList_empty, List.nil_append] at same
      exact absurd same (append_ne_append (by decide))
  | some note =>
    cases note' with
    | none =>
      rw [noteText, noteText, toList_join_cons, String.toList_empty, List.nil_append] at same
      exact absurd same (append_ne_append (by decide))
    | some note' =>
      simp only [noteText, toList_join_cons, toList_join_nil] at same
      have quoted := span_append_cancel (List.append_cancel_left same)
      have shown := List.append_cancel_left quoted
      obtain ⟨notes, closed⟩ := escape_append_inj (fenced_append (by decide))
        (fenced_append (by decide)) shown
      have headed := List.append_cancel_left closed
      exact ⟨congrArg some notes, List.append_cancel_left headed⟩

/-- The names of the columns, up to the first row. -/
def headText (template : Template) (descriptions : Bool) : String :=
  String.join ((columns template ++ if descriptions then ["Description"] else []).map
    fun column => String.join ["<th>", column, "</th>"]) ++ "</tr>\n  </thead>\n  <tbody>\n"

theorem headText_append_inj {template other : Template} {descriptions descriptions' : Bool}
    (same : (headText template descriptions).toList ++ rest =
      (headText other descriptions').toList ++ more) :
    template = other ∧ descriptions = descriptions' ∧ rest = more := by
  have apart : ∀ template other descriptions descriptions',
      (headText template descriptions).toList <+: (headText other descriptions').toList →
        template = other ∧ descriptions = descriptions' := by
    intro template other descriptions descriptions'
    cases template <;> cases other <;> cases descriptions <;> cases descriptions' <;> decide
  have heads : template = other ∧ descriptions = descriptions' := by
    rcases List.prefix_or_prefix_of_prefix (List.prefix_append _ rest)
      (same ▸ List.prefix_append _ more) with begins | begins
    · exact apart _ _ _ _ begins
    · obtain ⟨templates, shown⟩ := apart _ _ _ _ begins
      exact ⟨templates.symm, shown.symm⟩
  obtain ⟨rfl, rfl⟩ := heads
  exact ⟨rfl, rfl, List.append_cancel_left same⟩

theorem toList_tableText (table : Table) :
    (tableText table).toList ++ rest = "<table class=\"tg\" id=\"".toList ++
      ((escape table.id).toList ++ ("\">\n".toList ++ ("  <caption>".toList ++
        ((escape table.caption).toList ++ ("</caption>\n".toList ++
          ((noteText table.template table.description).toList ++ ("  <thead>\n    <tr>".toList ++
            ((headText table.template table.showsDescriptions).toList ++
              ((String.join (table.rows.map rowText)).toList ++
                ("  </tbody>\n</table>\n".toList ++ rest)))))))))) := by
  simp only [tableText, headText, toList_join_cons, toList_join_nil, String.toList_append,
    List.append_assoc]
  rfl

theorem tableText_append_inj {table other : Table} (regular : table.Regular)
    (regular' : other.Regular)
    (same : (tableText table).toList ++ rest = (tableText other).toList ++ more) :
    table = other ∧ rest = more := by
  obtain ⟨template, id, caption, shows, note, rows⟩ := table
  obtain ⟨template', id', caption', shows', note', rows'⟩ := other
  rw [toList_tableText, toList_tableText] at same
  dsimp only at same
  obtain ⟨ids, quoted⟩ := escape_append_inj (fenced_append (by decide)) (fenced_append (by decide))
    (List.append_cancel_left same)
  have captioned := List.append_cancel_left (List.append_cancel_left quoted)
  obtain ⟨captions, ended⟩ := escape_append_inj (fenced_append (by decide))
    (fenced_append (by decide)) captioned
  obtain ⟨notes, headed⟩ := noteText_append_inj (List.append_cancel_left ended)
  obtain ⟨templates, flags, listed⟩ := headText_append_inj headed
  subst templates flags
  have body : rows = rows' ∧ rest = more := rows_append_inj
    (fun row hrow => ⟨regular.named row hrow, regular.described row hrow⟩)
    (fun row hrow => ⟨regular'.named row hrow, regular'.described row hrow⟩) listed
  exact ⟨by rw [ids, captions, notes, body.1], body.2⟩

theorem tablesText_append_inj {tables others : List Table} (regular : ∀ table ∈ tables, table.Regular)
    (regular' : ∀ table ∈ others, table.Regular)
    (same : (tablesText tables).toList ++ epilogue.toList =
      (tablesText others).toList ++ epilogue.toList) : tables = others := by
  induction tables generalizing others with
  | nil =>
    cases others with
    | nil => rfl
    | cons other others =>
      rw [tablesText, tablesText, List.map_nil, toList_join_nil, List.map_cons, toList_join_cons,
        toList_tableText, ← List.append_nil epilogue.toList] at same
      exact absurd same (append_ne_append (by decide))
  | cons table tables ih =>
    cases others with
    | nil =>
      rw [tablesText, tablesText, List.map_nil, toList_join_nil, List.map_cons, toList_join_cons,
        toList_tableText, ← List.append_nil epilogue.toList] at same
      exact absurd same.symm (append_ne_append (by decide))
    | cons other others =>
      obtain ⟨here, later⟩ := List.forall_mem_cons.mp regular
      obtain ⟨here', later'⟩ := List.forall_mem_cons.mp regular'
      rw [tablesText, tablesText, List.map_cons, List.map_cons, toList_join_cons,
        toList_join_cons] at same
      obtain ⟨first, tail⟩ := tableText_append_inj here here' same
      rw [first, ih later later' tail]

/-- Two pages with the same characters have the same title and show the same tables. -/
theorem page_inj {title title' : String} {tables others : List Table}
    (regular : ∀ table ∈ tables, table.Regular) (regular' : ∀ table ∈ others, table.Regular)
    (same : page title tables = page title' others) : title = title' ∧ tables = others := by
  have opened : ∀ (title : String) (tables : List Table), (page title tables).toList =
      "<!DOCTYPE html>\n<html>\n<head>\n<meta charset=\"utf-8\">\n<title>".toList ++
        ((escape title).toList ++ ("</title>\n".toList ++ ("<style type=\"text/css\">\n".toList ++
          (stylesheet.toList ++ ("</style>\n</head>\n<body>\n".toList ++
            ((tablesText tables).toList ++ epilogue.toList)))))) := by
    intro title tables
    simp only [page, prologue, String.join_cons, String.join_nil, String.toList_append,
      String.toList_empty, List.append_nil, List.append_assoc]
  have characters := congrArg String.toList same
  rw [opened, opened] at characters
  obtain ⟨titles, ended⟩ := escape_append_inj (fenced_append (by decide)) (fenced_append (by decide))
    (List.append_cancel_left characters)
  have styled := List.append_cancel_left (List.append_cancel_left ended)
  have shown := List.append_cancel_left (List.append_cancel_left styled)
  exact ⟨titles, tablesText_append_inj regular regular' shown⟩

theorem opens_typeText (cell : TypeCell) : Opens 0 (typeText cell) := by
  have anchor : Opens 0 "<a href=\"#" := fun _ => rfl
  have quoted : Opens 0 "\">" := fun _ => rfl
  have closed : Opens 0 (String.join ["</a>"]) := .join_one fun _ => rfl
  have broken : Opens 0 "<br>" := fun _ => rfl
  have label : Opens 0 (labelText cell.label cell.link) := by
    cases cell.link with
    | none => exact .escape cell.label
    | some id => exact anchor.join_cons ((Opens.escape id).join_cons
        (quoted.join_cons ((Opens.escape cell.label).join_cons closed)))
  have members : Opens 0 (membersText cell.enumeration) := by
    cases cell.enumeration with
    | none => exact .join_nil
    | some members => exact broken.join_cons ((Opens.escape members).join_cons .join_nil)
  rw [typeText_eq]
  exact label.append members

theorem opens_cell {content : String} (plain : Opens 0 content) : Opens 0 (cell content) := by
  have opened : Opens 0 "      <td class=\"tg-0lax\">" := fun _ => rfl
  have closed : Opens 0 (String.join ["</td>\n"]) := .join_one fun _ => rfl
  exact opened.join_cons (plain.join_cons closed)

theorem opens_rowText (row : Row) : Opens 0 (rowText row) := by
  obtain ⟨field, type, description⟩ := row
  have opened : Opens 0 "    <tr>\n" := fun _ => rfl
  have closed : Opens 0 (String.join ["    </tr>\n"]) := .join_one fun _ => rfl
  have typed := opens_cell (opens_typeText type)
  have described : Opens 0 (descriptionText description) := by
    cases description with
    | none => exact .join_nil
    | some description => exact opens_cell (.escape description)
  have named : Opens 0 (nameText field) := by
    cases field with
    | none => exact .join_nil
    | some field => exact opens_cell (.escape field.1)
  have required : Opens 0 (requiredText field) := by
    cases field with
    | none => exact .join_nil
    | some field =>
      obtain ⟨name, required⟩ := field
      cases required <;> exact opens_cell fun _ => rfl
  exact opened.join_cons (named.join_cons (typed.join_cons (required.join_cons
    (described.join_cons closed))))

theorem opens_headText (template : Template) (descriptions : Bool) :
    Opens 0 (headText template descriptions) := by
  have plain : (columns template ++ if descriptions then ["Description"] else []).all
      (fun name => name.toList.all (· != '<')) = true := by
    cases template <;> cases descriptions <;> rfl
  have opened : Opens 0 "<th>" := fun _ => rfl
  have closed : Opens 0 (String.join ["</th>"]) := .join_one fun _ => rfl
  have ended : Opens 0 "</tr>\n  </thead>\n  <tbody>\n" := fun _ => rfl
  have heads := Opens.join_map fun name hname =>
    opened.join_cons ((Opens.of_all (List.all_eq_true.mp plain name hname)).join_cons closed)
  exact heads.append ended

theorem opens_tableText (table : Table) : Opens 1 (tableText table) := by
  have opened : Opens 1 "<table class=\"tg\" id=\"" := fun _ => rfl
  have quoted : Opens 0 "\">\n" := fun _ => rfl
  have captioned : Opens 0 "  <caption>" := fun _ => rfl
  have uncaptioned : Opens 0 "</caption>\n" := fun _ => rfl
  have noted : Opens 0 (noteText table.template table.description) := by
    cases table.description with
    | none => exact .join_nil
    | some note =>
      have spanned : Opens 0 "  <tr><td class=\"tg-0lax\" colspan=\"" := fun _ => rfl
      have wide : Opens 0 (span table.template) := by cases table.template <;> exact fun _ => rfl
      have closed : Opens 0 "\">" := fun _ => rfl
      have ended : Opens 0 (String.join ["</td></tr>\n"]) := .join_one fun _ => rfl
      exact spanned.join_cons (wide.join_cons (closed.join_cons ((Opens.escape note).join_cons ended)))
  have headed : Opens 0 "  <thead>\n    <tr>" := fun _ => rfl
  have columns := opens_headText table.template table.showsDescriptions
  have rows : Opens (table.rows.length * 0) (String.join (table.rows.map rowText)) :=
    .join_map fun row _ => opens_rowText row
  have ended : Opens 0 "  </tbody>\n</table>\n" := fun _ => rfl
  intro rest
  rw [toList_tableText, opened, Opens.escape, quoted, captioned, Opens.escape, uncaptioned, noted,
    headed, columns, rows, ended, Nat.mul_zero]

set_option maxRecDepth 2000 in
/-- Nothing before the tables opens one. -/
theorem opens_prologue (title : String) : Opens 0 (prologue title) := by
  have line : ∀ {cs : List Char}, cs.all (· != '<') = true → Opens 0 (String.ofList cs) := by
    intro cs plain
    apply Opens.of_all
    rwa [String.toList_ofList]
  have styles : Opens 0 stylesheet :=
    (line rfl).join_cons ((line rfl).join_cons ((line rfl).join_cons ((line rfl).join_cons
      ((line rfl).join_cons ((line rfl).join_cons ((line rfl).join_cons .join_nil))))))
  have opened : Opens 0
      "<!DOCTYPE html>\n<html>\n<head>\n<meta charset=\"utf-8\">\n<title>" := fun _ => rfl
  have titled : Opens 0 "</title>\n" := fun _ => rfl
  have styled : Opens 0 "<style type=\"text/css\">\n" := fun _ => rfl
  have ended : Opens 0 (String.join ["</style>\n</head>\n<body>\n"]) := .join_one fun _ => rfl
  exact opened.join_cons ((Opens.escape title).join_cons
    (titled.join_cons (styled.join_cons (styles.join_cons ended))))

/-- A page opens one table for each that it shows. -/
theorem opens_page (title : String) (tables : List Table) : Opens tables.length (page title tables) := by
  have shown : Opens (tables.length * 1) (tablesText tables) :=
    .join_map fun table _ => opens_tableText table
  have after : Opens 0 (String.join [epilogue]) := .join_one fun _ => rfl
  have all := (opens_prologue title).join_cons (shown.join_cons after)
  rwa [Nat.mul_one, Nat.zero_add, Nat.add_zero] at all

theorem delimiters_rowText (row : Row) : delimiters (rowText row) = delimiters (rowText row.blank) := by
  obtain ⟨field, ⟨label, link, enumeration⟩, description⟩ := row
  cases field <;> cases link <;> cases enumeration <;> cases description <;>
    simp [rowText, typeText, cell, Row.blank, TypeCell.blank]

theorem delimiters_tableText (table : Table) :
    delimiters (tableText table) = delimiters (tableText table.blank) := by
  have rows : table.rows.flatMap (fun row => delimiters (rowText row)) =
      (table.rows.map Row.blank).flatMap fun row => delimiters (rowText row) := by
    rw [List.flatMap_map]
    exact congrArg (List.flatMap · table.rows) (funext delimiters_rowText)
  obtain ⟨template, id, caption, shows, description, rows⟩ := table
  cases description <;> cases shows <;> simp_all [tableText, Table.blank, List.flatMap_map]

/-- The brackets and quotes of a page are those of the same page without its texts. -/
theorem delimiters_page (title : String) (tables : List Table) :
    delimiters (page title tables) = delimiters (page "" (tables.map Table.blank)) := by
  have titled : delimiters (prologue title) = delimiters (prologue "") := by
    simp only [prologue, delimiters_join, List.flatMap_cons, delimiters_escape]
  have shown : delimiters (tablesText tables) = delimiters (tablesText (tables.map Table.blank)) := by
    rw [tablesText, tablesText, delimiters_join, delimiters_join, List.flatMap_map, List.flatMap_map,
      List.flatMap_map]
    exact congrArg (List.flatMap · tables) (funext delimiters_tableText)
  simp only [page, delimiters_join, List.flatMap_cons, titled, shown]

end Html

namespace Walk
variable {α : Type} [BEq α] (catalog : Catalog α) (descriptions : Bool) (walk : Walk α)

theorem regular_of_mem_tables : ∀ table ∈ walk.tables catalog descriptions, table.Regular := by
  rw [tables, List.forall_mem_map]
  exact fun call _ => Table.regular_ofNode catalog descriptions call.template call.node

theorem length_tables : (walk.tables catalog descriptions).length = walk.rendered.length := by
  rw [tables, rendered, List.length_map, List.length_map]

end Walk

/-- The pages of two selections are the same just when their titles and their tables are. The
brackets and quotes of a page do not depend on the texts that it shows, and it opens as many tables
as there are schemas rendered. -/
theorem Catalog.page_tells_tables {α β : Type} [BEq α] [BEq β] (catalog : Catalog α)
    (other : Catalog β) (selection selection' : List String) (descriptions descriptions' : Bool)
    (title title' : String) :
    let walk := catalog.visitSelection selection
    let tables := walk.tables catalog descriptions
    let others := (other.visitSelection selection').tables other descriptions'
    (Html.page title tables = Html.page title' others ↔ title = title' ∧ tables = others) ∧
      Markup.delimiters (Html.page title tables) =
        Markup.delimiters (Html.page "" (tables.map Table.blank)) ∧
      Markup.occurrences "<table".toList (Html.page title tables).toList = walk.rendered.length := by
  intro walk tables others
  have regular : ∀ table ∈ tables, table.Regular := walk.regular_of_mem_tables catalog descriptions
  have regular' : ∀ table ∈ others, table.Regular :=
    (other.visitSelection selection').regular_of_mem_tables other descriptions'
  have opened := Html.opens_page title tables []
  rw [List.append_nil, walk.length_tables] at opened
  refine ⟨⟨Html.page_inj regular regular', ?_⟩, Html.delimiters_page title tables, ?_⟩
  · rintro ⟨titles, shown⟩
    rw [titles, shown]
  · rw [opened]
    exact Nat.zero_add _

end SchemaTables
