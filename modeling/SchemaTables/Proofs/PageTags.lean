import SchemaTables.Proofs.Legibility

/-!
# The tags of a page

A reader of markup goes over the characters of a page and hands out its tags with the values of their
attributes, entities read back. What it finds of anchors and of links on a page are those of the
tables, one after the other, whatever characters the identifiers and the other texts are made of.
-/
namespace SchemaTables

namespace Markup

structure Tag where
  name : String
  attributes : List (String × String)
deriving DecidableEq, Repr

/-- A tag with one more attribute, whose value was written with entities. -/
def Tag.add (tag : Tag) (key letters : List Char) : Tag :=
  ⟨tag.name, tag.attributes ++ [(String.ofList key, String.ofList (unescapeChars letters))]⟩

/-- Where a reader stands: in text, in the name of a tag, behind it, or within a quoted value. -/
inductive Mode where
  | text
  | name (letters : List Char)
  | tag (tag : Tag) (letters : List Char)
  | value (tag : Tag) (key letters : List Char)
deriving DecidableEq, Repr

namespace Mode

def next : Mode → Char → Mode
  | text, c => if c = '<' then name [] else text
  | name letters, c =>
    if c = '>' then text
    else if c = ' ' then tag ⟨String.ofList letters, []⟩ []
    else name (letters ++ [c])
  | tag head letters, c =>
    if c = '>' then text
    else if c = '"' then value head letters []
    else if c = ' ' then tag head []
    else if c = '=' then tag head letters
    else tag head (letters ++ [c])
  | value head key letters, c =>
    if c = '"' then tag (head.add key letters) [] else value head key (letters ++ [c])

/-- The tag that a character ends. -/
def ended? : Mode → Char → Option Tag
  | name letters, '>' => some ⟨String.ofList letters, []⟩
  | tag head _, '>' => some head
  | _, _ => none

def after (mode : Mode) (cs : List Char) : Mode := cs.foldl next mode

def tags : Mode → List Char → List Tag
  | _, [] => []
  | mode, c :: cs => (mode.ended? c).toList ++ tags (mode.next c) cs

end Mode

/-- A place on the page that a link can lead to, or such a link. -/
inductive Reading where
  | anchor (id : String)
  | link (id : String)
deriving DecidableEq, Repr

/-- The identifier of a table, or what a link with a hash leads to. -/
def reading? (tag : Tag) : Option Reading :=
  if tag.name = "table" then (tag.attributes.lookup "id").map .anchor
  else if tag.name = "a" then
    match (tag.attributes.lookup "href").map String.toList with
    | some ('#' :: id) => some (.link (String.ofList id))
    | _ => none
  else none

def readings (page : String) : List Reading := (Mode.text.tags page.toList).filterMap reading?

def Reading.anchor? : Reading → Option String
  | anchor id => some id
  | link _ => none

def Reading.link? : Reading → Option String
  | anchor _ => none
  | link id => some id

/-- The identifiers of the tables on a page, in order. -/
def anchors (page : String) : List String := (readings page).filterMap Reading.anchor?

/-- Where the links on a page lead, in order. -/
def links (page : String) : List String := (readings page).filterMap Reading.link?

/-- Over a text, the reader comes from one mode to another and reads `found` on the way. -/
structure Reads (start : Mode) (text : String) (found : List Reading) (stop : Mode) : Prop where
  stop : start.after text.toList = stop
  found : (start.tags text.toList).filterMap reading? = found

namespace Mode

theorem tags_append (mode : Mode) (first second : List Char) :
    mode.tags (first ++ second) = mode.tags first ++ (mode.after first).tags second := by
  induction first generalizing mode with
  | nil => rfl
  | cons c cs ih =>
    rw [List.cons_append, tags, tags, ih, List.append_assoc]
    rfl

/-- Without an opening bracket, text stays text. -/
theorem text_of_plain {cs : List Char} (plain : ∀ c ∈ cs, c ≠ '<') :
    text.after cs = text ∧ text.tags cs = [] := by
  induction cs with
  | nil => exact ⟨rfl, rfl⟩
  | cons c cs ih =>
    obtain ⟨here, later⟩ := List.forall_mem_cons.mp plain
    have stays : text.next c = text := if_neg here
    rw [after, List.foldl_cons, tags, stays]
    exact ih later

/-- Without a quote, a value goes on. -/
theorem value_of_unquoted {head : Tag} {key letters cs : List Char} (unquoted : ∀ c ∈ cs, c ≠ '"') :
    (value head key letters).after cs = value head key (letters ++ cs) ∧
      (value head key letters).tags cs = [] := by
  induction cs generalizing letters with
  | nil =>
    rw [List.append_nil]
    exact ⟨rfl, rfl⟩
  | cons c cs ih =>
    obtain ⟨here, later⟩ := List.forall_mem_cons.mp unquoted
    have stays : (value head key letters).next c = value head key (letters ++ [c]) := if_neg here
    have rest := @ih (letters ++ [c]) later
    rw [List.append_assoc] at rest
    rw [after, List.foldl_cons, tags, stays]
    exact rest

end Mode

theorem ne_of_mem_escape {text : String} {c d : Char} (h : c ∈ (escape text).toList)
    (delimiter : isDelimiter d) : c ≠ d := by
  rintro rfl
  rw [isDelimiter_of_mem_escape h] at delimiter
  cases delimiter

namespace Reads
variable {start middle stop : Mode} {first second : String} {found more : List Reading}

/-- How a literal is read is told from its characters. -/
theorem literal {cs : List Char} (stops : start.after cs = stop)
    (finds : (start.tags cs).filterMap reading? = found) :
    Reads start (String.ofList cs) found stop where
  stop := by rw [String.toList_ofList, stops]
  found := by rw [String.toList_ofList, finds]

theorem append (h : Reads start first found middle) (h' : Reads middle second more stop) :
    Reads start (first ++ second) (found ++ more) stop where
  stop := by rw [String.toList_append, Mode.after, List.foldl_append, ← h'.stop, ← h.stop]; rfl
  found := by
    rw [String.toList_append, Mode.tags_append, List.filterMap_append, h.found, h.stop, h'.found]

theorem of_eq (h : Reads start first found stop) (same : found = more) :
    Reads start first more stop := same ▸ h

theorem join_nil : Reads start (String.join []) [] start := ⟨rfl, rfl⟩

theorem join_cons {rest : List String} (h : Reads start first found middle)
    (h' : Reads middle (String.join rest) more stop) :
    Reads start (String.join (first :: rest)) (found ++ more) stop := by
  rw [String.join_cons]
  exact h.append h'

/-- Pieces that begin and end in the same mode are read one after the other. -/
theorem join_map {β : Type} {text : β → String} {reads : β → List Reading} {items : List β}
    (h : ∀ item ∈ items, Reads start (text item) (reads item) start) :
    Reads start (String.join (items.map text)) (items.flatMap reads) start := by
  induction items with
  | nil => exact join_nil
  | cons item rest ih =>
    obtain ⟨here, later⟩ := List.forall_mem_cons.mp h
    exact here.join_cons (ih later)

theorem of_plain {text : String} (plain : ∀ c ∈ text.toList, c ≠ '<') :
    Reads .text text [] .text := by
  obtain ⟨stops, none⟩ := Mode.text_of_plain plain
  exact ⟨stops, by rw [none]; rfl⟩

theorem escape (text : String) : Reads .text (escape text) [] .text :=
  of_plain fun _ hc => ne_of_mem_escape hc rfl

theorem escape_value (tag : Tag) (key letters : List Char) (text : String) :
    Reads (.value tag key letters) (Markup.escape text) []
      (.value tag key (letters ++ escapeChars text.toList)) := by
  have unquoted : ∀ c ∈ (Markup.escape text).toList, c ≠ '"' :=
    fun _ hc => ne_of_mem_escape hc rfl
  obtain ⟨stops, none⟩ := Mode.value_of_unquoted unquoted
  refine ⟨?_, by rw [none]; rfl⟩
  rw [stops, Markup.escape, String.toList_ofList]

/-- The quote and the bracket that end a value and its tag. -/
theorem closed (tag : Tag) (key letters : List Char) :
    Reads (.value tag key letters) "\">" (reading? (tag.add key letters)).toList .text := by
  refine ⟨rfl, ?_⟩
  have ended : (Mode.value tag key letters).tags "\">".toList = [tag.add key letters] := rfl
  rw [ended, List.filterMap_cons]
  cases reading? (tag.add key letters) <;> rfl

end Reads

theorem reading?_anchor (id : String) :
    reading? (Tag.add ⟨"table", [("class", "tg")]⟩ "id".toList (escapeChars id.toList)) =
      some (.anchor id) := by
  rw [Tag.add, unescapeChars_escapeChars]
  simp [reading?, List.lookup_cons]

theorem reading?_link (id : String) :
    reading? (Tag.add ⟨"a", []⟩ "href".toList ("#".toList ++ escapeChars id.toList)) =
      some (.link id) := by
  have hash : unescapeChars ("#".toList ++ escapeChars id.toList) = '#' :: id.toList :=
    congrArg ('#' :: ·) (unescapeChars_escapeChars id.toList)
  have value : reading? ⟨"a", [("href", String.ofList ('#' :: id.toList))]⟩ = some (.link id) := by
    simp [reading?]
  rw [Tag.add, hash]
  exact value

end Markup

namespace Html
open Markup

/-- What a reader finds of a row. -/
def rowReadings (row : Row) : List Reading := (row.type.link.map .link).toList

/-- What a reader finds of a table: its anchor, and the links of its rows. -/
def tableReadings (table : Table) : List Reading :=
  .anchor table.id :: (table.rows.filterMap (·.type.link)).map .link

theorem flatMap_rowReadings (rows : List Row) :
    rows.flatMap rowReadings = (rows.filterMap (·.type.link)).map .link := by
  induction rows with
  | nil => rfl
  | cons row rest ih =>
    rw [List.flatMap_cons, ih, rowReadings, List.filterMap_cons]
    cases row.type.link <;> rfl

theorem reads_link (id label : String) :
    Reads .text (String.join ["<a href=\"#", escape id, "\">", escape label, "</a>"]) [.link id]
      .text := by
  have opened : Reads .text "<a href=\"#" [] (.value ⟨"a", []⟩ "href".toList "#".toList) := .literal rfl rfl
  have closed := Reads.closed ⟨"a", []⟩ "href".toList ("#".toList ++ escapeChars id.toList)
  rw [reading?_link] at closed
  have ended : Reads .text "</a>" [] .text := .literal rfl rfl
  exact opened.join_cons ((Reads.escape_value ..).join_cons
    (closed.join_cons ((Reads.escape label).join_cons (ended.join_cons .join_nil))))

example : links "<a href=\"#R&amp;D\">lent</a>" = ["R&D"] := rfl

theorem reads_typeText (cell : TypeCell) :
    Reads .text (typeText cell) (cell.link.map .link).toList .text := by
  obtain ⟨label, link, enumeration⟩ := cell
  have members : Reads .text (String.join [membersText enumeration]) [] .text := by
    cases enumeration with
    | none => exact Reads.join_cons (.literal rfl rfl) .join_nil
    | some members =>
      have broken : Reads .text "<br>" [] .text := .literal rfl rfl
      exact (broken.join_cons ((Reads.escape members).join_cons .join_nil)).join_cons .join_nil
  cases link with
  | none => exact (Reads.escape label).join_cons members
  | some id => exact (reads_link id label).join_cons members

theorem reads_cell {content : String} {found : List Reading} (h : Reads .text content found .text) :
    Reads .text (cell content) found .text := by
  have opened : Reads .text "      <td class=\"tg-0lax\">" [] .text := .literal rfl rfl
  have closed : Reads .text "</td>\n" [] .text := .literal rfl rfl
  have all := opened.join_cons (h.join_cons (closed.join_cons .join_nil))
  exact all.of_eq (by simp)

theorem reads_rowText (row : Row) : Reads .text (rowText row) (rowReadings row) .text := by
  obtain ⟨field, type, description⟩ := row
  have opened : Reads .text "    <tr>\n" [] .text := .literal rfl rfl
  have closed : Reads .text (String.join ["    </tr>\n"]) [] .text :=
    Reads.join_cons (.literal rfl rfl) .join_nil
  have nothing : Reads .text "" [] .text := .literal rfl rfl
  have described : Reads .text (descriptionText description) [] .text := by
    cases description with
    | none => exact nothing
    | some description => exact reads_cell (.escape description)
  have typed := reads_cell (reads_typeText type)
  cases field with
  | none =>
    have all := opened.join_cons (nothing.join_cons (typed.join_cons (nothing.join_cons
      (described.join_cons closed))))
    exact all.of_eq (by simp [rowReadings])
  | some named =>
    obtain ⟨name, required⟩ := named
    have mandatory : Reads .text (cell (if required then "yes" else "")) [] .text := by
      cases required <;> exact reads_cell (.literal rfl rfl)
    have all := opened.join_cons ((reads_cell (.escape name)).join_cons (typed.join_cons
      (mandatory.join_cons (described.join_cons closed))))
    exact all.of_eq (by simp [rowReadings])

theorem reads_columns (names : List String) (plain : ∀ name ∈ names, Reads .text name [] .text) :
    Reads .text (String.join (names.map fun column => String.join ["<th>", column, "</th>"])) []
      .text := by
  have opened : Reads .text "<th>" [] .text := .literal rfl rfl
  have closed : Reads .text "</th>" [] .text := .literal rfl rfl
  have column : ∀ name ∈ names, Reads .text (String.join ["<th>", name, "</th>"]) [] .text := by
    intro name hname
    exact opened.join_cons ((plain name hname).join_cons (closed.join_cons .join_nil))
  exact (Reads.join_map column).of_eq (by simp)

/-- The row that describes a whole schema. -/
theorem reads_description (template : Template) (description : Option String) :
    Reads .text (match description with
      | some description => String.join ["  <tr><td class=\"tg-0lax\" colspan=\"", span template,
          "\">", escape description, "</td></tr>\n"]
      | none => "") [] .text := by
  cases description with
  | none => exact (.literal rfl rfl)
  | some description =>
    let cell : Tag := ⟨"td", [("class", "tg-0lax")]⟩
    have opened : Reads .text "  <tr><td class=\"tg-0lax\" colspan=\"" []
        (.value cell "colspan".toList []) := .literal rfl rfl
    have spanned : Reads (.value cell "colspan".toList []) (span template) []
        (.value cell "colspan".toList ([] ++ (span template).toList)) := by
      cases template <;> exact (.literal rfl rfl)
    have closed := Reads.closed cell "colspan".toList ([] ++ (span template).toList)
    have ended : Reads .text "</td></tr>\n" [] .text := .literal rfl rfl
    have all := opened.join_cons (spanned.join_cons (closed.join_cons
      ((Reads.escape description).join_cons (ended.join_cons .join_nil))))
    exact all.of_eq (by simp [reading?, Tag.add, cell])

theorem reads_header (template : Template) (showsDescriptions : Bool) :
    Reads .text (String.join ((columns template ++
        if showsDescriptions then ["Description"] else []).map
      fun column => String.join ["<th>", column, "</th>"])) [] .text := by
  have field : Reads .text "Field" [] .text := .literal rfl rfl
  have type : Reads .text "Type" [] .text := .literal rfl rfl
  have required : Reads .text "Required" [] .text := .literal rfl rfl
  have description : Reads .text "Description" [] .text := .literal rfl rfl
  apply reads_columns
  cases template <;> cases showsDescriptions <;> simp [columns, field, type, required, description]

theorem reads_tableText (table : Table) :
    Reads .text (tableText table) (tableReadings table) .text := by
  let tag : Tag := ⟨"table", [("class", "tg")]⟩
  let letters := escapeChars table.id.toList
  have opened : Reads .text "<table class=\"tg\" id=\"" [] (.value tag "id".toList []) := .literal rfl rfl
  have identified := Reads.escape_value tag "id".toList [] table.id
  have closed : Reads (.value tag "id".toList letters) "\">\n" ([.anchor table.id] ++ []) .text := by
    have quoted := Reads.closed tag "id".toList letters
    rw [reading?_anchor] at quoted
    have broken : Reads .text "\n" [] .text := .literal rfl rfl
    exact quoted.append broken
  have captioned : Reads .text "  <caption>" [] .text := .literal rfl rfl
  have uncaptioned : Reads .text "</caption>\n" [] .text := .literal rfl rfl
  have headed : Reads .text "  <thead>\n    <tr>" [] .text := .literal rfl rfl
  have unheaded : Reads .text "</tr>\n  </thead>\n  <tbody>\n" [] .text := .literal rfl rfl
  have ended : Reads .text "  </tbody>\n</table>\n" [] .text := .literal rfl rfl
  have rows : Reads .text (String.join (table.rows.map rowText)) (table.rows.flatMap rowReadings)
      .text := Reads.join_map fun row _ => reads_rowText row
  have all := opened.join_cons (identified.join_cons (closed.join_cons (captioned.join_cons
    ((Reads.escape table.caption).join_cons (uncaptioned.join_cons
      ((reads_description table.template table.description).join_cons (headed.join_cons
        ((reads_header table.template table.showsDescriptions).join_cons (unheaded.join_cons
          (rows.join_cons (ended.join_cons .join_nil)))))))))))
  exact all.of_eq (by simp [tableReadings, flatMap_rowReadings])

set_option maxRecDepth 2000 in
/-- No line of the stylesheet opens a tag. -/
theorem reads_stylesheet : Reads .text stylesheet [] .text := by
  have line : ∀ {cs : List Char}, cs.all (· != '<') = true →
      Reads .text (String.ofList cs) [] .text := by
    intro cs plain
    apply Reads.of_plain
    rw [String.toList_ofList]
    intro c hc
    simpa using List.all_eq_true.mp plain c hc
  exact (line rfl).join_cons ((line rfl).join_cons ((line rfl).join_cons ((line rfl).join_cons
    ((line rfl).join_cons ((line rfl).join_cons ((line rfl).join_cons .join_nil))))))

theorem reads_prologue (title : String) : Reads .text (prologue title) [] .text := by
  have opened : Reads .text
      "<!DOCTYPE html>\n<html>\n<head>\n<meta charset=\"utf-8\">\n<title>" [] .text := .literal rfl rfl
  have titled : Reads .text "</title>\n" [] .text := .literal rfl rfl
  have styled : Reads .text "<style type=\"text/css\">\n" [] .text := .literal rfl rfl
  have ended : Reads .text "</style>\n</head>\n<body>\n" [] .text := .literal rfl rfl
  exact opened.join_cons ((Reads.escape title).join_cons (titled.join_cons (styled.join_cons
    (reads_stylesheet.join_cons (ended.join_cons .join_nil)))))

/-- A page shows the anchors and links of its tables and no others. -/
theorem readings_page (title : String) (tables : List Table) :
    readings (page title tables) = tables.flatMap tableReadings := by
  have shown : Reads .text (tablesText tables) (tables.flatMap tableReadings) .text :=
    Reads.join_map fun table _ => reads_tableText table
  have ended : Reads .text epilogue [] .text := .literal rfl rfl
  have all := (reads_prologue title).join_cons (shown.join_cons (ended.join_cons .join_nil))
  rw [readings, page, all.found]
  simp

theorem anchors_page (title : String) (tables : List Table) :
    anchors (page title tables) = tables.map (·.id) := by
  have one : ∀ table : Table, (tableReadings table).filterMap Reading.anchor? = [table.id] := by
    intro table
    rw [tableReadings, List.filterMap_cons, List.filterMap_map]
    exact congrArg (table.id :: ·) (List.filterMap_eq_nil_iff.mpr fun _ _ => rfl)
  rw [anchors, readings_page, List.filterMap_flatMap]
  simp only [one]
  exact List.map_eq_flatMap.symm

theorem links_page (title : String) (tables : List Table) :
    links (page title tables) = tables.flatMap fun table => table.rows.filterMap (·.type.link) := by
  have rows : ∀ table : Table, (tableReadings table).filterMap Reading.link? =
      table.rows.filterMap (·.type.link) := by
    intro table
    rw [tableReadings, List.filterMap_cons, List.filterMap_map]
    exact List.filterMap_some
  rw [links, readings_page, List.filterMap_flatMap]
  simp only [rows]

end Html
end SchemaTables
