import SchemaTables.Page.Table
import SchemaTables.Text.Markup

/-! Tables and pages as HTML. Every text from a document passes through `Markup.escape`. -/
namespace SchemaTables.Html
open Markup (escape)

def typeText (cell : TypeCell) : String :=
  String.join [
    match cell.link with
    | some id => String.join ["<a href=\"#", escape id, "\">", escape cell.label, "</a>"]
    | none => escape cell.label,
    match cell.enumeration with
    | some members => String.join ["<br>", escape members]
    | none => ""]

def cell (content : String) : String :=
  String.join ["      <td class=\"tg-0lax\">", content, "</td>\n"]

def rowText (row : Row) : String :=
  String.join [
    "    <tr>\n",
    match row.field with
    | some (name, _) => cell (escape name)
    | none => "",
    cell (typeText row.type),
    match row.field with
    | some (_, required) => cell (if required then "yes" else "")
    | none => "",
    match row.description with
    | some description => cell (escape description)
    | none => "",
    "    </tr>\n"]

def columns : Template → List String
  | .object => ["Field", "Type", "Required"]
  | .composed => ["Type"]

/-- How many columns the description of a whole schema spans. -/
def span : Template → String
  | .object => "4"
  | .composed => "2"

def tableText (table : Table) : String :=
  String.join [
    "<table class=\"tg\" id=\"", escape table.id, "\">\n",
    "  <caption>", escape table.caption, "</caption>\n",
    match table.description with
    | some description =>
      String.join ["  <tr><td class=\"tg-0lax\" colspan=\"", span table.template, "\">",
        escape description, "</td></tr>\n"]
    | none => "",
    "  <thead>\n    <tr>",
    String.join ((columns table.template ++ if table.showsDescriptions then ["Description"] else []).map
      fun column => String.join ["<th>", column, "</th>"]),
    "</tr>\n  </thead>\n  <tbody>\n",
    String.join (table.rows.map rowText),
    "  </tbody>\n</table>\n"]

/-- The table of a schema in the form of a name; there are two forms. -/
def render {α : Type} [BEq α] (catalog : Catalog α) (descriptions : Bool) (name : String)
    (node : Node α) : Except String String :=
  match Template.ofName? name with
  | some template => .ok (tableText (.ofNode catalog descriptions template node))
  | none => .error ("Unsupported template: " ++ name)

section
variable {α : Type} [BEq α] (catalog : Catalog α) (descriptions : Bool) (node : Node α)

theorem render_name (template : Template) : render catalog descriptions template.name node =
    .ok (tableText (.ofNode catalog descriptions template node)) := by
  rw [render, Template.ofName?_eq_some_iff.mpr rfl]

/-- A name is refused, with the name in the message, unless it is that of a form. -/
theorem render_eq_error_iff {name message : String} :
    render catalog descriptions name node = .error message ↔
      (∀ template : Template, name ≠ template.name) ∧ message = "Unsupported template: " ++ name := by
  unfold render
  cases form : Template.ofName? name with
  | some template =>
    have same := Template.ofName?_eq_some_iff.mp form
    simpa using fun other => absurd same (other template)
  | none =>
    have other : ∀ template : Template, name ≠ template.name := by
      intro template same
      rw [Template.ofName?_eq_some_iff.mpr same] at form
      cases form
    simpa [eq_comm] using fun _ => other

end

def tablesText (tables : List Table) : String := String.join (tables.map tableText)

def defaultTitle : String := "API schemas"

def stylesheet : String := String.join [
  "  .tg  \x7bborder-collapse:collapse;border-color:#ccc;border-spacing:0;margin-bottom:24px;\x7d\n",
  "  .tg caption\x7bfont-family:Arial, sans-serif;font-size:16px;font-weight:bold;text-align:left;padding:6px 0;\x7d\n",
  "  .tg td\x7bbackground-color:#fff;border-color:#ccc;border-style:solid;border-width:1px;color:#333;\n",
  "    font-family:Arial, sans-serif;font-size:14px;overflow:hidden;padding:10px 5px;word-break:normal;\x7d\n",
  "  .tg th\x7bbackground-color:#f0f0f0;border-color:#ccc;border-style:solid;border-width:1px;color:#333;\n",
  "    font-family:Arial, sans-serif;font-size:14px;font-weight:normal;overflow:hidden;padding:10px 5px;word-break:normal;\x7d\n",
  "  .tg .tg-0lax\x7btext-align:left;vertical-align:top\x7d\n"]

def prologue (title : String) : String :=
  String.join [
    "<!DOCTYPE html>\n<html>\n<head>\n<meta charset=\"utf-8\">\n<title>", escape title, "</title>\n",
    "<style type=\"text/css\">\n", stylesheet, "</style>\n</head>\n<body>\n"]

def epilogue : String := "</body>\n</html>\n"

/-- A whole page with its tables. -/
def page (title : String) (tables : List Table) : String :=
  String.join [prologue title, tablesText tables, epilogue]

end SchemaTables.Html
