import SchemaTables.Decimal.Shortest
import SchemaTables.Text.Quoted
import SchemaTables.Value.Basic

/-! The text of a value. A scalar is shown plainly; inside a collection texts, byte strings and dates
are shown as literals, so that the parts of the collection stay apart. Integers of very many digits
are not written out. -/
namespace SchemaTables.Value

def dateLiteral (d : Date) : String :=
  "datetime.date(" ++ ", ".intercalate ([d.year, d.month, d.day].map toString) ++ ")"

def offsetLiteral (minutes : Int) : String :=
  let seconds := 60 * minutes
  if minutes = 0 then "datetime.timezone.utc"
  else if minutes < 0 then
    "datetime.timezone(datetime.timedelta(days=-1, seconds=" ++ toString (seconds + 86400) ++ "))"
  else "datetime.timezone(datetime.timedelta(seconds=" ++ toString seconds ++ "))"

/-- Seconds and microseconds are left out when they are zero to the end. -/
def momentLiteral (m : Moment) : String :=
  let parts := [m.date.year, m.date.month, m.date.day, m.hour, m.minute] ++
    (if m.microsecond ≠ 0 then [m.second, m.microsecond]
    else if m.second ≠ 0 then [m.second] else [])
  let shown := parts.map toString ++
    (m.offset.map fun minutes => "tzinfo=" ++ offsetLiteral minutes).toList
  "datetime.datetime(" ++ ", ".intercalate shown ++ ")"

mutual

def literal : Value → String
  | null => "None"
  | bool value => if value then "True" else "False"
  | int value => toString value
  | float value => value.text
  | text value => Quoted.quote value
  | date value => dateLiteral value
  | moment value => momentLiteral value
  | bytes value => Quoted.quoteBytes value
  | list items => "[" ++ ", ".intercalate (literals items) ++ "]"
  | pair first second => "(" ++ first.literal ++ ", " ++ second.literal ++ ")"
  | map entries => "\x7b" ++ ", ".intercalate (entryLiterals entries) ++ "\x7d"
  | set members =>
    if members.isEmpty then "set()" else "\x7b" ++ ", ".intercalate (literals members) ++ "\x7d"

def literals : List Value → List String
  | [] => []
  | value :: rest => value.literal :: literals rest

def entryLiterals : List (Value × Value) → List String
  | [] => []
  | (key, value) :: rest => (key.literal ++ ": " ++ value.literal) :: entryLiterals rest

end

/-- The longest run of decimal digits that an integer is written with. -/
def longestWritten : Nat := 4300

def untoldMessage : String := "Exceeds the limit (4300 digits) for integer string conversion"

mutual

/-- Whether a value can be written: there is no text for an integer of more digits. -/
def isTold : Value → Bool
  | int value => value.natAbs < Double.tenTo longestWritten
  | list items => areTold items
  | pair first second => first.isTold && second.isTold
  | map entries => entriesAreTold entries
  | set members => areTold members
  | _ => true

def areTold : List Value → Bool
  | [] => true
  | value :: rest => value.isTold && areTold rest

def entriesAreTold : List (Value × Value) → Bool
  | [] => true
  | (key, value) :: rest => key.isTold && value.isTold && entriesAreTold rest

end

/-- The text of a value that can be written. -/
def display : Value → String
  | text value => value
  | date value => value.text
  | moment value => value.text
  | value => value.literal

end SchemaTables.Value
