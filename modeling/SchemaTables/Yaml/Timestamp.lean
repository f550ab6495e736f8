import SchemaTables.Value.Calendar

/-! Timestamps as YAML writes them: a date, or a date with a time, a fraction of a second and an
offset from universal time. -/
namespace SchemaTables.Yaml

structure Clock where
  hour : Nat
  minute : Nat
  second : Nat
  microsecond : Nat
  offset : Option Int
deriving DecidableEq, Repr

structure Timestamp where
  date : Date
  clock : Option Clock
deriving DecidableEq, Repr

namespace Timestamp

def number (digits : List Char) : Nat := digits.foldl (fun sum c => 10 * sum + (c.toNat - 48)) 0

/-- A number of at least `least` and at most `most` digits. -/
def digits? (least most : Nat) (cs : List Char) : Option (Nat × List Char) :=
  let run := (cs.take most).takeWhile Char.isDigit
  if run.length < least then none else some (number run, cs.drop run.length)

def mark? (mark : Char) : List Char → Option (List Char)
  | c :: cs => if c = mark then some cs else none
  | [] => none

def isBlank (c : Char) : Bool := c == ' ' || c == '\t'

/-- The first six digits count, as millionths. -/
def microseconds (fraction : List Char) : Nat :=
  number ((fraction.take 6) ++ List.replicate (6 - fraction.length) '0')

def fraction : List Char → Nat × List Char
  | '.' :: cs => (microseconds (cs.takeWhile Char.isDigit), cs.dropWhile Char.isDigit)
  | cs => (0, cs)

/-- An offset in minutes, which ends the text. -/
def offset? : List Char → Option (Option Int)
  | [] => some none
  | ['Z'] => some (some 0)
  | sign :: cs => do
    let minutes : Nat ← do
      let (hours, cs) ← digits? 1 2 cs
      match cs with
      | [] => pure (60 * hours)
      | cs =>
        let (minutes, cs) ← digits? 2 2 (← mark? ':' cs)
        if cs.isEmpty then pure (60 * hours + minutes) else none
    if sign = '+' then return some (minutes : Int)
    else if sign = '-' then return some (-(minutes : Int))
    else none

def clock? (cs : List Char) : Option Clock := do
  let (hour, cs) ← digits? 1 2 cs
  let (minute, cs) ← digits? 2 2 (← mark? ':' cs)
  let (second, cs) ← digits? 2 2 (← mark? ':' cs)
  let (microsecond, cs) := fraction cs
  let rest := cs.dropWhile isBlank
  if rest.isEmpty && !cs.isEmpty then none
  else return ⟨hour, minute, second, microsecond, ← offset? rest⟩

/-- The clock after a date: behind the letter T or behind blanks. -/
def afterDate? : List Char → Option (Option Clock)
  | [] => some none
  | c :: cs =>
    if c = 'T' || c = 't' then (clock? cs).map some
    else if isBlank c then (clock? (cs.dropWhile isBlank)).map some
    else none

def ofChars? (cs : List Char) : Option Timestamp := do
  let (year, cs) ← digits? 4 4 cs
  let (month, cs) ← digits? 1 2 (← mark? '-' cs)
  let (day, cs) ← digits? 1 2 (← mark? '-' cs)
  return ⟨⟨year, month, day⟩, ← afterDate? cs⟩

/-- Whether a plain text is a timestamp: a date alone must have all its digits. -/
def isPlain (cs : List Char) : Bool :=
  match ofChars? cs with
  | some timestamp => timestamp.clock.isSome || cs.length == 10
  | none => false

end Timestamp
end SchemaTables.Yaml
