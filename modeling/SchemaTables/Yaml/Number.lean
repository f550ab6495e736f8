import SchemaTables.Decimal.Reader
import SchemaTables.Yaml.Fault

/-! The numbers of YAML scalars. Low lines are ignored; integers may be binary, octal, hexadecimal or
sexagesimal, and floating-point numbers sexagesimal too. -/
namespace SchemaTables.Yaml.Number

/-- The text without low lines and without its sign. A number needs a character. -/
def unsigned (text : List Char) : Except Fault (Bool × List Char) :=
  match text.filter (· != '_') with
  | [] => .error .emptyNumber
  | '-' :: cs => .ok (true, cs)
  | '+' :: cs => .ok (false, cs)
  | cs => .ok (false, cs)

def splitColons (pending : List Char) : List Char → List (List Char)
  | [] => [pending]
  | c :: cs => if c = ':' then pending :: splitColons [] cs else splitColons (pending ++ [c]) cs

def orBad {β : Type} (value : Option β) : Except Fault β :=
  match value with
  | some value => .ok value
  | none => .error .badNumber

def sexagesimal (parts : List (List Char)) : Except Fault Int := do
  let numbers ← parts.mapM fun part => orBad (Reader.integer? 10 part)
  return numbers.foldl (fun sum n => 60 * sum + n) 0

def int (text : List Char) : Except Fault Int := do
  let (negative, cs) ← unsigned text
  let magnitude ← match cs with
    | [] => throw .emptyNumber
    | ['0'] => pure 0
    | '0' :: 'b' :: digits => orBad (Reader.integer? 2 digits)
    | '0' :: 'x' :: digits => orBad (Reader.integer? 16 digits)
    | '0' :: _ => orBad (Reader.integer? 8 cs)
    | _ =>
      if cs.contains ':' then sexagesimal (splitColons [] cs) else orBad (Reader.integer? 10 cs)
  return if negative then -magnitude else magnitude

/-- The sum of the parts, the last of which counts once and each before it sixty times as much. -/
def sexagesimalDouble (parts : List (List Char)) : Except Fault Double := do
  let numbers ← parts.mapM fun part => orBad (Reader.double? part)
  let (sum, _) := numbers.reverse.foldl (fun (sum, weight) n =>
    (sum.add (n.multiply (.ofInt weight)), 60 * weight)) (Double.zero, 1)
  return sum

def float (text : List Char) : Except Fault Double := do
  let (negative, cs) ← unsigned (Reader.lowerAscii text)
  if cs = ['.', 'n', 'a', 'n'] then return .nan
  let magnitude ←
    if cs = ['.', 'i', 'n', 'f'] then pure (.infinity false)
    else if cs.contains ':' then sexagesimalDouble (splitColons [] cs)
    else orBad (Reader.double? cs)
  return if negative then magnitude.negate else magnitude

end SchemaTables.Yaml.Number
