import SchemaTables.Decimal.Double
import SchemaTables.Text.Blank

/-! Reading numbers from text. White space around the number is skipped and every decimal digit of
Unicode counts as its value. -/
namespace SchemaTables.Reader

/-- The zeros of the decimal digit blocks of Unicode 14 beyond ASCII; the other nine digits follow
their zero. -/
def zeros : List Nat := [
  1632, 1776, 1984, 2406, 2534, 2662, 2790, 2918, 3046, 3174, 3302, 3430, 3558, 3664, 3792, 3872,
  4160, 4240, 6112, 6160, 6470, 6608, 6784, 6800, 6992, 7088, 7232, 7248, 42528, 43216, 43264,
  43472, 43504, 43600, 44016, 65296, 66720, 68912, 69734, 69872, 69942, 70096, 70384, 70736, 70864,
  71248, 71360, 71472, 71904, 72016, 72784, 73040, 73120, 92768, 92864, 93008, 120782, 120792,
  120802, 120812, 120822, 123200, 123632, 125264, 130032]

def decimalDigit? (c : Char) : Option Nat :=
  if c.toNat < 128 then if c.isDigit then some (c.toNat - 48) else none
  else (zeros.find? fun z => z ≤ c.toNat && c.toNat < z + 10).map (c.toNat - ·)

def digit? (base : Nat) (c : Char) : Option Nat :=
  let value := match decimalDigit? c with
    | some d => some d
    | none =>
      if 'a' ≤ c && c ≤ 'z' then some (c.toNat - 87)
      else if 'A' ≤ c && c ≤ 'Z' then some (c.toNat - 55)
      else none
  value.filter (· < base)

/-- The value of a non-empty run of digits. -/
def natural? (base : Nat) : List Char → Option Nat
  | [] => none
  | cs => cs.foldl (fun sum c => do return (← sum) * base + (← digit? base c)) (some 0)

def splitSign : List Char → Bool × List Char
  | '-' :: cs => (true, cs)
  | '+' :: cs => (false, cs)
  | cs => (false, cs)

/-- A number in base 2, 8 or 16 may carry the mark of its base. -/
def dropBaseMark (base : Nat) : List Char → List Char
  | '0' :: m :: cs =>
    if (base = 2 && (m = 'b' || m = 'B')) || (base = 8 && (m = 'o' || m = 'O')) ||
        (base = 16 && (m = 'x' || m = 'X')) then cs
    else '0' :: m :: cs
  | cs => cs

/-- The longest run of decimal digits that is read as an integer. -/
def longestInteger : Nat := 4300

def integer? (base : Nat) (text : List Char) : Option Int :=
  let (negative, cs) := splitSign (Blank.trimChars text)
  if base = 10 && longestInteger < cs.length then none
  else (natural? base (dropBaseMark base cs)).map (Double.signed negative)

/-- The number `coefficient * 10 ^ exponent`. Exponents far outside the range of the numbers are
settled by the count of digits alone. -/
def scaledDouble (negative : Bool) (coefficient : Nat) (exponent : Int) : Double :=
  let size := exponent + (Nat.toDigits 10 coefficient).length
  if coefficient = 0 || size < -330 then Double.nearest negative 0 1
  else if 320 < size then .infinity negative
  else Double.nearest negative (coefficient * Double.tenTo exponent.toNat)
    (Double.tenTo (-exponent).toNat)

def lowerAscii (cs : List Char) : List Char := cs.map Char.toLower

/-- Digits are normalized to ASCII first, so that what is left beyond ASCII is no number. -/
def asciiDigit (c : Char) : Char :=
  match decimalDigit? c with
  | some d => Char.ofNat (48 + d)
  | none => c

def exponent? : List Char → Option Int
  | [] => some 0
  | c :: cs =>
    if c = 'e' || c = 'E' then
      let (negative, ds) := splitSign cs
      (natural? 10 ds).map (Double.signed negative)
    else none

def unsigned? (negative : Bool) (cs : List Char) : Option Double :=
  let whole := cs.takeWhile Char.isDigit
  let rest := cs.dropWhile Char.isDigit
  let (fraction, rest) := match rest with
    | '.' :: ds => (ds.takeWhile Char.isDigit, ds.dropWhile Char.isDigit)
    | ds => ([], ds)
  match natural? 10 (whole ++ fraction), exponent? rest with
  | some coefficient, some exponent =>
    some (scaledDouble negative coefficient (exponent - fraction.length))
  | _, _ => none

def double? (text : List Char) : Option Double :=
  let (negative, cs) := splitSign ((Blank.trimChars text).map asciiDigit)
  let word := String.ofList (lowerAscii cs)
  if word = "inf" || word = "infinity" then some (.infinity negative)
  else if word = "nan" then some .nan
  else unsigned? negative cs

end SchemaTables.Reader
