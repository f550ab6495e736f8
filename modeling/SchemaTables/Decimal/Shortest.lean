import SchemaTables.Decimal.Double

/-! The text of a floating-point number: the fewest decimal digits that still round to it, positional
for decimal exponents from -4 to 15 and with an exponent of at least two digits beyond. -/
namespace SchemaTables.Shortest
open Double

/-- The digits of a positive number: it reads `0.ddd… * 10 ^ point`. -/
structure Digits where
  coefficient : Nat
  point : Int
deriving DecidableEq, Repr

/-- A positive number `m * 2 ^ e`, seen in units of `10 ^ -scale`: its value is `num / den` and the
distance to the next number is `gap / den`. -/
structure Scaled where
  significand : Nat
  gap : Nat
  den : Nat

def Scaled.num (s : Scaled) : Nat := s.significand * s.gap

def scaled (m : Nat) (e scale : Int) : Scaled :=
  ⟨m, twoTo e.toNat * tenTo scale.toNat, twoTo (-e).toNat * tenTo (-scale).toNat⟩

/-- The numbers that round to `s` reach half a gap up, and down as well except at a power of two,
where the gap below is half as wide. The ends belong to an even significand. -/
def Scaled.reads (s : Scaled) (lowest : Bool) (c : Nat) : Bool :=
  let below := if s.significand = twoTo 52 && !lowest then s.gap else 2 * s.gap
  let low := 4 * s.num - below
  let high := 4 * s.num + 2 * s.gap
  let x := 4 * c * s.den
  if s.significand % 2 = 0 then low ≤ x && x ≤ high else low < x && x < high

/-- The neighbour of `s` among the whole numbers that rounds to it; of two the nearer. -/
def Scaled.neighbour? (s : Scaled) (lowest : Bool) : Option Nat :=
  let d := s.num / s.den
  let twice := 2 * (s.num % s.den)
  match s.reads lowest d, s.reads lowest (d + 1) with
  | true, true => some (if twice < s.den || (twice == s.den && d % 2 == 0) then d else d + 1)
  | true, false => some d
  | false, true => some (d + 1)
  | false, false => none

/-- How many tenfold steps bring `num / den` to at least one; at most `fuel`. -/
def stepsToOne : (fuel num den : Nat) → Nat
  | 0, _, _ => 0
  | fuel + 1, num, den => if den ≤ num then 0 else stepsToOne fuel (10 * num) den + 1

/-- The least power of ten above `m * 2 ^ e`, as an exponent. -/
def magnitude (m : Nat) (e : Int) : Int :=
  let num := m * twoTo e.toNat
  let den := twoTo (-e).toNat
  if den ≤ num then ((Nat.toDigits 10 (num / den)).length : Int)
  else 1 - (stepsToOne 400 num den : Int)

def search (m : Nat) (e point : Int) : (tries count : Nat) → Digits
  | 0, _ => ⟨0, point⟩
  | tries + 1, count =>
    match (scaled m e (count - point)).neighbour? (e == -1074) with
    | some c => ⟨c, point + ((Nat.toDigits 10 c).length : Int) - count⟩
    | none => search m e point tries (count + 1)

def digits (m : Nat) (e : Int) : Digits := search m e (magnitude m e) 17 1

def zeros (n : Nat) : List Char := List.replicate n '0'

def trimZeros (cs : List Char) : List Char := (cs.reverse.dropWhile (· == '0')).reverse

def positional (ds : List Char) (point : Int) : List Char :=
  if point ≤ 0 then '0' :: '.' :: zeros (-point).toNat ++ ds
  else if ds.length ≤ point.toNat then ds ++ zeros (point.toNat - ds.length) ++ ['.', '0']
  else ds.take point.toNat ++ '.' :: ds.drop point.toNat

def exponential (ds : List Char) (point : Int) : List Char :=
  let x := point - 1
  let xs := Nat.toDigits 10 x.natAbs
  let fraction := match ds.drop 1 with
    | [] => []
    | rest => '.' :: rest
  ds.take 1 ++ fraction ++ ['e', if x < 0 then '-' else '+'] ++ zeros (2 - xs.length) ++ xs

def magnitudeText (m : Nat) (e : Int) : List Char :=
  if m = 0 then ['0', '.', '0']
  else
    let found := digits m e
    let ds := trimZeros (Nat.toDigits 10 found.coefficient)
    if -4 < found.point && found.point ≤ 16 then positional ds found.point
    else exponential ds found.point

end SchemaTables.Shortest

namespace SchemaTables

def Double.text : Double → String
  | .nan => "nan"
  | .infinity negative => if negative then "-inf" else "inf"
  | .finite negative m e =>
    String.ofList ((if negative then ['-'] else []) ++ Shortest.magnitudeText m e)

end SchemaTables
