/-! Binary floating-point numbers with a significand of 53 bits and exponents down to -1074, as exact
values. Every finite number is made by `Double.nearest`, which rounds a ratio to the nearest number
and a tie to the even significand; no machine arithmetic is used. -/
namespace SchemaTables

/-- `finite negative m e` is `m * 2 ^ e`, negated when `negative` holds. -/
inductive Double where
  | nan
  | infinity (negative : Bool)
  | finite (negative : Bool) (significand : Nat) (exponent : Int)
deriving DecidableEq, Repr

namespace Double

def zero : Double := finite false 0 (-1074)

def twoTo (n : Nat) : Nat := Nat.pow 2 n

def tenTo (n : Nat) : Nat := Nat.pow 10 n

/-- The quotient rounded to the nearest integer, a half going to the even neighbour. -/
def roundDiv (num den : Nat) : Nat :=
  let q := num / den
  let r := num % den
  if 2 * r < den || (2 * r == den && q % 2 == 0) then q else q + 1

/-- `num / den` in units of `2 ^ e`. -/
def inUnits (num den : Nat) (e : Int) : Nat × Nat := (num * twoTo (-e).toNat, den * twoTo e.toNat)

/-- The exponent at which the quotient fills 53 bits, but not below -1074. -/
def fittingExponent (num den : Nat) : Int :=
  let e : Int := (Nat.log2 num : Int) - (Nat.log2 den : Int) - 53
  let scaled := inUnits num den e
  max (if twoTo 53 ≤ scaled.1 / scaled.2 then e + 1 else e) (-1074)

/-- The number nearest to `num / den`. -/
def nearest (negative : Bool) (num den : Nat) : Double :=
  if num = 0 then finite negative 0 (-1074)
  else
    let e := fittingExponent num den
    let scaled := inUnits num den e
    let m := roundDiv scaled.1 scaled.2
    let (m, e) := if m = twoTo 53 then (twoTo 52, e + 1) else (m, e)
    if e > 971 then infinity negative else finite negative m e

def negate : Double → Double
  | nan => nan
  | infinity negative => infinity !negative
  | finite negative m e => finite (!negative) m e

def signed (negative : Bool) (m : Nat) : Int := if negative then -(m : Int) else m

/-- The number nearest to `value * 2 ^ e`; zero is positive. -/
def ofScaled (value e : Int) : Double :=
  nearest (value < 0) (value.natAbs * twoTo e.toNat) (twoTo (-e).toNat)

def ofInt (value : Int) : Double := ofScaled value 0

def add : Double → Double → Double
  | finite n₁ m₁ e₁, finite n₂ m₂ e₂ =>
    let e := min e₁ e₂
    ofScaled (signed n₁ (m₁ * twoTo (e₁ - e).toNat) + signed n₂ (m₂ * twoTo (e₂ - e).toNat)) e
  | infinity n₁, infinity n₂ => if n₁ = n₂ then infinity n₁ else nan
  | nan, _ => nan
  | _, nan => nan
  | infinity n, _ => infinity n
  | _, infinity n => infinity n

def multiply : Double → Double → Double
  | finite n₁ m₁ e₁, finite n₂ m₂ e₂ =>
    match ofScaled (m₁ * m₂ : Nat) (e₁ + e₂) with
    | finite _ m e => finite (n₁ != n₂) m e
    | infinity _ => infinity (n₁ != n₂)
    | nan => nan
  | nan, _ => nan
  | _, nan => nan
  | infinity n₁, infinity n₂ => infinity (n₁ != n₂)
  | infinity n₁, finite n₂ m _ => if m = 0 then nan else infinity (n₁ != n₂)
  | finite n₁ m _, infinity n₂ => if m = 0 then nan else infinity (n₁ != n₂)

/-- The integer equal to the number, if there is one. -/
def toInt? : Double → Option Int
  | finite negative m e =>
    if m % twoTo (-e).toNat = 0 then some (signed negative (m / twoTo (-e).toNat * twoTo e.toNat)) else none
  | _ => none

end Double
end SchemaTables
