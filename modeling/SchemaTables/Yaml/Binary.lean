/-! Bytes in base 64. Characters outside of the alphabet are passed over; the data end at a full group
or at padding that fills one. -/
namespace SchemaTables.Yaml.Binary

def sextet? (c : Char) : Option Nat :=
  if 'A' ≤ c && c ≤ 'Z' then some (c.toNat - 65)
  else if 'a' ≤ c && c ≤ 'z' then some (c.toNat - 71)
  else if c.isDigit then some (c.toNat + 4)
  else if c = '+' then some 62
  else if c = '/' then some 63
  else none

/-- Reads on after `filled` sextets of a group with the bits `left` over, and `pads` padding
characters since the last sextet. -/
def decodeFrom (filled left pads : Nat) : List Char → Option (List UInt8)
  | [] => if filled = 0 then some [] else none
  | c :: cs =>
    if c = '=' then
      if filled < 2 then decodeFrom filled left pads cs
      else if 4 ≤ filled + pads + 1 then some []
      else decodeFrom filled left (pads + 1) cs
    else match sextet? c with
      | none => decodeFrom filled left pads cs
      | some n =>
        match filled with
        | 0 => decodeFrom 1 n 0 cs
        | 1 => (decodeFrom 2 (n % 16) 0 cs).map (UInt8.ofNat (left * 4 + n / 16) :: ·)
        | 2 => (decodeFrom 3 (n % 4) 0 cs).map (UInt8.ofNat (left * 16 + n / 4) :: ·)
        | _ => (decodeFrom 0 0 0 cs).map (UInt8.ofNat (left * 64 + n) :: ·)

def decode (text : List Char) : Option (List UInt8) :=
  if text.all fun c => c.toNat < 128 then decodeFrom 0 0 0 text else none

end SchemaTables.Yaml.Binary
