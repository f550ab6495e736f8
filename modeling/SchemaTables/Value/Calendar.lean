/-! Calendar dates and moments of the proleptic Gregorian calendar, years 1 to 9999. -/
namespace SchemaTables

structure Date where
  year : Nat
  month : Nat
  day : Nat
deriving DecidableEq, Repr

/-- `offset` is the distance from universal time in minutes; a moment without one is local. -/
structure Moment where
  date : Date
  hour : Nat
  minute : Nat
  second : Nat
  microsecond : Nat
  offset : Option Int
deriving DecidableEq, Repr

namespace Calendar

def isLeap (year : Nat) : Bool := year % 4 == 0 && (year % 100 != 0 || year % 400 == 0)

def daysInMonth (year month : Nat) : Nat :=
  match month with
  | 2 => if isLeap year then 29 else 28
  | 4 | 6 | 9 | 11 => 30
  | _ => 31

/-- The days of the first `months` months of a year. -/
def daysBefore (year : Nat) : (months : Nat) → Nat
  | 0 => 0
  | months + 1 => daysBefore year months + daysInMonth year (months + 1)

def padded (width n : Nat) : List Char :=
  let ds := Nat.toDigits 10 n
  List.replicate (width - ds.length) '0' ++ ds

end Calendar

namespace Date
open Calendar

def Valid (d : Date) : Prop :=
  1 ≤ d.year ∧ d.year ≤ 9999 ∧ 1 ≤ d.month ∧ d.month ≤ 12 ∧
    1 ≤ d.day ∧ d.day ≤ daysInMonth d.year d.month

instance (d : Date) : Decidable d.Valid := by unfold Valid; infer_instance

/-- Days since the last day of the year before year 1. -/
def ordinal (d : Date) : Nat :=
  let before := d.year - 1
  365 * before + before / 4 - before / 100 + before / 400 +
    daysBefore d.year (d.month - 1) + d.day

def chars (d : Date) : List Char :=
  padded 4 d.year ++ '-' :: padded 2 d.month ++ '-' :: padded 2 d.day

def text (d : Date) : String := String.ofList d.chars

end Date

namespace Moment
open Calendar

def Valid (m : Moment) : Prop :=
  m.date.Valid ∧ m.hour < 24 ∧ m.minute < 60 ∧ m.second < 60 ∧ m.microsecond < 1000000 ∧
    ∀ offset ∈ m.offset, -1440 < offset ∧ offset < 1440

instance (m : Moment) : Decidable m.Valid := by unfold Valid; infer_instance

/-- Microseconds on the universal time line, as far as the offset is known. -/
def instant (m : Moment) : Int :=
  (((m.date.ordinal * 24 + m.hour) * 60 + m.minute : Nat) - m.offset.getD 0) * 60000000 +
    ((m.second * 1000000 + m.microsecond : Nat) : Int)

/-- Moments with offsets agree when they fall together; a local moment agrees with local ones only. -/
def agrees (a b : Moment) : Bool :=
  a.offset.isSome == b.offset.isSome && a.instant == b.instant

def offsetChars (minutes : Int) : List Char :=
  (if minutes < 0 then '-' else '+') :: padded 2 (minutes.natAbs / 60) ++
    ':' :: padded 2 (minutes.natAbs % 60)

def text (m : Moment) : String := String.ofList (
  m.date.chars ++ ' ' :: padded 2 m.hour ++ ':' :: padded 2 m.minute ++ ':' :: padded 2 m.second ++
    (if m.microsecond = 0 then [] else '.' :: padded 6 m.microsecond) ++
    (m.offset.map offsetChars).getD [])

end Moment
end SchemaTables
