import Script8255.Binary64.Basic

/-! The fewest decimal digits that read back as a given floating-point number. -/

namespace Script8255.Binary64

structure Decimal where
  digits : Nat
  power : Int
  deriving DecidableEq

/-- The reals that round to `value`, all three bounds in one decimal unit. -/
structure Interval where
  low : Nat
  value : Nat
  high : Nat
  closed : Bool

def Interval.places (exponent : Int) : Nat := (2 - exponent).toNat

/-- The bounds lie half way to the neighbours. Below a power of two the neighbour is nearer,
and a bound belongs to the interval when the mantissa is even. -/
def Interval.around (mantissa : Nat) (exponent : Int) : Interval :=
  let quarter := if 2 ≤ exponent then 1 <<< (exponent - 2).toNat else Nat.pow 5 (2 - exponent).toNat
  let below := if mantissa = 1 <<< 52 ∧ -1074 < exponent then 1 else 2
  { low := (4 * mantissa - below) * quarter
    value := 4 * mantissa * quarter
    high := (4 * mantissa + 2) * quarter
    closed := mantissa % 2 == 0 }

def Interval.holds (interval : Interval) (n : Nat) : Bool :=
  if interval.closed then interval.low ≤ n && n ≤ interval.high
  else interval.low < n && n < interval.high

def Interval.nearest? (interval : Interval) (power : Nat) : Option Nat :=
  let step := Nat.pow 10 power
  let below := interval.value / step
  let above := below + 1
  match interval.holds (below * step), interval.holds (above * step) with
  | true, true =>
    if interval.value - below * step < above * step - interval.value then some below
    else some above
  | true, false => some below
  | false, true => some above
  | false, false => none

def Interval.shortest (interval : Interval) : Nat → Nat × Nat
  | 0 => (interval.value, 0)
  | power + 1 =>
    match interval.nearest? (power + 1) with
    | some digits => (digits, power + 1)
    | none => interval.shortest power

def shortest (mantissa : Nat) (exponent : Int) : Decimal :=
  let interval := Interval.around mantissa exponent
  let (digits, power) := interval.shortest (Nat.toDigits 10 interval.value).length
  ⟨digits, power - Interval.places exponent⟩

end Script8255.Binary64
