/-! What the bits of a 64-bit floating-point number denote, in exact integers. -/

namespace Script8255.Binary64

/-- A finite number is `mantissa * 2 ^ exponent`, with its sign kept beside it. -/
inductive Number where
  | nan
  | infinite (negative : Bool)
  | finite (negative : Bool) (mantissa : Nat) (exponent : Int)
  deriving DecidableEq

def decode (bits : UInt64) : Number :=
  let word := bits.toNat
  let negative := decide (1 <<< 63 ≤ word)
  let exponent : Nat := (word >>> 52) % 2048
  let fraction : Nat := word % (1 <<< 52)
  if exponent = 2047 then
    if fraction = 0 then .infinite negative else .nan
  else if exponent = 0 then .finite negative fraction (-1074)
  else .finite negative ((1 <<< 52) + fraction) ((exponent : Int) - 1075)

def number (x : Float) : Number := decode x.toBits

/-- An integer that grows with the number. Both zeros have key zero and NaN has none. -/
def key (x : Float) : Option Int :=
  let word := x.toBits.toNat
  let magnitude : Nat := word % (1 <<< 63)
  if 2047 <<< 52 < magnitude then none
  else if 1 <<< 63 ≤ word then some (-(magnitude : Int)) else some (magnitude : Int)

def compare? (x y : Float) : Option Ordering :=
  match key x, key y with
  | some a, some b => some (compare a b)
  | _, _ => none

def ofWord (n : Int64) : Float :=
  let magnitude := (UInt64.ofNat n.toInt.natAbs).toFloat
  if n < 0 then -magnitude else magnitude

def Number.truncate? : Number → Option Int
  | .finite negative mantissa exponent =>
    let magnitude : Nat :=
      if 0 ≤ exponent then mantissa <<< exponent.toNat else mantissa >>> (-exponent).toNat
    some (if negative then -(magnitude : Int) else magnitude)
  | _ => none

end Script8255.Binary64
