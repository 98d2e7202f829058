import Script8255.Binary64.Shortest

/-! The texts of floating-point numbers. -/

namespace Script8255.Binary64

structure Scientific where
  digits : List Char
  exponent : Int
  deriving DecidableEq

def Decimal.scientific (d : Decimal) : Scientific :=
  let all := Nat.toDigits 10 d.digits
  ⟨(all.reverse.dropWhile (· == '0')).reverse, d.power + all.length - 1⟩

def scientific (mantissa : Nat) (exponent : Int) : Scientific :=
  if mantissa = 0 then ⟨['0'], 0⟩ else (shortest mantissa exponent).scientific

def Scientific.positional (s : Scientific) : List Char :=
  if s.exponent < 0 then
    '0' :: '.' :: List.replicate (-s.exponent - 1).toNat '0' ++ s.digits
  else
    let wide := s.exponent.toNat + 1
    let whole := s.digits.take wide ++ List.replicate (wide - s.digits.length) '0'
    match s.digits.drop wide with
    | [] => whole
    | fraction => whole ++ '.' :: fraction

def Scientific.exponential (s : Scientific) : List Char :=
  let mantissa := match s.digits with
    | first :: second :: rest => first :: '.' :: second :: rest
    | digits => digits
  let power := Nat.toDigits 10 s.exponent.natAbs
  mantissa ++ 'e' :: (if s.exponent < 0 then '-' else '+') ::
    List.replicate (2 - power.length) '0' ++ power

/-- Exponents from -4 to 15 are written positionally, always with a fractional part. -/
def Scientific.display (s : Scientific) : List Char :=
  if -4 ≤ s.exponent ∧ s.exponent < 16 then
    let text := s.positional
    if text.contains '.' then text else text ++ ['.', '0']
  else s.exponential

def signed (negative : Bool) (text : List Char) : List Char :=
  if negative then '-' :: text else text

def display (x : Float) : List Char :=
  match number x with
  | .nan => "nan".toList
  | .infinite negative => signed negative "inf".toList
  | .finite negative mantissa exponent => signed negative (scientific mantissa exponent).display

/-- The text of a number in messages and settings: positional throughout, and bare when whole. -/
def plain (x : Float) : List Char :=
  match number x with
  | .nan => "NaN".toList
  | .infinite negative => signed negative "inf".toList
  | .finite negative mantissa exponent =>
    signed negative (scientific mantissa exponent).positional

end Script8255.Binary64
