import Script8255.Text.Decimal

/-! Reading decimal text as the nearest floating-point number. -/

namespace Script8255.Binary64

/-- `digits * 10 ^ exponent`, rounded to nearest. Exponents beyond the range of the format need
no computation. -/
def ofDecimal (digits : Nat) (exponent : Int) : Float :=
  let top := exponent + (Nat.toDigits 10 digits).length
  if digits = 0 ∨ top < -400 then 0.0
  else if 400 < top then 1.0 / 0.0
  else Float.ofScientific digits (decide (exponent < 0)) exponent.natAbs

def mantissa? (text : List Char) : Option (Nat × Nat) :=
  let whole := text.takeWhile Char.isDigit
  let fraction := match text.dropWhile Char.isDigit with
    | [] => some []
    | '.' :: decimals => if decimals.all Char.isDigit then some decimals else none
    | _ => none
  fraction.bind fun decimals =>
    (Text.natural? (whole ++ decimals)).map fun n => (n, decimals.length)

def unsigned? (text : List Char) : Option Float :=
  match text.map Char.toLower with
  | ['i', 'n', 'f'] | ['i', 'n', 'f', 'i', 'n', 'i', 't', 'y'] => some (1.0 / 0.0)
  | ['n', 'a', 'n'] => some (0.0 / 0.0)
  | lower =>
    let exponent := match lower.dropWhile (· != 'e') with
      | [] => some 0
      | _ :: digits => Text.signed? digits
    exponent.bind fun exponent =>
      (mantissa? (lower.takeWhile (· != 'e'))).map fun (n, decimals) =>
        ofDecimal n (exponent - decimals)

def ofText? : List Char → Option Float
  | '-' :: text => (unsigned? text).map fun x => -x
  | '+' :: text => unsigned? text
  | text => unsigned? text

end Script8255.Binary64
