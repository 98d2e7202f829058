import Script8255.Text.Decimal
import Script8255.Toml.Lexical

/-! Dates and times, kept as their normal texts. -/

namespace Script8255.Toml

structure DateLimits where
  hour : Nat
  offsetHour : Nat
  offsetMinute : Nat
  deriving DecidableEq

def DateLimits.document : DateLimits := ⟨23, 23, 59⟩

def DateLimits.string : DateLimits := ⟨24, 99, 99⟩

def twoDigits? (low high : Nat) : Reader Nat
  | a :: b :: rest => do
    let n ← Text.natural? [a, b]
    if low ≤ n ∧ n ≤ high then some (n, rest) else none
  | _ => none

def padded (n : Nat) : List Char := [Nat.digitChar (n / 10), Nat.digitChar (n % 10)]

def daysIn (year month : Nat) : Nat :=
  if month = 2 then if year % 4 = 0 ∧ (year % 100 ≠ 0 ∨ year % 400 = 0) then 29 else 28
  else if month ∈ [4, 6, 9, 11] then 30 else 31

def markedDigits? (mark : Char) (low high : Nat) : Reader Nat
  | c :: rest => if c = mark then twoDigits? low high rest else none
  | [] => none

def calendarDate? : Reader (List Char)
  | a :: b :: c :: d :: rest => do
    let year ← Text.natural? [a, b, c, d]
    let (month, rest) ← markedDigits? '-' 1 12 rest
    let (day, rest) ← markedDigits? '-' 1 (daysIn year month) rest
    return ([a, b, c, d, '-'] ++ padded month ++ '-' :: padded day, rest)
  | _ => none

/-- Decimals of a second: nine count, and zeros at the end are left out. -/
def secondFraction (digits : List Char) : List Char :=
  match ((digits.take 9).reverse.dropWhile (· == '0')).reverse with
  | [] => []
  | kept => '.' :: kept

def clock? (limits : DateLimits) (text : List Char) : Option (List Char × List Char) := do
  let (hour, rest) ← twoDigits? 0 limits.hour text
  let (minute, rest) ← markedDigits? ':' 0 59 rest
  let (second, rest) ← markedDigits? ':' 0 60 rest
  let clock := padded hour ++ ':' :: padded minute ++ ':' :: padded second
  match rest with
  | '.' :: rest =>
    let digits := rest.takeWhile Char.isDigit
    if digits.isEmpty then none
    else return (clock ++ secondFraction digits, rest.drop digits.length)
  | rest => return (clock, rest)

/-- A distance from universal time of at most a day. No distance has no negative sign. -/
def offset? (limits : DateLimits) : List Char → Option (List Char)
  | [] => some []
  | ['Z'] | ['z'] => some ['Z']
  | sign :: rest => do
    let (hour, rest) ← twoDigits? 0 limits.offsetHour rest
    let (minute, rest) ← markedDigits? ':' 0 limits.offsetMinute rest
    let minutes := 60 * hour + minute
    if !rest.isEmpty || 24 * 60 < minutes || sign != '+' && sign != '-' then none
    else
      let shown := if minutes = 0 then '+' else sign
      return shown :: padded (minutes / 60) ++ ':' :: padded (minutes % 60)

def normalDate? (limits : DateLimits) (text : List Char) : Option (List Char) :=
  match calendarDate? text with
  | some (date, []) => some date
  | some (date, mark :: rest) =>
    if mark != 'T' && mark != 't' && mark != ' ' then none
    else (clock? limits rest).bind fun (clock, rest) =>
      (offset? limits rest).map fun offset => date ++ 'T' :: clock ++ offset
  | none =>
    match clock? limits text with
    | some (clock, []) => some clock
    | _ => none

end Script8255.Toml
