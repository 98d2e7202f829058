import Script8255.Binary64.Reader
import Script8255.Toml.Date

/-! The values of TOML, and how numbers, truth values, dates and strings are spelled. -/

namespace Script8255.Toml

inductive Value where
  | boolean (b : Bool)
  | integer (n : Int64)
  | float (x : Float)
  | text (text : String)
  | date (text : String)
  | list (items : List Value)
  | table (entries : List (String × Value))

/-- The characters of a run of letters or digits, in which single underscores may separate
characters of the given class. -/
def grouped? (inClass : Char → Bool) : List Char → Option (List Char)
  | [] => none
  | [c] => if inClass c then some [c] else none
  | c :: '_' :: rest => if inClass c then (grouped? inClass rest).map (c :: ·) else none
  | c :: rest => if inClass c then (grouped? inClass rest).map (c :: ·) else none

def splitSign : List Char → List Char × List Char
  | '+' :: rest => ([], rest)
  | '-' :: rest => (['-'], rest)
  | text => ([], text)

/-- Digits without a leading zero, unless zero is all there is. -/
def wholeDigits? (text : List Char) : Option (List Char) :=
  match grouped? Char.isDigit text with
  | some ('0' :: _ :: _) => none
  | digits => digits

def radixInteger? (base : Nat) (inClass : Char → Bool) (text : List Char) : Option Int :=
  (grouped? inClass text).map fun digits => (Escape.code base digits : Int)

def integer? : List Char → Option Int
  | '0' :: 'x' :: digits => radixInteger? 16 Escape.isHex digits
  | '0' :: 'o' :: digits => radixInteger? 8 Escape.isOctal digits
  | '0' :: 'b' :: digits => radixInteger? 2 (fun c => c == '0' || c == '1') digits
  | text =>
    let (sign, digits) := splitSign text
    (wholeDigits? digits).bind fun digits => Text.integer? (sign ++ digits)

def exponent? : List Char → Option (List Char)
  | [] => some []
  | mark :: text =>
    if mark == 'e' || mark == 'E' then
      let (sign, digits) := splitSign text
      (grouped? Char.isDigit digits).map fun digits => 'e' :: sign ++ digits
    else none

def isMark (c : Char) : Bool := c == 'e' || c == 'E'

def decimalFloat? (text : List Char) : Option Float := do
  let (sign, text) := splitSign text
  let head := text.takeWhile fun c => !isMark c
  let exponent ← exponent? (text.drop head.length)
  let whole ← wholeDigits? (head.takeWhile (· != '.'))
  let fraction ← match head.dropWhile (· != '.') with
    | [] => if exponent.isEmpty then none else some []
    | point :: digits => (grouped? Char.isDigit digits).map (point :: ·)
  let x ← Binary64.ofText? (sign ++ whole ++ fraction ++ exponent)
  if Binary64.number x = .infinite false then none else some x

def float? (text : List Char) : Option Float :=
  let (sign, name) := splitSign text
  if name = ['i', 'n', 'f'] || name = ['n', 'a', 'n'] then Binary64.ofText? (sign ++ name)
  else decimalFloat? text

def word? (word : List Char) : Option Value :=
  if word = ['t', 'r', 'u', 'e'] then some (.boolean true)
  else if word = ['f', 'a', 'l', 's', 'e'] then some (.boolean false)
  else
    match normalDate? .document word with
    | some date => some (.date (String.ofList date))
    | none =>
      match integer? word with
      | some n => (Text.word? n).map .integer
      | none => (float? word).map .float

def isWordChar (c : Char) : Bool :=
  c.isAlphanum || c == '+' || c == '-' || c == '_' || c == '.' || c == ':'

def joinTime? (word rest : List Char) : Option (List Char × List Char) :=
  match calendarDate? word, rest with
  | some (_, []), ' ' :: a :: b :: ':' :: more =>
    if a.isDigit && b.isDigit then
      let time := (a :: b :: ':' :: more).takeWhile isWordChar
      some (word ++ ' ' :: time, rest.drop (time.length + 1))
    else none
  | _, _ => none

def scalar? : Reader Value
  | '"' :: rest =>
    (string? ('"' :: rest)).map fun (body, rest) => (.text (String.ofList body), rest)
  | '\'' :: rest =>
    (string? ('\'' :: rest)).map fun (body, rest) => (.text (String.ofList body), rest)
  | text =>
    let word := text.takeWhile isWordChar
    let (word, rest) := (joinTime? word (text.drop word.length)).getD (word, text.drop word.length)
    (word? word).map fun value => (value, rest)

end Script8255.Toml
