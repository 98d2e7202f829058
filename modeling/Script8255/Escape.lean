import Script8255.Failure

/-! Backslash escapes in strings. -/

namespace Script8255.Escape

def isOctal (c : Char) : Bool := '0' ≤ c && c ≤ '7'

def digit (c : Char) : Nat :=
  if c.isDigit then c.toNat - 48 else if 'a' ≤ c then c.toNat - 87 else c.toNat - 55

def isHex (c : Char) : Bool := c.isDigit || ('a' ≤ c && c ≤ 'f') || ('A' ≤ c && c ≤ 'F')

def code (base : Nat) (digits : List Char) : Nat :=
  digits.foldl (fun code c => code * base + digit c) 0

def character (code : Nat) : Except Unusable Char :=
  if code.isValidChar then .ok (Char.ofNat code) else .error (.illegalCharacter code)

def hex (letter : Char) (count : Nat) (text : List Char) :
    Except Unusable (List Char × Nat) :=
  let digits := text.take count
  if digits.length = count && digits.all isHex then
    (character (code 16 digits)).map fun c => ([c], count)
  else .error (.truncatedEscape letter)

def letter? : Char → Option Char
  | '\\' => some '\\'
  | '\'' => some '\''
  | '"' => some '"'
  | 'a' => some '\x07'
  | 'b' => some '\x08'
  | 'f' => some '\x0c'
  | 'n' => some '\n'
  | 'r' => some '\r'
  | 't' => some '\t'
  | 'v' => some '\x0b'
  | _ => none

/-- What a backslash and the character after it stand for, and how many more characters belong
to the escape. One that has no meaning stands for itself. -/
def read (c : Char) (text : List Char) : Except Unusable (List Char × Nat) :=
  match letter? c with
  | some meaning => .ok ([meaning], 0)
  | none =>
    if c = '\n' then .ok ([], 0)
    else if isOctal c then
      let more := (text.take 2).takeWhile isOctal
      (character (code 8 (c :: more))).map fun c => ([c], more.length)
    else if c = 'x' then hex c 2 text
    else if c = 'u' then hex c 4 text
    else if c = 'U' then hex c 8 text
    else if c = 'N' then .error .namedCharacter
    else .ok (['\\', c], 0)

/-- Decodes from left to right, and the first bad escape decides the error. -/
def decode : List Char → Except Unusable (List Char)
  | [] => .ok []
  | c :: rest =>
    if c = '\\' then
      match rest with
      | [] => .error .finalBackslash
      | d :: text =>
        match read d text with
        | .error reason => .error reason
        | .ok (meaning, taken) => (decode (text.drop taken)).map (meaning ++ ·)
    else (decode rest).map (c :: ·)
termination_by text => text.length
decreasing_by
  · exact Nat.lt_succ_of_lt (Nat.lt_succ_of_le (List.drop_sublist _ _).length_le)
  · exact Nat.lt_succ_self _

end Script8255.Escape
