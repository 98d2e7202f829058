import Script8255.Text.AlphanumericRanges
import Script8255.Text.WordRanges

/-! White space and what is cut off the ends of a text, and the characters of names. -/

namespace Script8255.Text

/-- The characters with the Unicode property White_Space. -/
def isBlank (c : Char) : Bool :=
  ('\t' ≤ c && c ≤ '\r') || c == ' ' || c == '\u0085' || c == '\u00a0' || c == '\u1680' ||
    ('\u2000' ≤ c && c ≤ '\u200a') || c == '\u2028' || c == '\u2029' || c == '\u202f' ||
    c == '\u205f' || c == '\u3000'

def isSeparator (c : Char) : Bool :=
  c == ' ' || ('\t' ≤ c && c ≤ '\r')

def trimStart (text : List Char) : List Char := text.dropWhile isBlank

def trimEnd (text : List Char) : List Char := (text.reverse.dropWhile isBlank).reverse

def trim (text : List Char) : List Char := trimEnd (trimStart text)

def dropFinal (c : Char) (text : List Char) : List Char :=
  if text.getLast? = some c then text.dropLast else text

def inRanges (code : Nat) : List (Nat × Nat) → Bool
  | [] => false
  | (first, last) :: rest =>
    if code < first then false else code ≤ last || inRanges code rest

def isWord (c : Char) : Bool := c == '_' || inRanges c.toNat wordRanges

/-- A number, or any character that is part of the spelling of words, such as a vowel sign. -/
def isAlphanumeric (c : Char) : Bool := inRanges c.toNat alphanumericRanges

end Script8255.Text
