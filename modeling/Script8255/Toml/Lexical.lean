import Script8255.Escape

/-! The lexical level of TOML: blanks, comments, strings and keys. -/

namespace Script8255.Toml

/-- A reader takes something from the front of a text, or fails. -/
abbrev Reader (α : Type) := List Char → Option (α × List Char)

def isBlank (c : Char) : Bool := c == ' ' || c == '\t'

def isPlain (c : Char) : Bool := c == '\t' || ' ' ≤ c && c != '\x7f'

def skipBlanks (text : List Char) : List Char := text.dropWhile isBlank

def lineFeed? : List Char → Option (List Char)
  | '\n' :: rest => some rest
  | '\r' :: '\n' :: rest => some rest
  | _ => none

def skipComment : List Char → List Char
  | '#' :: rest => rest.dropWhile isPlain
  | text => text

def lineEnd? (text : List Char) : Option (List Char) :=
  match skipComment (skipBlanks text) with
  | [] => some []
  | rest => lineFeed? rest

def skipGaps : Nat → List Char → List Char
  | 0, text => text
  | fuel + 1, text =>
    let inner := skipBlanks text
    match lineFeed? (skipComment inner) with
    | some rest => skipGaps fuel rest
    | none => inner

def escape? : Reader Char
  | 'b' :: rest => some ('\x08', rest)
  | 't' :: rest => some ('\t', rest)
  | 'n' :: rest => some ('\n', rest)
  | 'f' :: rest => some ('\x0c', rest)
  | 'r' :: rest => some ('\r', rest)
  | '"' :: rest => some ('"', rest)
  | '\\' :: rest => some ('\\', rest)
  | 'u' :: rest => code? 4 rest
  | 'U' :: rest => code? 8 rest
  | _ => none
where
  code? (count : Nat) (text : List Char) : Option (Char × List Char) :=
    match Escape.hex 'u' count text with
    | .ok ([c], _) => some (c, text.drop count)
    | _ => none

def basicString : Nat → Reader (List Char)
  | _, '"' :: rest => some ([], rest)
  | fuel + 1, '\\' :: rest => do
    let (c, rest) ← escape? rest
    let (body, rest) ← basicString fuel rest
    return (c :: body, rest)
  | fuel + 1, c :: rest =>
    if isPlain c then (basicString fuel rest).map fun (body, rest) => (c :: body, rest) else none
  | _, _ => none

def literalString (text : List Char) : Option (List Char × List Char) :=
  let body := text.takeWhile fun c => c != '\'' && isPlain c
  match text.drop body.length with
  | '\'' :: rest => some (body, rest)
  | _ => none

/-- Three quotes close a string of several lines, and up to two more in front of them belong to
its text. -/
def closing? (quote : Char) (text : List Char) : Option (List Char × List Char) :=
  let run := min 5 (text.takeWhile (· == quote)).length
  if 3 ≤ run then some (List.replicate (run - 3) quote, text.drop run) else none

def skipLines : Nat → List Char → List Char
  | 0, text => text
  | fuel + 1, text =>
    let inner := skipBlanks text
    match lineFeed? inner with
    | some rest => skipLines fuel rest
    | none => inner

def continuation? (text : List Char) : Option (List Char) :=
  (lineFeed? (skipBlanks text)).map fun rest => skipLines (rest.length + 1) rest

def longString (quote : Char) : Nat → Reader (List Char)
  | 0, _ => none
  | fuel + 1, text =>
    match closing? quote text with
    | some result => some result
    | none =>
      match lineFeed? text, text with
      | some rest, _ => (longString quote fuel rest).map fun (body, rest) => ('\n' :: body, rest)
      | none, c :: rest =>
        if c = '\\' ∧ quote = '"' then
          match continuation? rest with
          | some rest => longString quote fuel rest
          | none => do
            let (c, rest) ← escape? rest
            let (body, rest) ← longString quote fuel rest
            return (c :: body, rest)
        else if isPlain c then
          (longString quote fuel rest).map fun (body, rest) => (c :: body, rest)
        else none
      | none, [] => none

def longBody (quote : Char) (text : List Char) : Option (List Char × List Char) :=
  longString quote (text.length + 1) ((lineFeed? text).getD text)

def string? : Reader (List Char)
  | '"' :: '"' :: '"' :: rest => longBody '"' rest
  | '\'' :: '\'' :: '\'' :: rest => longBody '\'' rest
  | '"' :: rest => basicString rest.length rest
  | '\'' :: rest => literalString rest
  | _ => none

def isBare (c : Char) : Bool := c.isAlphanum || c == '_' || c == '-'

def key? : Reader String
  | '"' :: rest => (basicString rest.length rest).map fun (name, rest) => (String.ofList name, rest)
  | '\'' :: rest => (literalString rest).map fun (name, rest) => (String.ofList name, rest)
  | text =>
    let name := text.takeWhile isBare
    if name.isEmpty then none else some (String.ofList name, text.drop name.length)

def keys? : Nat → Reader (List String)
  | 0, _ => none
  | fuel + 1, text => do
    let (name, rest) ← key? (skipBlanks text)
    match skipBlanks rest with
    | '.' :: rest =>
      let (names, rest) ← keys? fuel rest
      return (name :: names, rest)
    | rest => return ([name], rest)

end Script8255.Toml
