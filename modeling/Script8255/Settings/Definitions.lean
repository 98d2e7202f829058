import Script8255.Machine.Stream
import Script8255.Table
import Script8255.Text.Characters

/-! Files of variable definitions, one `KEY=VALUE` to a line. -/

namespace Script8255.Definitions

inductive Scan where
  | complete
  | blank
  | escape
  | single
  | singleEscape
  | double
  | doubleEscape
  deriving DecidableEq

def Scan.enter (c : Char) : Scan :=
  if c = '\\' then .escape else if c = '"' then .double else if c = '\'' then .single
  else .complete

def Scan.next (scan : Scan) (c : Char) : Scan :=
  match scan with
  | complete => if Text.isBlank c && c != '\n' && c != '\r' then blank else Scan.enter c
  | blank => Scan.enter c
  | escape => complete
  | single => if c = '\\' then singleEscape else if c = '\'' then complete else single
  | singleEscape => single
  | double => if c = '\\' then doubleEscape else if c = '"' then complete else double
  | doubleEscape => double

def scanLine : Scan → List Char → List Char × Scan
  | scan, [] => ([], scan)
  | scan, c :: rest =>
    if scan = .blank ∧ c = '#' then ([], .complete)
    else
      let (kept, last) := scanLine (scan.next c) rest
      (c :: kept, last)

/-- The statements of a file. One goes on over the line end while a quote is open, after a
backslash and after a blank. A statement that is still open at the end is lost. -/
def statements (start : List Char) (scan : Scan) : List (List Char) → List (List Char)
  | [] => []
  | line :: later =>
    if (Text.trimStart (start ++ line)).head? = some '#' then statements [] .complete later
    else
      let (kept, last) := scanLine scan line
      if last = .complete then
        Text.dropFinal '\r' (Text.dropFinal '\n' (start ++ kept)) :: statements [] .complete later
      else statements (start ++ kept) last later

inductive Quote where
  | none
  | single
  | double
  deriving DecidableEq

inductive Reference where
  | none
  | bare (name : List Char)
  | braced (name : List Char)
  deriving DecidableEq

structure Draft where
  reversed : List Char
  quote : Quote
  escaped : Bool
  ended : Bool
  reference : Reference

def Draft.empty : Draft := ⟨[], .none, false, false, .none⟩

def Draft.push (draft : Draft) (c : Char) : Draft :=
  { draft with reversed := c :: draft.reversed }

/-- A variable is looked up by what stands before an equals sign in its definition. This need not
be the first one, so a name may run on into the value. -/
def lookup (environment : Table String) (name : List Char) : List Char :=
  (environment.findSome? fun (key, value) =>
    (name ++ ['=']).isPrefixOf? (key.toList ++ '=' :: value.toList)).getD []

def Draft.withValue (environment : Table String) (draft : Draft) (name : List Char) : List Char :=
  (lookup environment name).reverseAux draft.reversed

def Draft.pushEscaped (draft : Draft) (c : Char) : Option Draft :=
  let draft := { draft with escaped := false }
  if c ∈ ['\\', '\'', '"', '$', ' '] then some (draft.push c)
  else if c = 'n' then some (draft.push '\n')
  else none

def Draft.pushPlain (draft : Draft) (c : Char) : Draft :=
  if draft.quote = .single then
    if c = '\'' then { draft with quote := .none } else draft.push c
  else if c = '$' then { draft with reference := .bare [] }
  else if c = '\\' then { draft with escaped := true }
  else if draft.quote = .double then
    if c = '"' then { draft with quote := .none } else draft.push c
  else if c = '\'' then { draft with quote := .single }
  else if c = '"' then { draft with quote := .double }
  else if c = ' ' ∨ c = '\t' then { draft with ended := true }
  else draft.push c

/-- Reads a character of a reference. The character that ends a bare name is taken as it is,
unless it starts another reference. -/
def Draft.pushReference (environment : Table String) (draft : Draft) (c : Char) : Draft :=
  match draft.reference with
  | .none => draft.pushPlain c
  | .braced name =>
    if c = '}' then
      { draft with reversed := draft.withValue environment name, reference := .none }
    else { draft with reference := .braced (name ++ [c]) }
  | .bare name =>
    if Text.isAlphanumeric c then { draft with reference := .bare (name ++ [c]) }
    else if c = '{' ∧ name = [] then { draft with reference := .braced [] }
    else
      let reversed := draft.withValue environment name
      if c = '$' then { draft with reversed, reference := .bare [] }
      else { draft with reversed := c :: reversed, reference := .none }

def Draft.finish (environment : Table String) (draft : Draft) : Option (List Char) :=
  if draft.quote ≠ .none then none
  else
    match draft.reference with
    | .none => some draft.reversed.reverse
    | .bare name => some (draft.withValue environment name).reverse
    | .braced _ => none

def value? (environment : Table String) : Draft → List Char → Option (List Char)
  | draft, [] => draft.finish environment
  | draft, c :: rest =>
    if draft.ended then
      if c = ' ' ∨ c = '\t' then value? environment draft rest
      else if c = '#' then draft.finish environment
      else none
    else if draft.escaped then
      (draft.pushEscaped c).bind fun draft => value? environment draft rest
    else value? environment (draft.pushReference environment c) rest

def isKeyChar (c : Char) : Bool := c.isAlphanum || c == '_' || c == '.'

def key? (text : List Char) : Option (List Char × List Char) :=
  let name := text.takeWhile isKeyChar
  if name.head?.any fun c => c.isAlpha || c == '_' then
    some (name, Text.trimStart (text.drop name.length))
  else none

def afterEquals? : List Char → Option (List Char)
  | '=' :: rest => some (Text.trimStart rest)
  | _ => none

def definition? (text : List Char) : Option (List Char × List Char) := do
  let (name, rest) ← key? text
  match afterEquals? rest with
  | some value => return (name, value)
  | none =>
    if name = "export".toList then
      let (name, rest) ← key? rest
      return (name, ← afterEquals? rest)
    else none

def isBlankOrComment (text : List Char) : Bool := text.isEmpty || text.head? == some '#'

def define (environment : Table String) : List (List Char) → Table String
  | [] => environment
  | statement :: later =>
    let text := Text.trim statement
    if isBlankOrComment text then define environment later
    else
      match definition? text with
      | none => environment
      | some (name, rest) =>
        match if isBlankOrComment rest then some [] else value? environment .empty rest with
        | none => environment
        | some value =>
          let name := String.ofList name
          if environment.contains name then define environment later
          else define (environment.put name (String.ofList value)) later

def textLines : Nat → List UInt8 → List (List Char)
  | _, [] => []
  | 0, _ => []
  | fuel + 1, bytes =>
    let (line, rest) := takeLine bytes
    match lineText line with
    | .ok text => text.toList :: textLines fuel rest
    | .error _ => []

def load (environment : Table String) (bytes : List UInt8) : Table String :=
  let bytes := match bytes with
    | 0xef :: 0xbb :: 0xbf :: rest => rest
    | bytes => bytes
  define environment (statements [] .complete (textLines bytes.length bytes))

end Script8255.Definitions
