import Script8255.Escape
import Script8255.Template

/-! The variables that operand tokens name, and the values that they have. -/

namespace Script8255

def variableName (token : String) : Except Malformed String :=
  let name := match token.toList with
    | '&' :: name => name
    | name => name
  if !name.isEmpty && name.all Text.isWord then .ok (String.ofList name)
  else .error (.variableName token)

def isQuoted (token : List Char) : Bool :=
  1 < token.length && token.head? == some '"' && token.getLast? == some '"'

def trimQuotes (token : List Char) : List Char :=
  ((token.dropWhile (· == '"')).reverse.dropWhile (· == '"')).reverse

/-- The text of a string token. Placeholders are replaced before escapes are decoded. -/
def resolveText (store : Store) (token : List Char) : Except Failure String :=
  match interpolate store (trimQuotes token) with
  | .error error => .error (.store error)
  | .ok text =>
    match Escape.decode text with
    | .error reason => .error (.unusable reason)
    | .ok text => .ok (String.ofList text)

def resolve (store : Store) (token : String) : Except Failure Value :=
  match token.toList with
  | '&' :: name =>
    if name.isEmpty then .error (.malformed .missingName)
    else (store.read (String.ofList name)).mapError .store
  | text =>
    match Text.integer? text with
    | some n =>
      match Text.word? n with
      | some word => .ok (.int word)
      | none => .error (.unusable (.literalRange token))
    | none =>
      if isQuoted text then (resolveText store text).map .str
      else .error (.malformed (.value token))

end Script8255
