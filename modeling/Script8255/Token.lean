import Script8255.Text.Characters

/-! The tokens of a source line: what stands between its unquoted separators. -/

namespace Script8255.Token

inductive Place where
  | outside
  | inside
  | escaped
  deriving DecidableEq

/-- Whether a run that has just been opened has a closing quote. A backslash takes the next
character with it. -/
def closes : List Char → Bool
  | [] => false
  | '"' :: _ => true
  | '\\' :: _ :: rest => closes rest
  | _ :: rest => closes rest

/-- Pairs each character with whether it belongs to a quoted run. A quote that nothing closes is
an ordinary character. -/
def quoting : Place → List Char → List (Char × Bool)
  | _, [] => []
  | .outside, c :: rest =>
    if c == '"' && closes rest then (c, true) :: quoting .inside rest
    else (c, false) :: quoting .outside rest
  | .inside, c :: rest =>
    (c, true) :: quoting (if c = '"' then .outside else if c = '\\' then .escaped else .inside) rest
  | .escaped, c :: rest => (c, true) :: quoting .inside rest

theorem quoting_map_fst (place : Place) (line : List Char) :
    (quoting place line).map Prod.fst = line := by
  induction line generalizing place with
  | nil => cases place <;> rfl
  | cons c rest ih =>
    cases place with
    | outside =>
      unfold quoting
      split <;> simp [ih]
    | inside => simp [quoting, ih]
    | escaped => simp [quoting, ih]

def ends (c : Char × Bool) : Bool := Text.isSeparator c.1 && !c.2

def split (line : List Char) : List (List Char) :=
  (((quoting .outside line).splitOnP ends).filter fun piece => !piece.isEmpty).map
    (List.map Prod.fst)

end Token

def tokenize (line : String) : List String := (Token.split line.toList).map String.ofList

def showTokens (tokens : List String) : String := " ".intercalate tokens

end Script8255
