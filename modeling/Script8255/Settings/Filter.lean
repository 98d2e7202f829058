import Script8255.Text.Characters
import Script8255.Text.Decimal

/-! The directives of the log filter, as far as they decide which of them are refused. A directive
is a target, a span in brackets, perhaps with a field in braces, and a level after an equals sign.
Target, span and level may each be missing, but not all three. -/

namespace Script8255.Filter

inductive Refusal where
  | malformed
  | level
  deriving DecidableEq

def Refusal.message : Refusal → String
  | malformed => "invalid filter directive"
  | level => "error parsing level filter: expected one of \"off\", \"error\", \"warn\", " ++
      "\"info\", \"debug\", \"trace\", or a number 0-5"

def levelNames : List String := ["off", "error", "warn", "info", "debug", "trace"]

def levelNumber? : List Char → Option Nat
  | '+' :: digits => Text.natural? digits
  | digits => Text.natural? digits

def isLevel (text : List Char) : Bool :=
  text.isEmpty || (levelNumber? text).any (· ≤ 5) ||
    String.ofList (text.map Char.toLower) ∈ levelNames

/-- What is wrong with a level that begins where `rest` does in the trimmed directive. It is taken
from that place of the directive as it stands, so that blanks at either end spoil it. -/
def levelRefusal? (directive rest : List Char) : Option Refusal :=
  let start := (Text.trim directive).length - rest.length
  if isLevel (directive.drop start) then none else some .level

def tailRefusal? (directive : List Char) : List Char → Option Refusal
  | [] => none
  | '=' :: rest => levelRefusal? directive rest
  | _ => some .malformed

def fieldRefusal? (directive text : List Char) : Option Refusal :=
  match text.span (· != '}') with
  | (_ :: _, '}' :: ']' :: rest) => tailRefusal? directive rest
  | _ => some .malformed

def spanRefusal? (directive text : List Char) : Option Refusal :=
  match text.dropWhile fun c => c != ']' && c != '{' with
  | ']' :: rest => tailRefusal? directive rest
  | '{' :: rest => fieldRefusal? directive rest
  | _ => some .malformed

/-- A directive without brackets and equals sign is a level or a target, and either is taken. -/
def targetRefusal? (directive text : List Char) : Option Refusal :=
  match text.dropWhile fun c => c != '=' && c != '[' with
  | '=' :: rest => levelRefusal? directive rest
  | '[' :: rest => spanRefusal? directive rest
  | _ => none

def startsTarget (c : Char) : Bool :=
  c == '-' || c == ':' || c == '_' || Text.isAlphanumeric c

def refusal? (directive : List Char) : Option Refusal :=
  match Text.trim directive with
  | [] => some .malformed
  | '[' :: rest => spanRefusal? directive rest
  | c :: rest =>
    if startsTarget c then targetRefusal? directive (c :: rest) else some .malformed

def complaints (filter : String) : List String :=
  ((filter.splitOn ",").filter (· ≠ "")).filterMap fun directive =>
    (refusal? directive.toList).map fun refusal =>
      s!"ignoring `{directive}`: {refusal.message}"

end Script8255.Filter
