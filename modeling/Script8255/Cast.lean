import Script8255.Failure
import Script8255.Text.Characters

/-! Conversions between the kinds of values. -/

namespace Script8255

inductive CastTarget where
  | integer
  | string
  deriving DecidableEq

def CastTarget.ofKeyword? : String → Option CastTarget
  | "INTEGER" => some .integer
  | "STRING" => some .string
  | _ => none

namespace Value

/-- White space around the digits and either sign are accepted. -/
def integerOfText (text : String) : Except Unusable Int64 :=
  match Text.signed? (Text.trim text.toList) with
  | none => .error (.notInteger text)
  | some n =>
    match Text.word? n with
    | some word => .ok word
    | none => .error .overflow

def integerOfFloat (x : Float) : Except Unusable Int64 :=
  match (Binary64.number x).truncate? with
  | none => .error (.notFinite x)
  | some n =>
    match Text.word? n with
    | some word => .ok word
    | none => .error .overflow

def cast (value : Value) : CastTarget → Except Unusable Value
  | .string => .ok (.str value.display)
  | .integer =>
    match value with
    | .int n => .ok (.int n)
    | .float x => (integerOfFloat x).map .int
    | .str text => (integerOfText text).map .int

end Value

end Script8255
