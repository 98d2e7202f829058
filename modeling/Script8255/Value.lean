import Script8255.Binary64.Notation
import Script8255.Text.Decimal

/-! Values of scripts, their texts and their numeric reading. -/

namespace Script8255

inductive Kind where
  | integer
  | float
  | string
  deriving DecidableEq

def Kind.name : Kind → String
  | .integer => "INTEGER"
  | .float => "FLOAT"
  | .string => "STRING"

inductive Value where
  | int (n : Int64)
  | float (x : Float)
  | str (text : String)
  deriving DecidableEq

namespace Value

def kind : Value → Kind
  | int _ => .integer
  | float _ => .float
  | str _ => .string

def display : Value → String
  | int n => String.ofList (Text.ofInt n.toInt)
  | float x => String.ofList (Binary64.display x)
  | str text => text

def byteSize (value : Value) : Nat := value.display.utf8ByteSize

def toFloat? : Value → Option Float
  | int n => some (Binary64.ofWord n)
  | float x => some x
  | str _ => none

/-- Numbers of either kind are equal as floating-point numbers, and a string only equals a
string. -/
def equals : Value → Value → Bool
  | int m, int n => m == n
  | str s, str t => s == t
  | a, b =>
    match a.toFloat?, b.toFloat? with
    | some x, some y => Binary64.compare? x y == some .eq
    | _, _ => false

end Value

end Script8255
