import Script8255.Failure
import Script8255.Table
import Script8255.Token

/-! Programs: tokenized instructions, the places of the labels, and the arena they need. -/

namespace Script8255

def sizeDigits? : List Char → Option (List Char)
  | ':' :: '[' :: rest => if rest.getLast? = some ']' then some rest.dropLast else none
  | _ => none

def allocationSize (token : String) : Except Malformed UInt64 :=
  match ((sizeDigits? token.toList).bind Text.natural?).bind Text.size? with
  | some size => .ok size
  | none => .error (.allocationSize token)

structure Program where
  instructions : Array (List String)
  labels : Table Nat
  requiredSize : UInt64
  deriving DecidableEq

namespace Program

/-- Of the definitions of one label the last one counts. -/
def labelTable : Nat → List (List String) → Table Nat → Table Nat
  | _, [], labels => labels
  | index, tokens :: rest, labels =>
    match tokens with
    | ["lbl", name] => labelTable (index + 1) rest (labels.put name index)
    | _ => labelTable (index + 1) rest labels

def allocated : List String → Nat
  | ["alc", _, size] =>
    match allocationSize size with
    | .ok size => size.toNat
    | .error _ => 0
  | _ => 0

/-- Every allocation counts once, and the sum stops at the largest size. -/
def arena (instructions : List (List String)) : UInt64 :=
  UInt64.ofNat (min ((instructions.map allocated).foldr (· + ·) 0) (UInt64.size - 1))

def ofInstructions (instructions : List (List String)) : Program :=
  ⟨instructions.toArray, labelTable 0 instructions [], arena instructions⟩

def build (lines : List String) : Program := ofInstructions (lines.map tokenize)

def sourceLines (source : String) : List String :=
  (((source.toList.splitOn '\n').map Text.trim).filter fun line => !line.isEmpty).map
    String.ofList

def ofSource (source : String) : Program := build (sourceLines source)

end Program

end Script8255
