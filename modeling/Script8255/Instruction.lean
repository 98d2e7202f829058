import Script8255.Arithmetic
import Script8255.Cast
import Script8255.Comparison

/-! Instructions by opcode and shape, with their operands still as tokens. -/

namespace Script8255

inductive Instruction where
  | out (value : String)
  | label
  | exit (value : String)
  | clear
  | allocate (name size : String)
  | input (prompt name : String)
  | arithmetic (operation : Operation) (left right name : String)
  | cast (name : String) (target : CastTarget)
  | compare (left right : String)
  | jump (jump : Jump) (label : String)
  | drop (name : String)
  | assign (value name : String)
  deriving DecidableEq

namespace Instruction

def ofTwo? (opcode operand : String) : Option Instruction :=
  match opcode with
  | "out" => some (.out operand)
  | "lbl" => some .label
  | "ext" => some (.exit operand)
  | "drp" => some (.drop operand)
  | _ => (Jump.ofOpcode? opcode).map fun jump => .jump jump operand

/-- Three tokens that start with no opcode of that shape may still assign. -/
def ofThree? (first second third : String) : Option Instruction :=
  let assignment := if second = ">" then some (.assign first third) else none
  match first with
  | "alc" => some (.allocate second third)
  | "cmp" => some (.compare second third)
  | "cst" =>
    match CastTarget.ofKeyword? third with
    | some target => some (.cast second target)
    | none => assignment
  | _ => assignment

def ofTokens? : List String → Option Instruction
  | ["cls"] => some .clear
  | [opcode, operand] => ofTwo? opcode operand
  | [first, second, third] => ofThree? first second third
  | ["inp", prompt, ">", name] => some (.input prompt name)
  | [opcode, left, right, ">", name] =>
    (Operation.ofOpcode? opcode).map fun operation => .arithmetic operation left right name
  | _ => none

end Instruction

end Script8255
