import Script8255.Program
import Script8255.Store

/-! The screen of the debug mode. -/

namespace Script8255

def clearScreen : String := "\x1b[2J\x1b[H"

namespace Screen

def green : String := "\x1b[32m"

def gray : String := "\x1b[90m"

def yellow : String := "\x1b[33m"

def reset : String := "\x1b[0m"

def variableLine (entry : String × Variable) : String :=
  let shown := match entry.2.value with
    | some value => value.display
    | none => "None"
  gray ++ "\t[" ++ entry.1 ++ "] " ++ shown ++ reset ++ "\n"

/-- The instruction about to run, the variables, and the instructions before it in the program. -/
def render (program : Program) (store : Store) (line : Nat) : String :=
  let current := (program.instructions[line]?).elim "" showTokens
  let earlier := program.instructions.toList.take line
  clearScreen ++ green ++ "[Execute] " ++ current ++ reset ++ "\n" ++
    String.join (store.slots.map variableLine) ++
    "\n" ++ gray ++ "[Stepped]\n" ++
    String.join (earlier.map fun tokens => "\t" ++ showTokens tokens ++ "\n") ++
    "\n" ++ yellow ++ "Press [ENTER] to step." ++ reset

end Screen

end Script8255
