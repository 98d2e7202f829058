import Script8255.Comparison
import Script8255.Machine.Stream
import Script8255.Program
import Script8255.Store

/-! The state of a running program. -/

namespace Script8255

/-- `debug` shows a screen before every instruction, and `ordered` lets comparisons tell greater
from less. -/
structure Mode where
  debug : Bool
  ordered : Bool
  deriving DecidableEq

structure Machine where
  program : Program
  store : Store
  line : Nat
  flag : Flag
  mode : Mode
  input : List UInt8
  output : Output

inductive ExitStatus where
  | code (n : Int64)
  | message (text : String)
  deriving DecidableEq

def ExitStatus.exitCode : ExitStatus → Int32
  | code n => n.toInt32
  | message _ => 1

inductive Halt where
  | completed
  | exited (status : ExitStatus)
  deriving DecidableEq

def Halt.exitCode : Halt → Int32
  | completed => 0
  | exited status => status.exitCode

inductive Progress where
  | running
  | halted (halt : Halt)
  deriving DecidableEq

namespace Machine

def start (program : Program) (mode : Mode) (input : List UInt8) : Machine :=
  { program, store := Store.empty program.requiredSize, line := 0, flag := .unset, mode, input
    output := ⟨ByteArray.empty, none, false⟩ }

def write (m : Machine) (text : String) : Except StreamError Unit × Machine :=
  let (result, output) := m.output.write text
  (result, { m with output })

def present (m : Machine) (text : String) : Except StreamError Unit × Machine :=
  match m.write text with
  | (.error error, m) => (.error error, m)
  | (.ok (), m) => (m.output.flush, m)

/-- The next line with its end, which is empty when the input is used up. -/
def readLine (m : Machine) : Except StreamError String × Machine :=
  let (line, input) := takeLine m.input
  (lineText line, { m with input })

end Machine

end Script8255
