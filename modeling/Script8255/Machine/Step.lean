import Script8255.Instruction
import Script8255.Machine.Basic
import Script8255.Machine.Screen
import Script8255.Resolve

/-! Running instructions one after the other. -/

namespace Script8255

inductive Control where
  | next
  | goto (line : Nat)
  | exit (status : ExitStatus)
  deriving DecidableEq

namespace Machine

def operandName (token : String) : Except Failure String :=
  (variableName token).mapError .malformed

def written (store : Store) (name : String) (value : Value) : Except Failure Store :=
  (store.write name value).mapError .store

def storing (m : Machine) (result : Except Failure Store) : Except Failure Control × Machine :=
  match result with
  | .ok store => (.ok .next, { m with store })
  | .error failure => (.error failure, m)

def observing (m : Machine) (result : Except Failure Control) :
    Except Failure Control × Machine :=
  (result, m)

def outputting (result : Except StreamError Unit × Machine) : Except Failure Control × Machine :=
  (match result.1 with
    | .ok () => .ok .next
    | .error error => .error (.stream error), result.2)

def allocate (store : Store) (name size : String) : Except Failure Store := do
  let name ← operandName name
  let size ← (allocationSize size).mapError .malformed
  (store.allocate name size).mapError .store

def arithmetic (store : Store) (operation : Operation) (left right name : String) :
    Except Failure Store := do
  let name ← operandName name
  let left ← resolve store left
  let right ← resolve store right
  let value ← (operation.apply left right).mapError .unusable
  written store name value

def cast (store : Store) (name : String) (target : CastTarget) : Except Failure Store := do
  let name ← operandName name
  let value ← (store.read name).mapError .store
  let value ← (value.cast target).mapError .unusable
  written store name value

def assign (store : Store) (value name : String) : Except Failure Store := do
  let name ← operandName name
  let value ← resolve store value
  written store name value

def drop (store : Store) (name : String) : Except Failure Store := do
  let name ← operandName name
  let (_, store) ← (store.drop name).mapError .store
  return store

def comparison (m : Machine) (left right : String) : Except Failure Flag := do
  let left ← resolve m.store left
  let right ← resolve m.store right
  left.compare right m.mode.ordered

def jumping (m : Machine) (jump : Jump) (label : String) : Except Failure Control :=
  if jump.fires m.flag m.mode.ordered then
    match m.program.labels.get? label with
    | some line => .ok (.goto line)
    | none => .error (.unknownLabel label)
  else .ok .next

def exiting (store : Store) (value : String) : Except Failure Control :=
  (resolve store value).map fun
    | .int n => .exit (.code n)
    | value => .exit (.message value.display)

def request (store : Store) (prompt name : String) : Except Failure (String × String) := do
  match ← resolve store prompt with
  | .str text => return (text, ← operandName name)
  | _ => throw (.unusable .promptKind)

def ask (m : Machine) (prompt name : String) : Except Failure Control × Machine :=
  match request m.store prompt name with
  | .error failure => (.error failure, m)
  | .ok (text, name) =>
    match m.present text with
    | (.error error, m) => (.error (.stream error), m)
    | (.ok (), m) =>
      match m.readLine with
      | (.error error, m) => (.error (.stream error), m)
      | (.ok line, m) =>
        if line.isEmpty then (.error .endOfInput, m)
        else m.storing (written m.store name (.str (dropLineEnd line)))

def out (m : Machine) (value : String) : Except Failure Control × Machine :=
  match resolve m.store value with
  | .error failure => (.error failure, m)
  | .ok value => outputting (m.write (value.display ++ "\n"))

def compare (m : Machine) (left right : String) : Except Failure Control × Machine :=
  match m.comparison left right with
  | .error failure => (.error failure, m)
  | .ok flag => (.ok .next, { m with flag })

/-- The effect of an instruction, apart from the counter and the status register. -/
def perform (m : Machine) : Instruction → Except Failure Control × Machine
  | .out value => m.out value
  | .label => (.ok .next, m)
  | .exit value => m.observing (exiting m.store value)
  | .clear => outputting (m.present clearScreen)
  | .allocate name size => m.storing (allocate m.store name size)
  | .input prompt name => m.ask prompt name
  | .arithmetic operation left right name =>
    m.storing (arithmetic m.store operation left right name)
  | .cast name target => m.storing (cast m.store name target)
  | .compare left right => m.compare left right
  | .jump jump label => m.observing (m.jumping jump label)
  | .drop name => m.storing (drop m.store name)
  | .assign value name => m.storing (assign m.store value name)

def execute (m : Machine) (tokens : List String) : Except Failure Control × Machine :=
  match Instruction.ofTokens? tokens with
  | some instruction => m.perform instruction
  | none => (.error (.malformed (.instruction (showTokens tokens))), m)

def pause (m : Machine) : Except StreamError Unit × Machine :=
  match m.present (Screen.render m.program m.store m.line) with
  | (.error error, m) => (.error error, m)
  | (.ok (), m) =>
    let (line, m) := m.readLine
    (line.map fun _ => (), m)

def advance (m : Machine) (status : Int64) : Except Failure Progress × Machine :=
  match m.store.writeReserved statusRegister (.int status) with
  | .ok store => (.ok .running, { m with store, line := m.line + 1 })
  | .error error => (.error (.store error), m)

/-- Settles the outcome of an instruction: a recoverable failure counts as status 1. -/
def conclude : Except Failure Control × Machine → Except Failure Progress × Machine
  | (.ok .next, m) => m.advance 0
  | (.ok (.goto line), m) => (.ok .running, { m with line })
  | (.ok (.exit status), m) => (.ok (.halted (.exited status)), m)
  | (.error failure, m) => if failure.isFatal then (.error failure, m) else m.advance 1

def cycle (m : Machine) (tokens : List String) : Except Failure Progress × Machine :=
  if m.mode.debug then
    match m.pause with
    | (.error error, m) => (.error (.stream error), m)
    | (.ok (), m) => conclude (m.execute tokens)
  else conclude (m.execute tokens)

def step (m : Machine) : Except Fatal Progress × Machine :=
  match m.program.instructions[m.line]? with
  | none => (.ok (.halted .completed), m)
  | some tokens =>
    let (result, next) := m.cycle tokens
    (result.mapError fun failure => ⟨m.line, showTokens tokens, failure⟩, next)

/-- The texts after which the next step waits for a line. -/
def prompts (m : Machine) : List String :=
  match m.program.instructions[m.line]? with
  | none => []
  | some tokens =>
    let asked := match Instruction.ofTokens? tokens with
      | some (.input prompt name) =>
        match request m.store prompt name with
        | .ok (text, _) => [text]
        | .error _ => []
      | _ => []
    if m.mode.debug then Screen.render m.program m.store m.line :: asked else asked

def finish (m : Machine) (halt : Halt) : Except Fatal Halt :=
  match m.output.flush with
  | .ok () => .ok halt
  | .error error => .error ⟨m.line, "", .stream error⟩

/-- Takes at most `fuel` steps, and has no result when the program has not ended by then. -/
def run : Nat → Machine → Option (Except Fatal Halt) × Machine
  | 0, m => (none, m)
  | fuel + 1, m =>
    match m.step with
    | (.error fatal, m) => (some (.error fatal), m)
    | (.ok (.halted halt), m) => (some (m.finish halt), m)
    | (.ok .running, m) => run fuel m

end Machine

end Script8255
