import Script8255.CommandLine

/-! The command `8255`: the streams, files and environment of a process around the machine. -/

namespace Script8255.Terminal

def entryOfError : IO.Error → Entry
  | .inappropriateType _ code _ => if code = 21 then .directory else .notDirectory
  | .invalidArgument _ code _ => if code = 36 then .nameTooLong else .missing
  | _ => .missing

def look (path : String) : IO Entry := do
  try
    return .file (← IO.FS.readBinFile path)
  catch error => return entryOfError error

def definition? (text : String) : Option (String × String) :=
  let name := text.toList.takeWhile (· != '=')
  if name.isEmpty then none
  else some (String.ofList name, String.ofList (text.toList.drop (name.length + 1)))

def environment : IO (Table String) := do
  match ← look "/proc/self/environ" with
  | .file bytes =>
    let texts := ((String.fromUTF8? bytes).getD "").splitOn "\x00"
    return texts.filterMap definition?
  | _ => return []

partial def readLine (input : IO.FS.Stream) (line : List UInt8) : IO (List UInt8) := do
  match (← input.read 1).data.toList with
  | [10] => return (10 :: line).reverse
  | [byte] => readLine input (byte :: line)
  | _ => return line.reverse

def emit (output : IO.FS.Stream) (bytes : ByteArray) : IO Unit := do
  output.write bytes
  output.flush

/-- Shows the prompts of a step and reads a line after each. The result counts the bytes shown. -/
def supply (input output : IO.FS.Stream) (m : Machine) :
    List String → Nat → IO (Machine × Nat)
  | [], shown => return (m, shown)
  | text :: later, shown => do
    emit output text.toUTF8
    let line ← readLine input []
    let m := { m with input := m.input ++ line }
    let shown := shown + text.utf8ByteSize
    match lineText line with
    | .ok _ => supply input output m later shown
    | .error _ => return (m, shown)

partial def play (input output : IO.FS.Stream) (m : Machine) : IO (Except Fatal Halt) := do
  let (m, shown) ← supply input output m m.prompts 0
  let (result, m) := m.step
  let written := m.output.written
  emit output (written.extract shown written.size)
  match result with
  | .error fatal => return .error fatal
  | .ok (.halted halt) => return m.finish halt
  | .ok .running =>
    play input output { m with output := { m.output with written := ByteArray.empty } }

def report (outcome : CommandLine.Outcome) : IO UInt32 := do
  let errors ← IO.getStderr
  outcome.complaints.forM errors.putStrLn
  if let some problem := outcome.problem then errors.putStrLn problem.message
  if let some message := outcome.message then errors.putStrLn message
  return outcome.exit.toUInt32

/-- Complaints are shown before the script runs, so the outcome repeats none. -/
def start (arguments : CommandLine.Arguments) : IO CommandLine.Outcome := do
  let ready ← CommandLine.prepare look (← environment) [] arguments
  ready.complaints.forM (← IO.getStderr).putStrLn
  match ready.machine with
  | .error problem => return .ofProblem ByteArray.empty [] problem
  | .ok machine =>
    return .ofRun ByteArray.empty [] (← play (← IO.getStdin) (← IO.getStdout) machine)

end Script8255.Terminal

open Script8255 in
def main (arguments : List String) : IO UInt32 := do
  match CommandLine.parse arguments none false with
  | .error problem => Terminal.report (.ofProblem ByteArray.empty [] problem)
  | .ok .help =>
    (← IO.getStdout).putStrLn CommandLine.usage
    return 0
  | .ok (.run arguments) => Terminal.report (← Terminal.start arguments)
