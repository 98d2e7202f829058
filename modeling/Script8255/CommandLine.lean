import Script8255.Machine.Step
import Script8255.Settings.Filter
import Script8255.Settings.Load

/-! The command line: its arguments, the order of its work, and what it reports. -/

namespace Script8255.CommandLine

structure Arguments where
  path : String
  debug : Bool
  deriving DecidableEq

inductive Request where
  | run (arguments : Arguments)
  | help
  deriving DecidableEq

inductive ReadError where
  | missing
  | notDirectory
  | directory
  | nameTooLong
  | notUtf8
  deriving DecidableEq

def ReadError.message : ReadError → String
  | missing => "No such file or directory (os error 2)"
  | notDirectory => "Not a directory (os error 20)"
  | directory => "Is a directory (os error 21)"
  | nameTooLong => "File name too long (os error 36)"
  | notUtf8 => StreamError.notUtf8.message

inductive Problem where
  | usage
  | settings (error : SettingsError)
  | source (path : String) (error : ReadError)
  | fatal (cause : Fatal)
  deriving DecidableEq

def usage : String := "Usage: 8255 [OPTIONS] <FILEPATH>"

def fatalReport (fatal : Fatal) : String :=
  let causes := match fatal.failure with
    | .stream error => [fatal.message, fatal.failure.message, error.message]
    | failure => [fatal.message, failure.message]
  ": ".intercalate causes

def Problem.message : Problem → String
  | usage => CommandLine.usage
  | settings error => s!"error: Failed to load configuration: {error.message}"
  | source path error => s!"error: Failed to read {path}: {error.message}"
  | fatal cause => s!"error: {fatalReport cause}"

def Problem.exitStatus : Problem → UInt8
  | usage => 2
  | _ => 1

/-- Reads the arguments from left to right. After `--` every argument is a path. -/
def parse : List String → Option String → Bool → Except Problem Request
  | [], none, _ => .error .usage
  | [], some path, debug => .ok (.run ⟨path, debug⟩)
  | argument :: later, path, debug =>
    if argument = "--" then
      match path, later with
      | some path, [] => .ok (.run ⟨path, debug⟩)
      | none, [path] => if path.isEmpty then .error .usage else .ok (.run ⟨path, debug⟩)
      | _, _ => .error .usage
    else if argument = "-h" ∨ argument = "--help" then .ok .help
    else if argument = "-d" ∨ argument = "--debug" then
      if debug then .error .usage else parse later path true
    else if argument.isEmpty ∨ argument ≠ "-" ∧ argument.toList.head? = some '-' then .error .usage
    else if path.isSome then .error .usage
    else parse later (some argument) debug

def sourceText (path : String) : Entry → Except Problem String
  | .file bytes =>
    match String.fromUTF8? bytes with
    | some text => .ok text
    | none => .error (.source path .notUtf8)
  | .directory => .error (.source path .directory)
  | .missing => .error (.source path .missing)
  | .notDirectory => .error (.source path .notDirectory)
  | .nameTooLong => .error (.source path .nameTooLong)

/-- What is there before the first step: the complaints about the log filter, and a machine unless
something went wrong. -/
structure Preparation where
  complaints : List String
  machine : Except Problem Machine

def prepare {m : Type → Type} [Monad m] (look : String → m Entry) (environment : Table String)
    (input : List UInt8) (arguments : Arguments) : m Preparation := do
  match ← Settings.load look ⟨none, arguments.debug, true, environment⟩ with
  | .error error => return ⟨[], .error (.settings error)⟩
  | .ok settings =>
    let source := sourceText arguments.path (← look arguments.path)
    return ⟨Filter.complaints settings.filter, source.map fun text =>
      Machine.start (Program.ofSource text) settings.mode input⟩

def exitStatus (halt : Halt) : UInt8 := halt.exitCode.toInt8.toUInt8

/-- What a process leaves behind. The complaints come first among its errors. -/
structure Outcome where
  exit : UInt8
  output : ByteArray
  complaints : List String
  problem : Option Problem
  message : Option String

def Outcome.ofProblem (output : ByteArray) (complaints : List String) (problem : Problem) :
    Outcome :=
  ⟨problem.exitStatus, output, complaints, some problem, none⟩

def exitMessage : Halt → Option String
  | .exited (.message text) => some text
  | _ => none

def Outcome.ofRun (output : ByteArray) (complaints : List String) : Except Fatal Halt → Outcome
  | .error fatal => .ofProblem output complaints (.fatal fatal)
  | .ok halt => ⟨exitStatus halt, output, complaints, none, exitMessage halt⟩

/-- The whole process on the files of a working directory, with no outcome when the script has
not ended after `fuel` steps. -/
def run (fuel : Nat) (files : Directory) (environment : Table String) (input : List UInt8)
    (arguments : List String) : Option Outcome :=
  match parse arguments none false with
  | .error problem => some (.ofProblem ByteArray.empty [] problem)
  | .ok .help => some ⟨0, usage.toUTF8, [], none, none⟩
  | .ok (.run arguments) =>
    let ready := Id.run (prepare (fun path => pure (files.look path)) environment input arguments)
    match ready.machine with
    | .error problem => some (.ofProblem ByteArray.empty ready.complaints problem)
    | .ok machine =>
      let (result, machine) := machine.run fuel
      result.map (Outcome.ofRun machine.output.written ready.complaints)

end Script8255.CommandLine
