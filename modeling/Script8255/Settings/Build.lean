import Script8255.Machine.Basic

/-! How settings are built: which layers take part, in which order, and what a caller decides. To
read, merge and convert the layers is left to a library. -/

namespace Script8255

structure Settings where
  mode : Mode
  filter : String
  deriving DecidableEq

inductive SettingsError where
  | missingFile (path : String)
  | invalid
  deriving DecidableEq

def SettingsError.message : SettingsError → String
  | missingFile path => s!"config file {path} does not exist"
  | invalid => "invalid settings"

namespace Settings

def defaultFile : String := "8255.toml"

def pathVariable : String := "LANG8255_CONFIG_PATH"

def default : Settings := ⟨⟨false, false⟩, "warn"⟩

/-- How a variable names a setting: by a start, a separator after it, and the parts of a key with
separators between them. The text of a variable may be read as a value of another type. -/
structure Naming where
  start : String
  startSeparator : String
  separator : String
  typed : Bool

def naming : Naming := ⟨"LANG8255", "_", "__", true⟩

/-- What the program uses of the libraries for settings. A layer is a table of values. `define`
adds the definitions of a file to an environment, and `file` is told whether the file has to be
there. -/
structure Library (m : Type → Type) where
  Value : Type
  define : Table String → m (Table String)
  defaults : Settings → Table Value
  file : String → Bool → m (Option (Table Value))
  environment : Naming → Table String → Table Value
  merge : List (Table Value) → Value
  convert : Value → Option Settings

structure Request where
  path : Option String
  debug : Bool
  readEnvironment : Bool
  environment : Table String

namespace Request

variable {m : Type → Type}

def definedEnvironment [Monad m] (library : Library m) (request : Request) : m (Table String) :=
  if request.readEnvironment then library.define request.environment
  else pure request.environment

def filePath (request : Request) (environment : Table String) : Option String :=
  request.path <|> if request.readEnvironment then environment.get? pathVariable else none

def layers (library : Library m) (request : Request) (environment : Table String)
    (file : Table library.Value) : List (Table library.Value) :=
  [library.defaults default, file] ++
    if request.readEnvironment then [library.environment naming environment] else []

def force (request : Request) (settings : Settings) : Settings :=
  if request.debug then { settings with mode := { settings.mode with debug := true } }
  else settings

def settle (library : Library m) (request : Request) (environment : Table String)
    (file : Option (Table library.Value)) : Except SettingsError Settings :=
  match file.bind fun file =>
      library.convert (library.merge (request.layers library environment file)) with
  | none => .error .invalid
  | some settings => .ok (request.force settings)

end Request

/-- A file that is named has to be there, and the default file need not. -/
def build {m : Type → Type} [Monad m] (found : String → m Bool) (library : Library m)
    (request : Request) : m (Except SettingsError Settings) := do
  let environment ← request.definedEnvironment library
  match request.filePath environment with
  | none => return request.settle library environment (← library.file defaultFile false)
  | some path =>
    if ← found path then
      return request.settle library environment (← library.file path true)
    else return .error (.missingFile path)

end Settings

end Script8255
