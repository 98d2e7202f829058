import Script8255.Settings.Build

/-! What a library for settings has to do: merge layers key by key, with the later ones winning,
and convert values only when it has merged them. -/

namespace Script8255.Settings

inductive Setting where
  | debug
  | ordered
  | filter
  deriving DecidableEq

namespace Setting

def sectionName : Setting → String
  | debug | ordered => "interpreter"
  | filter => "logging"

def name : Setting → String
  | debug => "debug"
  | ordered => "ordered_comparisons"
  | filter => "filter"

def path (setting : Setting) : List String := [setting.sectionName, setting.name]

end Setting

variable {m : Type → Type}

/-- How to look at the values of a library: the entries of a table, what merged layers hold for a
setting, the path of the key that a variable names, the value that its text stands for, and what a
value is converted to. -/
structure View (library : Library m) where
  entries? : library.Value → Option (Table library.Value)
  held? : library.Value → Setting → Option library.Value
  names? : String → Option (List String)
  valueOf : String → library.Value
  toBool? : library.Value → Option Bool
  toText? : library.Value → Option String

def isPlainKey (key : String) : Bool := key.toList.all fun c => c.isAlphanum || c == '_' || c == '-'

namespace View

variable {library : Library m} (view : View library)

def Plain (layer : Table library.Value) : Prop :=
  ∀ entry ∈ layer, isPlainKey entry.1 = true ∧ (view.entries? entry.2).isSome = true

/-- A layer gives a setting what is held for it when the layer is merged alone. -/
def given? (layer : Table library.Value) (setting : Setting) : Option library.Value :=
  view.held? (library.merge [layer]) setting

def paths (environment : Table String) : List (List String) :=
  environment.filterMap fun entry => view.names? entry.1

/-- No two variables name the same key, and none names a section or what is below a setting. -/
structure Tidy (environment : Table String) : Prop where
  distinct : (view.paths environment).Nodup
  sections : ∀ path ∈ view.paths environment, ∀ setting : Setting, path ≠ [setting.sectionName]
  below : ∀ path ∈ view.paths environment, ∀ setting : Setting,
    setting.path <+: path → path = setting.path

inductive Regular : Table library.Value → Prop
  | defaults (settings : Settings) : Regular (library.defaults settings)
  | file {layer : Table library.Value} (plain : view.Plain layer) : Regular layer
  | environment {environment : Table String} (tidy : view.Tidy environment) :
      Regular (library.environment naming environment)

def assigned? (environment : Table String) (setting : Setting) : Option library.Value :=
  (environment.find? fun entry => view.names? entry.1 = some setting.path).map fun entry =>
    view.valueOf entry.2

def winner? (environment : Table String) (file : Table library.Value) (setting : Setting) :
    Option library.Value :=
  (view.assigned? environment setting).or (view.given? file setting)

end View

/-- The laws of a library that are known from its documentation. -/
structure KeyByKey (library : Library m) (view : View library) : Prop where
  /-- The last layer that gives a setting a value decides. -/
  merged : ∀ layers, (∀ layer ∈ layers, view.Regular layer) → ∀ setting,
    view.held? (library.merge layers) setting =
      layers.reverse.findSome? fun layer => view.given? layer setting
  /-- Every setting is converted from what is held for it and from nothing else. -/
  converted : ∀ root debug ordered filter,
    view.held? root .debug = some debug → view.held? root .ordered = some ordered →
      view.held? root .filter = some filter →
        library.convert root = do
          let debug ← view.toBool? debug
          let ordered ← view.toBool? ordered
          let filter ← view.toText? filter
          return ⟨⟨debug, ordered⟩, filter⟩
  /-- A layer made from settings gives each of them, and converts back. -/
  debugDefault : ∀ settings, (view.given? (library.defaults settings) .debug).bind view.toBool? =
    some settings.mode.debug
  orderedDefault : ∀ settings,
    (view.given? (library.defaults settings) .ordered).bind view.toBool? =
      some settings.mode.ordered
  filterDefault : ∀ settings, (view.given? (library.defaults settings) .filter).bind view.toText? =
    some settings.filter
  /-- The environment gives a setting what the variable with its name says. -/
  environment : ∀ environment, view.Tidy environment → ∀ setting,
    view.given? (library.environment naming environment) setting =
      view.assigned? environment setting

end Script8255.Settings
