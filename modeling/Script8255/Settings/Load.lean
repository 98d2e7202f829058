import Script8255.Binary64.Reader
import Script8255.Files
import Script8255.Settings.Build
import Script8255.Settings.Definitions
import Script8255.Settings.Document
import Script8255.Settings.KeyPath

/-! The library for settings over trees: TOML files, variables of the environment, and the merging
of layers. -/

namespace Script8255.Settings

def definitionsFile : String := ".env"

def layerOf (settings : Settings) : Table Tree :=
  [("interpreter", .table
      [("debug", .boolean settings.mode.debug),
        ("ordered_comparisons", .boolean settings.mode.ordered)]),
    ("logging", .table [("filter", .text settings.filter)])]

/-- A dot stands for every separator. The number counts what is left of one that was met. -/
def dotted (separator : List Char) : Nat → List Char → List Char
  | _, [] => []
  | left + 1, _ :: rest => dotted separator left rest
  | 0, c :: rest =>
    if separator.isPrefixOf (c :: rest) then '.' :: dotted separator (separator.length - 1) rest
    else c :: dotted separator 0 rest

def Naming.key? (naming : Naming) (variableName : String) : Option String :=
  let start := (Tree.foldCase (naming.start ++ naming.startSeparator)).toList
  let name := (Tree.foldCase variableName).toList
  if start.isPrefixOf name then
    some (String.ofList (dotted naming.separator.toList 0 (name.drop start.length)))
  else none

def treeOf (text : String) : Tree :=
  if Tree.foldCase text = "true" then .boolean true
  else if Tree.foldCase text = "false" then .boolean false
  else
    match (Text.signed? text.toList).bind Text.word? with
    | some n => .integer n
    | none =>
      match Binary64.ofText? text.toList with
      | some x => .float x
      | none => .text text

def variableLayer (naming : Naming) (environment : Table String) : Table Tree :=
  environment.filterMap fun (name, text) =>
    (naming.key? name).map fun key => (key, if naming.typed then treeOf text else .text text)

/-- The part of a section with a given name, or at its place if the section is a list. -/
def part? (sectionTree : Tree) (name : String) (place : Nat) : Option (Option Tree) :=
  match sectionTree with
  | .table entries => some (Table.get? entries name)
  | .list items => some items[place]?
  | _ => none

def read? {α : Type} (root : Tree) (sectionName name : String) (place : Nat)
    (convert : Tree → Option α) (absent : α) : Option α :=
  match root.entries.get? sectionName with
  | none => some absent
  | some sectionTree =>
    (part? sectionTree name place).bind fun part =>
      match part with
      | none => some absent
      | some value => convert value

def ofTree? (root : Tree) : Option Settings := do
  let debug ← read? root "interpreter" "debug" 0 Tree.toBool? default.mode.debug
  let ordered ← read? root "interpreter" "ordered_comparisons" 1 Tree.toBool? default.mode.ordered
  let filter ← read? root "logging" "filter" 0 Tree.toText? default.filter
  return ⟨⟨debug, ordered⟩, filter⟩

section Files

variable {m : Type → Type} [Monad m] (look : String → m Entry)

def bytes? (path : String) : m (Option ByteArray) := do
  match ← look path with
  | .file bytes => return some bytes
  | _ =>
    match Path.withEnding? path.toList ".toml".toList with
    | none => return none
    | some longer =>
      match ← look (String.ofList longer) with
      | .file bytes => return some bytes
      | _ => return none

/-- A file that need not be there and cannot be read is an empty layer. -/
def fileLayer (path : String) (required : Bool) : m (Option (Table Tree)) := do
  match (← bytes? look path).bind String.fromUTF8? with
  | some text => return documentLayer? text
  | none => return if required then none else some []

def define (environment : Table String) : m (Table String) := do
  match ← look definitionsFile with
  | .file bytes => return Definitions.load environment bytes.data.toList
  | _ => return environment

def treeLibrary : Library m where
  Value := Tree
  define := define look
  defaults := layerOf
  file := fileLayer look
  environment := variableLayer
  merge layers := layers.foldl Tree.overlay (.table [])
  convert := ofTree?

def load (request : Request) : m (Except SettingsError Settings) :=
  build (fun path => Entry.exists <$> look path) (treeLibrary look) request

end Files

end Script8255.Settings
