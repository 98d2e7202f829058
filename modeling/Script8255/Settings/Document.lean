import Script8255.Settings.Tree
import Script8255.Toml.Document

/-! Settings from TOML documents. -/

namespace Script8255

/-- A table whose first key is this one stands for the date that the string under it gives. -/
def dateKey : String := "$__toml_private_datetime"

def Toml.Value.dateTree? : Toml.Value → Option Tree
  | .text s => (Toml.normalDate? .string s.toList).map fun normal => .text (String.ofList normal)
  | _ => none

mutual

/-- Dates become texts. A table that should give a date and does not is refused. -/
def Toml.Value.toTree? : Toml.Value → Option Tree
  | .boolean b => some (.boolean b)
  | .integer n => some (.integer n)
  | .float x => some (.float x)
  | .text s | .date s => some (.text s)
  | .list items => (itemTrees? items).map .list
  | .table entries => tableTree? entries

def itemTrees? : List Toml.Value → Option (List Tree)
  | [] => some []
  | item :: rest => do return (← item.toTree?) :: (← itemTrees? rest)

def tableTree? : List (String × Toml.Value) → Option Tree
  | [] => some (.table [])
  | (key, value) :: rest =>
    if key = dateKey then value.dateTree?
    else do return .table ((key, ← value.toTree?) :: (← entryTrees? rest))

def entryTrees? : List (String × Toml.Value) → Option (List (String × Tree))
  | [] => some []
  | (key, value) :: rest => do return (key, ← value.toTree?) :: (← entryTrees? rest)

end

def documentLayer? (text : String) : Option (List (String × Tree)) := do
  match ← (Toml.Value.table (← Toml.parse? text.toList)).toTree? with
  | .table entries => return entries
  | _ => none

end Script8255
