import Script8255.Binary64.Notation
import Script8255.Table
import Script8255.Text.Decimal

/-! Settings as trees of tables, and how a later layer changes an earlier one. -/

namespace Script8255

inductive Tree where
  | nothing
  | boolean (b : Bool)
  | integer (n : Int64)
  | float (x : Float)
  | text (text : String)
  | list (items : List Tree)
  | table (entries : List (String × Tree))

namespace Tree

def entries : Tree → Table Tree
  | table entries => entries
  | _ => []

def items : Tree → List Tree
  | list items => items
  | _ => []

/-- Keys do not distinguish the case of letters. The names of settings are ASCII, so only the
letters are folded whose lower case is ASCII: those of ASCII and the kelvin sign. -/
def foldCase (key : String) : String :=
  key.map fun c => if c = '\u212a' then 'k' else c.toLower

mutual

/-- Sets a key, in a new table if there is none. A table is merged into what the key had, and any
other value replaces it. -/
def set (root : Tree) (key : String) : Tree → Tree
  | table incoming =>
    let earlier := (root.entries.get? (foldCase key)).getD (table [])
    table (root.entries.put (foldCase key) (setAll earlier incoming))
  | value => table (root.entries.put (foldCase key) value)

def setAll (root : Tree) : List (String × Tree) → Tree
  | [] => root
  | (key, value) :: rest => setAll (root.set key value) rest

end

def toBool? : Tree → Option Bool
  | boolean b => some b
  | integer n => some (n != 0)
  | float x => some (Binary64.key x != some 0)
  | text s =>
    let word := foldCase s
    if word ∈ ["1", "true", "on", "yes"] then some true
    else if word ∈ ["0", "false", "off", "no"] then some false
    else none
  | _ => none

def toText? : Tree → Option String
  | boolean b => some (if b then "true" else "false")
  | integer n => some (String.ofList (Text.ofInt n.toInt))
  | float x => some (String.ofList (Binary64.plain x))
  | text s => some s
  | _ => none

end Tree

end Script8255
