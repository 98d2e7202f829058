import Script8255.Settings.Tree

/-! Paths into a tree of settings, such as `interpreter.debug` or `names[2]`. -/

namespace Script8255

inductive KeyStep where
  | key (name : String)
  | index (i : Int)
  deriving DecidableEq

structure KeyPath where
  first : String
  steps : List KeyStep
  deriving DecidableEq

namespace KeyPath

def isKeyChar (c : Char) : Bool := c.isAlphanum || c == ' ' || c == '_' || c == '-'

def isSpace (c : Char) : Bool := c == ' ' || c == '\t'

def index? (text : List Char) : Option (Int × List Char) :=
  let inner := text.dropWhile isSpace
  let digits := inner.takeWhile fun c => c.isDigit || c == '-'
  match (inner.drop digits.length).dropWhile isSpace with
  | ']' :: rest => ((Text.integer? digits).bind Text.word?).map fun word => (word.toInt, rest)
  | _ => none

def steps? : Nat → List Char → Option (List KeyStep)
  | _, [] => some []
  | fuel + 1, '.' :: text =>
    let name := text.takeWhile isKeyChar
    if name.isEmpty then none
    else (steps? fuel (text.dropWhile isKeyChar)).map (.key (String.ofList name) :: ·)
  | fuel + 1, '[' :: text =>
    (index? text).bind fun (i, rest) => (steps? fuel rest).map (.index i :: ·)
  | _, _ => none

def ofText? (text : List Char) : Option KeyPath :=
  let name := text.takeWhile isKeyChar
  if name.isEmpty then none
  else (steps? text.length (text.dropWhile isKeyChar)).map (⟨String.ofList name, ·⟩)

def ofKey (key : String) : KeyPath := (ofText? key.toList).getD ⟨key, []⟩

end KeyPath

namespace Tree

/-- Changes the item at an index, with items added up to it. A negative index counts from the
end. -/
def alterItem (f : Tree → Tree) (i : Int) (root : Tree) : Tree :=
  let items := root.items
  let place := if i < 0 then items.length + i else i
  if place < 0 then root
  else
    let padded := items ++ List.replicate (place.toNat + 1 - items.length) nothing
    list (padded.modify place.toNat f)

/-- Changes the part that steps lead to. Parts on the way are made tables or lists. -/
def alter (f : Tree → Tree) : List KeyStep → Tree → Tree
  | [], root => f root
  | .key name :: steps, root =>
    let part := (root.entries.get? (foldCase name)).getD nothing
    table (root.entries.put (foldCase name) (alter f steps part))
  | .index i :: steps, root => alterItem (alter f steps) i root

def setPath (root : Tree) (path : KeyPath) (value : Tree) : Tree :=
  match path.steps.getLast? with
  | none => root.set path.first value
  | some last =>
    let put := match last with
      | .key name => fun parent => parent.set name value
      | .index i => alterItem (fun _ => value) i
    alter put (.key path.first :: path.steps.dropLast) root

def overlay (root : Tree) (layer : List (String × Tree)) : Tree :=
  layer.foldl (fun root (key, value) => root.setPath (KeyPath.ofKey key) value) root

end Tree

end Script8255
