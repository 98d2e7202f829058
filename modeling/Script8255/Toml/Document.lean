import Script8255.Table
import Script8255.Toml.Scalar

/-! The values and tables of a TOML document. -/

namespace Script8255.Toml

/-- How a table came to be: by its own header, on the way to another one, or by dotted keys. -/
inductive Origin where
  | header
  | implied
  | dotted
  deriving DecidableEq

inductive Item where
  | value (value : Value)
  | table (origin : Origin) (entries : List (String × Item))
  | tables (earlier : List (List (String × Item))) (last : List (String × Item))

abbrev Entries := Table Item

mutual

def Item.toValue : Item → Value
  | .value value => value
  | .table _ entries => .table (entriesOf entries)
  | .tables earlier last => .list (tablesOf earlier ++ [.table (entriesOf last)])

def entriesOf : List (String × Item) → List (String × Value)
  | [] => []
  | (key, item) :: rest => (key, item.toValue) :: entriesOf rest

def tablesOf : List (List (String × Item)) → List Value
  | [] => []
  | entries :: rest => .table (entriesOf entries) :: tablesOf rest

end

/-- Puts a value under a dotted key. A table `receives` a value if it is new, made by dotted keys,
or the one where the key starts. -/
def insert (receives : Bool) (entries : Entries) : List String → String → Value → Option Entries
  | [], key, value =>
    if receives && (entries.get? key).isNone then some (entries.put key (.value value)) else none
  | name :: path, key, value =>
    match entries.get? name with
    | none =>
      (insert true [] path key value).map fun inner => entries.put name (.table .dotted inner)
    | some (.table .header _) | some (.value _) => none
    | some (.table origin inner) =>
      (insert (origin == .dotted) inner path key value).map fun inner =>
        entries.put name (.table origin inner)
    | some (.tables earlier last) =>
      (insert false last path key value).map fun last => entries.put name (.tables earlier last)

def within (change : Entries → Option Entries) (entries : Entries) : List String → Option Entries
  | [] => change entries
  | name :: path =>
    match entries.get? name with
    | none => (within change [] path).map fun inner => entries.put name (.table .implied inner)
    | some (.value _) => none
    | some (.table origin inner) =>
      (within change inner path).map fun inner => entries.put name (.table origin inner)
    | some (.tables earlier last) =>
      (within change last path).map fun last => entries.put name (.tables earlier last)

/-- A header may not define a table a second time. A table that was only on the way to others
counts as named here. -/
def openTable (name : String) (entries : Entries) : Option Entries :=
  match entries.get? name with
  | none => some (entries.put name (.table .header []))
  | some (.table .implied inner) =>
    some ((entries.remove name).put name (.table .header inner))
  | _ => none

def openItem (name : String) (entries : Entries) : Option Entries :=
  match entries.get? name with
  | none => some (entries.put name (.tables [] []))
  | some (.tables earlier last) => some (entries.put name (.tables (earlier ++ [last]) []))
  | _ => none

def arrayItems (item : Reader Value) : Nat → Reader (List Value)
  | 0, _ => none
  | fuel + 1, text =>
    match skipGaps text.length text with
    | ']' :: rest => some ([], rest)
    | text => do
      let (first, rest) ← item text
      match skipGaps rest.length rest with
      | ',' :: rest =>
        let (others, rest) ← arrayItems item fuel rest
        return (first :: others, rest)
      | ']' :: rest => return ([first], rest)
      | _ => none

def path? (text : List Char) : Option (List String × List Char) :=
  (keys? text.length text).filter fun (path, _) => path.length < 80

def pair? (item : Reader Value) (text : List Char) : Option ((List String × Value) × List Char) := do
  let (path, rest) ← path? text
  match rest with
  | '=' :: rest =>
    let (value, rest) ← item (skipBlanks rest)
    return ((path, value), rest)
  | _ => none

def insertPair (entries : Entries) (pair : List String × Value) : Option Entries :=
  match pair.1.getLast? with
  | some key => insert true entries pair.1.dropLast key pair.2
  | none => none

def inlinePairs (item : Reader Value) : Nat → Reader (List (List String × Value))
  | 0, _ => none
  | fuel + 1, text => do
    let (pair, rest) ← pair? item text
    match skipBlanks rest with
    | ',' :: rest =>
      let (others, rest) ← inlinePairs item fuel rest
      return (pair :: others, rest)
    | '}' :: rest => return ([pair], rest)
    | _ => none

def inlineTable (item : Reader Value) (text : List Char) : Option (Value × List Char) :=
  match skipBlanks text with
  | '}' :: rest => some (.table [], rest)
  | text => do
    let (pairs, rest) ← inlinePairs item text.length text
    let entries ← pairs.foldlM insertPair []
    return (.table (entriesOf entries), rest)

def value? : Nat → Reader Value
  | depth + 1, '[' :: rest =>
    (arrayItems (value? depth) rest.length rest).map fun (items, rest) => (.list items, rest)
  | depth + 1, '{' :: rest => inlineTable (value? depth) rest
  | _, text => scalar? text

inductive Line where
  | blank
  | pair (path : List String) (value : Value)
  | table (path : List String)
  | item (path : List String)

def header? (close : List Char) (text : List Char) : Option (List String × List Char) := do
  let (path, rest) ← path? text
  if close.isPrefixOf rest then some (path, rest.drop close.length) else none

def line? : Reader Line
  | '[' :: '[' :: rest => (header? [']', ']'] rest).map fun (path, rest) => (.item path, rest)
  | '[' :: rest => (header? [']'] rest).map fun (path, rest) => (.table path, rest)
  | text =>
    match lineEnd? text with
    | some _ => some (.blank, text)
    | none => (pair? (value? 79) text).map fun ((path, value), rest) => (.pair path value, rest)

def lines? : Nat → List Char → Option (List Line)
  | _, [] => some []
  | 0, _ => none
  | fuel + 1, text => do
    let (line, rest) ← line? (skipBlanks text)
    let rest ← lineEnd? rest
    let later ← lines? fuel rest
    return line :: later

structure Draft where
  root : Entries
  current : List String

def Draft.enter (draft : Draft) (change : String → Entries → Option Entries)
    (path : List String) : Option Draft :=
  path.getLast?.bind fun name =>
    (within (change name) draft.root path.dropLast).map fun root => ⟨root, path⟩

def Draft.add (draft : Draft) : Line → Option Draft
  | .blank => some draft
  | .pair path value =>
    (within (insertPair · (path, value)) draft.root draft.current).map fun root =>
      { draft with root }
  | .table path => draft.enter openTable path
  | .item path => draft.enter openItem path

def parse? (text : List Char) : Option (List (String × Value)) := do
  let text := match text with
    | '\ufeff' :: rest => rest
    | text => text
  let lines ← lines? (text.length + 1) text
  let draft ← lines.foldlM Draft.add ⟨[], []⟩
  return entriesOf draft.root

end Script8255.Toml
