import Script8255.Table

/-! What a path leads to, and the files of a working directory. -/

namespace Script8255

inductive Entry where
  | file (bytes : ByteArray)
  | directory
  | missing
  | notDirectory
  | nameTooLong

def Entry.exists : Entry → Bool
  | file _ | directory => true
  | _ => false

namespace Path

def isIdle (part : List Char) : Bool := part = [] || part = ['.']

def isParent (part : List Char) : Bool := part = ['.', '.']

def longestName : Nat := 255

def longest : Nat := 4095

def bytes (text : List Char) : Nat := (text.map Char.utf8Size).foldr (· + ·) 0

/-- A path with an ending added to its last name, if it ends in a name. -/
def withEnding? (path ending : List Char) : Option (List Char) :=
  match (path.splitOn '/').reverse.dropWhile isIdle with
  | [] => none
  | last :: earlier =>
    if isParent last then none
    else some (['/'].intercalate (last :: earlier).reverse ++ ending)

end Path

abbrev Directory := Table ByteArray

namespace Directory

def entry (files : Directory) (names : List (List Char)) : Entry :=
  let path := (['/'].intercalate names.reverse)
  match files.get? (String.ofList path) with
  | some bytes => .file bytes
  | none =>
    if names.isEmpty || files.any fun (name, _) => (path ++ ['/']).isPrefixOf name.toList then
      .directory
    else .missing

/-- What is known outside the working directory: only that the directories above it are there. -/
def outside (parts : List (List Char)) : Entry :=
  if parts.all fun part => Path.isIdle part || Path.isParent part then .directory else .missing

def follow (files : Directory) : List (List Char) → List (List Char) → Entry
  | names, [] => files.entry names
  | names, part :: later =>
    match files.entry names with
    | .directory =>
      if Path.isIdle part then follow files names later
      else if Path.isParent part then
        match names with
        | [] => outside later
        | _ :: names => follow files names later
      else if Path.longestName < Path.bytes part then .nameTooLong
      else follow files (part :: names) later
    | .file _ => .notDirectory
    | entry => entry

def look (files : Directory) (path : String) : Entry :=
  let text := path.toList
  if text.isEmpty then .missing
  else if Path.longest < Path.bytes text then .nameTooLong
  else if text.head? = some '/' then outside (text.splitOn '/')
  else follow files [] (text.splitOn '/')

end Directory

end Script8255
