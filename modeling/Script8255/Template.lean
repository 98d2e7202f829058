import Script8255.Store
import Script8255.Text.Characters

/-! Texts in which `$name` stands for the value of a variable. -/

namespace Script8255

inductive Segment where
  | text (text : List Char)
  | placeholder (name : List Char)
  deriving DecidableEq

/-- A dollar sign and the longest name after it form a placeholder, and a dollar sign without a
name is plain text. -/
def segments : List Char → List Segment
  | [] => []
  | c :: rest =>
    if c == '$' && (rest.head?).any Text.isWord then
      .placeholder (rest.takeWhile Text.isWord) :: segments (rest.dropWhile Text.isWord)
    else
      match segments rest with
      | .text text :: later => .text (c :: text) :: later
      | later => .text [c] :: later
termination_by text => text.length
decreasing_by
  · exact Nat.lt_succ_of_le (List.dropWhile_sublist _).length_le
  · exact Nat.lt_succ_self _

def expand (store : Store) : List Segment → Except StoreError (List Char)
  | [] => .ok []
  | .text text :: rest => (expand store rest).map (text ++ ·)
  | .placeholder name :: rest =>
    match store.read (String.ofList name) with
    | .error error => .error error
    | .ok value => (expand store rest).map (value.display.toList ++ ·)

def interpolate (store : Store) (text : List Char) : Except StoreError (List Char) :=
  expand store (segments text)

end Script8255
