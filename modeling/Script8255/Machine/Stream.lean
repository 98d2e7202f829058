import Script8255.Failure
import Script8255.Text.Characters

/-! The streams of a run: an output that may be limited, and an input read by lines. -/

namespace Script8255

/-- An output with a limit on its total length, whose flushes may fail. -/
structure Output where
  written : ByteArray
  limit : Option Nat
  flushFails : Bool

namespace Output

def append (output : Output) (bytes : ByteArray) : Output :=
  { output with written := output.written ++ bytes }

/-- When there is too little room, the bytes that fit are taken before the failure. -/
def write (output : Output) (text : String) : Except StreamError Unit × Output :=
  let bytes := text.toUTF8
  match output.limit with
  | none => (.ok (), output.append bytes)
  | some limit =>
    let room := limit - output.written.size
    if bytes.size ≤ room then (.ok (), output.append bytes)
    else (.error .outputFull, output.append (bytes.extract 0 room))

def flush (output : Output) : Except StreamError Unit :=
  if output.flushFails then .error .flushFailed else .ok ()

end Output

def takeLine (input : List UInt8) : List UInt8 × List UInt8 :=
  match input.dropWhile (· ≠ 10) with
  | [] => (input, [])
  | feed :: rest => (input.takeWhile (· ≠ 10) ++ [feed], rest)

theorem takeLine_append (input : List UInt8) :
    (takeLine input).1 ++ (takeLine input).2 = input := by
  have whole := List.takeWhile_append_dropWhile (p := fun b : UInt8 => decide (b ≠ 10)) (l := input)
  unfold takeLine
  split
  · simp
  next feed rest left =>
    rw [left] at whole
    rw [List.append_assoc]
    exact whole

def lineText (line : List UInt8) : Except StreamError String :=
  match String.fromUTF8? line.toByteArray with
  | some text => .ok text
  | none => .error .notUtf8

def dropLineEnd (text : String) : String :=
  String.ofList (Text.dropFinal '\r' (Text.dropFinal '\n' text.toList))

end Script8255
