import Script8255.Value

/-! Why an instruction fails, how severe that is, and how it is reported. -/

namespace Script8255

inductive StoreError where
  | noData (name : String)
  | undefined (name : String)
  | reserved (name : String)
  | capacityExceeded (name : String) (capacity : UInt64) (size : Nat)
  | arenaExhausted (name : String) (requested used total : UInt64)
  deriving DecidableEq

def StoreError.isFatal : StoreError → Bool
  | noData _ => false
  | _ => true

def StoreError.message : StoreError → String
  | noData name => s!"no data in variable '{name}'"
  | undefined name => s!"variable '{name}' is not defined"
  | reserved name => s!"variable '{name}' is reserved"
  | capacityExceeded name capacity size =>
    s!"{size}-byte value does not fit the {capacity}-byte allocation of '{name}'"
  | arenaExhausted name requested used total =>
    s!"cannot allocate {requested} bytes for '{name}': {used} of {total} bytes in use"

inductive Malformed where
  | missingName
  | value (token : String)
  | variableName (token : String)
  | allocationSize (token : String)
  | instruction (text : String)
  deriving DecidableEq

def Malformed.message : Malformed → String
  | missingName => "'&' must be followed by a variable name"
  | value token => s!"invalid value '{token}'"
  | variableName token => s!"invalid variable name '{token}'"
  | allocationSize token => s!"invalid allocation size '{token}'"
  | instruction text => s!"unrecognized instruction '{text}'"

inductive Operation where
  | add
  | sub
  | mul
  | div
  | pow
  deriving DecidableEq

def Operation.opcode : Operation → String
  | add => "add"
  | sub => "sub"
  | mul => "mul"
  | div => "div"
  | pow => "pow"

inductive Unusable where
  | literalRange (token : String)
  | finalBackslash
  | truncatedEscape (letter : Char)
  | illegalCharacter (code : Nat)
  | namedCharacter
  | operandKinds (operation : Operation) (left right : Kind)
  | overflow
  | divisionByZero
  | zeroToNegativePower
  | notReal
  | repetitionSize
  | notFinite (x : Float)
  | notInteger (text : String)
  | promptKind
  deriving DecidableEq

def Unusable.message : Unusable → String
  | literalRange token => s!"integer literal {token} is out of range"
  | finalBackslash => "\\ at end of string"
  | truncatedEscape letter => s!"truncated \\" ++ letter.toString ++ " escape"
  | illegalCharacter code =>
    s!"illegal unicode character 0x" ++ String.ofList (Nat.toDigits 16 code)
  | namedCharacter => "named unicode escapes are not supported"
  | operandKinds operation left right =>
    s!"unsupported operand types for {operation.opcode}: {left.name} and {right.name}"
  | overflow => "integer overflow"
  | divisionByZero => "division by zero"
  | zeroToNegativePower => "zero cannot be raised to a negative power"
  | notReal => "result is not a real number"
  | repetitionSize => "repeated string is too large"
  | notFinite x => "cannot convert " ++ String.ofList (Binary64.plain x) ++ " to INTEGER"
  | notInteger text => s!"invalid literal for INTEGER: '{text}'"
  | promptKind => "argument to inp must be a STRING"

inductive StreamError where
  | notUtf8
  | outputFull
  | flushFailed
  deriving DecidableEq

def StreamError.message : StreamError → String
  | notUtf8 => "stream did not contain valid UTF-8"
  | outputFull => "output full"
  | flushFailed => "flush failed"

inductive Failure where
  | malformed (part : Malformed)
  | unknownLabel (label : String)
  | store (error : StoreError)
  | comparisonKinds (left right : Kind)
  | stream (error : StreamError)
  | unusable (reason : Unusable)
  | endOfInput
  deriving DecidableEq

/-- A fatal failure ends the run. Any other one sets the status register to 1. -/
def Failure.isFatal : Failure → Bool
  | store error => error.isFatal
  | unusable _ | endOfInput => false
  | _ => true

def Failure.message : Failure → String
  | malformed part => s!"syntax error: {part.message}"
  | unknownLabel label => s!"label '{label}' does not exist"
  | store error => error.message
  | comparisonKinds left right =>
    s!"comparison operand types must match ({left.name} vs {right.name})"
  | stream error => s!"i/o error: {error.message}"
  | unusable reason => reason.message
  | endOfInput => "end of input"

structure Fatal where
  line : Nat
  instruction : String
  failure : Failure
  deriving DecidableEq

/-- Lines count from one in reports. -/
def Fatal.message (fatal : Fatal) : String :=
  s!"line {fatal.line + 1}: \x60{fatal.instruction}\x60: {fatal.failure.message}"

end Script8255
