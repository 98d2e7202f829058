import Script8255.Failure

/-! The five arithmetic operations. -/

namespace Script8255

def Operation.ofOpcode? : String → Option Operation
  | "add" => some .add
  | "sub" => some .sub
  | "mul" => some .mul
  | "div" => some .div
  | "pow" => some .pow
  | _ => none

namespace Value

def exact (n : Int) : Except Unusable Value :=
  match Text.word? n with
  | some word => .ok (.int word)
  | none => .error .overflow

def floats (operation : Operation) (left right : Value) : Except Unusable (Float × Float) :=
  match left.toFloat?, right.toFloat? with
  | some x, some y => .ok (x, y)
  | _, _ => .error (.operandKinds operation left.kind right.kind)

def numeric (operation : Operation) (onInt : Int → Int → Int) (onFloat : Float → Float → Float) :
    Value → Value → Except Unusable Value
  | .int m, .int n => exact (onInt m.toInt n.toInt)
  | left, right => (floats operation left right).map fun (x, y) => .float (onFloat x y)

def add : Value → Value → Except Unusable Value
  | .str s, .str t => .ok (.str (s ++ t))
  | left, right => numeric .add (· + ·) (· + ·) left right

/-- The copies of a text one after the other. A negative count means none, and the bytes have to
be fewer than the largest signed word. -/
def repeated (text : String) (count : Int64) : Except Unusable Value :=
  let copies := count.toInt.toNat
  let bytes := text.utf8ByteSize * copies
  if Int64.maxValue.toInt ≤ bytes then .error .repetitionSize
  else if bytes = 0 then .ok (.str "")
  else .ok (.str (Nat.repeat (· ++ text) copies ""))

def mul : Value → Value → Except Unusable Value
  | .str text, .int count | .int count, .str text => repeated text count
  | left, right => numeric .mul (· * ·) (· * ·) left right

def div (left right : Value) : Except Unusable Value := do
  let (x, y) ← floats .div left right
  if Binary64.key y = some 0 then .error .divisionByZero else .ok (.float (x / y))

/-- An integer to a power that is not negative. Exponents are limited to 32 bits, and beyond 63
only the bases 0, 1 and -1 stay in range. -/
def intPower (base exponent : Int) : Except Unusable Value :=
  if UInt32.size ≤ exponent then .error .overflow
  else if base.natAbs ≤ 1 then
    exact (base.pow (if exponent = 0 then 0 else 2 - (exponent % 2).toNat))
  else if 63 < exponent then .error .overflow
  else exact (base.pow exponent.toNat)

def floatPower (base exponent : Float) : Except Unusable Value :=
  if Binary64.key base = some 0 && (Binary64.key exponent).any (· < 0) then
    .error .zeroToNegativePower
  else
    let power := Float.pow base exponent
    if power.isNaN && !base.isNaN && !exponent.isNaN then .error .notReal else .ok (.float power)

def pow (left right : Value) : Except Unusable Value :=
  match left, right with
  | .int base, .int exponent =>
    if 0 ≤ exponent.toInt then intPower base.toInt exponent.toInt
    else floatPower (Binary64.ofWord base) (Binary64.ofWord exponent)
  | _, _ => do
    let (base, exponent) ← floats .pow left right
    floatPower base exponent

end Value

def Operation.apply : Operation → Value → Value → Except Unusable Value
  | .add => Value.add
  | .sub => Value.numeric .sub (· - ·) (· - ·)
  | .mul => Value.mul
  | .div => Value.div
  | .pow => Value.pow

end Script8255
