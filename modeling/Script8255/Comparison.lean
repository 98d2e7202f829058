import Script8255.Failure

/-! The comparison flag and the conditional jumps that read it. -/

namespace Script8255

inductive Flag where
  | unset
  | equal
  | notEqual
  | greater
  | less
  | greaterOrEqual
  | lessOrEqual
  deriving DecidableEq

namespace Value

def order? : Value → Value → Option Ordering
  | .int m, .int n => some (compare m.toInt n.toInt)
  | .float x, .float y => Binary64.compare? x y
  | .str s, .str t => some (compareOfLessAndEq s t)
  | _, _ => none

/-- Values that are not equal are told apart further only when `ordered` is set, and then they
have to be of one kind. NaN stays merely unequal. -/
def compare (left right : Value) (ordered : Bool) : Except Failure Flag :=
  if left.equals right then .ok .equal
  else if !ordered then .ok .notEqual
  else if left.kind ≠ right.kind then .error (.comparisonKinds left.kind right.kind)
  else
    match order? left right with
    | some .gt => .ok .greater
    | some .lt => .ok .less
    | _ => .ok .notEqual

end Value

inductive Jump where
  | eq
  | ne
  | gt
  | lt
  | ge
  | le
  deriving DecidableEq

namespace Jump

def ofOpcode? : String → Option Jump
  | "jeq" => some .eq
  | "jne" => some .ne
  | "jgt" => some .gt
  | "jlt" => some .lt
  | "jge" => some .ge
  | "jle" => some .le
  | _ => none

def relation : Jump → Flag
  | eq => .equal
  | ne => .notEqual
  | gt => .greater
  | lt => .less
  | ge => .greaterOrEqual
  | le => .lessOrEqual

/-- An unordered jump needs the very flag of its relation, and an ordered one any flag that
implies the relation. -/
def fires (jump : Jump) (flag : Flag) (ordered : Bool) : Bool :=
  flag == jump.relation || ordered &&
    match jump with
    | ne => flag == .greater || flag == .less
    | ge => flag == .greater || flag == .equal
    | le => flag == .less || flag == .equal
    | _ => false

end Jump

end Script8255
