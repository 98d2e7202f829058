import Script8255.Proofs.Comparison
import Script8255.Proofs.Machine.StatusRegister

/-! The flag remembers the latest comparison that succeeded, and the jumps go by it. -/

namespace Script8255

def Jump.Follows (jump : Jump) (ordered : Bool) : Option (Value × Value) → Prop
  | none => False
  | some (left, right) => jump.Holds ordered left right

/-- The flag is as the latest comparison leaves it. -/
def Flag.SetBy (flag : Flag) (ordered : Bool) : Option (Value × Value) → Prop
  | none => flag = .unset
  | some (left, right) => left.compare right ordered = .ok flag

namespace Flag.SetBy

variable {flag : Flag} {ordered : Bool} {latest : Option (Value × Value)}

theorem fires_iff (set : flag.SetBy ordered latest) (jump : Jump) :
    jump.fires flag ordered = true ↔ jump.Follows ordered latest := by
  cases latest with
  | none =>
    have unset : flag = .unset := set
    rw [unset, jump.not_fires_unset]
    exact ⟨nofun, nofun⟩
  | some pair => exact jump.fires_iff_holds set

theorem not_combined (set : flag.SetBy ordered latest) :
    flag ≠ .greaterOrEqual ∧ flag ≠ .lessOrEqual := by
  cases latest with
  | none =>
    have unset : flag = .unset := set
    simp [unset]
  | some pair =>
    rcases Value.compare_cases set with ⟨rfl, -⟩ | ⟨rfl, -⟩ | ⟨rfl, -⟩ | ⟨rfl, -⟩ <;> simp

end Flag.SetBy

namespace Machine

variable {m next : Machine} {ending : Outcome} {result : Except Fatal Progress}

def operands? (store : Store) : Instruction → Option (Value × Value)
  | .compare left right =>
    match resolve store left, resolve store right with
    | .ok a, .ok b => some (a, b)
    | _, _ => none
  | _ => none

def compared? (m : Machine) : Option (Value × Value) :=
  match m.ending with
  | .success =>
    ((m.program.instructions[m.line]?).bind Instruction.ofTokens?).bind (operands? m.store)
  | _ => none

theorem compared?_of_ending (other : m.ending ≠ .success) : m.compared? = none := by
  unfold compared?
  split
  next success => exact absurd success other
  next => rfl

theorem compared?_of_success {tokens : List String} {i : Instruction}
    (ended : m.ending = .success) (fetched : m.program.instructions[m.line]? = some tokens)
    (shape : Instruction.ofTokens? tokens = some i) : m.compared? = operands? m.store i := by
  unfold compared?
  rw [ended, fetched, Option.bind_some, shape]
  rfl

theorem Stepped.mode (stepped : Stepped m ending result next) : next.mode = m.mode := by
  cases stepped with
  | pastEnd | recovery | jump | exit | fatal => rfl
  | success fetched shape effect => cases effect <;> rfl

theorem Stepped.flag (stepped : Stepped m m.ending result next) :
    match m.compared? with
    | none => next.flag = m.flag
    | some (left, right) => left.compare right m.mode.ordered = .ok next.flag := by
  generalize ended : m.ending = ending at stepped
  cases stepped with
  | pastEnd | recovery | jump | exit | fatal =>
    rw [compared?_of_ending (by simp [ended])]
  | success fetched shape effect =>
    rw [compared?_of_success ended fetched shape]
    cases effect with
    | compare onLeft onRight told =>
      dsimp only at onLeft onRight
      simp only [operands?, onLeft, onRight]
      exact told
    | _ => rfl

theorem Stepped.setBy {latest : Option (Value × Value)} (stepped : Stepped m m.ending result next)
    (set : m.flag.SetBy m.mode.ordered latest) :
    next.flag.SetBy next.mode.ordered (m.compared?.or latest) := by
  have flag := stepped.flag
  rw [stepped.mode]
  cases seen : m.compared? with
  | none =>
    rw [seen] at flag
    rw [Option.none_or, flag]
    exact set
  | some pair =>
    rw [seen] at flag
    exact flag

/-- After any number of steps the flag is as the latest comparison leaves it. -/
theorem flag_afterSteps (unwritten : m.store.get? statusRegister = none) (unset : m.flag = .unset)
    (n : Nat) :
    (m.afterSteps n).flag.SetBy (m.afterSteps n).mode.ordered (m.recent? compared? n) ∧
      (m.afterSteps n).mode = m.mode := by
  induction n with
  | zero => exact ⟨unset, rfl⟩
  | succ n ih =>
    obtain ⟨set, mode⟩ := ih
    have unsized := Store.StatusUnsized.of_register (register_afterSteps unwritten n)
    have stepped := step_stepped unsized
    exact ⟨stepped.setBy set, stepped.mode.trans mode⟩

/-- In every run the jumps follow the operands of the latest comparison that succeeded: one that
fires goes to its label, which has to exist, and all others go on to the next line. -/
theorem jumps_follow_comparisons (program : Program) (mode : Mode) (input : List UInt8)
    (output : Output) (n : Nat) :
    let first : Machine := { start program mode input with output }
    let m := first.afterSteps n
    let latest := first.recent? compared? n
    (m.flag ≠ .greaterOrEqual ∧ m.flag ≠ .lessOrEqual) ∧
      (∀ jump : Jump, jump.fires m.flag m.mode.ordered = true ↔
        jump.Follows mode.ordered latest) ∧
      (∀ left right, latest = some (left, right) → left.IsNaN ∨ right.IsNaN →
        ∀ jump : Jump, jump.Follows mode.ordered latest ↔ jump = .ne) ∧
      ∀ input output tokens jump label,
        Instruction.ofTokens? tokens = some (.jump jump label) →
          let executed := execute { m with input, output } tokens
          (jump.Follows mode.ordered latest →
            executed.1 = match m.program.labels.get? label with
              | some line => .ok (.goto line)
              | none => .error (.unknownLabel label)) ∧
          (¬ jump.Follows mode.ordered latest → executed.1 = .ok .next) := by
  intro first m latest
  obtain ⟨set, kept⟩ : m.flag.SetBy m.mode.ordered latest ∧ m.mode = mode :=
    flag_afterSteps rfl rfl n
  rw [kept] at set
  refine ⟨set.not_combined, fun jump => by rw [kept]; exact set.fires_iff jump, ?_, ?_⟩
  · intro left right seen nan jump
    rw [seen]
    exact jump.holds_of_nan nan
  · intro input output tokens jump label shape executed
    have jumped : executed.1 = m.jumping jump label :=
      congrArg Prod.fst (execute_jump (m := { m with input, output }) shape)
    rw [jumped, ← set.fires_iff jump]
    unfold jumping
    rw [kept]
    constructor
    · intro fired
      refine (if_pos fired).trans ?_
      cases m.program.labels.get? label <;> rfl
    · intro quiet
      rw [if_neg quiet]

end Machine

end Script8255
