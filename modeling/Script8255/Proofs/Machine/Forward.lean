import Script8255.Proofs.Instruction
import Script8255.Proofs.Machine.Calls
import Script8255.Proofs.Machine.Run

/-! Programs whose jumps only lead forward: a run of one ends before it has taken more steps than
there are instructions left, and one to see the end. -/

namespace Script8255

namespace Program

def jumpTarget? (program : Program) (i : Nat) : Option Nat :=
  match program.instructions[i]? with
  | some [opcode, label] =>
    if (Jump.ofOpcode? opcode).isSome then program.labels.get? label else none
  | _ => none

/-- Whether every jump with a known label leads to a later instruction. -/
def Forward (program : Program) : Prop :=
  ∀ i < program.instructions.size, ∀ target ∈ program.jumpTarget? i, i < target

instance (program : Program) : Decidable program.Forward :=
  inferInstanceAs (Decidable (∀ i < program.instructions.size,
    ∀ target ∈ program.jumpTarget? i, i < target))

theorem jumpTarget?_of_jump {program : Program} {i line : Nat} {opcode label : String} {jump : Jump}
    (fetched : program.instructions[i]? = some [opcode, label])
    (known : Jump.ofOpcode? opcode = some jump) (found : program.labels.get? label = some line) :
    program.jumpTarget? i = some line := by
  unfold jumpTarget?
  rw [fetched]
  simp only [known, Option.isSome_some, if_true, found]

end Program

namespace Machine

variable {m : Machine} {tokens : List String} {line : Nat}

theorem execute_line (m : Machine) (tokens : List String) : (m.execute tokens).2.line = m.line :=
  execute_keeps Machine.line (fun _ _ => rfl) (fun _ _ effect => effect.line) tokens

theorem execute_eq_goto (went : (m.execute tokens).1 = .ok (.goto line)) :
    ∃ opcode label jump, tokens = [opcode, label] ∧ Jump.ofOpcode? opcode = some jump ∧
      m.program.labels.get? label = some line := by
  obtain ⟨next, executed⟩ := exists_executed went
  cases executed with
  | goto shape fires found =>
    cases Instruction.spelled_of_ofTokens? shape with
    | jump known label => exact ⟨_, _, _, rfl, known, found⟩

theorem advance_line {status : Int64} (running : (m.advance status).1 = .ok .running) :
    (m.advance status).2.line = m.line + 1 := by
  unfold advance at running ⊢
  split at running
  · rfl
  · cases running

theorem conclude_line {executed : Except Failure Control × Machine}
    (running : (conclude executed).1 = .ok .running) :
    (conclude executed).2.line = executed.2.line + 1 ∨
      executed.1 = .ok (.goto (conclude executed).2.line) := by
  rcases executed with ⟨result, next⟩
  cases result with
  | ok control =>
    cases control with
    | next => exact Or.inl (advance_line running)
    | goto line => exact Or.inr rfl
    | exit status => cases running
  | error failure =>
    change (if failure.isFatal then _ else _ : Except Failure Progress × Machine).1 = _ at running
    change (if failure.isFatal then _ else _ : Except Failure Progress × Machine).2.line = _ ∨ _
    split at running
    · cases running
    next mild =>
      rw [if_neg mild]
      exact Or.inl (advance_line running)

theorem step_line (running : m.step.1 = .ok .running) :
    m.line < m.program.instructions.size ∧
      (m.step.2.line = m.line + 1 ∨ m.program.jumpTarget? m.line = some m.step.2.line) := by
  unfold step at running ⊢
  split at running
  · cases running
  next tokens fetched =>
    have cycled : (m.cycle tokens).1 = .ok .running := Result.mapError_eq_ok.mp running
    refine ⟨(Array.getElem?_eq_some_iff.mp fetched).1, ?_⟩
    dsimp only
    obtain ⟨input, output, ⟨-, error, failed⟩ | ⟨-, carried⟩⟩ := cycle_cases m tokens
    · rw [failed] at cycled
      cases cycled
    · rw [carried] at cycled ⊢
      rcases conclude_line cycled with next | went
      · rw [execute_line] at next
        exact Or.inl next
      · obtain ⟨opcode, label, jump, rfl, known, found⟩ := execute_eq_goto went
        exact Or.inr (Program.jumpTarget?_of_jump fetched known found)

theorem line_lt_of_forward (forward : m.program.Forward) (running : m.step.1 = .ok .running) :
    m.line < m.step.2.line := by
  obtain ⟨inside, next | jumped⟩ := step_line running
  · omega
  · exact forward m.line inside _ jumped

/-- A program whose jumps only lead forward ends from wherever it is started, whatever the store,
the streams and the mode are, and after at most one step more than there are instructions left. -/
theorem forward_runs_end (m : Machine) (forward : m.program.Forward) :
    ∃ answer last, ∀ fuel, m.program.instructions.size - m.line < fuel →
      m.run fuel = (some answer, last) := by
  -- What is left of the program shrinks with every step that goes on.
  generalize left : m.program.instructions.size - m.line = n
  induction n using Nat.strongRecOn generalizing m with
  | ind n ih =>
    rcases stepped : m.step with ⟨result, next⟩
    by_cases running : result = .ok .running
    · subst running
      have going : m.step.1 = .ok .running := congrArg Prod.fst stepped
      have program : next.program = m.program := by
        have same := (step_calls m).1
        rwa [stepped] at same
      have inside := (step_line going).1
      have ahead : m.line < next.line := by
        have moved := line_lt_of_forward forward going
        rwa [stepped] at moved
      have shrunk : next.program.instructions.size - next.line < n := by
        rw [program]
        omega
      obtain ⟨answer, last, ends⟩ := ih _ shrunk next (program ▸ forward) rfl
      refine ⟨answer, last, ?_⟩
      intro fuel enough
      cases fuel with
      | zero => omega
      | succ fuel =>
        rw [run_of_running stepped]
        exact ends fuel (by omega)
    · obtain ⟨answer, answered⟩ := exists_answer next running
      refine ⟨answer, next, ?_⟩
      intro fuel enough
      cases fuel with
      | zero => omega
      | succ fuel => exact run_of_answer stepped answered fuel

theorem repeated_label_runs_end :
    let m : Machine :=
      start (Program.build ["lbl end", "cmp 1 1", "jeq end", "jne nowhere", "lbl end"])
        ⟨true, true⟩ [10, 10]
    m.program.Forward ∧
      ∃ answer last, ∀ fuel, m.program.instructions.size - m.line < fuel →
        m.run fuel = (some answer, last) := by
  intro m
  have forward : m.program.Forward := by decide
  exact ⟨forward, forward_runs_end m forward⟩

end Machine

end Script8255
