import Script8255.Proofs.Machine.Execution

/-! How a run relates to its steps: it ends with the first one that does not go on. -/

namespace Script8255.Machine

variable {m next last : Machine} {result : Except Fatal Progress} {answer : Except Fatal Halt}

theorem step_past_end (past : m.program.instructions.size ≤ m.line) :
    m.step = (.ok (.halted .completed), m) := by
  unfold step
  rw [Array.getElem?_eq_none past]

def answer? (m : Machine) : Except Fatal Progress → Option (Except Fatal Halt)
  | .error fatal => some (.error fatal)
  | .ok (.halted halt) => some (m.finish halt)
  | .ok .running => none

theorem exists_answer (m : Machine) (stops : result ≠ .ok .running) :
    ∃ answer, m.answer? result = some answer := by
  rcases result with fatal | progress
  · exact ⟨_, rfl⟩
  · cases progress with
    | running => exact absurd rfl stops
    | halted halt => exact ⟨_, rfl⟩

theorem run_of_running (stepped : m.step = (.ok .running, next)) (fuel : Nat) :
    m.run (fuel + 1) = next.run fuel := by
  simp only [run, stepped]

theorem run_of_answer (stepped : m.step = (result, next))
    (ended : next.answer? result = some answer) (fuel : Nat) :
    m.run (fuel + 1) = (some answer, next) := by
  unfold run
  rw [stepped]
  rcases result with fatal | progress
  · cases ended
    rfl
  · cases progress with
    | running => cases ended
    | halted halt =>
      cases ended
      rfl

theorem afterSteps_succ (m : Machine) (n : Nat) :
    m.afterSteps (n + 1) = m.step.2.afterSteps n := by
  induction n with
  | zero => rfl
  | succ n ih =>
    change (m.afterSteps (n + 1)).step.2 = _
    rw [ih]
    rfl

/-- A run that ends has taken steps that went on, and then one that settles what it returns. -/
theorem run_eq_some {fuel : Nat} (ended : m.run fuel = (some answer, last)) :
    ∃ k < fuel, (∀ j < k, (m.afterSteps j).step.1 = .ok .running) ∧
      (m.afterSteps k).step.2 = last ∧ last.answer? (m.afterSteps k).step.1 = some answer := by
  induction fuel generalizing m with
  | zero => cases ended
  | succ fuel ih =>
    rcases stepped : m.step with ⟨result, next⟩
    by_cases running : result = .ok .running
    · subst running
      rw [run_of_running stepped] at ended
      obtain ⟨k, within, earlier, left, answered⟩ := ih ended
      have later (n : Nat) : m.afterSteps (n + 1) = next.afterSteps n := by
        rw [afterSteps_succ, stepped]
      refine ⟨k + 1, by omega, ?_, ?_, ?_⟩
      · intro j before
        cases j with
        | zero => exact congrArg Prod.fst stepped
        | succ j =>
          rw [later]
          exact earlier j (by omega)
      · rw [later]
        exact left
      · rw [later]
        exact answered
    · obtain ⟨settled, answered⟩ := exists_answer next running
      rw [run_of_answer stepped answered] at ended
      cases ended
      refine ⟨0, by omega, nofun, ?_, ?_⟩
      · exact congrArg Prod.snd stepped
      · change last.answer? m.step.1 = _
        rw [stepped]
        exact answered

end Script8255.Machine
