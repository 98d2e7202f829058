import Script8255.Proofs.Machine.Frame
import Script8255.Proofs.Machine.Run
import Script8255.Proofs.Machine.StatusRegister

/-! Why a run has ended, as the machine shows that is left. -/

namespace Script8255.Machine

/-- What the machine has come to when a run returns. -/
inductive Ended (m : Machine) : Except Fatal Halt → Prop
  | completed (past : m.program.instructions.size ≤ m.line) : Ended m (.ok .completed)
  | code {token : String} {n : Int64}
      (fetched : m.program.instructions[m.line]? = some ["ext", token])
      (resolved : resolve m.store token = .ok (.int n)) : Ended m (.ok (.exited (.code n)))
  | message {token : String} {value : Value}
      (fetched : m.program.instructions[m.line]? = some ["ext", token])
      (resolved : resolve m.store token = .ok value) (other : ∀ n, value ≠ .int n) :
      Ended m (.ok (.exited (.message value.display)))
  | fatal {tokens : List String} {failure : Failure}
      (fetched : m.program.instructions[m.line]? = some tokens) (severe : failure.isFatal = true) :
      Ended m (.error ⟨m.line, showTokens tokens, failure⟩)

variable {m next last : Machine} {tokens : List String} {answer : Except Fatal Halt}

section Flush

theorem Frame.flushFails (frame : Frame tokens m next) :
    next.output.flushFails = m.output.flushFails := by
  rcases frame.output with same | ⟨-, bytes, appended⟩
  · rw [same]
  · rw [appended]
    rfl

theorem cycle_flushFails (m : Machine) (tokens : List String) :
    (m.cycle tokens).2.output.flushFails = m.output.flushFails := by
  have paused : m.pause.2.output.flushFails = m.output.flushFails := by
    obtain ⟨input, bytes, moved⟩ := pause_streams m
    rw [moved]
    rfl
  unfold cycle
  split
  · split
    next failed =>
      rw [failed] at paused
      exact paused
    next next shown =>
      rw [shown] at paused
      exact (execute_frame next tokens).conclude.flushFails.trans paused
  · exact (execute_frame m tokens).conclude.flushFails

theorem step_flushFails (m : Machine) : m.step.2.output.flushFails = m.output.flushFails := by
  unfold step
  split
  · rfl
  next tokens fetched => exact cycle_flushFails m tokens

theorem afterSteps_flushFails (m : Machine) (n : Nat) :
    (m.afterSteps n).output.flushFails = m.output.flushFails := by
  induction n with
  | zero => rfl
  | succ n ih => exact (step_flushFails _).trans ih

end Flush

theorem exiting_eq_exit {store : Store} {token : String} {status : ExitStatus}
    (exited : exiting store token = .ok (.exit status)) :
    (∃ n, resolve store token = .ok (.int n) ∧ status = .code n) ∨
      ∃ value, resolve store token = .ok value ∧ (∀ n, value ≠ .int n) ∧
        status = .message value.display := by
  obtain ⟨value, resolved, told⟩ := Result.map_eq_ok.mp exited
  cases value with
  | int n =>
    cases told
    exact Or.inl ⟨n, resolved, rfl⟩
  | str | float =>
    cases told
    exact Or.inr ⟨_, resolved, nofun, rfl⟩

theorem Stepped.ended {ending : Outcome} {result : Except Fatal Progress}
    (stepped : Stepped m ending result next) (flushed : next.output.flushFails = false)
    (answered : next.answer? result = some answer) : Ended next answer := by
  have finished (halt : Halt) : next.finish halt = .ok halt := by
    unfold finish Output.flush
    rw [flushed]
    rfl
  cases stepped with
  | pastEnd past =>
    change some (m.finish .completed) = _ at answered
    rw [finished] at answered
    cases answered
    exact .completed (Array.getElem?_eq_none_iff.mp past)
  | @exit tokens token status input output fetched shape exited =>
    change some (finish _ (.exited status)) = _ at answered
    rw [finished] at answered
    cases answered
    cases Instruction.spelled_of_ofTokens? shape
    rcases exiting_eq_exit exited with ⟨n, resolved, rfl⟩ | ⟨value, resolved, other, rfl⟩
    · exact .code fetched resolved
    · exact .message fetched resolved other
  | fatal fetched severe =>
    cases answered
    exact .fatal fetched severe
  | success | recovery | jump => cases answered

theorem ended_of_run {fuel : Nat} (unset : m.store.get? statusRegister = none)
    (flushed : m.output.flushFails = false) (ended : m.run fuel = (some answer, last)) :
    Ended last answer := by
  obtain ⟨k, -, -, left, answered⟩ := run_eq_some ended
  have unsized := Store.StatusUnsized.of_register (register_afterSteps unset k)
  have stepped := step_stepped unsized
  rw [left] at stepped
  have kept : last.output.flushFails = false := by
    have same := afterSteps_flushFails m (k + 1)
    rw [flushed] at same
    rwa [← left]
  exact stepped.ended kept answered

end Script8255.Machine
