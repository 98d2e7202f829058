import Script8255.Proofs.Machine.Outcome

/-! How a step ends, whether a pause comes before it or not, and what was seen last in a run. -/

namespace Script8255.Machine

/-- How the instruction at the counter ends. In debug mode it finds the machine as the pause leaves
it, and a pause that fails counts as its failure. -/
def ending (m : Machine) : Outcome :=
  match m.program.instructions[m.line]? with
  | none => .halt
  | some _ =>
    if m.mode.debug then
      match m.pause with
      | (.error _, _) => .fatal
      | (.ok (), paused) => paused.outcome
    else m.outcome

/-- All that a step can do, by how it ends. The input and the output that its instruction finds are
what a pause has left of them. -/
inductive Stepped (m : Machine) : Outcome → Except Fatal Progress → Machine → Prop
  | pastEnd (past : m.program.instructions[m.line]? = none) :
      Stepped m .halt (.ok (.halted .completed)) m
  | success {tokens : List String} {i : Instruction} {input : List UInt8} {output : Output}
      {next : Machine} (fetched : m.program.instructions[m.line]? = some tokens)
      (shape : Instruction.ofTokens? tokens = some i)
      (effect : Effect { m with input, output } i next) :
      Stepped m .success (.ok .running)
        { next with store := next.store.withStatus 0, line := m.line + 1 }
  | recovery {tokens : List String} {i : Instruction} {failure : Failure}
      {before input : List UInt8} {shown output : Output}
      (fetched : m.program.instructions[m.line]? = some tokens)
      (shape : Instruction.ofTokens? tokens = some i)
      (abandoned : Abandoned { m with input := before, output := shown } i failure
        { m with input, output })
      (mild : failure.isFatal = false) :
      Stepped m .recovery (.ok .running)
        { m with store := m.store.withStatus 1, line := m.line + 1, input, output }
  | jump {tokens : List String} {jump : Jump} {label : String} {line : Nat} {input : List UInt8}
      {output : Output} (fetched : m.program.instructions[m.line]? = some tokens)
      (shape : Instruction.ofTokens? tokens = some (.jump jump label))
      (fires : jump.fires m.flag m.mode.ordered = true)
      (found : m.program.labels.get? label = some line) :
      Stepped m .jump (.ok .running) { m with line, input, output }
  | exit {tokens : List String} {token : String} {status : ExitStatus} {input : List UInt8}
      {output : Output} (fetched : m.program.instructions[m.line]? = some tokens)
      (shape : Instruction.ofTokens? tokens = some (.exit token))
      (exited : exiting m.store token = .ok (.exit status)) :
      Stepped m .halt (.ok (.halted (.exited status))) { m with input, output }
  | fatal {tokens : List String} {failure : Failure} {input : List UInt8} {output : Output}
      (fetched : m.program.instructions[m.line]? = some tokens)
      (severe : failure.isFatal = true) :
      Stepped m .fatal (.error ⟨m.line, showTokens tokens, failure⟩) { m with input, output }

variable {m : Machine} {tokens : List String}

theorem cycle_ending (fetched : m.program.instructions[m.line]? = some tokens) :
    ∃ input output,
      (¬ m.Proceeds ∧ ∃ error, m.ending = .fatal ∧
        m.cycle tokens = (.error (.stream error), { m with input, output })) ∨
      (m.Proceeds ∧ m.ending = outcome { m with input, output } ∧
        m.cycle tokens = conclude (execute { m with input, output } tokens)) := by
  unfold ending cycle Proceeds
  simp only [fetched]
  cases debug : m.mode.debug with
  | false => exact ⟨m.input, m.output, Or.inr ⟨by simp, rfl, rfl⟩⟩
  | true =>
    obtain ⟨input, bytes, moved⟩ := pause_streams m
    rcases paused : m.pause with ⟨result, next⟩
    have same : next = { m with input, output := m.output.append bytes } := by
      simpa [paused] using moved
    subst same
    cases result with
    | error error => exact ⟨input, _, Or.inl ⟨by simp, error, rfl, rfl⟩⟩
    | ok done => exact ⟨input, _, Or.inr ⟨fun _ => rfl, rfl, rfl⟩⟩

theorem conclude_stepped (unsized : m.store.StatusUnsized) (input : List UInt8) (output : Output)
    (fetched : m.program.instructions[m.line]? = some tokens) :
    Stepped m (outcome { m with input, output })
      ((conclude (execute { m with input, output } tokens)).1.mapError
        fun failure => ⟨m.line, showTokens tokens, failure⟩)
      (conclude (execute { m with input, output } tokens)).2 := by
  rw [outcome_of_fetched (m := { m with input, output }) fetched]
  rcases performed : execute { m with input, output } tokens with ⟨result, next⟩
  cases executed_of_execute performed with
  | effect shape effect =>
    have kept : next.store.StatusUnsized := unsized.of_same effect.statusRegister
    have line : next.line = m.line := effect.line
    simp only [conclude, advance_of_unsized kept, line]
    exact .success fetched shape effect
  | goto shape fires found => exact .jump fetched shape fires found
  | exit shape exited => exact .exit fetched shape exited
  | @failed i failure next shape abandoned =>
    obtain ⟨input, output, rfl⟩ := abandoned.streams_only
    cases severity : failure.isFatal with
    | true =>
      simp only [conclude, severity, if_true]
      exact .fatal fetched severity
    | false =>
      have still : Store.StatusUnsized m.store := unsized
      simp only [conclude, severity, Bool.false_eq_true, if_false]
      rw [advance_of_unsized (by exact still)]
      exact .recovery fetched shape abandoned severity
  | malformed shape => exact .fatal fetched rfl

theorem step_stepped (unsized : m.store.StatusUnsized) :
    Stepped m m.ending m.step.1 m.step.2 := by
  unfold step
  cases fetched : m.program.instructions[m.line]? with
  | none =>
    have ended : m.ending = .halt := by
      unfold ending
      rw [fetched]
    rw [ended]
    exact .pastEnd fetched
  | some tokens =>
    obtain ⟨input, output, ⟨-, error, ended, failed⟩ | ⟨-, ended, carried⟩⟩ :=
      cycle_ending fetched
    · simp only [ended, failed]
      exact .fatal fetched rfl
    · simp only [ended, carried]
      exact conclude_stepped unsized input output fetched

theorem Stepped.error_iff {ending : Outcome} {result : Except Fatal Progress} {next : Machine}
    (stepped : Stepped m ending result next) :
    (∃ fatal, result = .error fatal) ↔ ending = .fatal := by
  cases stepped <;> simp

section Recent

variable {α : Type} {see : Machine → Option α}

def recent? (m : Machine) (see : Machine → Option α) : Nat → Option α
  | 0 => none
  | n + 1 => (see (m.afterSteps n)).or (m.recent? see n)

theorem recent?_eq_some_iff {n : Nat} {a : α} :
    m.recent? see n = some a ↔
      ∃ k < n, see (m.afterSteps k) = some a ∧
        ∀ j, k < j → j < n → see (m.afterSteps j) = none := by
  induction n with
  | zero => simp [recent?]
  | succ n ih =>
    cases seen : see (m.afterSteps n) with
    | none =>
      have same : m.recent? see (n + 1) = m.recent? see n := by simp [recent?, seen]
      rw [same, ih]
      constructor
      · rintro ⟨k, before, found, later⟩
        refine ⟨k, by omega, found, ?_⟩
        intro j after within
        by_cases last : j = n
        · rw [last, seen]
        · exact later j after (by omega)
      · rintro ⟨k, before, found, later⟩
        have earlier : k ≠ n := by
          rintro rfl
          simp [seen] at found
        exact ⟨k, by omega, found, fun j after within => later j after (by omega)⟩
    | some b =>
      have last : m.recent? see (n + 1) = some b := by simp [recent?, seen]
      rw [last]
      constructor
      · rintro ⟨⟩
        exact ⟨n, by omega, seen, fun j after within => by omega⟩
      · rintro ⟨k, before, found, later⟩
        rcases Nat.lt_succ_iff_lt_or_eq.mp before with earlier | rfl
        · have hidden := later n earlier (Nat.lt_succ_self n)
          simp [seen] at hidden
        · rw [seen] at found
          exact found

end Recent

end Script8255.Machine
