import Script8255.Proofs.Machine.Failing

/-! All that the execution of an instruction, and then a step, can do. -/

namespace Script8255.Machine

variable {m next : Machine} {tokens : List String}

/-- Every way in which the tokens of an instruction are carried out. -/
inductive Executed (m : Machine) (tokens : List String) :
    Except Failure Control → Machine → Prop
  | effect {i : Instruction} {next : Machine} (shape : Instruction.ofTokens? tokens = some i)
      (effect : Effect m i next) : Executed m tokens (.ok .next) next
  | goto {jump : Jump} {label : String} {line : Nat}
      (shape : Instruction.ofTokens? tokens = some (.jump jump label))
      (fires : jump.fires m.flag m.mode.ordered = true)
      (found : m.program.labels.get? label = some line) :
      Executed m tokens (.ok (.goto line)) m
  | exit {token : String} {status : ExitStatus}
      (shape : Instruction.ofTokens? tokens = some (.exit token))
      (exiting : exiting m.store token = .ok (.exit status)) :
      Executed m tokens (.ok (.exit status)) m
  | failed {i : Instruction} {failure : Failure} {next : Machine}
      (shape : Instruction.ofTokens? tokens = some i) (abandoned : Abandoned m i failure next) :
      Executed m tokens (.error failure) next
  | malformed (shape : Instruction.ofTokens? tokens = none) :
      Executed m tokens (.error (.malformed (.instruction (showTokens tokens)))) m

theorem execute_of_effect {i : Instruction} (shape : Instruction.ofTokens? tokens = some i)
    (effect : Effect m i next) : m.execute tokens = (.ok .next, next) := by
  rw [execute_of_shape shape]
  exact perform_eq_next_iff.mpr effect

theorem execute_jump {jump : Jump} {label : String}
    (shape : Instruction.ofTokens? tokens = some (.jump jump label)) :
    m.execute tokens = (m.jumping jump label, m) :=
  execute_of_shape shape

theorem execute_of_jump {jump : Jump} {label : String} {line : Nat}
    (shape : Instruction.ofTokens? tokens = some (.jump jump label))
    (fires : jump.fires m.flag m.mode.ordered = true)
    (found : m.program.labels.get? label = some line) :
    m.execute tokens = (.ok (.goto line), m) := by
  rw [execute_jump shape, jumping, if_pos fires, found]

theorem execute_of_unlabelled {jump : Jump} {label : String}
    (shape : Instruction.ofTokens? tokens = some (.jump jump label))
    (fires : jump.fires m.flag m.mode.ordered = true)
    (missing : m.program.labels.get? label = none) :
    m.execute tokens = (.error (.unknownLabel label), m) := by
  rw [execute_jump shape, jumping, if_pos fires, missing]

theorem execute_of_exit {token : String} {status : ExitStatus}
    (shape : Instruction.ofTokens? tokens = some (.exit token))
    (exited : exiting m.store token = .ok (.exit status)) :
    m.execute tokens = (.ok (.exit status), m) := by
  rw [execute_of_shape shape]
  exact Prod.ext exited rfl

theorem perform_control {i : Instruction} {control : Control}
    (done : m.perform i = (.ok control, next)) (moves : control ≠ .next) :
    (∃ token, i = .exit token) ∨ ∃ jump label, i = .jump jump label := by
  cases i with
  | out token => exact absurd (out_control done) moves
  | label =>
    cases done
    exact absurd rfl moves
  | exit token => exact Or.inl ⟨token, rfl⟩
  | clear => exact absurd (outputting_control done) moves
  | input promptToken nameToken => exact absurd (ask_control done) moves
  | compare left right => exact absurd (compare_control done) moves
  | jump jump label => exact Or.inr ⟨jump, label, rfl⟩
  | allocate | arithmetic | cast | drop | assign => exact absurd (storing_control done) moves

theorem execute_executed (m : Machine) (tokens : List String) :
    Executed m tokens (m.execute tokens).1 (m.execute tokens).2 := by
  cases shape : Instruction.ofTokens? tokens with
  | none =>
    unfold execute
    rw [shape]
    exact .malformed shape
  | some i =>
    rw [execute_of_shape shape]
    rcases performed : m.perform i with ⟨result, next⟩
    cases result with
    | error failure => exact .failed shape (perform_eq_error performed)
    | ok control =>
      by_cases stays : control = .next
      · subst stays
        exact .effect shape (perform_eq_next_iff.mp performed)
      · rcases perform_control performed stays with ⟨token, rfl⟩ | ⟨jump, label, rfl⟩
        · obtain ⟨exited, rfl⟩ := Prod.mk.inj performed
          obtain ⟨status, rfl⟩ := exiting_eq_ok exited
          exact .exit shape exited
        · obtain ⟨jumped, rfl⟩ := Prod.mk.inj performed
          rcases jumping_eq_ok jumped with next | ⟨line, rfl, fires, found⟩
          · exact absurd next stays
          · exact .goto shape fires found

theorem executed_of_execute {result : Except Failure Control}
    (performed : m.execute tokens = (result, next)) : Executed m tokens result next := by
  have executed := execute_executed m tokens
  rw [performed] at executed
  exact executed

theorem exists_executed {result : Except Failure Control}
    (returned : (m.execute tokens).1 = result) : ∃ next, Executed m tokens result next :=
  ⟨(m.execute tokens).2, executed_of_execute (Prod.ext returned rfl)⟩

theorem execute_keeps {α : Type} (see : Machine → α)
    (streams : ∀ input output, see { m with input, output } = see m)
    (effects : ∀ i next, Effect m i next → see next = see m) (tokens : List String) :
    see (m.execute tokens).2 = see m := by
  rcases performed : m.execute tokens with ⟨result, next⟩
  cases executed_of_execute performed with
  | effect shape effect => exact effects _ _ effect
  | goto | exit | malformed => rfl
  | failed shape abandoned =>
    obtain ⟨input, output, rfl⟩ := abandoned.streams_only
    exact streams input output

theorem step_of_fetched (plain : m.mode.debug = false)
    (fetched : m.program.instructions[m.line]? = some tokens) :
    m.step =
      ((conclude (m.execute tokens)).1.mapError
        fun failure => ⟨m.line, showTokens tokens, failure⟩,
        (conclude (m.execute tokens)).2) := by
  unfold step cycle
  simp only [fetched, plain, Bool.false_eq_true, if_false]

theorem present_appends (m : Machine) (text : String) :
    ∃ bytes, (m.present text).2 = { m with output := m.output.append bytes } := by
  rcases shown : m.present text with ⟨result, next⟩
  cases result with
  | ok done =>
    obtain ⟨-, -, rfl⟩ := present_eq_ok_iff.mp shown
    exact ⟨_, rfl⟩
  | error error => exact present_eq_error shown

theorem pause_streams (m : Machine) :
    ∃ input bytes, m.pause.2 = { m with input, output := m.output.append bytes } := by
  obtain ⟨bytes, moved⟩ := present_appends m (Screen.render m.program m.store m.line)
  unfold pause
  split
  next error next failed =>
    rw [failed] at moved
    exact ⟨m.input, bytes, moved⟩
  next next shown =>
    rw [shown] at moved
    simp only at moved
    subst moved
    exact ⟨_, bytes, rfl⟩

/-- Whether a step comes to the instruction at the counter: a pause before it has to pass. -/
def Proceeds (m : Machine) : Prop := m.mode.debug = true → m.pause.1 = .ok ()

theorem cycle_cases (m : Machine) (tokens : List String) :
    ∃ input output,
      (¬ m.Proceeds ∧
        ∃ error, m.cycle tokens = (.error (.stream error), { m with input, output })) ∨
      (m.Proceeds ∧ m.cycle tokens = conclude (execute { m with input, output } tokens)) := by
  cases debug : m.mode.debug with
  | false =>
    refine ⟨m.input, m.output, Or.inr ⟨?_, ?_⟩⟩
    · simp [Proceeds, debug]
    · simp [cycle, debug]
  | true =>
    obtain ⟨input, bytes, moved⟩ := pause_streams m
    rcases paused : m.pause with ⟨result, next⟩
    rw [paused] at moved
    change next = _ at moved
    subst moved
    refine ⟨input, m.output.append bytes, ?_⟩
    cases result with
    | error error => simp [Proceeds, cycle, debug, paused]
    | ok done => simp [Proceeds, cycle, debug, paused]

theorem step_of_proceeds (proceeds : m.Proceeds)
    (fetched : m.program.instructions[m.line]? = some tokens) :
    ∃ input output,
      m.step =
        ((conclude (execute { m with input, output } tokens)).1.mapError
          fun failure => ⟨m.line, showTokens tokens, failure⟩,
          (conclude (execute { m with input, output } tokens)).2) := by
  obtain ⟨input, output, ⟨stops, -⟩ | ⟨-, carried⟩⟩ := cycle_cases m tokens
  · exact absurd proceeds stops
  · refine ⟨input, output, ?_⟩
    simp only [step, fetched, carried]

theorem origin_of_advance {status : Int64} {failure : Failure}
    (failed : (m.advance status).1 = .error failure) : failure.origin = .operand := by
  unfold advance at failed
  split at failed
  · cases failed
  next error refused =>
    obtain ⟨capacity, rfl⟩ := Store.assign_eq_error refused
    cases failed
    rfl

theorem conclude_eq_error {executed : Except Failure Control × Machine} {failure : Failure}
    (failed : (conclude executed).1 = .error failure) (outer : failure.origin ≠ .operand) :
    executed.1 = .error failure := by
  rcases executed with ⟨result, left⟩
  cases result with
  | error reason =>
    change (if reason.isFatal then (.error reason, left) else left.advance 1).1 = _ at failed
    split at failed
    · cases failed
      rfl
    · exact absurd (origin_of_advance failed) outer
  | ok control =>
    cases control with
    | next => exact absurd (origin_of_advance failed) outer
    | goto line => cases failed
    | exit status => cases failed

theorem cycle_eq_error {failure : Failure} (failed : (m.cycle tokens).1 = .error failure)
    (outer : failure.origin ≠ .operand) (inner : failure.origin ≠ .stream) :
    m.Proceeds ∧
      ∃ input output, (execute { m with input, output } tokens).1 = .error failure := by
  obtain ⟨input, output, ⟨-, error, stopped⟩ | ⟨proceeds, carried⟩⟩ := cycle_cases m tokens
  · rw [stopped] at failed
    cases failed
    exact absurd rfl inner
  · rw [carried] at failed
    exact ⟨proceeds, input, output, conclude_eq_error failed outer⟩

def afterSteps (m : Machine) : Nat → Machine
  | 0 => m
  | n + 1 => (m.afterSteps n).step.2

end Script8255.Machine
