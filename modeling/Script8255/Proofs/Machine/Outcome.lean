import Mathlib.Logic.ExistsUnique
import Script8255.Proofs.Machine.Execution

/-! How a step ends: the whole of an instruction takes place, or nothing of it. -/

namespace Script8255

def Store.withStatus (store : Store) (status : Int64) : Store :=
  store.put statusRegister ⟨some (.int status), none, true⟩

def Store.StatusUnsized (store : Store) : Prop :=
  ∀ slot, store.get? statusRegister = some slot → slot.capacity = none

theorem Store.StatusUnsized.writeReserved {store : Store} (unsized : store.StatusUnsized)
    (status : Int64) :
    store.writeReserved statusRegister (.int status) = .ok (store.withStatus status) := by
  have capacity : (store.get? statusRegister).bind Variable.capacity = none := by
    cases found : store.get? statusRegister with
    | none => rfl
    | some slot => exact unsized slot found
  apply Store.assign_eq_ok_iff.mpr
  rw [capacity, Bool.or_true]
  constructor
  · intro size impossible
    cases impossible
  · rfl

theorem Store.StatusUnsized.of_same {store next : Store} (unsized : store.StatusUnsized)
    (same : next.get? statusRegister = store.get? statusRegister) : next.StatusUnsized := by
  intro slot found
  rw [same] at found
  exact unsized slot found

namespace Machine

inductive Outcome where
  | success
  | recovery
  | jump
  | halt
  | fatal

/-- What a step returns and leaves behind when it ends with an outcome. -/
inductive Ends (m : Machine) : Outcome → Prop
  | success {tokens : List String} {i : Instruction} {next : Machine}
      (fetched : m.program.instructions[m.line]? = some tokens)
      (shape : Instruction.ofTokens? tokens = some i) (effect : Effect m i next)
      (stepped : m.step =
        (.ok .running, { next with store := next.store.withStatus 0, line := m.line + 1 })) :
      Ends m .success
  | recovery {tokens : List String} {failure : Failure} {output : Output}
      (fetched : m.program.instructions[m.line]? = some tokens)
      (failed : (m.execute tokens).1 = .error failure)
      (mild : (∃ reason, failure = .unusable reason) ∨
        (∃ name, failure = .store (.noData name)) ∨ failure = .endOfInput)
      (shown : output = m.output ∧ failure ≠ .endOfInput ∨
        ∃ promptToken nameToken prompt name,
          Instruction.ofTokens? tokens = some (.input promptToken nameToken) ∧
            request m.store promptToken nameToken = .ok (prompt, name) ∧
              failure = .endOfInput ∧ m.input = [] ∧
                output = m.output.append prompt.toUTF8)
      (stepped : m.step =
        (.ok .running,
          { m with
            store := m.store.withStatus 1
            line := m.line + 1
            output })) :
      Ends m .recovery
  | jump {tokens : List String} {jump : Jump} {label : String} {line : Nat}
      (fetched : m.program.instructions[m.line]? = some tokens)
      (shape : Instruction.ofTokens? tokens = some (.jump jump label))
      (fires : jump.fires m.flag m.mode.ordered = true)
      (found : m.program.labels.get? label = some line)
      (stepped : m.step = (.ok .running, { m with line })) : Ends m .jump
  | halt {halt : Halt}
      (cause : (m.program.instructions.size ≤ m.line ∧ halt = .completed) ∨
        ∃ tokens token status, m.program.instructions[m.line]? = some tokens ∧
          Instruction.ofTokens? tokens = some (.exit token) ∧
            exiting m.store token = .ok (.exit status) ∧ halt = .exited status)
      (stepped : m.step = (.ok (.halted halt), m))
      (forever : ∀ n, (m.afterSteps n).step = (.ok (.halted halt), m)) : Ends m .halt
  | fatal {tokens : List String} {failure : Failure} {input : List UInt8} {output : Output}
      (fetched : m.program.instructions[m.line]? = some tokens)
      (failed : (m.execute tokens).1 = .error failure) (severe : failure.isFatal = true)
      (stepped : m.step =
        (.error ⟨m.line, showTokens tokens, failure⟩, { m with input, output })) :
      Ends m .fatal

variable {m : Machine} {tokens : List String}

theorem afterSteps_of_still {result : Except Fatal Progress} (still : m.step = (result, m))
    (n : Nat) : m.afterSteps n = m := by
  induction n with
  | zero => rfl
  | succ n ih =>
    unfold afterSteps
    rw [ih, still]

theorem advance_of_unsized (unsized : m.store.StatusUnsized) (status : Int64) :
    m.advance status =
      (.ok .running,
        { m with
          store := m.store.withStatus status
          line := m.line + 1 }) := by
  unfold advance
  rw [unsized.writeReserved]

def outcome (m : Machine) : Outcome :=
  match m.program.instructions[m.line]? with
  | none => .halt
  | some tokens =>
    match (m.execute tokens).1 with
    | .ok .next => .success
    | .ok (.goto _) => .jump
    | .ok (.exit _) => .halt
    | .error failure => if failure.isFatal then .fatal else .recovery

theorem outcome_of_fetched (fetched : m.program.instructions[m.line]? = some tokens) :
    m.outcome =
      match (m.execute tokens).1 with
      | .ok .next => .success
      | .ok (.goto _) => .jump
      | .ok (.exit _) => .halt
      | .error failure => if failure.isFatal then .fatal else .recovery := by
  unfold outcome
  rw [fetched]

theorem Ends.outcome_eq {outcome : Outcome} (ends : Ends m outcome) : outcome = m.outcome := by
  cases ends with
  | success fetched shape effect stepped =>
    rw [outcome_of_fetched fetched, execute_of_effect shape effect]
  | recovery fetched failed mild shown stepped =>
    rw [outcome_of_fetched fetched, failed]
    rcases mild with ⟨reason, rfl⟩ | ⟨name, rfl⟩ | rfl <;> rfl
  | jump fetched shape fires found stepped =>
    rw [outcome_of_fetched fetched, execute_of_jump shape fires found]
  | halt cause stepped forever =>
    rcases cause with ⟨past, -⟩ | ⟨tokens, token, status, fetched, shape, exited, -⟩
    · unfold outcome
      rw [Array.getElem?_eq_none past]
    · rw [outcome_of_fetched fetched, execute_of_exit shape exited]
  | fatal fetched failed severe stepped =>
    rw [outcome_of_fetched fetched, failed]
    simp [severe]

theorem mild_of_not_isFatal {failure : Failure} (mild : failure.isFatal = false) :
    (∃ reason, failure = .unusable reason) ∨ (∃ name, failure = .store (.noData name)) ∨
      failure = .endOfInput := by
  cases failure with
  | unusable reason => exact Or.inl ⟨reason, rfl⟩
  | endOfInput => exact Or.inr (Or.inr rfl)
  | store error =>
    cases error with
    | noData name => exact Or.inr (Or.inl ⟨name, rfl⟩)
    | undefined | reserved | capacityExceeded | arenaExhausted => cases mild
  | malformed | unknownLabel | comparisonKinds | stream => cases mild

theorem ends_of_still {halt : Halt}
    (cause : (m.program.instructions.size ≤ m.line ∧ halt = .completed) ∨
      ∃ tokens token status, m.program.instructions[m.line]? = some tokens ∧
        Instruction.ofTokens? tokens = some (.exit token) ∧
          exiting m.store token = .ok (.exit status) ∧ halt = .exited status)
    (stepped : m.step = (.ok (.halted halt), m)) : Ends m .halt := by
  apply Ends.halt cause stepped
  intro n
  rw [afterSteps_of_still stepped n, stepped]

theorem ends_of_failed {next : Machine} {i : Instruction} {failure : Failure}
    (plain : m.mode.debug = false) (unsized : m.store.StatusUnsized)
    (fetched : m.program.instructions[m.line]? = some tokens)
    (shape : Instruction.ofTokens? tokens = some i) (abandoned : Abandoned m i failure next)
    (failed : m.execute tokens = (.error failure, next)) :
    Ends m (if failure.isFatal then .fatal else .recovery) := by
  have reason : (m.execute tokens).1 = .error failure := congrArg Prod.fst failed
  have stepped := step_of_fetched plain fetched
  rw [failed] at stepped
  cases severity : failure.isFatal with
  | true =>
    obtain ⟨input, output, rfl⟩ := abandoned.streams_only
    simp only [conclude, severity, if_true] at stepped
    exact .fatal fetched reason severity stepped
  | false =>
    have mild := mild_of_not_isFatal severity
    simp only [conclude, severity, Bool.false_eq_true, if_false] at stepped
    rcases abandoned.mild_cases severity with ⟨other, rfl⟩ |
      ⟨promptToken, nameToken, prompt, name, rfl, asked, ended, empty, rfl⟩
    · rw [advance_of_unsized unsized] at stepped
      exact .recovery fetched reason mild (Or.inl ⟨rfl, other⟩) stepped
    · rw [advance_of_unsized (by exact unsized)] at stepped
      exact .recovery fetched reason mild
        (Or.inr ⟨promptToken, nameToken, prompt, name, shape, asked, ended, empty, rfl⟩) stepped

theorem ends_outcome (plain : m.mode.debug = false) (unsized : m.store.StatusUnsized) :
    Ends m m.outcome := by
  cases fetched : m.program.instructions[m.line]? with
  | none =>
    have ended : m.outcome = .halt := by
      unfold outcome
      rw [fetched]
    rw [ended]
    apply ends_of_still (Or.inl ⟨Array.getElem?_eq_none_iff.mp fetched, rfl⟩)
    unfold step
    rw [fetched]
  | some tokens =>
    have stepped := step_of_fetched plain fetched
    rw [outcome_of_fetched fetched]
    rcases performed : m.execute tokens with ⟨result, next⟩
    rw [performed] at stepped
    cases executed_of_execute performed with
    | effect shape effect =>
      apply Ends.success fetched shape effect
      have kept : next.store.StatusUnsized := unsized.of_same effect.statusRegister
      rw [stepped]
      simp only [conclude, advance_of_unsized kept, effect.line]
      rfl
    | goto shape fires found => exact .jump fetched shape fires found stepped
    | exit shape exited =>
      exact ends_of_still (Or.inr ⟨tokens, _, _, fetched, shape, exited, rfl⟩) stepped
    | failed shape abandoned =>
      exact ends_of_failed plain unsized fetched shape abandoned performed
    | malformed shape =>
      exact Ends.fatal fetched (congrArg Prod.fst performed) rfl stepped

/-- Every step ends in exactly one of the five ways. -/
theorem step_ends_one_way (m : Machine) (plain : m.mode.debug = false)
    (unsized : m.store.StatusUnsized) : ∃! outcome, Ends m outcome :=
  ⟨m.outcome, ends_outcome plain unsized, fun _ ends => ends.outcome_eq⟩

theorem input_at_its_end_ends_one_way :
    let m : Machine :=
      { start (Program.build ["inp \"?\" > x"]) ⟨false, false⟩ [] with
        store := ⟨8, [(statusRegister, ⟨some (.int 1), none, true⟩)]⟩ }
    m.mode.debug = false ∧ m.store.StatusUnsized ∧ ∃! outcome, Ends m outcome := by
  intro m
  have unsized : m.store.StatusUnsized := by
    intro slot found
    cases found
    rfl
  exact ⟨rfl, unsized, step_ends_one_way m rfl unsized⟩

end Machine

end Script8255
