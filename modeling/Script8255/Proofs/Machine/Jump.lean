import Script8255.Proofs.Instruction
import Script8255.Proofs.Label
import Script8255.Proofs.Machine.StatusRegister

/-! Where jumps lead: to the last definition of their label, and nowhere when there is none. -/

namespace Script8255.Machine

/-- Whether the step carries out a jump on the label, and the jump fires. -/
structure Fires (m : Machine) (label : String) : Prop where
  proceeds : m.Proceeds
  jumps : ∃ opcode jump, m.program.instructions[m.line]? = some [opcode, label] ∧
    Jump.ofOpcode? opcode = some jump ∧ jump.fires m.flag m.mode.ordered = true

variable {m next : Machine} {label : String} {line : Nat}

namespace Fires

theorem step_of_found (fires : m.Fires label) (found : m.program.labels.get? label = some line) :
    ∃ input output, m.step = (.ok .running, { m with line, input, output }) := by
  obtain ⟨opcode, jump, fetched, known, fired⟩ := fires.jumps
  have shape := Instruction.ofTokens?_of_jump known label
  obtain ⟨input, output, stepped⟩ := step_of_proceeds fires.proceeds fetched
  refine ⟨input, output, ?_⟩
  rw [stepped, execute_of_jump (m := { m with input, output }) shape fired found]
  rfl

theorem step_of_missing (fires : m.Fires label) (missing : m.program.labels.get? label = none) :
    ∃ fatal, m.step.1 = .error fatal ∧ fatal.failure = .unknownLabel label := by
  obtain ⟨opcode, jump, fetched, known, fired⟩ := fires.jumps
  have shape := Instruction.ofTokens?_of_jump known label
  obtain ⟨input, output, stepped⟩ := step_of_proceeds fires.proceeds fetched
  rw [stepped, execute_of_unlabelled (m := { m with input, output }) shape fired missing]
  exact ⟨_, rfl, rfl⟩

end Fires

theorem Abandoned.of_unknownLabel {i : Instruction}
    (abandoned : Abandoned m i (.unknownLabel label) next) :
    ∃ jump, i = .jump jump label ∧ jump.fires m.flag m.mode.ordered = true ∧
      m.program.labels.get? label = none := by
  cases abandoned with
  | early inner => cases inner
  | unlabelled fires missing => exact ⟨_, rfl, fires, missing⟩

theorem fires_of_unknownLabel {fatal : Fatal} (failed : m.step.1 = .error fatal)
    (about : fatal.failure = .unknownLabel label) :
    m.Fires label ∧ m.program.labels.get? label = none := by
  unfold step at failed
  split at failed
  · cases failed
  next tokens fetched =>
    obtain ⟨failure, refused, rfl⟩ := Result.mapError_eq_error.mp failed
    change failure = .unknownLabel label at about
    subst about
    obtain ⟨proceeds, input, output, failed⟩ := cycle_eq_error refused nofun nofun
    obtain ⟨left, executed⟩ := exists_executed failed
    cases executed with
    | failed shape abandoned =>
      obtain ⟨jump, rfl, fired, missing⟩ := abandoned.of_unknownLabel
      cases Instruction.spelled_of_ofTokens? shape with
      | jump known label => exact ⟨⟨proceeds, _, jump, fetched, known, fired⟩, missing⟩

theorem ending_eq_jump_iff :
    m.ending = .jump ↔ ∃ label line, m.Fires label ∧ m.program.labels.get? label = some line := by
  constructor
  · intro ended
    cases fetched : m.program.instructions[m.line]? with
    | none =>
      unfold ending at ended
      rw [fetched] at ended
      cases ended
    | some tokens =>
      obtain ⟨input, output, ⟨-, error, fatal, -⟩ | ⟨proceeds, outcome, -⟩⟩ := cycle_ending fetched
      · rw [fatal] at ended
        cases ended
      · rw [outcome, outcome_of_fetched (m := { m with input, output }) fetched] at ended
        rcases performed : execute { m with input, output } tokens with ⟨result, left⟩
        rw [performed] at ended
        cases executed_of_execute performed with
        | effect | exit | malformed => cases ended
        | goto shape fired found =>
          cases Instruction.spelled_of_ofTokens? shape with
          | jump known label => exact ⟨_, _, ⟨proceeds, _, _, fetched, known, fired⟩, found⟩
        | failed shape abandoned =>
          simp only at ended
          split at ended <;> cases ended
  · rintro ⟨label, line, fires, found⟩
    obtain ⟨opcode, jump, fetched, known, fired⟩ := fires.jumps
    have shape := Instruction.ofTokens?_of_jump known label
    obtain ⟨input, output, ⟨stops, -⟩ | ⟨-, outcome, -⟩⟩ := cycle_ending fetched
    · exact absurd fires.proceeds stops
    · rw [outcome, outcome_of_fetched (m := { m with input, output }) fetched,
        execute_of_jump (m := { m with input, output }) shape fired found]

theorem step_of_label (unsized : m.store.StatusUnsized) (proceeds : m.Proceeds)
    (here : m.program.IsLabel label m.line) :
    ∃ input output,
      m.step =
        (.ok .running,
          { m with store := m.store.withStatus 0, line := m.line + 1, input, output }) := by
  obtain ⟨input, output, stepped⟩ := step_of_proceeds proceeds here
  refine ⟨input, output, ?_⟩
  have executed : execute { m with input, output } ["lbl", label] =
      (.ok .next, { m with input, output }) := rfl
  rw [stepped, executed]
  change ((advance { m with input, output } 0).1.mapError _, (advance { m with input, output } 0).2)
    = _
  rw [advance_of_unsized (m := { m with input, output }) unsized]
  rfl

theorem Fires.lands (fires : m.Fires label) (unsized : m.store.StatusUnsized)
    (found : m.program.labels.get? label = some line) (here : m.program.IsLabel label line) :
    let landed := m.step.2
    m.step.1 = .ok .running ∧ landed.line = line ∧
      (landed.Proceeds →
        landed.step.1 = .ok .running ∧ landed.step.2.line = line + 1 ∧
          landed.step.2.store.get? statusRegister = some (statusSlot 0)) := by
  intro landed
  obtain ⟨input, output, stepped⟩ := fires.step_of_found found
  have moved : landed = { m with line, input, output } := congrArg Prod.snd stepped
  refine ⟨congrArg Prod.fst stepped, congrArg Machine.line moved, ?_⟩
  rw [moved]
  intro proceeds
  obtain ⟨read, written, passed⟩ :=
    step_of_label (m := { m with line, input, output }) unsized proceeds here
  rw [passed]
  exact ⟨rfl, rfl, Store.get?_withStatus _ 0⟩

def InProgram (m : Machine) : Prop := m.line ≤ m.program.instructions.size

theorem Stepped.inProgram {ending : Outcome} {result : Except Fatal Progress}
    (stepped : Stepped m ending result next)
    (placed : ∀ label i, m.program.labels.get? label = some i → i < m.program.instructions.size)
    (inside : m.InProgram) : next.InProgram := by
  cases stepped with
  | pastEnd | exit | fatal => exact inside
  | success fetched shape effect =>
    have program : (_ : Machine).program = m.program := effect.program
    have bounded := (Array.getElem?_eq_some_iff.mp fetched).1
    unfold InProgram
    simp only [program]
    omega
  | recovery fetched shape abandoned mild =>
    have bounded := (Array.getElem?_eq_some_iff.mp fetched).1
    exact bounded
  | jump fetched shape fires found => exact Nat.le_of_lt (placed _ _ found)

theorem inProgram_afterSteps (lines : List String) (mode : Mode) (input : List UInt8)
    (output : Output) (n : Nat) :
    (({ start (Program.build lines) mode input with output }).afterSteps n).InProgram := by
  induction n with
  | zero => exact Nat.zero_le _
  | succ n ih =>
    have unsized := Store.StatusUnsized.of_register (register_afterSteps
      (m := { start (Program.build lines) mode input with output }) rfl n)
    have program := (afterSteps_start (Program.build lines) mode input output n).1
    apply (step_stepped unsized).inProgram _ ih
    rw [program]
    intro label i found
    have last := (Program.get?_labels_iff (lines.map tokenize) label i).mp found
    exact last.here.lt

/-- In every run of a program each jump that fires goes to the last definition of its label, which
then succeeds, and the run fails for want of a label exactly when a label that is nowhere defined is
jumped to. -/
theorem jumps_land_on_last_labels (lines : List String) (mode : Mode) (input : List UInt8)
    (output : Output) (n : Nat) :
    let program := Program.build lines
    let m := ({ start program mode input with output } : Machine).afterSteps n
    (∀ i : Nat, program.instructions[i]? = (lines[i]?).map tokenize) ∧
      (∀ label i, program.labels.get? label = some i ↔ program.IsLastLabel label i) ∧
      m.program = program ∧ m.line ≤ lines.length ∧
      (m.ending = .jump ↔ ∃ label i, m.Fires label ∧ program.IsLastLabel label i) ∧
      (∀ label i, m.Fires label → program.IsLastLabel label i →
        let landed := m.step.2
        m.step.1 = .ok .running ∧ landed.line = i ∧
          (landed.Proceeds →
            landed.step.1 = .ok .running ∧ landed.step.2.line = i + 1 ∧
              landed.step.2.store.get? statusRegister = some (statusSlot 0))) ∧
      ∀ label, (∃ fatal, m.step.1 = .error fatal ∧ fatal.failure = .unknownLabel label) ↔
        m.Fires label ∧ ∀ i, ¬ program.IsLabel label i := by
  intro program m
  have same : m.program = program := (afterSteps_start program mode input output n).1
  have unsized : m.store.StatusUnsized := Store.StatusUnsized.of_register (register_afterSteps
    (m := { start program mode input with output }) rfl n)
  have last (label : String) (i : Nat) :
      m.program.labels.get? label = some i ↔ program.IsLastLabel label i := by
    rw [same]
    exact Program.get?_labels_iff (lines.map tokenize) label i
  have nowhere (label : String) :
      m.program.labels.get? label = none ↔ ∀ i, ¬ program.IsLabel label i := by
    rw [same]
    exact Program.get?_labels_eq_none_iff (lines.map tokenize) label
  refine ⟨?_, Program.get?_labels_iff (lines.map tokenize), same, ?_, ?_, ?_, ?_⟩
  · intro i
    simp [program, Program.build, Program.ofInstructions]
  · have inside : m.line ≤ m.program.instructions.size :=
      inProgram_afterSteps lines mode input output n
    rw [same] at inside
    simpa [program, Program.build, Program.ofInstructions] using inside
  · simp only [ending_eq_jump_iff, last]
  · intro label i fires defined
    have here : m.program.IsLabel label i := same ▸ defined.here
    exact fires.lands unsized ((last label i).mpr defined) here
  · intro label
    rw [← nowhere]
    constructor
    · rintro ⟨fatal, failed, about⟩
      exact fires_of_unknownLabel failed about
    · rintro ⟨fires, missing⟩
      exact fires.step_of_missing missing

end Script8255.Machine
