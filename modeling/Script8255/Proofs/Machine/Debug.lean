import Script8255.Proofs.Machine.Calls
import Script8255.Proofs.Machine.Rewired
import Script8255.Proofs.Machine.Run

/-! What the debug mode adds to a program: a screen before every instruction, and the line that is
read there. -/

namespace Script8255.Machine

variable {m next : Machine} {tokens : List String} {input rest : List UInt8} {output : Output}

def screen (m : Machine) : String := Screen.render m.program m.store m.line

theorem pause_of_shown (shown : m.present m.screen = (.ok (), next)) :
    m.pause = (next.readLine.1.map fun _ => (), next.readLine.2) := by
  unfold screen at shown
  unfold pause
  rw [shown]

theorem pause_rewired (takes : output.Unfailing) (m : Machine) {text : String}
    (read : lineText (takeLine input).1 = .ok text) :
    (m.rewired true input output).pause =
      (.ok (), m.rewired true (takeLine input).2 (output.append m.screen.toUTF8)) := by
  have shown : (m.rewired true input output).present (m.rewired true input output).screen = _ :=
    present_rewired takes m true input m.screen
  have line : (m.rewired true input (output.append m.screen.toUTF8)).readLine =
      (.ok text, m.rewired true (takeLine input).2 (output.append m.screen.toUTF8)) :=
    Prod.ext read rfl
  rw [pause_of_shown shown]
  change ((readLine (m.rewired true input (output.append m.screen.toUTF8))).1.map _, _) = _
  rw [line]
  rfl

theorem step_of_paused (debug : m.mode.debug = true)
    (fetched : m.program.instructions[m.line]? = some tokens) (paused : m.pause = (.ok (), next)) :
    m.step =
      ((conclude (next.execute tokens)).1.mapError
        fun failure => ⟨m.line, showTokens tokens, failure⟩,
        (conclude (next.execute tokens)).2) := by
  unfold step cycle
  simp only [fetched, debug, if_true, paused]

theorem rewired_self (plain : m.mode.debug = false) : m.rewired false m.input m.output = m := by
  have mode : { m.mode with debug := false } = m.mode := by
    rw [← plain]
  unfold rewired
  rw [mode]

section Step

variable {reaction : Reaction (Except Failure Progress)}

theorem plain_step (plain : m.mode.debug = false)
    (fetched : m.program.instructions[m.line]? = some tokens)
    (yields : Yields (fun m => conclude (m.execute tokens)) m m.input reaction rest)
    (takes : m.output.Unfailing) :
    m.step =
      (reaction.result.mapError fun failure => ⟨m.line, showTokens tokens, failure⟩,
        reaction.next.rewired false rest (m.output.append reaction.shown.toUTF8)) := by
  have concluded : conclude ((m.rewired false m.input m.output).execute tokens) = _ :=
    yields false m.output takes
  rw [rewired_self plain] at concluded
  rw [step_of_fetched plain fetched, concluded]

theorem debug_step {text : String} (fetched : m.program.instructions[m.line]? = some tokens)
    (yields : Yields (fun m => conclude (m.execute tokens)) m (takeLine input).2 reaction rest)
    (takes : output.Unfailing) (read : lineText (takeLine input).1 = .ok text) :
    (m.rewired true input output).step =
      (reaction.result.mapError fun failure => ⟨m.line, showTokens tokens, failure⟩,
        reaction.next.rewired true rest
          (output.append (m.screen ++ reaction.shown).toUTF8)) := by
  have paused := pause_rewired takes m read
  have concluded : conclude (execute (m.rewired true (takeLine input).2 _) tokens) = _ :=
    yields true _ (takes.append m.screen.toUTF8)
  rw [step_of_paused (m := m.rewired true input output) rfl fetched paused, concluded,
    Output.append_texts]
  rfl

end Step

def final? : Except Fatal Progress → Option (Except Fatal Halt)
  | .error fatal => some (.error fatal)
  | .ok (.halted halt) => some (.ok halt)
  | .ok .running => none

theorem eq_running {result : Except Fatal Progress} (open_end : final? result = none) :
    result = .ok .running := by
  rcases result with fatal | progress
  · cases open_end
  · cases progress with
    | running => rfl
    | halted halt => cases open_end

theorem run_of_final {result : Except Fatal Progress} {answer : Except Fatal Halt}
    (stepped : m.step = (result, next)) (takes : next.output.Unfailing)
    (final : final? result = some answer) (fuel : Nat) :
    m.run (fuel + 1) = (some answer, next) := by
  apply run_of_answer stepped
  rcases result with fatal | progress
  · exact final
  · cases progress with
    | running => cases final
    | halted halt =>
      cases final
      change some (next.finish halt) = _
      unfold finish
      rw [takes.flushes]

/-- The screens of the instructions that a run comes to. -/
def screens : Nat → Machine → List String
  | 0, _ => []
  | fuel + 1, m =>
    if m.line < m.program.instructions.size then
      m.screen ::
        match m.step with
        | (.ok .running, next) => screens fuel next
        | _ => []
    else []

def unread : Nat → List UInt8 → List UInt8
  | 0, input => input
  | n + 1, input => unread n (takeLine input).2

theorem screens_past_end (past : m.program.instructions.size ≤ m.line) (fuel : Nat) :
    m.screens (fuel + 1) = [] := if_neg (Nat.not_lt.mpr past)

theorem screens_of_fetched (fetched : m.program.instructions[m.line]? = some tokens) (fuel : Nat) :
    m.screens (fuel + 1) =
      m.screen ::
        match m.step with
        | (.ok .running, next) => next.screens fuel
        | _ => [] := by
  have within : m.line < m.program.instructions.size :=
    (Array.getElem?_eq_some_iff.mp fetched).1
  exact if_pos within

theorem screens_of_final {result : Except Fatal Progress} {answer : Except Fatal Halt}
    (fetched : m.program.instructions[m.line]? = some tokens) (stepped : m.step = (result, next))
    (final : final? result = some answer) (fuel : Nat) : m.screens (fuel + 1) = [m.screen] := by
  rw [screens_of_fetched fetched, stepped]
  rcases result with fatal | progress
  · rfl
  · cases progress with
    | running => cases final
    | halted halt => rfl

theorem screens_of_running (fetched : m.program.instructions[m.line]? = some tokens)
    (stepped : m.step = (.ok .running, next)) (fuel : Nat) :
    m.screens (fuel + 1) = m.screen :: next.screens fuel := by
  rw [screens_of_fetched fetched, stepped]

/-- What a debug run shares with a plain one that ended, when no instruction reads. A piece is a
screen with what the instruction after it shows. -/
structure Accompanied (fuel : Nat) (m : Machine) (answer : Except Fatal Halt) (last : Machine)
    (pieces : List (String × String)) : Prop where
  screens : pieces.map Prod.fst = m.screens fuel
  shown : last.output = m.output.append (String.join (pieces.map Prod.snd)).toUTF8
  debugged : ∀ (input : List UInt8) (output : Output) (text : String), output.Unfailing →
    lineText input = .ok text →
      (m.rewired true input output).run fuel =
        (some answer,
          last.rewired true (unread pieces.length input)
            (output.append (String.join (pieces.map fun piece => piece.1 ++ piece.2)).toUTF8))

namespace Accompanied

variable {fuel : Nat} {answer : Except Fatal Halt} {last : Machine}
  {pieces : List (String × String)} {reaction : Reaction (Except Failure Progress)}

theorem past_end (past : m.program.instructions.size ≤ m.line) (fuel : Nat) :
    Accompanied (fuel + 1) m (.ok .completed) m [] where
  screens := (screens_past_end past fuel).symm
  shown := (Output.append_no_text m.output).symm
  debugged := by
    intro input output text takes valid
    change _ = (_, m.rewired true input (output.append "".toUTF8))
    rw [Output.append_no_text]
    exact run_of_final (step_past_end (m := m.rewired true input output) past) takes rfl fuel

theorem last_step (plain : m.mode.debug = false) (takes : m.output.Unfailing)
    (fetched : m.program.instructions[m.line]? = some tokens)
    (yields : ∀ input, Yields (fun m => conclude (m.execute tokens)) m input reaction input)
    (final : final? (reaction.result.mapError
      fun failure => ⟨m.line, showTokens tokens, failure⟩) = some answer) (fuel : Nat) :
    Accompanied (fuel + 1) m answer m.step.2 [(m.screen, reaction.shown)] where
  screens := by
    have stepped := plain_step plain fetched (yields m.input) takes
    exact (screens_of_final fetched stepped final fuel).symm
  shown := by
    rw [plain_step plain fetched (yields m.input) takes]
    simp only [List.map_cons, List.map_nil, String.join_cons, String.join_nil, String.append_empty]
    rfl
  debugged := by
    intro input output text also valid
    obtain ⟨⟨first, read⟩, -⟩ := lineText_takeLine valid
    have stepped := debug_step fetched (yields _) also read
    rw [plain_step plain fetched (yields m.input) takes, run_of_final stepped (also.append _) final]
    simp only [List.map_cons, List.map_nil, String.join_cons, String.join_nil, String.append_empty]
    rfl

theorem first_step (plain : m.mode.debug = false) (takes : m.output.Unfailing)
    (fetched : m.program.instructions[m.line]? = some tokens)
    (yields : ∀ input, Yields (fun m => conclude (m.execute tokens)) m input reaction input)
    (running : reaction.result = .ok .running)
    (later : Accompanied fuel m.step.2 answer last pieces) :
    Accompanied (fuel + 1) m answer last ((m.screen, reaction.shown) :: pieces) := by
  have stepped := plain_step plain fetched (yields m.input) takes
  rw [running] at stepped
  rw [stepped] at later
  refine ⟨?_, ?_, ?_⟩
  · rw [screens_of_running fetched stepped, ← later.screens]
    rfl
  · rw [later.shown, List.map_cons, String.join_cons, ← Output.append_texts]
    rfl
  · intro input output text also valid
    obtain ⟨⟨first, read⟩, left, remains⟩ := lineText_takeLine valid
    have paused := debug_step fetched (yields _) also read
    rw [running] at paused
    have continued := later.debugged _ _ left (also.append (m.screen ++ reaction.shown).toUTF8)
      remains
    rw [Output.append_texts] at continued
    rw [run_of_running paused, List.map_cons, String.join_cons]
    exact continued

end Accompanied

theorem run_accompanied (plain : m.mode.debug = false) (takes : m.output.Unfailing)
    (quiet : ∀ tokens ∈ m.program.instructions, Quiet tokens) {fuel : Nat}
    {answer : Except Fatal Halt} {last : Machine} (ended : m.run fuel = (some answer, last)) :
    ∃ pieces, Accompanied fuel m answer last pieces := by
  -- the debug run is on inputs and outputs of its own, for which `Accompanied` quantifies
  induction fuel generalizing m with
  | zero => cases ended
  | succ fuel ih =>
    cases fetched : m.program.instructions[m.line]? with
    | none =>
      have past := Array.getElem?_eq_none_iff.mp fetched
      rw [run_of_final (step_past_end past) takes rfl fuel] at ended
      cases ended
      exact ⟨[], .past_end past fuel⟩
    | some tokens =>
      obtain ⟨executed, executes⟩ :=
        execute_yields_of_quiet m (quiet tokens (Array.mem_of_getElem? fetched))
      have yields := fun input => (executes input).concluded
      have stepped := plain_step plain fetched (yields m.input) takes
      have unfailing := takes.append executed.shown.toUTF8
      cases final : final? (executed.concluded.result.mapError
          fun failure => ⟨m.line, showTokens tokens, failure⟩) with
      | some settled =>
        rw [run_of_final stepped unfailing final fuel] at ended
        cases ended
        have accompanied := Accompanied.last_step plain takes fetched yields final fuel
        rw [stepped] at accompanied
        exact ⟨_, accompanied⟩
      | none =>
        have running := Result.mapError_eq_ok.mp (eq_running final)
        have same : m.step.2.program = m.program := (step_calls m).1
        have goes_on : m.step = (.ok .running, m.step.2) := by
          rw [stepped, running]
          rfl
        rw [run_of_running goes_on] at ended
        have still : m.step.2.mode.debug = false := by
          rw [stepped]
          rfl
        have open_output : m.step.2.output.Unfailing := by
          rw [stepped]
          exact unfailing
        obtain ⟨pieces, later⟩ := ih still open_output (same ▸ quiet) ended
        exact ⟨_, .first_step plain takes fetched yields running later⟩

/-- The debug mode shows a screen and takes a line at each instruction, and changes nothing else. -/
theorem debug_only_pauses (m : Machine) (takes : m.output.Unfailing) :
    (∀ text, m.line < m.program.instructions.size → lineText (takeLine m.input).1 = .ok text →
      ∃ shown : String,
        let plain := (m.rewired false (takeLine m.input).2 m.output).step
        plain.2.output = m.output.append shown.toUTF8 ∧
          (m.rewired true m.input m.output).step =
            (plain.1,
              plain.2.rewired true plain.2.input
                (m.output.append (m.screen ++ shown).toUTF8))) ∧
      (m.program.instructions.size ≤ m.line → ∀ debug,
        (m.rewired debug m.input m.output).step =
          (.ok (.halted .completed), m.rewired debug m.input m.output)) ∧
      ((∀ tokens ∈ m.program.instructions, Quiet tokens) →
        ∀ text, lineText m.input = .ok text →
          ∀ fuel answer last, (m.rewired false m.input m.output).run fuel = (some answer, last) →
            ∃ pieces : List (String × String),
              pieces.map Prod.fst = (m.rewired false m.input m.output).screens fuel ∧
                last.output = m.output.append (String.join (pieces.map Prod.snd)).toUTF8 ∧
                (m.rewired true m.input m.output).run fuel =
                  (some answer,
                    last.rewired true (unread pieces.length m.input)
                      (m.output.append
                        (String.join (pieces.map fun piece => piece.1 ++ piece.2)).toUTF8))) := by
  refine ⟨?_, ?_, ?_⟩
  · intro text within read
    obtain ⟨tokens, fetched⟩ : ∃ tokens, m.program.instructions[m.line]? = some tokens :=
      ⟨_, Array.getElem?_eq_getElem within⟩
    obtain ⟨executed, rest, executes⟩ := execute_yields m tokens (takeLine m.input).2
    have yields := executes.concluded
    refine ⟨executed.shown, ?_⟩
    intro plain
    have stepped : plain = _ :=
      plain_step (m := m.rewired false (takeLine m.input).2 m.output) rfl fetched yields takes
    rw [stepped]
    exact ⟨rfl, debug_step fetched yields takes read⟩
  · intro past debug
    exact step_past_end past
  · intro quiet text valid fuel answer last ended
    obtain ⟨pieces, accompanied⟩ :=
      run_accompanied (m := m.rewired false m.input m.output) rfl takes quiet ended
    exact ⟨pieces, accompanied.screens, accompanied.shown,
      accompanied.debugged m.input m.output text takes valid⟩

theorem clearing_only_pauses :
    let m : Machine :=
      { start (Program.build ["cls", "lbl end"]) ⟨false, false⟩ [10, 10] with
        output := ⟨ByteArray.empty, none, false⟩ }
    m.output.Unfailing ∧ m.line < m.program.instructions.size ∧
      lineText (takeLine m.input).1 = .ok "\n" ∧
      (∀ tokens ∈ m.program.instructions, Quiet tokens) ∧ lineText m.input = .ok "\n\n" ∧
      (m.rewired true m.input m.output).step.1 = .ok .running ∧
      ((m.rewired true m.input m.output).run 3).1 = some (.ok .completed) := by
  intro m
  have takes : m.output.Unfailing := ⟨fun _ => rfl, rfl⟩
  have within : m.line < m.program.instructions.size := by decide
  have first : lineText (takeLine m.input).1 = .ok "\n" := lineText_eq_ok_iff.mpr (by decide)
  have quiet : ∀ tokens ∈ m.program.instructions, Quiet tokens := by
    intro tokens member promptToken nameToken
    have listed : tokens ∈ [["cls"], ["lbl", "end"]] := Array.mem_toList_iff.mpr member
    simp only [List.mem_cons, List.not_mem_nil, or_false] at listed
    rcases listed with rfl | rfl <;> exact nofun
  have valid : lineText m.input = .ok "\n\n" := lineText_eq_ok_iff.mpr (by decide)
  have pauses := debug_only_pauses m takes
  obtain ⟨shown, -, stepped⟩ := pauses.1 "\n" within first
  have ended : ((m.rewired false m.input m.output).run 3).1 = some (.ok .completed) := rfl
  obtain ⟨pieces, -, -, debugged⟩ := pauses.2.2 quiet "\n\n" valid 3 _ _ (Prod.ext ended rfl)
  refine ⟨takes, within, first, quiet, valid, ?_, ?_⟩
  · rw [stepped]
    rfl
  · rw [debugged]

end Script8255.Machine
