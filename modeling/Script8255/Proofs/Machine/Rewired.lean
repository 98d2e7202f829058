import Script8255.Proofs.Machine.Execution

/-! Machines that differ only in their streams and their debug mode react to an instruction in the
same way. -/

namespace Script8255

namespace Machine

def rewired (m : Machine) (debug : Bool) (input : List UInt8) (output : Output) : Machine :=
  { m with
    mode := { m.mode with debug }
    input
    output }

/-- What an action returns, leaves behind and shows. -/
structure Reaction (α : Type) where
  result : α
  next : Machine
  shown : String

/-- Whether an action turns one input into the other with a reaction that depends neither on the
debug mode nor on the output, so long as this takes everything. -/
def Yields {α : Type} (action : Machine → α × Machine) (m : Machine) (input : List UInt8)
    (reaction : Reaction α) (rest : List UInt8) : Prop :=
  ∀ debug (output : Output), output.Unfailing →
    action (m.rewired debug input output) =
      (reaction.result,
        reaction.next.rewired debug rest (output.append reaction.shown.toUTF8))

variable {α β : Type} {m : Machine} {input rest : List UInt8} {output : Output}

theorem write_rewired (takes : output.Unfailing) (m : Machine) (debug : Bool)
    (input : List UInt8) (text : String) :
    (m.rewired debug input output).write text =
      (.ok (), m.rewired debug input (output.append text.toUTF8)) := by
  change ((output.write text).1, m.rewired debug input (output.write text).2) = _
  rw [takes.write]

theorem present_rewired (takes : output.Unfailing) (m : Machine) (debug : Bool)
    (input : List UInt8) (text : String) :
    (m.rewired debug input output).present text =
      (.ok (), m.rewired debug input (output.append text.toUTF8)) := by
  unfold present
  rw [write_rewired takes]
  change ((output.append text.toUTF8).flush, _) = _
  rw [(takes.append text.toUTF8).flushes]

theorem storing_rewired (m : Machine) (debug : Bool) (input : List UInt8) (output : Output)
    (result : Except Failure Store) :
    (m.rewired debug input output).storing result =
      ((m.storing result).1, (m.storing result).2.rewired debug input output) := by
  cases result <;> rfl

theorem Yields.silent {action : Machine → α × Machine}
    (same : ∀ debug input output, action (m.rewired debug input output) =
      ((action m).1, (action m).2.rewired debug input output)) (input : List UInt8) :
    Yields action m input ⟨(action m).1, (action m).2, ""⟩ input := by
  intro debug output takes
  rw [Output.append_no_text]
  exact same debug input output

theorem perform_yields_of_quiet (m : Machine) {i : Instruction} (quiet : i.reads = false) :
    ∃ reaction, ∀ input, Yields (perform · i) m input reaction input := by
  cases i with
  | out token =>
    cases resolved : resolve m.store token with
    | error failure =>
      refine ⟨_, Yields.silent ?_⟩
      intro debug input output
      have here : m.perform (.out token) = (.error failure, m) := out_of_error resolved
      rw [here]
      exact out_of_error resolved
    | ok value =>
      refine ⟨⟨.ok .next, m, value.display ++ "\n"⟩, ?_⟩
      intro input debug output takes
      have here : resolve (m.rewired debug input output).store token = .ok value := resolved
      change (m.rewired debug input output).out token = _
      rw [out_of_ok here, write_rewired takes]
      rfl
  | label => exact ⟨_, Yields.silent fun _ _ _ => rfl⟩
  | exit token => exact ⟨_, Yields.silent fun _ _ _ => rfl⟩
  | clear =>
    refine ⟨⟨.ok .next, m, clearScreen⟩, ?_⟩
    intro input debug output takes
    change outputting ((m.rewired debug input output).present clearScreen) = _
    rw [present_rewired takes]
    rfl
  | compare left right =>
    refine ⟨_, Yields.silent ?_⟩
    intro debug input output
    have comparison : (m.rewired debug input output).comparison left right =
        m.comparison left right := rfl
    change (m.rewired debug input output).compare left right =
      ((m.compare left right).1, (m.compare left right).2.rewired debug input output)
    unfold compare
    rw [comparison]
    cases m.comparison left right <;> rfl
  | jump jump label => exact ⟨_, Yields.silent fun _ _ _ => rfl⟩
  | input promptToken nameToken => cases quiet
  | allocate | arithmetic | cast | drop | assign =>
    exact ⟨_, Yields.silent fun debug input output => storing_rewired m debug input output _⟩

theorem received_rewired (m : Machine) (debug : Bool) (input : List UInt8) (output : Output)
    (name : String) (line : Except StreamError String) :
    (m.rewired debug input output).received name line =
      ((m.received name line).1, (m.received name line).2.rewired debug input output) := by
  cases line with
  | error error => rfl
  | ok line =>
    unfold received
    by_cases used : line.isEmpty = true
    · simp only [if_pos used]
    · simp only [if_neg used]
      exact storing_rewired m debug input output _

theorem ask_yields (m : Machine) (promptToken nameToken : String) (input : List UInt8) :
    ∃ reaction rest, Yields (ask · promptToken nameToken) m input reaction rest := by
  cases asked : request m.store promptToken nameToken with
  | error failure =>
    refine ⟨_, input, Yields.silent ?_ input⟩
    intro debug input output
    have here : request (m.rewired debug input output).store promptToken nameToken =
        .error failure := asked
    rw [ask_of_error here, ask_of_error asked]
  | ok pair =>
    rcases pair with ⟨prompt, name⟩
    let line := lineText (takeLine input).1
    refine ⟨⟨(m.received name line).1, (m.received name line).2, prompt⟩, (takeLine input).2, ?_⟩
    intro debug output takes
    have here : request (m.rewired debug input output).store promptToken nameToken =
        .ok (prompt, name) := asked
    change (m.rewired debug input output).ask promptToken nameToken = _
    rw [ask_of_ok here (present_rewired takes m debug input prompt)]
    exact received_rewired m debug _ _ name line

theorem perform_yields (m : Machine) (i : Instruction) (input : List UInt8) :
    ∃ reaction rest, Yields (perform · i) m input reaction rest := by
  cases reads : i.reads with
  | false =>
    obtain ⟨reaction, yields⟩ := perform_yields_of_quiet m reads
    exact ⟨reaction, input, yields input⟩
  | true =>
    cases i with
    | input promptToken nameToken => exact ask_yields m promptToken nameToken input
    | _ => cases reads

def Quiet (tokens : List String) : Prop :=
  ∀ promptToken nameToken, Instruction.ofTokens? tokens ≠ some (.input promptToken nameToken)

theorem Quiet.reads {tokens : List String} (quiet : Quiet tokens) {i : Instruction}
    (shape : Instruction.ofTokens? tokens = some i) : i.reads = false := by
  cases i with
  | input promptToken nameToken => exact absurd shape (quiet promptToken nameToken)
  | _ => rfl

theorem execute_yields_of_quiet (m : Machine) {tokens : List String} (quiet : Quiet tokens) :
    ∃ reaction, ∀ input, Yields (execute · tokens) m input reaction input := by
  cases shape : Instruction.ofTokens? tokens with
  | none =>
    refine ⟨_, Yields.silent ?_⟩
    intro debug input output
    rw [execute_malformed shape, execute_malformed shape]
  | some i =>
    obtain ⟨reaction, yields⟩ := perform_yields_of_quiet m (quiet.reads shape)
    refine ⟨reaction, ?_⟩
    intro input debug output takes
    exact (execute_of_shape shape).trans (yields input debug output takes)

theorem execute_yields (m : Machine) (tokens : List String) (input : List UInt8) :
    ∃ reaction rest, Yields (execute · tokens) m input reaction rest := by
  cases shape : Instruction.ofTokens? tokens with
  | none =>
    have quiet : Quiet tokens := by
      intro promptToken nameToken impossible
      rw [shape] at impossible
      cases impossible
    obtain ⟨reaction, yields⟩ := execute_yields_of_quiet m quiet
    exact ⟨reaction, input, yields input⟩
  | some i =>
    obtain ⟨reaction, rest, yields⟩ := perform_yields m i input
    refine ⟨reaction, rest, ?_⟩
    intro debug output takes
    exact (execute_of_shape shape).trans (yields debug output takes)

theorem advance_rewired (m : Machine) (debug : Bool) (input : List UInt8) (output : Output)
    (status : Int64) :
    (m.rewired debug input output).advance status =
      ((m.advance status).1, (m.advance status).2.rewired debug input output) := by
  have here : (m.rewired debug input output).store = m.store := rfl
  unfold advance
  rw [here]
  cases m.store.writeReserved statusRegister (.int status) <;> rfl

theorem conclude_rewired (result : Except Failure Control) (m : Machine) (debug : Bool)
    (input : List UInt8) (output : Output) :
    conclude (result, m.rewired debug input output) =
      ((conclude (result, m)).1, (conclude (result, m)).2.rewired debug input output) := by
  cases result with
  | ok control =>
    cases control with
    | next => exact advance_rewired m debug input output 0
    | goto line => rfl
    | exit status => rfl
  | error failure =>
    unfold conclude
    by_cases severe : failure.isFatal = true
    · simp only [if_pos severe]
    · simp only [if_neg severe]
      exact advance_rewired m debug input output 1

def Reaction.concluded (reaction : Reaction (Except Failure Control)) :
    Reaction (Except Failure Progress) :=
  ⟨(conclude (reaction.result, reaction.next)).1, (conclude (reaction.result, reaction.next)).2,
    reaction.shown⟩

theorem Yields.concluded {action : Machine → Except Failure Control × Machine}
    {reaction : Reaction (Except Failure Control)} (yields : Yields action m input reaction rest) :
    Yields (fun m => conclude (action m)) m input reaction.concluded rest := by
  intro debug output takes
  change conclude (action (m.rewired debug input output)) = _
  rw [yields debug output takes]
  exact conclude_rewired _ _ _ _ _

end Machine

end Script8255
