import Script8255.Proofs.Machine.Execution

/-! The calls that a running program makes on its store. -/

namespace Script8255.Machine

/-- Those that some instruction of the program may make, and the machine's own. -/
inductive Permitted (program : Program) : Store.Call → Prop
  | status (status : Int64) : Permitted program (.writeReserved statusRegister (.int status))
  | issued {tokens : List String} {i : Instruction} {call : Store.Call}
      (member : tokens ∈ program.instructions)
      (shape : Instruction.ofTokens? tokens = some i) (issued : Issues i call) :
      Permitted program call

def Calls (m next : Machine) : Prop :=
  next.program = m.program ∧ ∃ calls : List Store.Call,
    (∀ call ∈ calls, Permitted m.program call) ∧ next.store = calls.foldl Store.after m.store

variable {m next last : Machine} {tokens : List String}

namespace Calls

theorem refl (m : Machine) : Calls m m :=
  ⟨rfl, [], fun _ impossible => absurd impossible List.not_mem_nil, rfl⟩

theorem of_same (program : next.program = m.program) (store : next.store = m.store) :
    Calls m next :=
  ⟨program, [], fun _ impossible => absurd impossible List.not_mem_nil, store⟩

theorem single {call : Store.Call} (permitted : Permitted m.program call)
    (program : next.program = m.program) (store : next.store = m.store.after call) :
    Calls m next := by
  refine ⟨program, [call], ?_, store⟩
  intro other member
  rw [List.mem_singleton.mp member]
  exact permitted

theorem trans (first : Calls m next) (second : Calls next last) : Calls m last := by
  obtain ⟨same, calls, permitted, reached⟩ := first
  obtain ⟨still, later, allowed, ended⟩ := second
  rw [same] at still allowed
  refine ⟨still, calls ++ later, ?_, ?_⟩
  · intro call member
    rcases List.mem_append.mp member with early | late
    · exact permitted call early
    · exact allowed call late
  · rw [List.foldl_append, ← reached]
    exact ended

end Calls

theorem advance_calls (m : Machine) (status : Int64) : Calls m (m.advance status).2 := by
  cases written : m.store.writeReserved statusRegister (.int status) with
  | ok store =>
    have advanced : (m.advance status).2 = { m with store, line := m.line + 1 } := by
      unfold advance
      rw [written]
    have called : m.store.call (.writeReserved statusRegister (.int status)) = .ok store := written
    rw [advanced]
    exact .single (.status status) rfl (Store.after_of_ok called).symm
  | error error =>
    have stopped : (m.advance status).2 = m := by
      unfold advance
      rw [written]
    rw [stopped]
    exact .refl m

theorem Effect.calls {i : Instruction} (effect : Effect m i next)
    (member : tokens ∈ m.program.instructions)
    (shape : Instruction.ofTokens? tokens = some i) : Calls m next := by
  rcases effect.store_cases with ⟨-, same⟩ | ⟨call, issued, done⟩
  · exact .of_same effect.program same
  · exact .single (.issued member shape issued) effect.program (Store.after_of_ok done).symm

theorem conclude_calls (m : Machine) (member : tokens ∈ m.program.instructions) :
    Calls m (conclude (m.execute tokens)).2 := by
  rcases performed : m.execute tokens with ⟨result, next⟩
  cases executed_of_execute performed with
  | effect shape effect => exact (effect.calls member shape).trans (advance_calls next 0)
  | goto shape fires found => exact .of_same rfl rfl
  | exit shape exited => exact .refl m
  | @failed i failure next shape abandoned =>
    obtain ⟨input, output, rfl⟩ := abandoned.streams_only
    change Calls m (if failure.isFatal then (.error failure, _) else advance _ 1).2
    split
    · exact .of_same rfl rfl
    · exact (Calls.of_same rfl rfl).trans (advance_calls _ 1)
  | malformed shape => exact .refl m

theorem step_calls (m : Machine) : Calls m m.step.2 := by
  unfold step
  split
  · exact .refl m
  next tokens fetched =>
    have member := Array.mem_of_getElem? fetched
    obtain ⟨input, output, ⟨-, error, failed⟩ | ⟨-, carried⟩⟩ := cycle_cases m tokens
    · rw [failed]
      exact .of_same rfl rfl
    · rw [carried]
      have moved : Calls m { m with input, output } := .of_same rfl rfl
      exact moved.trans (conclude_calls _ member)

theorem afterSteps_calls (m : Machine) (n : Nat) : Calls m (m.afterSteps n) := by
  induction n with
  | zero => exact .refl m
  | succ n ih => exact ih.trans (step_calls _)

theorem afterSteps_start (program : Program) (mode : Mode) (input : List UInt8) (output : Output)
    (n : Nat) :
    (({ start program mode input with output }).afterSteps n).program = program ∧
      ∃ calls : List Store.Call, (∀ call ∈ calls, Permitted program call) ∧
        (({ start program mode input with output }).afterSteps n).store =
          Store.reached program.requiredSize calls :=
  afterSteps_calls { start program mode input with output } n

end Script8255.Machine
