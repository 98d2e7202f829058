import Script8255.Proofs.Instruction
import Script8255.Proofs.Machine.Execution

/-! What a step leaves alone: every variable but the one that its instruction names, and the flag and
the streams unless the instruction is there for them. -/

namespace Script8255

namespace Instruction

def destinationToken? : List String → Option String
  | [opcode, name] => if opcode = "drp" then some name else none
  | [first, second, third] =>
    if first = "alc" then some second
    else if first = "cmp" then none
    else if first = "cst" ∧ (third = "STRING" ∨ third = "INTEGER") then some second
    else if second = ">" then some third
    else none
  | ["inp", _, ">", name] => some name
  | [opcode, _, _, ">", name] =>
    if opcode ∈ ["add", "sub", "mul", "div", "pow"] then some name else none
  | _ => none

theorem ofKeyword?_eq_none {keyword : String} (unknown : CastTarget.ofKeyword? keyword = none) :
    ¬ (keyword = "STRING" ∨ keyword = "INTEGER") := by
  rintro (rfl | rfl) <;> cases unknown

theorem destinationToken?_of_shape {tokens : List String} {i : Instruction}
    (shape : ofTokens? tokens = some i) : destinationToken? tokens = i.destination? := by
  cases spelled_of_ofTokens? shape with
  | out | label | exit | clear | allocate | input | compare | drop => rfl
  | arithmetic known left right name =>
    unfold Operation.ofOpcode? at known
    split at known <;> cases known <;> rfl
  | cast known name =>
    unfold CastTarget.ofKeyword? at known
    split at known <;> cases known <;> rfl
  | jump known label =>
    unfold Jump.ofOpcode? at known
    split at known <;> cases known <;> rfl
  | assign value name =>
    simp only [ofTokens?, ofThree?] at shape
    split at shape
    · cases shape
    · cases shape
    · split at shape
      · cases shape
      next unknown => simp [destinationToken?, destination?, ofKeyword?_eq_none unknown]
    next notAllocate notCompare notCast =>
      simp only [destinationToken?, if_true]
      rw [if_neg notAllocate, if_neg notCompare, if_neg fun cast => notCast cast.1]
      rfl

def target? (tokens : List String) : Option String :=
  (destinationToken? tokens).bind fun token => (variableName token).toOption

/-- Whether an instruction with these tokens has no business with a variable. -/
def leaves (tokens : List String) (name : String) : Bool :=
  name ≠ statusRegister ∧ target? tokens ≠ some name

theorem leaves_target {tokens : List String} {token name : String}
    (destination : destinationToken? tokens = some token) (named : variableName token = .ok name) :
    leaves tokens name = false := by
  have target : target? tokens = some name := by
    unfold target?
    rw [destination, Option.bind_some, named]
    rfl
  simp [leaves, target]

theorem leaves_statusRegister (tokens : List String) : leaves tokens statusRegister = false := by
  simp [leaves]

theorem Spelled.writes {tokens : List String} {i : Instruction} (spelled : Spelled tokens i)
    (writes : i.writes = true) :
    tokens = ["cls"] ∨ (∃ value, tokens = ["out", value]) ∨
      ∃ prompt name, tokens = ["inp", prompt, ">", name] := by
  cases spelled with
  | clear => exact Or.inl rfl
  | out value => exact Or.inr (Or.inl ⟨value, rfl⟩)
  | input prompt name => exact Or.inr (Or.inr ⟨prompt, name, rfl⟩)
  | _ => cases writes

theorem Spelled.reads {tokens : List String} {i : Instruction} (spelled : Spelled tokens i)
    (reads : i.reads = true) : ∃ prompt name, tokens = ["inp", prompt, ">", name] := by
  cases spelled with
  | input prompt name => exact ⟨prompt, name, rfl⟩
  | _ => cases reads

end Instruction

namespace Store

variable {store next : Store} {tokens : List String}

def untouched (store : Store) (tokens : List String) : Table Variable :=
  store.slots.filter fun entry => Instruction.leaves tokens entry.1

theorem untouched_of_call {call : Call} (done : store.call call = .ok next)
    (outside : Instruction.leaves tokens call.target = false) :
    next.untouched tokens = store.untouched tokens := by
  rcases call_eq_ok done with rfl | ⟨slot, rfl⟩ | rfl
  · rfl
  · exact Table.filter_put (Instruction.leaves tokens) outside store.slots slot
  · exact Table.filter_remove (Instruction.leaves tokens) outside store.slots

theorem get?_of_untouched (same : next.untouched tokens = store.untouched tokens) {name : String}
    (inside : Instruction.leaves tokens name = true) : next.get? name = store.get? name := by
  have before := Table.get?_filter (Instruction.leaves tokens) inside store.slots
  have after := Table.get?_filter (Instruction.leaves tokens) inside next.slots
  calc
    next.get? name = (next.untouched tokens).get? name := after.symm
    _ = (store.untouched tokens).get? name := by rw [same]
    _ = store.get? name := before

end Store

namespace Machine

/-- What an instruction with these tokens may do to a machine: the rest of its variables, and their
order, stay, it writes and reads only by its opcode, and what it reads is one line. -/
structure Frame (tokens : List String) (m next : Machine) : Prop where
  program : next.program = m.program
  mode : next.mode = m.mode
  size : next.store.size = m.store.size
  slots : next.store.untouched tokens = m.store.untouched tokens
  flag : next.flag = m.flag ∨ ∃ left right, tokens = ["cmp", left, right]
  output : next.output = m.output ∨
    (tokens = ["cls"] ∨ (∃ value, tokens = ["out", value]) ∨
      ∃ prompt name, tokens = ["inp", prompt, ">", name]) ∧
        ∃ bytes, next.output = m.output.append bytes
  input : next.input = m.input ∨
    (∃ prompt name, tokens = ["inp", prompt, ">", name]) ∧
      ∃ line, m.input = line ++ next.input ∧ 10 ∉ line.dropLast ∧
        (10 ∈ line ∨ next.input = [])

variable {m next : Machine} {tokens : List String} {i : Instruction}

theorem Frame.refl (tokens : List String) (m : Machine) : Frame tokens m m :=
  ⟨rfl, rfl, rfl, rfl, Or.inl rfl, Or.inl rfl, Or.inl rfl⟩

theorem Frame.moved (frame : Frame tokens m next) (line : Nat) :
    Frame tokens m { next with line } :=
  ⟨frame.program, frame.mode, frame.size, frame.slots, frame.flag, frame.output, frame.input⟩

theorem Frame.advance (frame : Frame tokens m next) (status : Int64) :
    Frame tokens m (next.advance status).2 := by
  cases written : next.store.writeReserved statusRegister (.int status) with
  | error error =>
    have stopped : (next.advance status).2 = next := by
      unfold Machine.advance
      rw [written]
    rw [stopped]
    exact frame
  | ok store =>
    have advanced : (next.advance status).2 = { next with store, line := next.line + 1 } := by
      unfold Machine.advance
      rw [written]
    have called : next.store.call (.writeReserved statusRegister (.int status)) = .ok store :=
      written
    have kept := Store.untouched_of_call called (Instruction.leaves_statusRegister tokens)
    rw [advanced]
    refine ⟨frame.program, frame.mode, ?_, ?_, frame.flag, frame.output, frame.input⟩
    · exact (Store.call_size called).trans frame.size
    · exact kept.trans frame.slots

theorem Frame.conclude {executed : Except Failure Control × Machine}
    (frame : Frame tokens m executed.2) : Frame tokens m (conclude executed).2 := by
  rcases executed with ⟨result, next⟩
  cases result with
  | ok control =>
    cases control with
    | next => exact frame.advance 0
    | goto line => exact frame.moved line
    | exit status => exact frame
  | error failure =>
    change Frame tokens m (if failure.isFatal then (.error failure, next) else next.advance 1).2
    split
    · exact frame
    · exact frame.advance 1

theorem line_read (input : List UInt8) :
    ∃ line, input = line ++ (takeLine input).2 ∧ 10 ∉ line.dropLast ∧
      (10 ∈ line ∨ (takeLine input).2 = []) :=
  ⟨(takeLine input).1, (takeLine_append input).symm, takeLine_single input⟩

theorem Effect.frame (effect : Effect m i next) (shape : Instruction.ofTokens? tokens = some i) :
    Frame tokens m next := by
  have spelled := Instruction.spelled_of_ofTokens? shape
  have kept : next.store.untouched tokens = m.store.untouched tokens ∧
      next.store.size = m.store.size := by
    rcases effect.store_cases with ⟨-, same⟩ | ⟨call, issued, done⟩
    · rw [same]
      exact ⟨rfl, rfl⟩
    · obtain ⟨token, destination, named⟩ := issued.target
      rw [← Instruction.destinationToken?_of_shape shape] at destination
      have outside := Instruction.leaves_target destination named
      exact ⟨Store.untouched_of_call done outside, Store.call_size done⟩
  refine ⟨effect.program, ?_, kept.2, kept.1, ?_, ?_, ?_⟩
  · cases effect <;> rfl
  · cases effect with
    | compare onLeft onRight compared =>
      cases spelled with
      | compare => exact Or.inr ⟨_, _, rfl⟩
    | _ => exact Or.inl rfl
  · cases effect with
    | out | clear | input => exact Or.inr ⟨spelled.writes rfl, _, rfl⟩
    | _ => exact Or.inl rfl
  · cases effect with
    | input => exact Or.inr ⟨spelled.reads rfl, line_read m.input⟩
    | _ => exact Or.inl rfl

theorem Abandoned.frame {failure : Failure} (abandoned : Abandoned m i failure next)
    (shape : Instruction.ofTokens? tokens = some i) : Frame tokens m next := by
  have spelled := Instruction.spelled_of_ofTokens? shape
  cases abandoned with
  | early | unallocated | unlabelled => exact .refl tokens m
  | unwritten writes bytes =>
    exact ⟨rfl, rfl, rfl, rfl, Or.inl rfl, Or.inr ⟨spelled.writes writes, bytes, rfl⟩, Or.inl rfl⟩
  | ended asked empty =>
    exact ⟨rfl, rfl, rfl, rfl, Or.inl rfl, Or.inr ⟨spelled.writes rfl, _, rfl⟩, Or.inl rfl⟩
  | unread | unstored =>
    exact ⟨rfl, rfl, rfl, rfl, Or.inl rfl, Or.inr ⟨spelled.writes rfl, _, rfl⟩,
      Or.inr ⟨spelled.reads rfl, line_read m.input⟩⟩

theorem execute_frame (m : Machine) (tokens : List String) :
    Frame tokens m (m.execute tokens).2 := by
  rcases performed : m.execute tokens with ⟨result, next⟩
  cases executed_of_execute performed with
  | effect shape effect => exact effect.frame shape
  | goto | exit | malformed => exact .refl tokens m
  | failed shape abandoned => exact abandoned.frame shape

/-- However a step ends, it changes no variable but the register and the one that its instruction
names, and moves the flag and the streams only as its opcode says. -/
theorem step_touches_what_it_names (m : Machine) (tokens : List String)
    (plain : m.mode.debug = false) (fetched : m.program.instructions[m.line]? = some tokens) :
    Frame tokens m m.step.2 ∧
      ∀ name, name ≠ statusRegister → m.step.2.store.get? name ≠ m.store.get? name →
        ∃ token, Instruction.destinationToken? tokens = some token ∧
          variableName token = .ok name := by
  have frame : Frame tokens m m.step.2 := by
    rw [step_of_fetched plain fetched]
    exact (execute_frame m tokens).conclude
  refine ⟨frame, ?_⟩
  intro name ordinary changed
  have touched : Instruction.leaves tokens name ≠ true :=
    mt (Store.get?_of_untouched frame.slots) changed
  have target : Instruction.target? tokens = some name := by
    simpa [Instruction.leaves, ordinary] using touched
  obtain ⟨token, destination, named⟩ := Option.bind_eq_some_iff.mp target
  refine ⟨token, destination, ?_⟩
  cases read : variableName token with
  | ok other => simpa [read, Except.toOption] using named
  | error reason => simp [read, Except.toOption] at named

theorem input_touches_its_destination :
    let tokens := ["inp", "\"?\"", ">", "&x"]
    let m : Machine :=
      { start ⟨#[tokens], [], 0⟩ ⟨false, true⟩ "one\ntwo\n".toUTF8.toList with
        store := ⟨8, [("x", ⟨none, some 2, false⟩), ("y", ⟨some (.int 1), none, false⟩)]⟩ }
    m.mode.debug = false ∧ m.program.instructions[m.line]? = some tokens ∧
      m.step.2.store.get? "y" = some ⟨some (.int 1), none, false⟩ := by
  intro tokens m
  have touched := (step_touches_what_it_names m tokens rfl rfl).2 "y" (by decide)
  have other : ∀ token, Instruction.destinationToken? tokens = some token →
      variableName token ≠ .ok "y" := by
    intro token destination
    cases destination
    have named : variableName "&x" = .ok "x" := rfl
    simp [named]
  refine ⟨rfl, rfl, ?_⟩
  apply Decidable.byContradiction
  intro changed
  obtain ⟨token, destination, named⟩ := touched changed
  exact other token destination named

end Machine

end Script8255
