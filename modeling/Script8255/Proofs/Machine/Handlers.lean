import Script8255.Machine.Step
import Script8255.Proofs.Machine.Stream
import Script8255.Proofs.Result
import Script8255.Proofs.Store.Call

/-! What each of the functions returns that carry out an instruction. -/

namespace Script8255.Machine

variable {m next : Machine} {failure : Failure} {control : Control}

section Streams

theorem write_def (m : Machine) (text : String) :
    m.write text = ((m.output.write text).1, { m with output := (m.output.write text).2 }) := rfl

theorem write_eq_ok_iff {text : String} :
    m.write text = (.ok (), next) ↔
      m.output.HasRoom text ∧ next = { m with output := m.output.append text.toUTF8 } := by
  rw [write_def]
  constructor
  · intro done
    rw [Prod.mk.injEq] at done
    have written : m.output.write text = (.ok (), (m.output.write text).2) := Prod.ext done.1 rfl
    obtain ⟨room, appended⟩ := Output.write_eq_ok_iff.mp written
    rw [appended] at done
    exact ⟨room, done.2.symm⟩
  · rintro ⟨room, rfl⟩
    rw [Output.write_eq_ok_iff.mpr ⟨room, rfl⟩]

theorem write_eq_error {text : String} {error : StreamError}
    (failed : m.write text = (.error error, next)) :
    ∃ bytes, next = { m with output := m.output.append bytes } := by
  rw [write_def, Prod.mk.injEq] at failed
  have refused : m.output.write text = (.error error, (m.output.write text).2) :=
    Prod.ext failed.1 rfl
  obtain ⟨bytes, appended⟩ := Output.write_eq_error refused
  rw [appended] at failed
  exact ⟨bytes, failed.2.symm⟩

theorem present_eq_ok_iff {text : String} :
    m.present text = (.ok (), next) ↔
      m.output.HasRoom text ∧ m.output.flushFails = false ∧
        next = { m with output := m.output.append text.toUTF8 } := by
  unfold present
  split
  next error shown failed =>
    constructor
    · intro done
      cases done
    · rintro ⟨room, -, -⟩
      rw [write_eq_ok_iff.mpr ⟨room, rfl⟩] at failed
      cases failed
  next shown written =>
    obtain ⟨room, rfl⟩ := write_eq_ok_iff.mp written
    cases flush : m.output.flushFails <;>
      simp [Output.flush, Output.append, flush, room, eq_comm]

theorem present_eq_error {text : String} {error : StreamError}
    (failed : m.present text = (.error error, next)) :
    ∃ bytes, next = { m with output := m.output.append bytes } := by
  unfold present at failed
  split at failed
  next refused =>
    cases failed
    exact write_eq_error refused
  next written =>
    obtain ⟨-, rfl⟩ := write_eq_ok_iff.mp written
    rw [Prod.mk.injEq] at failed
    exact ⟨text.toUTF8, failed.2.symm⟩

end Streams

section Results

theorem storing_eq_next_iff {result : Except Failure Store} :
    m.storing result = (.ok .next, next) ↔
      ∃ store, result = .ok store ∧ next = { m with store } := by
  cases result <;> simp [storing, eq_comm]

theorem storing_eq_error {result : Except Failure Store}
    (failed : m.storing result = (.error failure, next)) : result = .error failure ∧ m = next := by
  cases result with
  | ok store => cases failed
  | error reason =>
    cases failed
    exact ⟨rfl, rfl⟩

theorem storing_control {result : Except Failure Store}
    (done : m.storing result = (.ok control, next)) : control = .next := by
  cases result <;> cases done
  rfl

theorem outputting_eq_next_iff {shown : Except StreamError Unit × Machine} :
    outputting shown = (.ok .next, next) ↔ shown = (.ok (), next) := by
  rcases shown with ⟨result, left⟩
  cases result <;> simp [outputting]

theorem outputting_eq_error {shown : Except StreamError Unit × Machine}
    (failed : outputting shown = (.error failure, next)) :
    ∃ error, failure = .stream error ∧ shown = (.error error, next) := by
  rcases shown with ⟨result, left⟩
  cases result with
  | ok shown => cases failed
  | error error =>
    cases failed
    exact ⟨error, rfl, rfl⟩

theorem outputting_control {shown : Except StreamError Unit × Machine}
    (done : outputting shown = (.ok control, next)) : control = .next := by
  rcases shown with ⟨result, left⟩
  cases result <;> cases done
  rfl

end Results

section Stores

theorem operandName_eq_ok_iff {token name : String} :
    operandName token = .ok name ↔ variableName token = .ok name := Result.mapError_eq_ok

theorem written_eq_ok_iff {store after : Store} {name : String} {value : Value} :
    written store name value = .ok after ↔ store.write name value = .ok after :=
  Result.mapError_eq_ok

theorem allocate_eq_ok_iff {store after : Store} {nameToken sizeToken : String} :
    allocate store nameToken sizeToken = .ok after ↔
      ∃ name, variableName nameToken = .ok name ∧ ∃ capacity,
        allocationSize sizeToken = .ok capacity ∧ store.allocate name capacity = .ok after := by
  simp only [allocate, Result.bind_eq_ok, Result.mapError_eq_ok, operandName_eq_ok_iff]

theorem arithmetic_eq_ok_iff {store after : Store} {operation : Operation}
    {leftToken rightToken nameToken : String} :
    arithmetic store operation leftToken rightToken nameToken = .ok after ↔
      ∃ name, variableName nameToken = .ok name ∧ ∃ left, resolve store leftToken = .ok left ∧
        ∃ right, resolve store rightToken = .ok right ∧
          ∃ value, operation.apply left right = .ok value ∧
            store.write name value = .ok after := by
  simp only [arithmetic, Result.bind_eq_ok, Result.mapError_eq_ok, operandName_eq_ok_iff,
    written_eq_ok_iff]

theorem cast_eq_ok_iff {store after : Store} {nameToken : String} {target : CastTarget} :
    cast store nameToken target = .ok after ↔
      ∃ name, variableName nameToken = .ok name ∧ ∃ old, store.read name = .ok old ∧
        ∃ value, old.cast target = .ok value ∧ store.write name value = .ok after := by
  simp only [cast, Result.bind_eq_ok, Result.mapError_eq_ok, operandName_eq_ok_iff,
    written_eq_ok_iff]

theorem drop_eq_ok_iff {store after : Store} {nameToken : String} :
    drop store nameToken = .ok after ↔
      ∃ name, variableName nameToken = .ok name ∧ ∃ slot, store.drop name = .ok (slot, after) := by
  simp only [drop, Result.bind_eq_ok, Result.mapError_eq_ok, operandName_eq_ok_iff]
  constructor
  · rintro ⟨name, named, ⟨slot, left⟩, dropped, done⟩
    cases done
    exact ⟨name, named, slot, dropped⟩
  · rintro ⟨name, named, slot, dropped⟩
    exact ⟨name, named, (slot, after), dropped, rfl⟩

theorem assign_eq_ok_iff {store after : Store} {valueToken nameToken : String} :
    assign store valueToken nameToken = .ok after ↔
      ∃ name, variableName nameToken = .ok name ∧ ∃ value, resolve store valueToken = .ok value ∧
        store.write name value = .ok after := by
  simp only [assign, Result.bind_eq_ok, operandName_eq_ok_iff, written_eq_ok_iff]

end Stores

section Output

theorem out_of_error {token : String}
    (refused : resolve m.store token = .error failure) : m.out token = (.error failure, m) := by
  unfold out
  rw [refused]

theorem out_of_ok {token : String} {value : Value} (resolved : resolve m.store token = .ok value) :
    m.out token = outputting (m.write (value.display ++ "\n")) := by
  unfold out
  rw [resolved]

theorem out_control {token : String}
    (done : m.out token = (.ok control, next)) : control = .next := by
  cases resolved : resolve m.store token with
  | error failure =>
    rw [out_of_error resolved] at done
    cases done
  | ok value =>
    rw [out_of_ok resolved] at done
    exact outputting_control done

end Output

section Comparison

theorem comparison_eq_ok_iff {leftToken rightToken : String} {flag : Flag} :
    m.comparison leftToken rightToken = .ok flag ↔
      ∃ left, resolve m.store leftToken = .ok left ∧
        ∃ right, resolve m.store rightToken = .ok right ∧
          left.compare right m.mode.ordered = .ok flag := by
  simp only [comparison, Result.bind_eq_ok]

theorem compare_of_error {left right : String}
    (refused : m.comparison left right = .error failure) :
    m.compare left right = (.error failure, m) := by
  unfold compare
  rw [refused]

theorem compare_of_ok {left right : String} {flag : Flag}
    (compared : m.comparison left right = .ok flag) :
    m.compare left right = (.ok .next, { m with flag }) := by
  unfold compare
  rw [compared]

theorem compare_control {left right : String}
    (done : m.compare left right = (.ok control, next)) : control = .next := by
  cases compared : m.comparison left right with
  | error failure =>
    rw [compare_of_error compared] at done
    cases done
  | ok flag =>
    rw [compare_of_ok compared] at done
    cases done
    rfl

end Comparison

section Control

theorem jumping_eq_next_iff {jump : Jump} {label : String} :
    m.jumping jump label = .ok .next ↔ jump.fires m.flag m.mode.ordered = false := by
  unfold jumping
  cases fires : jump.fires m.flag m.mode.ordered with
  | false => simp
  | true => cases m.program.labels.get? label <;> simp

theorem jumping_eq_ok {jump : Jump} {label : String}
    (done : m.jumping jump label = .ok control) :
    control = .next ∨ ∃ line, control = .goto line ∧ jump.fires m.flag m.mode.ordered = true ∧
      m.program.labels.get? label = some line := by
  unfold jumping at done
  split at done
  next fires =>
    split at done
    next line found =>
      cases done
      exact Or.inr ⟨line, rfl, fires, found⟩
    · cases done
  · cases done
    exact Or.inl rfl

theorem jumping_eq_error {jump : Jump} {label : String}
    (failed : m.jumping jump label = .error failure) :
    jump.fires m.flag m.mode.ordered = true ∧ m.program.labels.get? label = none ∧
      failure = .unknownLabel label := by
  unfold jumping at failed
  split at failed
  next fires =>
    split at failed
    · cases failed
    next missing =>
      cases failed
      exact ⟨fires, missing, rfl⟩
  · cases failed

theorem exiting_ne_next {store : Store} {token : String} : exiting store token ≠ .ok .next := by
  intro done
  obtain ⟨value, -, shown⟩ := Result.map_eq_ok.mp done
  cases value <;> cases shown

theorem exiting_eq_ok {store : Store} {token : String}
    (done : exiting store token = .ok control) : ∃ status, control = .exit status := by
  obtain ⟨value, -, rfl⟩ := Result.map_eq_ok.mp done
  cases value <;> exact ⟨_, rfl⟩

end Control

section Input

theorem request_eq_ok_iff {store : Store} {promptToken nameToken prompt name : String} :
    request store promptToken nameToken = .ok (prompt, name) ↔
      resolve store promptToken = .ok (.str prompt) ∧ variableName nameToken = .ok name := by
  simp only [request, Result.bind_eq_ok]
  constructor
  · rintro ⟨value, resolved, asked⟩
    cases value with
    | str text =>
      obtain ⟨token, named, done⟩ := Result.bind_eq_ok.mp asked
      cases done
      exact ⟨resolved, operandName_eq_ok_iff.mp named⟩
    | int n => cases asked
    | float x => cases asked
  · rintro ⟨resolved, named⟩
    refine ⟨_, resolved, ?_⟩
    exact Result.bind_eq_ok.mpr ⟨name, operandName_eq_ok_iff.mpr named, rfl⟩

/-- What an input comes to once the prompt is shown. -/
def received (m : Machine) (name : String) : Except StreamError String →
    Except Failure Control × Machine
  | .error error => (.error (.stream error), m)
  | .ok line =>
    if line.isEmpty then (.error .endOfInput, m)
    else m.storing (written m.store name (.str (dropLineEnd line)))

theorem received_eq_next_iff {name : String} {line : Except StreamError String} :
    m.received name line = (.ok .next, next) ↔
      ∃ text store, line = .ok text ∧ text.isEmpty ≠ true ∧
        m.store.write name (.str (dropLineEnd text)) = .ok store ∧ next = { m with store } := by
  cases line with
  | error error => simp [received]
  | ok text =>
    unfold received
    by_cases used : text.isEmpty = true
    · simp only [if_pos used]
      constructor
      · intro done
        cases done
      · rintro ⟨other, store, same, left, -⟩
        cases same
        exact absurd used left
    · simp only [if_neg used, storing_eq_next_iff, written_eq_ok_iff]
      constructor
      · rintro ⟨store, stored, rfl⟩
        exact ⟨text, store, rfl, used, stored, rfl⟩
      · rintro ⟨other, store, same, -, stored, rfl⟩
        cases same
        exact ⟨store, stored, rfl⟩

theorem received_eq_error {name : String} {line : Except StreamError String}
    (failed : m.received name line = (.error failure, next)) :
    m = next ∧
      ((∃ error, failure = .stream error) ∨
        (∃ text, line = .ok text ∧ text.isEmpty = true ∧ failure = .endOfInput) ∨
          ∃ value error, m.store.write name value = .error error ∧ failure = .store error) := by
  cases line with
  | error error =>
    cases failed
    exact ⟨rfl, Or.inl ⟨error, rfl⟩⟩
  | ok text =>
    unfold received at failed
    by_cases used : text.isEmpty = true
    · simp only [if_pos used] at failed
      cases failed
      exact ⟨rfl, Or.inr (Or.inl ⟨text, rfl, used, rfl⟩)⟩
    · simp only [if_neg used] at failed
      obtain ⟨reason, same⟩ := storing_eq_error failed
      obtain ⟨error, refused, rfl⟩ := Result.mapError_eq_error.mp reason
      exact ⟨same, Or.inr (Or.inr ⟨_, error, refused, rfl⟩)⟩

theorem received_control {name : String} {line : Except StreamError String}
    (done : m.received name line = (.ok control, next)) : control = .next := by
  cases line with
  | error error => cases done
  | ok text =>
    unfold received at done
    by_cases used : text.isEmpty = true
    · simp only [if_pos used] at done
      cases done
    · simp only [if_neg used] at done
      exact storing_control done

theorem ask_of_error {promptToken nameToken : String}
    (refused : request m.store promptToken nameToken = .error failure) :
    m.ask promptToken nameToken = (.error failure, m) := by
  unfold ask
  rw [refused]

theorem ask_of_unshown {promptToken nameToken prompt name : String} {error : StreamError}
    (asked : request m.store promptToken nameToken = .ok (prompt, name))
    (failed : m.present prompt = (.error error, next)) :
    m.ask promptToken nameToken = (.error (.stream error), next) := by
  unfold ask
  simp only [asked, failed]

theorem ask_of_ok {promptToken nameToken prompt name : String}
    (asked : request m.store promptToken nameToken = .ok (prompt, name))
    (presented : m.present prompt = (.ok (), next)) :
    m.ask promptToken nameToken =
      received { next with input := (takeLine next.input).2 } name
        (lineText (takeLine next.input).1) := by
  unfold ask
  simp only [asked, presented, readLine]
  cases lineText (takeLine next.input).1 <;> rfl

theorem ask_control {promptToken nameToken : String}
    (done : m.ask promptToken nameToken = (.ok control, next)) : control = .next := by
  cases asked : request m.store promptToken nameToken with
  | error failure =>
    rw [ask_of_error asked] at done
    cases done
  | ok pair =>
    rcases pair with ⟨prompt, name⟩
    rcases presented : m.present prompt with ⟨result, shown⟩
    cases result with
    | error error =>
      rw [ask_of_unshown asked presented] at done
      cases done
    | ok written =>
      rw [ask_of_ok asked presented] at done
      exact received_control done

end Input

section Tokens

variable {tokens : List String}

theorem execute_of_shape {i : Instruction} (shape : Instruction.ofTokens? tokens = some i) :
    m.execute tokens = m.perform i := by
  unfold execute
  rw [shape]

theorem execute_malformed (shape : Instruction.ofTokens? tokens = none) :
    m.execute tokens = (.error (.malformed (.instruction (showTokens tokens))), m) := by
  unfold execute
  rw [shape]

end Tokens

end Script8255.Machine
