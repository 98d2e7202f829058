import Script8255.Proofs.Machine.Effect

/-! What an instruction leaves behind when it fails. -/

namespace Script8255

inductive Origin where
  | stream
  | arena
  | label
  | operand

def Failure.origin : Failure → Origin
  | .stream _ | .endOfInput => .stream
  | .store (.arenaExhausted _ _ _ _) => .arena
  | .unknownLabel _ => .label
  | _ => .operand

def Instruction.writes : Instruction → Bool
  | .out _ | .clear | .input _ _ => true
  | _ => false

def Instruction.reads : Instruction → Bool
  | .input _ _ => true
  | _ => false

/-- A computation that fails neither because of a stream nor for lack of room in the arena nor for
want of a label. -/
def Internal {α : Type} (result : Except Failure α) : Prop :=
  ∀ failure, result = .error failure → failure.origin = .operand

namespace Internal

variable {α β ε : Type}

theorem bind {result : Except Failure α} {f : α → Except Failure β} (first : Internal result)
    (second : ∀ a, Internal (f a)) : Internal (result >>= f) := by
  intro failure failed
  rcases Result.bind_eq_error.mp failed with failed | ⟨a, -, failed⟩
  · exact first failure failed
  · exact second a failure failed

theorem mapError {result : Except ε α} {f : ε → Failure}
    (inner : ∀ e, result = .error e → (f e).origin = .operand) : Internal (result.mapError f) := by
  intro failure failed
  obtain ⟨e, refused, rfl⟩ := Result.mapError_eq_error.mp failed
  exact inner e refused

theorem map {result : Except Failure α} {f : α → β} (inner : Internal result) :
    Internal (result.map f) := by
  intro failure failed
  exact inner failure (Result.map_eq_error.mp failed)

theorem ok (a : α) : Internal (.ok a) := by
  intro failure failed
  cases failed

theorem error {failure : Failure} (inner : failure.origin = .operand) :
    Internal (.error failure : Except Failure α) := by
  intro other failed
  cases failed
  exact inner

end Internal

theorem origin_of_read {store : Store} {name : String} {error : StoreError}
    (refused : store.read name = .error error) : (Failure.store error).origin = .operand := by
  rcases Store.read_eq_error refused with rfl | rfl <;> rfl

theorem origin_of_write {store : Store} {name : String} {value : Value} {error : StoreError}
    (refused : store.write name value = .error error) :
    (Failure.store error).origin = .operand := by
  rcases Store.write_eq_error refused with rfl | ⟨capacity, rfl⟩ <;> rfl

theorem origin_of_drop {store : Store} {name : String} {error : StoreError}
    (refused : store.drop name = .error error) : (Failure.store error).origin = .operand := by
  rcases Store.drop_eq_error refused with rfl | rfl <;> rfl

theorem origin_of_expand {store : Store} {segments : List Segment} {error : StoreError}
    (refused : expand store segments = .error error) :
    (Failure.store error).origin = .operand := by
  induction segments with
  | nil => cases refused
  | cons segment later ih =>
    cases segment with
    | text text => exact ih (Result.map_eq_error.mp refused)
    | placeholder name =>
      unfold expand at refused
      split at refused
      next reason unread =>
        cases refused
        exact origin_of_read unread
      · exact ih (Result.map_eq_error.mp refused)

theorem resolveText_internal (store : Store) (token : List Char) :
    Internal (resolveText store token) := by
  unfold resolveText
  split
  next error refused => exact .error (origin_of_expand refused)
  · split
    · exact .error rfl
    · exact .ok _

theorem resolve_internal (store : Store) (token : String) : Internal (resolve store token) := by
  unfold resolve
  split
  · split
    · exact .error rfl
    · exact .mapError fun _ refused => origin_of_read refused
  · split
    · split
      · exact .ok _
      · exact .error rfl
    · split
      · exact (resolveText_internal store _).map
      · exact .error rfl

theorem compare_internal (left right : Value) (ordered : Bool) :
    Internal (left.compare right ordered) := by
  unfold Value.compare
  repeat' split
  all_goals first | exact .ok _ | exact .error rfl

namespace Machine

theorem operandName_internal (token : String) : Internal (operandName token) :=
  .mapError fun _ _ => rfl

theorem written_internal (store : Store) (name : String) (value : Value) :
    Internal (written store name value) :=
  .mapError fun _ refused => origin_of_write refused

theorem arithmetic_internal (store : Store) (operation : Operation) (left right name : String) :
    Internal (arithmetic store operation left right name) := by
  apply (operandName_internal name).bind
  intro name
  apply (resolve_internal store left).bind
  intro left
  apply (resolve_internal store right).bind
  intro right
  apply Internal.bind (.mapError fun _ _ => rfl)
  exact written_internal store name

theorem cast_internal (store : Store) (name : String) (target : CastTarget) :
    Internal (cast store name target) := by
  apply (operandName_internal name).bind
  intro name
  apply Internal.bind (.mapError fun _ refused => origin_of_read refused)
  intro value
  apply Internal.bind (.mapError fun _ _ => rfl)
  exact written_internal store name

theorem assign_internal (store : Store) (value name : String) :
    Internal (assign store value name) := by
  apply (operandName_internal name).bind
  intro name
  apply (resolve_internal store value).bind
  exact written_internal store name

theorem drop_internal (store : Store) (name : String) : Internal (drop store name) := by
  apply (operandName_internal name).bind
  intro name
  apply Internal.bind (.mapError fun _ refused => origin_of_drop refused)
  intro dropped
  exact .ok _

theorem comparison_internal (m : Machine) (left right : String) :
    Internal (m.comparison left right) := by
  apply (resolve_internal m.store left).bind
  intro left
  apply (resolve_internal m.store right).bind
  intro right
  exact compare_internal left right m.mode.ordered

theorem request_internal (store : Store) (prompt name : String) :
    Internal (request store prompt name) := by
  apply (resolve_internal store prompt).bind
  intro value
  split
  · apply (operandName_internal name).bind
    intro name
    exact .ok _
  · exact .error rfl

variable {m next : Machine} {failure : Failure}

/-- How a failing instruction leaves the machine. Before it writes or reads nothing has happened,
and later only the streams have moved. -/
inductive Abandoned (m : Machine) : Instruction → Failure → Machine → Prop
  | early {i : Instruction} {failure : Failure} (inner : failure.origin = .operand) :
      Abandoned m i failure m
  | unallocated {nameToken sizeToken name : String} {capacity : UInt64} {error : StoreError}
      (named : variableName nameToken = .ok name)
      (sized : allocationSize sizeToken = .ok capacity)
      (refused : m.store.allocate name capacity = .error error) :
      Abandoned m (.allocate nameToken sizeToken) (.store error) m
  | unlabelled {jump : Jump} {label : String}
      (fires : jump.fires m.flag m.mode.ordered = true)
      (missing : m.program.labels.get? label = none) :
      Abandoned m (.jump jump label) (.unknownLabel label) m
  | unwritten {i : Instruction} {error : StreamError} (writes : i.writes = true)
      (bytes : ByteArray) :
      Abandoned m i (.stream error) { m with output := m.output.append bytes }
  | unread {promptToken nameToken prompt name : String} {error : StreamError}
      (asked : request m.store promptToken nameToken = .ok (prompt, name)) :
      Abandoned m (.input promptToken nameToken) (.stream error)
        { m with
          input := (takeLine m.input).2
          output := m.output.append prompt.toUTF8 }
  | ended {promptToken nameToken prompt name : String}
      (asked : request m.store promptToken nameToken = .ok (prompt, name))
      (empty : m.input = []) :
      Abandoned m (.input promptToken nameToken) .endOfInput
        { m with output := m.output.append prompt.toUTF8 }
  | unstored {promptToken nameToken prompt name : String} {value : Value} {error : StoreError}
      (asked : request m.store promptToken nameToken = .ok (prompt, name))
      (refused : m.store.write name value = .error error) :
      Abandoned m (.input promptToken nameToken) (.store error)
        { m with
          input := (takeLine m.input).2
          output := m.output.append prompt.toUTF8 }

theorem abandoned_of_storing {i : Instruction} {result : Except Failure Store}
    (inner : Internal result) (failed : m.storing result = (.error failure, next)) :
    Abandoned m i failure next := by
  obtain ⟨refused, rfl⟩ := storing_eq_error failed
  exact .early (inner _ refused)

theorem allocate_eq_error {nameToken sizeToken : String}
    (failed : allocate m.store nameToken sizeToken = .error failure) :
    Abandoned m (.allocate nameToken sizeToken) failure m := by
  rcases Result.bind_eq_error.mp failed with failed | ⟨name, named, failed⟩
  · exact .early (operandName_internal _ _ failed)
  · rcases Result.bind_eq_error.mp failed with failed | ⟨capacity, sized, failed⟩
    · obtain ⟨part, -, rfl⟩ := Result.mapError_eq_error.mp failed
      exact .early rfl
    · obtain ⟨error, refused, rfl⟩ := Result.mapError_eq_error.mp failed
      exact .unallocated (operandName_eq_ok_iff.mp named) (Result.mapError_eq_ok.mp sized) refused

theorem ask_eq_error {promptToken nameToken : String}
    (failed : m.ask promptToken nameToken = (.error failure, next)) :
    Abandoned m (.input promptToken nameToken) failure next := by
  cases asked : request m.store promptToken nameToken with
  | error reason =>
    rw [ask_of_error asked] at failed
    cases failed
    exact .early (request_internal _ _ _ _ asked)
  | ok pair =>
    rcases pair with ⟨prompt, name⟩
    rcases presented : m.present prompt with ⟨result, shown⟩
    cases result with
    | error error =>
      rw [ask_of_unshown asked presented] at failed
      cases failed
      obtain ⟨bytes, rfl⟩ := present_eq_error presented
      exact .unwritten rfl bytes
    | ok written =>
      rw [ask_of_ok asked presented] at failed
      obtain ⟨-, -, rfl⟩ := present_eq_ok_iff.mp presented
      obtain ⟨rfl, cause⟩ := received_eq_error failed
      rcases cause with ⟨error, rfl⟩ | ⟨text, read, used, rfl⟩ | ⟨value, error, refused, rfl⟩
      · exact .unread asked
      · have empty : m.input = [] := (isEmpty_iff_of_read read).mp used
        -- an input that is used up is not moved by reading on
        have unmoved : (takeLine m.input).2 = m.input := by
          rw [empty]
          rfl
        change Abandoned m _ _ { m with
          input := (takeLine m.input).2
          output := m.output.append prompt.toUTF8 }
        rw [unmoved]
        exact .ended asked empty
      · exact .unstored asked refused

theorem perform_eq_error {i : Instruction} (failed : m.perform i = (.error failure, next)) :
    Abandoned m i failure next := by
  cases i with
  | out token =>
    change m.out token = _ at failed
    cases resolved : resolve m.store token with
    | error reason =>
      rw [out_of_error resolved] at failed
      cases failed
      exact .early (resolve_internal _ _ _ resolved)
    | ok value =>
      rw [out_of_ok resolved] at failed
      obtain ⟨error, rfl, refused⟩ := outputting_eq_error failed
      obtain ⟨bytes, rfl⟩ := write_eq_error refused
      exact .unwritten rfl bytes
  | label => cases failed
  | exit token =>
    obtain ⟨refused, rfl⟩ := Prod.mk.inj failed
    exact .early ((resolve_internal _ _).map _ refused)
  | clear =>
    obtain ⟨error, rfl, refused⟩ := outputting_eq_error failed
    obtain ⟨bytes, rfl⟩ := present_eq_error refused
    exact .unwritten rfl bytes
  | allocate nameToken sizeToken =>
    obtain ⟨refused, rfl⟩ := storing_eq_error failed
    exact allocate_eq_error refused
  | input promptToken nameToken => exact ask_eq_error failed
  | arithmetic operation left right nameToken =>
    exact abandoned_of_storing (arithmetic_internal _ _ _ _ _) failed
  | cast nameToken target => exact abandoned_of_storing (cast_internal _ _ _) failed
  | compare left right =>
    change m.compare left right = _ at failed
    cases compared : m.comparison left right with
    | error reason =>
      rw [compare_of_error compared] at failed
      cases failed
      exact .early (comparison_internal _ _ _ _ compared)
    | ok flag =>
      rw [compare_of_ok compared] at failed
      cases failed
  | jump jump label =>
    obtain ⟨refused, rfl⟩ := Prod.mk.inj failed
    obtain ⟨fires, missing, rfl⟩ := jumping_eq_error refused
    exact .unlabelled fires missing
  | drop nameToken => exact abandoned_of_storing (drop_internal _ _) failed
  | assign value nameToken => exact abandoned_of_storing (assign_internal _ _ _) failed

namespace Abandoned

variable {i : Instruction}

theorem streams_only (abandoned : Abandoned m i failure next) :
    ∃ input output, next = { m with input, output } := by
  cases abandoned <;> exact ⟨_, _, rfl⟩

/-- A failure that the run survives has moved nothing, but for the prompt of an input that has
ended. -/
theorem mild_cases (abandoned : Abandoned m i failure next) (mild : failure.isFatal = false) :
    (failure ≠ .endOfInput ∧ next = m) ∨
      ∃ promptToken nameToken prompt name, i = .input promptToken nameToken ∧
        request m.store promptToken nameToken = .ok (prompt, name) ∧ failure = .endOfInput ∧
          m.input = [] ∧ next = { m with output := m.output.append prompt.toUTF8 } := by
  cases abandoned with
  | early inner =>
    refine Or.inl ⟨?_, rfl⟩
    rintro rfl
    cases inner
  | unallocated named sized refused => exact Or.inl ⟨nofun, rfl⟩
  | unlabelled fires missing => cases mild
  | unwritten writes bytes => cases mild
  | unread asked => cases mild
  | ended asked empty => exact Or.inr ⟨_, _, _, _, rfl, asked, rfl, empty, rfl⟩
  | unstored asked refused =>
    rcases Store.write_eq_error refused with rfl | ⟨capacity, rfl⟩ <;> cases mild

end Abandoned

end Machine

end Script8255
