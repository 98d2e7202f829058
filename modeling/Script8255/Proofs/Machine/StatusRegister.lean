import Script8255.Proofs.Machine.Calls
import Script8255.Proofs.Machine.Ending

/-! The status register: only the machine writes it, and it tells how the latest instruction ended
that went on to the next line. -/

namespace Script8255

def statusSlot (status : Int64) : Variable := ⟨some (.int status), none, true⟩

namespace Store

variable {store next : Store}

def OnlyStatusReserved (store : Store) : Prop :=
  ∀ name slot, (name, slot) ∈ store.slots → slot.reserved = true → name = statusRegister

theorem OnlyStatusReserved.free (only : store.OnlyStatusReserved) {name : String}
    (ordinary : name ≠ statusRegister) : store.isReserved name = false := by
  cases found : store.get? name with
  | none => simp [isReserved, ordinary, found]
  | some slot =>
    have unreserved := mt (only name slot (Table.mem_of_get? found)) ordinary
    simp [isReserved, ordinary, found, unreserved]

theorem get?_withStatus (store : Store) (status : Int64) :
    (store.withStatus status).get? statusRegister = some (statusSlot status) := by
  simp [withStatus, get?_put, statusSlot]

theorem get?_withStatus_of_ne (store : Store) (status : Int64) {name : String}
    (other : name ≠ statusRegister) :
    (store.withStatus status).get? name = store.get? name := by
  rw [withStatus, get?_put, if_neg other]

theorem StatusUnsized.of_register {latest : Option Int64}
    (register : store.get? statusRegister = latest.map statusSlot) : store.StatusUnsized := by
  intro slot found
  rw [register] at found
  cases latest with
  | none => cases found
  | some status =>
    cases found
    rfl

end Store

namespace Machine

/-- The status that is recorded after an outcome. -/
def Outcome.status? : Outcome → Option Int64
  | .success => some 0
  | .recovery => some 1
  | .jump | .halt | .fatal => none

variable {m next : Machine} {program : Program}

theorem execute_statusRegister (m : Machine) (tokens : List String) :
    (m.execute tokens).2.store.get? statusRegister = m.store.get? statusRegister :=
  execute_keeps (fun m => m.store.get? statusRegister) (fun _ _ => rfl)
    (fun _ _ effect => effect.statusRegister) tokens

theorem Stepped.register {ending : Outcome} {result : Except Fatal Progress}
    (stepped : Stepped m ending result next) :
    next.store.get? statusRegister =
      (ending.status?.map statusSlot).or (m.store.get? statusRegister) := by
  cases stepped with
  | pastEnd | jump | exit | fatal => rfl
  | success fetched shape effect => exact Store.get?_withStatus _ 0
  | recovery fetched shape abandoned mild => exact Store.get?_withStatus _ 1

theorem step_unsized (unsized : m.store.StatusUnsized) : m.step.2.store.StatusUnsized := by
  have register := (step_stepped unsized).register
  intro slot found
  rw [register] at found
  cases status : m.ending.status? with
  | none =>
    rw [status] at found
    exact unsized slot found
  | some recorded =>
    rw [status] at found
    cases found
    rfl

theorem register_afterSteps (unset : m.store.get? statusRegister = none) (n : Nat) :
    (m.afterSteps n).store.get? statusRegister =
      (m.recent? (fun m => m.ending.status?) n).map statusSlot := by
  induction n with
  | zero => exact unset
  | succ n ih =>
    have stepped := (step_stepped (Store.StatusUnsized.of_register ih)).register
    change (m.afterSteps n).step.2.store.get? statusRegister = _
    rw [stepped, ih]
    cases status : (m.afterSteps n).ending.status? <;> simp [recent?, status]

theorem recent_status_cases (m : Machine) (n : Nat) :
    let latest := m.recent? (fun m => m.ending.status?) n
    latest = none ∨ latest = some 0 ∨ latest = some 1 := by
  intro latest
  cases seen : latest with
  | none => exact Or.inl rfl
  | some status =>
    obtain ⟨k, -, recorded, -⟩ := recent?_eq_some_iff.mp seen
    cases ended : (m.afterSteps k).ending <;> simp_all [Outcome.status?]

theorem onlyStatusReserved_after {store : Store} (only : store.OnlyStatusReserved)
    {calls : List Store.Call} (permitted : ∀ call ∈ calls, Permitted program call) :
    (calls.foldl Store.after store).OnlyStatusReserved := by
  refine Store.kept_by_calls only ?_
  intro call member store next kept done name slot present reserved
  rcases Store.reserved_of_call done present reserved with ⟨old, before, was⟩ | ⟨value, rfl⟩
  · exact kept name old before was
  · cases permitted _ member with
    | status status => rfl
    | issued listed shape issued => cases issued.guarded

theorem onlyStatusReserved_of_calls {calls : List Store.Call}
    (permitted : ∀ call ∈ calls, Permitted program call) (size : UInt64) :
    (Store.reached size calls).OnlyStatusReserved := by
  have none : (Store.empty size).OnlyStatusReserved := fun _ _ member => by cases member
  exact onlyStatusReserved_after none permitted

theorem execute_reserved {tokens : List String} {i : Instruction} {token name : String}
    (shape : Instruction.ofTokens? tokens = some i) (destination : i.destination? = some token)
    (named : variableName token = .ok name) (reserved : m.store.isReserved name = true) :
    (∃ failure, (m.execute tokens).1 = .error failure) ∧ (m.execute tokens).2.store = m.store := by
  rcases performed : m.execute tokens with ⟨result, next⟩
  cases executed_of_execute performed with
  | effect same effect =>
    cases same.symm.trans shape
    have free := effect.destination_free destination named
    rw [reserved] at free
    cases free
  | goto same | exit same =>
    cases same.symm.trans shape
    cases destination
  | failed same abandoned =>
    obtain ⟨input, output, rfl⟩ := abandoned.streams_only
    exact ⟨⟨_, rfl⟩, rfl⟩
  | malformed same => cases same.symm.trans shape

/-- In every run the register is absent or holds the status of the latest instruction that recorded
one, the machine can always write it, and no instruction changes it or reserves another variable. -/
theorem register_records_endings (program : Program) (mode : Mode) (input : List UInt8)
    (output : Output) (n : Nat) :
    let first : Machine := { start program mode input with output }
    let m := first.afterSteps n
    let latest := first.recent? (fun m => m.ending.status?) n
    m.store.get? statusRegister = latest.map statusSlot ∧
      (latest = none ∨ latest = some 0 ∨ latest = some 1) ∧
      m.store.OnlyStatusReserved ∧
      ((∃ fatal, m.step.1 = .error fatal) ↔ m.ending = .fatal) ∧
      ∀ input output tokens,
        let executed := execute { m with input, output } tokens
        executed.2.store.get? statusRegister = m.store.get? statusRegister ∧
          (∀ status, ∃ store,
            executed.2.store.writeReserved statusRegister (.int status) = .ok store) ∧
          ∀ i token, Instruction.ofTokens? tokens = some i → i.destination? = some token →
            token = "slx" ∨ token = "&slx" →
              (∃ failure, executed.1 = .error failure) ∧ executed.2.store = m.store := by
  intro first m latest
  have register : m.store.get? statusRegister = latest.map statusSlot := register_afterSteps rfl n
  have unsized := Store.StatusUnsized.of_register register
  obtain ⟨-, calls, permitted, reached⟩ := afterSteps_start program mode input output n
  have only : m.store.OnlyStatusReserved := by
    rw [show m.store = _ from reached]
    exact onlyStatusReserved_of_calls permitted program.requiredSize
  refine ⟨register, recent_status_cases first n, only, (step_stepped unsized).error_iff, ?_⟩
  intro input output tokens executed
  have same : executed.2.store.get? statusRegister = m.store.get? statusRegister :=
    execute_statusRegister _ tokens
  refine ⟨same, fun status => ⟨_, (unsized.of_same same).writeReserved status⟩, ?_⟩
  intro i token shape destination spelled
  have named : variableName token = .ok statusRegister := by
    rcases spelled with rfl | rfl <;> rfl
  exact execute_reserved shape destination named (Store.isReserved_statusRegister _)

end Machine

end Script8255
