import Script8255.Proofs.Result
import Script8255.Proofs.Table
import Script8255.Store

/-! Sequences of calls on a store, and what a call that succeeds does. -/

namespace Script8255.Store

inductive Call where
  | allocate (name : String) (capacity : UInt64)
  | write (name : String) (value : Value)
  | writeReserved (name : String) (value : Value)
  | read (name : String)
  | drop (name : String)

def call (store : Store) : Call → Except StoreError Store
  | .allocate name capacity => store.allocate name capacity
  | .write name value => store.write name value
  | .writeReserved name value => store.writeReserved name value
  | .read name => (store.read name).map fun _ => store
  | .drop name => (store.drop name).map Prod.snd

def after (store : Store) (call : Call) : Store :=
  match store.call call with
  | .ok next => next
  | .error _ => store

def reached (size : UInt64) (calls : List Call) : Store := calls.foldl after (empty size)

variable {store next : Store} {name : String}

theorem get?_put (slot : Variable) (other : String) :
    (store.put name slot).get? other = if other = name then some slot else store.get? other :=
  Table.get?_put store.slots name other slot

theorem allocate_eq_ok_iff {capacity : UInt64} :
    store.allocate name capacity = .ok next ↔
      store.isReserved name = false ∧
        (store.used - store.capacity name).toNat + capacity.toNat ≤ store.size.toNat ∧
        next = store.put name ⟨none, some capacity, false⟩ := by
  unfold allocate
  by_cases reserved : store.isReserved name = true
  · simp [reserved]
  · by_cases room : (store.used - store.capacity name).toNat + capacity.toNat ≤ store.size.toNat
    · simp [reserved, room, eq_comm]
    · simp [reserved, room]

theorem allocate_eq_exhausted {capacity requested used total : UInt64} {label : String}
    (refused : store.allocate name capacity = .error (.arenaExhausted label requested used total)) :
    store.size.toNat < (store.used - store.capacity name).toNat + capacity.toNat := by
  unfold allocate at refused
  by_cases reserved : store.isReserved name = true
  · simp [reserved] at refused
  · by_cases room : (store.used - store.capacity name).toNat + capacity.toNat ≤ store.size.toNat
    · simp [reserved, room] at refused
    · omega

theorem assign_eq_ok_iff {value : Value} {reserved : Bool} :
    store.assign name value reserved = .ok next ↔
      (∀ capacity, (store.get? name).bind Variable.capacity = some capacity →
          value.byteSize ≤ capacity.toNat) ∧
        next = store.put name ⟨some value, (store.get? name).bind Variable.capacity,
          (store.get? name).any Variable.reserved || reserved⟩ := by
  unfold assign
  cases found : store.get? name with
  | none => simp [eq_comm]
  | some slot =>
    cases sized : slot.capacity with
    | none => simp [sized, eq_comm]
    | some capacity =>
      by_cases large : capacity.toNat < value.byteSize
      · simp [sized, large, Nat.not_le.mpr large]
      · simp [sized, large, eq_comm, Nat.le_of_not_lt large]

theorem write_eq_ok_iff {value : Value} :
    store.write name value = .ok next ↔
      store.isReserved name = false ∧ store.assign name value false = .ok next := by
  unfold write
  by_cases reserved : store.isReserved name = true <;> simp [reserved]

theorem assign_eq_error {value : Value} {reserved : Bool} {error : StoreError}
    (refused : store.assign name value reserved = .error error) :
    ∃ capacity, error = .capacityExceeded name capacity value.byteSize := by
  unfold assign at refused
  split at refused
  · cases refused
  next slot found =>
    cases sized : slot.capacity with
    | none => simp [sized] at refused
    | some capacity =>
      by_cases large : capacity.toNat < value.byteSize
      · simp only [sized, large, if_true, Except.error.injEq] at refused
        exact ⟨capacity, refused.symm⟩
      · simp [sized, large] at refused

theorem write_eq_error {value : Value} {error : StoreError}
    (refused : store.write name value = .error error) :
    error = .reserved name ∨
      ∃ capacity, error = .capacityExceeded name capacity value.byteSize := by
  unfold write at refused
  split at refused
  · cases refused
    exact Or.inl rfl
  · exact Or.inr (assign_eq_error refused)

theorem read_eq_error {error : StoreError} (refused : store.read name = .error error) :
    error = .undefined name ∨ error = .noData name := by
  unfold read at refused
  split at refused
  · cases refused
    exact Or.inl rfl
  · split at refused <;> cases refused
    exact Or.inr rfl

theorem drop_eq_error {error : StoreError} (refused : store.drop name = .error error) :
    error = .reserved name ∨ error = .undefined name := by
  unfold drop at refused
  split at refused
  · cases refused
    exact Or.inl rfl
  · split at refused <;> cases refused
    exact Or.inr rfl

theorem drop_eq_ok_iff {slot : Variable} :
    store.drop name = .ok (slot, next) ↔
      store.isReserved name = false ∧ store.get? name = some slot ∧
        next = { store with slots := store.slots.remove name } := by
  unfold drop
  by_cases reserved : store.isReserved name = true
  · simp [reserved]
  · cases found : store.get? name with
    | none => simp [reserved]
    | some old => simp [reserved, eq_comm]

def Call.target : Call → String
  | .allocate name _ | .write name _ | .writeReserved name _ | .read name | .drop name => name

theorem call_eq_ok {call : Call} (done : store.call call = .ok next) :
    next = store ∨ (∃ slot, next = store.put call.target slot) ∨
      next = { store with slots := store.slots.remove call.target } := by
  cases call with
  | allocate name capacity =>
    obtain ⟨-, -, same⟩ := allocate_eq_ok_iff.mp done
    exact Or.inr (Or.inl ⟨_, same⟩)
  | write name value =>
    obtain ⟨-, same⟩ := assign_eq_ok_iff.mp (write_eq_ok_iff.mp done).2
    exact Or.inr (Or.inl ⟨_, same⟩)
  | writeReserved name value =>
    obtain ⟨-, same⟩ := assign_eq_ok_iff.mp done
    exact Or.inr (Or.inl ⟨_, same⟩)
  | read name =>
    obtain ⟨-, -, same⟩ := Result.map_eq_ok.mp done
    exact Or.inl same.symm
  | drop name =>
    obtain ⟨⟨slot, left⟩, dropped, rfl⟩ := Result.map_eq_ok.mp done
    obtain ⟨-, -, same⟩ := drop_eq_ok_iff.mp dropped
    exact Or.inr (Or.inr same)

theorem call_size {call : Call} (done : store.call call = .ok next) : next.size = store.size := by
  rcases call_eq_ok done with rfl | ⟨slot, rfl⟩ | rfl <;> rfl

theorem after_of_ok {call : Call} (done : store.call call = .ok next) :
    store.after call = next := by
  unfold after
  rw [done]

theorem after_of_error {call : Call} {error : StoreError}
    (failed : store.call call = .error error) : store.after call = store := by
  unfold after
  rw [failed]

theorem kept_by_calls {motive : Store → Prop} {calls : List Call} (start : motive store)
    (each : ∀ call ∈ calls, ∀ {store next}, motive store → store.call call = .ok next →
      motive next) :
    motive (calls.foldl after store) := by
  refine List.foldlRecOn calls after start ?_
  intro store before call member
  cases done : store.call call with
  | ok next =>
    rw [after_of_ok done]
    exact each call member before done
  | error error =>
    rw [after_of_error done]
    exact before

theorem get?_of_call {call : Call} {other : String} (done : store.call call = .ok next)
    (different : other ≠ call.target) : next.get? other = store.get? other := by
  rcases call_eq_ok done with rfl | ⟨slot, rfl⟩ | rfl
  · rfl
  · exact (get?_put slot other).trans (if_neg different)
  · exact Table.get?_remove_of_ne store.slots different

/-- Only the machine's own way of writing reserves a variable. -/
theorem reserved_of_call {call : Call} {slot : Variable} (done : store.call call = .ok next)
    (member : (name, slot) ∈ next.slots) (reserved : slot.reserved = true) :
    (∃ old, (name, old) ∈ store.slots ∧ old.reserved = true) ∨
      ∃ value, call = .writeReserved name value := by
  cases call with
  | allocate target capacity =>
    obtain ⟨-, -, rfl⟩ := allocate_eq_ok_iff.mp done
    rcases Table.mem_put member with here | before
    · cases here
      cases reserved
    · exact Or.inl ⟨slot, before, reserved⟩
  | write target value =>
    obtain ⟨-, rfl⟩ := assign_eq_ok_iff.mp (write_eq_ok_iff.mp done).2
    rcases Table.mem_put member with here | before
    · cases here
      -- an overwritten variable is reserved only if it was reserved before
      cases found : store.get? name with
      | none => simp [found] at reserved
      | some old =>
        have was : old.reserved = true := by simpa [found] using reserved
        exact Or.inl ⟨old, Table.mem_of_get? found, was⟩
    · exact Or.inl ⟨slot, before, reserved⟩
  | writeReserved target value =>
    obtain ⟨-, rfl⟩ := assign_eq_ok_iff.mp done
    rcases Table.mem_put member with here | before
    · cases here
      exact Or.inr ⟨value, rfl⟩
    · exact Or.inl ⟨slot, before, reserved⟩
  | read target =>
    obtain ⟨-, -, rfl⟩ := Result.map_eq_ok.mp done
    exact Or.inl ⟨slot, member, reserved⟩
  | drop target =>
    obtain ⟨⟨old, left⟩, dropped, rfl⟩ := Result.map_eq_ok.mp done
    obtain ⟨-, -, rfl⟩ := drop_eq_ok_iff.mp dropped
    exact Or.inl ⟨slot, Table.mem_remove member, reserved⟩

/-- The calls that respect reserved names. -/
def Call.guarded : Call → Bool
  | .allocate _ _ | .write _ _ | .drop _ => true
  | .writeReserved _ _ | .read _ => false

theorem isReserved_of_call {call : Call} (guarded : call.guarded = true)
    (done : store.call call = .ok next) : store.isReserved call.target = false := by
  cases call with
  | allocate name capacity => exact (allocate_eq_ok_iff.mp done).1
  | write name value => exact (write_eq_ok_iff.mp done).1
  | writeReserved name value => cases guarded
  | read name => cases guarded
  | drop name =>
    obtain ⟨⟨slot, left⟩, dropped, rfl⟩ := Result.map_eq_ok.mp done
    exact (drop_eq_ok_iff.mp dropped).1

theorem isReserved_statusRegister (store : Store) : store.isReserved statusRegister = true := rfl

theorem get?_statusRegister_of_call {call : Call} (guarded : call.guarded = true)
    (done : store.call call = .ok next) :
    next.get? statusRegister = store.get? statusRegister := by
  apply get?_of_call done
  intro same
  have free := isReserved_of_call guarded done
  rw [← same, isReserved_statusRegister] at free
  cases free

end Script8255.Store
