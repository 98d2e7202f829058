import Mathlib
import Script8255.Proofs.Store.Call

/-! The capacities of a store: what they sum up to and what fits into them. -/

namespace Script8255

def Variable.bytes (slot : Variable) : Nat := (slot.capacity.getD 0).toNat

def held (slots : Table Variable) : Nat := (slots.map fun entry => entry.2.bytes).sum

namespace Store

def heldByOthers (store : Store) (name : String) : Nat := held (store.slots.others name)

/-- What every sequence of calls keeps. -/
structure Sound (store : Store) : Prop where
  distinct : store.slots.names.Nodup
  within : held store.slots ≤ store.size.toNat
  fits : ∀ name slot capacity value, (name, slot) ∈ store.slots → slot.capacity = some capacity →
    slot.value = some value → value.byteSize ≤ capacity.toNat
  sized : ∀ name slot, (name, slot) ∈ store.slots → slot.value = none → slot.capacity ≠ none

theorem used_toNat (store : Store) : store.used.toNat = held store.slots % 2 ^ 64 := by
  unfold used held
  induction store.slots with
  | nil => rfl
  | cons first rest ih =>
    cases sized : first.2.capacity with
    | none => simpa [sized, Variable.bytes] using ih
    | some capacity =>
      simp only [List.filterMap_cons, sized, List.foldr_cons, UInt64.toNat_add, ih, List.map_cons,
        List.sum_cons, Variable.bytes, Option.getD_some]
      omega

theorem held_eq {slots : Table Variable} (distinct : slots.names.Nodup) (name : String) :
    held slots = held (slots.others name) + ((slots.get? name).elim 0 Variable.bytes) := by
  induction slots with
  | nil => rfl
  | cons first rest ih =>
    rcases first with ⟨key, slot⟩
    have apart := List.nodup_cons.mp distinct
    have tail := ih apart.2
    unfold Table.others held at tail ⊢
    by_cases same : key = name
    · subst same
      rw [Table.get?_eq_none apart.1] at tail
      simp_all [Table.get?_cons, Nat.add_comm]
    · simp [Table.get?_cons, same, Nat.add_assoc] at tail ⊢
      omega

theorem held_put {slots : Table Variable} (distinct : slots.names.Nodup) (name : String)
    (slot : Variable) : held (slots.put name slot) = held (slots.others name) + slot.bytes := by
  rw [held_eq (Table.distinct_put distinct name slot) name, Table.others_put, Table.get?_put]
  simp

theorem held_remove {slots : Table Variable} (distinct : slots.names.Nodup) (name : String) :
    held (slots.remove name) = held (slots.others name) := by
  rw [held_eq (Table.distinct_remove distinct name) name, Table.others_remove,
    Table.get?_remove_self distinct]
  rfl

theorem capacity_toNat (store : Store) (name : String) :
    (store.capacity name).toNat = (store.slots.get? name).elim 0 Variable.bytes := by
  unfold capacity get?
  cases store.slots.get? name <;> rfl

variable {store next : Store}

namespace Sound

theorem used_eq (sound : Sound store) : store.used.toNat = held store.slots := by
  have bounded := Nat.lt_of_le_of_lt sound.within store.size.toNat_lt
  rw [used_toNat, Nat.mod_eq_of_lt bounded]

theorem held_split (sound : Sound store) (name : String) :
    held store.slots = store.heldByOthers name + (store.capacity name).toNat := by
  rw [capacity_toNat]
  exact held_eq sound.distinct name

theorem capacity_le_used (sound : Sound store) (name : String) :
    (store.capacity name).toNat ≤ store.used.toNat := by
  have split := sound.held_split name
  have exact_sum := sound.used_eq
  omega

theorem released (sound : Sound store) (name : String) :
    (store.used - store.capacity name).toNat = store.heldByOthers name := by
  have split := sound.held_split name
  have exact_sum := sound.used_eq
  rw [UInt64.toNat_sub_of_le _ _ (UInt64.le_iff_toNat_le.mpr (sound.capacity_le_used name))]
  omega

theorem allocate_iff (sound : Sound store) (name : String) (capacity : UInt64) :
    (∃ next, store.allocate name capacity = .ok next) ↔
      store.isReserved name = false ∧
        store.heldByOthers name + capacity.toNat ≤ store.size.toNat := by
  constructor
  · rintro ⟨next, done⟩
    obtain ⟨free, room, -⟩ := allocate_eq_ok_iff.mp done
    exact ⟨free, sound.released name ▸ room⟩
  · rintro ⟨free, room⟩
    exact ⟨_, allocate_eq_ok_iff.mpr ⟨free, (sound.released name).symm ▸ room, rfl⟩⟩

theorem put (sound : Sound store) {name : String} {slot : Variable}
    (room : store.heldByOthers name + slot.bytes ≤ store.size.toNat)
    (fitting : ∀ capacity value, slot.capacity = some capacity → slot.value = some value →
      value.byteSize ≤ capacity.toNat)
    (filled : slot.value = none → slot.capacity ≠ none) : Sound (store.put name slot) where
  distinct := Table.distinct_put sound.distinct name slot
  within := by
    change held (store.slots.put name slot) ≤ store.size.toNat
    rw [held_put sound.distinct]
    exact room
  fits := by
    intro other found capacity value member sized written
    rcases Table.mem_put member with here | before
    · cases here
      exact fitting capacity value sized written
    · exact sound.fits other found capacity value before sized written
  sized := by
    intro other found member unwritten
    rcases Table.mem_put member with here | before
    · cases here
      exact filled unwritten
    · exact sound.sized other found before unwritten

theorem allocate (sound : Sound store) {name : String} {capacity : UInt64}
    (done : store.allocate name capacity = .ok next) : Sound next := by
  obtain ⟨-, room⟩ := (sound.allocate_iff name capacity).mp ⟨next, done⟩
  obtain ⟨-, -, rfl⟩ := allocate_eq_ok_iff.mp done
  apply sound.put
  · exact room
  · intro _ _ _ written
    cases written
  · intro _ unsized
    cases unsized

theorem assign (sound : Sound store) {name : String} {value : Value} {reserved : Bool}
    (done : store.assign name value reserved = .ok next) : Sound next := by
  obtain ⟨fitting, rfl⟩ := assign_eq_ok_iff.mp done
  apply sound.put
  · have split := sound.held_split name
    exact split ▸ sound.within
  · intro capacity written sized same
    cases same
    exact fitting capacity sized
  · intro unwritten
    cases unwritten

theorem drop (sound : Sound store) {name : String} {slot : Variable}
    (done : store.drop name = .ok (slot, next)) : Sound next := by
  obtain ⟨-, -, rfl⟩ := drop_eq_ok_iff.mp done
  refine ⟨Table.distinct_remove sound.distinct name, ?_, ?_, ?_⟩
  · have split := sound.held_split name
    have within := sound.within
    change held (store.slots.remove name) ≤ store.size.toNat
    rw [held_remove sound.distinct]
    unfold heldByOthers at split
    omega
  · intro other found capacity value member
    exact sound.fits other found capacity value (Table.mem_remove member)
  · intro other found member
    exact sound.sized other found (Table.mem_remove member)

theorem allocate_used (sound : Sound store) {name : String} {capacity : UInt64}
    (done : store.allocate name capacity = .ok next) :
    next.used.toNat + (store.capacity name).toNat = store.used.toNat + capacity.toNat := by
  have split := sound.held_split name
  have before := sound.used_eq
  have later := (sound.allocate done).used_eq
  obtain ⟨-, -, rfl⟩ := allocate_eq_ok_iff.mp done
  have filled : held (store.put name ⟨none, some capacity, false⟩).slots =
      store.heldByOthers name + capacity.toNat := held_put sound.distinct name _
  calc
    _ = store.heldByOthers name + capacity.toNat + (store.capacity name).toNat := by
      rw [later, filled]
    _ = held store.slots + capacity.toNat := by
      rw [split]
      omega
    _ = store.used.toNat + capacity.toNat := by rw [before]

theorem drop_used (sound : Sound store) {name : String} {slot : Variable}
    (done : store.drop name = .ok (slot, next)) :
    next.used.toNat + slot.bytes = store.used.toNat := by
  have split := held_eq sound.distinct name
  have before := sound.used_eq
  have later := (sound.drop done).used_eq
  obtain ⟨-, found, rfl⟩ := drop_eq_ok_iff.mp done
  change store.slots.get? name = some slot at found
  rw [held_remove sound.distinct] at later
  calc
    _ = held (store.slots.others name) + slot.bytes := by rw [later]
    _ = held store.slots := by rw [split, found, Option.elim_some]
    _ = store.used.toNat := before.symm

theorem call (sound : Sound store) {call : Call} (done : store.call call = .ok next) :
    Sound next := by
  cases call with
  | allocate name capacity => exact sound.allocate done
  | write name value => exact sound.assign (write_eq_ok_iff.mp done).2
  | writeReserved name value => exact sound.assign done
  | read name =>
    obtain ⟨-, -, rfl⟩ := Result.map_eq_ok.mp done
    exact sound
  | drop name =>
    obtain ⟨⟨slot, left⟩, dropped, rfl⟩ := Result.map_eq_ok.mp done
    exact sound.drop dropped

end Sound

theorem empty_sound (size : UInt64) : Sound (empty size) where
  distinct := List.nodup_nil
  within := Nat.zero_le _
  fits := by
    intro _ _ _ _ member
    cases member
  sized := by
    intro _ _ member
    cases member

theorem reached_sound (size : UInt64) (calls : List Call) : Sound (reached size calls) :=
  kept_by_calls (empty_sound size) fun _ _ _ _ sound done => sound.call done

theorem reached_size (size : UInt64) (calls : List Call) : (reached size calls).size = size := by
  have start : (empty size).size = size := rfl
  refine kept_by_calls (motive := fun store => store.size = size) start ?_
  intro call member store next same done
  exact (call_size done).trans same

/-- After any calls on a new store the capacities are accounted for exactly, and this decides
which allocations succeed and what each call does to the bytes in use. -/
theorem capacities_accounted (size : UInt64) (calls : List Call) :
    let store := reached size calls
    store.size = size ∧ Sound store ∧ store.used.toNat = held store.slots ∧
      (∀ name, (store.capacity name).toNat ≤ store.used.toNat) ∧
      (∀ name capacity, (∃ next, store.allocate name capacity = .ok next) ↔
        store.isReserved name = false ∧
          store.heldByOthers name + capacity.toNat ≤ size.toNat) ∧
      (∀ name capacity next, store.allocate name capacity = .ok next →
        next.used.toNat + (store.capacity name).toNat = store.used.toNat + capacity.toNat) ∧
      (∀ name slot next, store.drop name = .ok (slot, next) →
        store.get? name = some slot ∧ next.used.toNat + slot.bytes = store.used.toNat) ∧
      (∀ call error, store.call call = .error error → store.after call = store) := by
  have sound := reached_sound size calls
  have same := reached_size size calls
  refine ⟨same, sound, sound.used_eq, sound.capacity_le_used, ?_, ?_, ?_, ?_⟩
  · intro name capacity
    have succeeds := sound.allocate_iff name capacity
    rw [same] at succeeds
    exact succeeds
  · intro name capacity next done
    exact sound.allocate_used done
  · intro name slot next done
    exact ⟨(drop_eq_ok_iff.mp done).2.1, sound.drop_used done⟩
  · intro call error failed
    exact after_of_error failed

end Store

end Script8255
