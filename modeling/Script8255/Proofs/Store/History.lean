import Script8255.Proofs.Store.Call

/-! What a store remembers of a variable: it depends on the calls on that name which succeeded, and
on no other. -/

namespace Script8255.Store

def successes (store : Store) : List Call → List Call
  | [] => []
  | call :: later =>
    match store.call call with
    | .ok next => call :: next.successes later
    | .error _ => store.successes later

def history (size : UInt64) (calls : List Call) (name : String) : List Call :=
  ((empty size).successes calls).filter fun call => call.target = name

def Latest (kind : Call → Bool) (past : List Call) (call : Call) : Prop :=
  ∃ before after, past = before ++ call :: after ∧ kind call = true ∧
    ∀ later ∈ after, kind later = false

namespace Call

def changes : Call → Bool
  | .read _ => false
  | _ => true

/-- The calls that settle what a variable holds of the arena. -/
def sizes : Call → Bool
  | .allocate _ _ | .drop _ => true
  | _ => false

def result (slot : Option Variable) : Call → Option Variable
  | .allocate _ capacity => some ⟨none, some capacity, false⟩
  | .write _ value =>
    some ⟨some value, slot.bind Variable.capacity, slot.any Variable.reserved⟩
  | .writeReserved _ value => some ⟨some value, slot.bind Variable.capacity, true⟩
  | .read _ => slot
  | .drop _ => none

end Call

variable {store next : Store} {name : String} {past : List Call} {call : Call}
  {slot : Option Variable}

theorem latest_snoc_iff {kind : Call → Bool} {last : Call} :
    Latest kind (past ++ [last]) call ↔
      kind last = true ∧ call = last ∨ kind last = false ∧ Latest kind past call := by
  constructor
  · rintro ⟨before, after, split, chosen, later⟩
    rcases List.eq_nil_or_concat after with rfl | ⟨others, final, rfl⟩
    · obtain ⟨-, same⟩ := List.append_inj' split rfl
      cases same
      exact Or.inl ⟨chosen, rfl⟩
    · have shorter : past ++ [last] = (before ++ call :: others) ++ [final] := by
        simpa using split
      obtain ⟨rfl, same⟩ := List.append_inj' shorter rfl
      cases same
      refine Or.inr ⟨later last (by simp), before, others, rfl, chosen, ?_⟩
      intro other member
      exact later other (by simp [member])
  · rintro (⟨chosen, rfl⟩ | ⟨other, before, after, rfl, chosen, later⟩)
    · exact ⟨past, [], rfl, chosen, by simp⟩
    · refine ⟨before, after ++ [last], by simp, chosen, ?_⟩
      intro call member
      rcases List.mem_append.mp member with early | final
      · exact later call early
      · rw [List.mem_singleton.mp final]
        exact other

theorem not_latest_nil {kind : Call → Bool} : ¬ Latest kind [] call := by
  rintro ⟨before, after, split, -⟩
  simp at split

theorem distinct_of_call (distinct : store.slots.names.Nodup)
    (done : store.call call = .ok next) : next.slots.names.Nodup := by
  rcases call_eq_ok done with rfl | ⟨slot, rfl⟩ | rfl
  · exact distinct
  · exact Table.distinct_put distinct _ slot
  · exact Table.distinct_remove distinct _

theorem get?_target_of_call (distinct : store.slots.names.Nodup)
    (done : store.call call = .ok next) :
    next.get? call.target = call.result (store.get? call.target) := by
  cases call with
  | allocate name capacity =>
    obtain ⟨-, -, rfl⟩ := allocate_eq_ok_iff.mp done
    simp [get?_put, Call.target, Call.result]
  | write name value =>
    obtain ⟨-, rfl⟩ := assign_eq_ok_iff.mp (write_eq_ok_iff.mp done).2
    simp [get?_put, Call.target, Call.result]
  | writeReserved name value =>
    obtain ⟨-, rfl⟩ := assign_eq_ok_iff.mp done
    simp [get?_put, Call.target, Call.result]
  | read name =>
    obtain ⟨-, -, rfl⟩ := Result.map_eq_ok.mp done
    rfl
  | drop name =>
    obtain ⟨⟨slot, left⟩, dropped, rfl⟩ := Result.map_eq_ok.mp done
    obtain ⟨-, -, rfl⟩ := drop_eq_ok_iff.mp dropped
    exact Table.get?_remove_self distinct name

theorem read_eq_ok_iff {value : Value} :
    store.read name = .ok value ↔ (store.get? name).bind Variable.value = some value := by
  unfold read
  cases found : store.get? name with
  | none => simp
  | some slot => cases written : slot.value <;> simp [written]

theorem read_eq_undefined_iff :
    store.read name = .error (.undefined name) ↔ store.get? name = none := by
  unfold read
  cases found : store.get? name with
  | none => simp
  | some slot => cases written : slot.value <;> simp [written]

theorem read_eq_noData_iff :
    store.read name = .error (.noData name) ↔
      ∃ slot, store.get? name = some slot ∧ slot.value = none := by
  unfold read
  cases found : store.get? name with
  | none => simp
  | some slot => cases written : slot.value <;> simp [written]

structure Allows (slot : Option Variable) (call : Call) : Prop where
  present : call.changes = false → slot ≠ none
  free : call.guarded = true → slot.any Variable.reserved = false

theorem allows_of_call (done : store.call call = .ok next) :
    Allows (store.get? call.target) call := by
  constructor
  · intro reads absent
    cases call with
    | read name =>
      obtain ⟨value, found, -⟩ := Result.map_eq_ok.mp done
      have written := read_eq_ok_iff.mp found
      change store.get? name = none at absent
      simp [absent] at written
    | _ => cases reads
  · intro guarded
    have free := isReserved_of_call guarded done
    unfold isReserved at free
    exact (Bool.or_eq_false_iff.mp free).2

/-- The life of one variable, call by call. -/
inductive Lived (name : String) : List Call → Option Variable → Prop
  | unborn : Lived name [] none
  | next {past : List Call} {slot : Option Variable} {call : Call} (lived : Lived name past slot)
      (here : call.target = name) (allows : Allows slot call) :
      Lived name (past ++ [call]) (call.result slot)

theorem lived_after (calls : List Call) (distinct : store.slots.names.Nodup)
    (lived : Lived name past (store.get? name)) :
    Lived name (past ++ (store.successes calls).filter fun call => call.target = name)
      ((calls.foldl after store).get? name) := by
  induction calls generalizing store past with
  | nil => simpa [successes] using lived
  | cons call later ih =>
    rw [List.foldl_cons]
    unfold successes
    cases done : store.call call with
    | error error =>
      rw [after_of_error done]
      exact ih distinct lived
    | ok next =>
      rw [after_of_ok done]
      have kept := distinct_of_call distinct done
      by_cases here : call.target = name
      · have step : Lived name (past ++ [call]) (next.get? name) := by
          rw [← here, get?_target_of_call distinct done, here]
          exact lived.next here (here ▸ allows_of_call done)
        simpa [here] using ih kept step
      · have same : next.get? name = store.get? name := get?_of_call done (Ne.symm here)
        simpa [here] using ih kept (same ▸ lived)

namespace Lived

variable (lived : Lived name past slot)
include lived

theorem slot_eq : slot = past.foldl Call.result none := by
  induction lived with
  | unborn => rfl
  | next lived here allows ih => rw [List.foldl_append, ← ih]; rfl

theorem eq_none_iff : slot = none ↔ past = [] ∨ Latest Call.changes past (.drop name) := by
  induction lived with
  | unborn => simp
  | @next past slot call lived here allows ih =>
    subst here
    cases call with
    | read name =>
      have present := allows.present rfl
      have alive := mt ih.mpr present
      simp only [latest_snoc_iff, Call.changes, Call.result, present]
      simpa using fun dropped => alive (Or.inr dropped)
    | allocate | write | writeReserved | drop =>
      simp [latest_snoc_iff, Call.changes, Call.result, Call.target]

theorem value_eq_none_iff :
    (∃ entry, slot = some entry ∧ entry.value = none) ↔
      ∃ capacity, Latest Call.changes past (.allocate name capacity) := by
  induction lived with
  | unborn => simp [not_latest_nil]
  | @next past slot call lived here allows ih =>
    subst here
    cases call with
    | read name => simpa [latest_snoc_iff, Call.changes, Call.result] using ih
    | allocate | write | writeReserved | drop =>
      simp [latest_snoc_iff, Call.changes, Call.result, Call.target]

theorem value_eq_some_iff (value : Value) :
    slot.bind Variable.value = some value ↔
      Latest Call.changes past (.write name value) ∨
        Latest Call.changes past (.writeReserved name value) := by
  induction lived with
  | unborn => simp [not_latest_nil]
  | @next past slot call lived here allows ih =>
    subst here
    cases call with
    | read name => simpa [latest_snoc_iff, Call.changes, Call.result] using ih
    | allocate | write | writeReserved | drop =>
      simp [latest_snoc_iff, Call.changes, Call.result, Call.target, eq_comm]

theorem capacity_eq_some_iff (capacity : UInt64) :
    slot.bind Variable.capacity = some capacity ↔
      Latest Call.sizes past (.allocate name capacity) := by
  induction lived with
  | unborn => simp [not_latest_nil]
  | @next past slot call lived here allows ih =>
    subst here
    cases call with
    | read | write | writeReserved =>
      simpa [latest_snoc_iff, Call.sizes, Call.result] using ih
    | allocate | drop => simp [latest_snoc_iff, Call.sizes, Call.result, Call.target, eq_comm]

theorem reserved_iff :
    slot.any Variable.reserved = true ↔ ∃ value, Call.writeReserved name value ∈ past := by
  induction lived with
  | unborn => simp
  | @next past slot call lived here allows ih =>
    subst here
    cases call with
    | read name => simpa [Call.result] using ih
    | writeReserved name value => simp [Call.result, Call.target]
    | allocate | write | drop =>
      -- nothing but the machine's own writes and reads may follow such a write
      have free := allows.free rfl
      simpa [Call.result, free] using ih

end Lived

/-- Of the calls on a name that succeeded, the latest that is not a read tells what is read, the
latest allocation or drop tells the capacity, and a write of the machine reserves for good. No other
call matters. -/
theorem remembers_latest_calls (size : UInt64) (calls : List Call) (name : String) :
    let store := reached size calls
    let past := history size calls name
    (store.read name = .error (.undefined name) ↔
        past = [] ∨ Latest Call.changes past (.drop name)) ∧
      (store.read name = .error (.noData name) ↔
        ∃ capacity, Latest Call.changes past (.allocate name capacity)) ∧
      (∀ value, store.read name = .ok value ↔
        Latest Call.changes past (.write name value) ∨
          Latest Call.changes past (.writeReserved name value)) ∧
      (∀ capacity, (store.get? name).bind Variable.capacity = some capacity ↔
        Latest Call.sizes past (.allocate name capacity)) ∧
      ((store.get? name).any Variable.reserved = true ↔
        ∃ value, Call.writeReserved name value ∈ past) ∧
      ∀ otherSize otherCalls, history otherSize otherCalls name = past →
        (reached otherSize otherCalls).get? name = store.get? name := by
  intro store past
  have life (size : UInt64) (calls : List Call) :
      Lived name (history size calls name) ((reached size calls).get? name) := by
    have start : Lived name [] ((empty size).get? name) := .unborn
    have distinct : (empty size).slots.names.Nodup := List.nodup_nil
    exact lived_after calls distinct start
  have lived : Lived name past (store.get? name) := life size calls
  refine ⟨?_, ?_, ?_, lived.capacity_eq_some_iff, lived.reserved_iff, ?_⟩
  · rw [read_eq_undefined_iff]
    exact lived.eq_none_iff
  · rw [read_eq_noData_iff]
    exact lived.value_eq_none_iff
  · intro value
    rw [read_eq_ok_iff]
    exact lived.value_eq_some_iff value
  · intro otherSize otherCalls same
    rw [(life otherSize otherCalls).slot_eq, lived.slot_eq, same]

end Script8255.Store
