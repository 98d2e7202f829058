import Mathlib.Data.List.Induction
import Script8255.Proofs.Store.History

/-! The order in which a store lists its variables: that of the calls which created them. -/

namespace Script8255.Store

def Call.listing (names : List String) : Call → List String
  | .read _ => names
  | .drop name => names.erase name
  | .allocate name _ | .write name _ | .writeReserved name _ =>
    if name ∈ names then names else names ++ [name]

/-- Whether one of the calls found a name absent and left it present. -/
structure CreatedAt (size : UInt64) (calls : List Call) (name : String) (k : Nat) : Prop where
  within : k < calls.length
  absent : (reached size (calls.take k)).get? name = none
  present : (reached size (calls.take (k + 1))).get? name ≠ none

structure LastCreatedAt (size : UInt64) (calls : List Call) (name : String) (k : Nat) :
    Prop where
  here : CreatedAt size calls name k
  last : ∀ j, k < j → ¬ CreatedAt size calls name j

variable {store next : Store} {name : String} {size : UInt64} {calls : List Call} {call : Call}
  {k : Nat}

theorem get?_ne_none_iff : store.get? name ≠ none ↔ name ∈ store.slots.names := by
  rw [← Option.isSome_iff_ne_none]
  exact Table.contains_iff store.slots name

theorem names_put (slot : Variable) :
    (store.put name slot).slots.names =
      if name ∈ store.slots.names then store.slots.names else store.slots.names ++ [name] := by
  have listed := Table.names_put store.slots name slot
  simp only [Table.contains_iff] at listed
  exact listed

theorem names_of_call (done : store.call call = .ok next) :
    next.slots.names = call.listing store.slots.names := by
  cases call with
  | allocate name capacity =>
    obtain ⟨-, -, rfl⟩ := allocate_eq_ok_iff.mp done
    exact names_put _
  | write name value =>
    obtain ⟨-, rfl⟩ := assign_eq_ok_iff.mp (write_eq_ok_iff.mp done).2
    exact names_put _
  | writeReserved name value =>
    obtain ⟨-, rfl⟩ := assign_eq_ok_iff.mp done
    exact names_put _
  | read name =>
    obtain ⟨-, -, rfl⟩ := Result.map_eq_ok.mp done
    rfl
  | drop name =>
    obtain ⟨⟨slot, left⟩, dropped, rfl⟩ := Result.map_eq_ok.mp done
    obtain ⟨-, -, rfl⟩ := drop_eq_ok_iff.mp dropped
    exact Table.names_remove store.slots name

theorem names_after_cases (store : Store) (call : Call) :
    (store.after call).slots.names.Sublist store.slots.names ∨
      ∃ name, name ∉ store.slots.names ∧
        (store.after call).slots.names = store.slots.names ++ [name] := by
  cases done : store.call call with
  | error error =>
    rw [after_of_error done]
    exact Or.inl (List.Sublist.refl _)
  | ok next =>
    rw [after_of_ok done, names_of_call done]
    cases call with
    | read name => exact Or.inl (List.Sublist.refl _)
    | drop name => exact Or.inl List.erase_sublist
    | allocate name | write name | writeReserved name =>
      by_cases known : name ∈ store.slots.names
      · exact Or.inl (by simp [Call.listing, known])
      · exact Or.inr ⟨name, known, by simp [Call.listing, known]⟩

theorem reached_snoc (size : UInt64) (calls : List Call) (call : Call) :
    reached size (calls ++ [call]) = (reached size calls).after call := by
  unfold reached
  rw [List.foldl_append, List.foldl_cons, List.foldl_nil]

theorem createdAt_snoc_iff :
    CreatedAt size (calls ++ [call]) name k ↔
      CreatedAt size calls name k ∨
        k = calls.length ∧ name ∉ (reached size calls).slots.names ∧
          name ∈ ((reached size calls).after call).slots.names := by
  rw [← get?_ne_none_iff, ← get?_ne_none_iff, not_not, ← reached_snoc]
  constructor
  · rintro ⟨within, absent, present⟩
    rw [List.length_append, List.length_singleton] at within
    by_cases early : k < calls.length
    · rw [List.take_append_of_le_length (by omega)] at absent present
      exact Or.inl ⟨early, absent, present⟩
    · obtain rfl : k = calls.length := by omega
      rw [List.take_left] at absent
      rw [List.take_of_length_le (by simp)] at present
      exact Or.inr ⟨rfl, absent, present⟩
  · rintro (⟨within, absent, present⟩ | ⟨rfl, absent, present⟩)
    · refine ⟨?_, ?_, ?_⟩
      · rw [List.length_append]
        omega
      · rw [List.take_append_of_le_length (by omega)]
        exact absent
      · rw [List.take_append_of_le_length (by omega)]
        exact present
    · refine ⟨by simp, ?_, ?_⟩
      · rw [List.take_left]
        exact absent
      · rw [List.take_of_length_le (by simp)]
        exact present

theorem lastCreatedAt_snoc_of_mem (known : name ∈ (reached size calls).slots.names) :
    LastCreatedAt size (calls ++ [call]) name k ↔ LastCreatedAt size calls name k := by
  have same (j : Nat) : CreatedAt size (calls ++ [call]) name j ↔ CreatedAt size calls name j := by
    simp [createdAt_snoc_iff, known]
  constructor
  · intro created
    exact ⟨(same k).mp created.here, fun j after => mt (same j).mpr (created.last j after)⟩
  · intro created
    exact ⟨(same k).mpr created.here, fun j after => mt (same j).mp (created.last j after)⟩

theorem lastCreatedAt_snoc_of_new (absent : name ∉ (reached size calls).slots.names)
    (present : name ∈ ((reached size calls).after call).slots.names) :
    LastCreatedAt size (calls ++ [call]) name k ↔ k = calls.length := by
  have final : CreatedAt size (calls ++ [call]) name calls.length :=
    createdAt_snoc_iff.mpr (Or.inr ⟨rfl, absent, present⟩)
  constructor
  · intro created
    have within := created.here.within
    rw [List.length_append, List.length_singleton] at within
    by_contra other
    exact created.last calls.length (by omega) final
  · rintro rfl
    refine ⟨final, ?_⟩
    intro j after created
    have within := created.within
    rw [List.length_append, List.length_singleton] at within
    omega

/-- Whether the names were all created, each before those that follow it. -/
structure InOrder (size : UInt64) (calls : List Call) (names : List String) : Prop where
  created : ∀ name ∈ names, ∃ k, LastCreatedAt size calls name k
  sorted : names.Pairwise fun first second =>
    ∀ i j, LastCreatedAt size calls first i → LastCreatedAt size calls second j → i < j

theorem InOrder.kept {names : List String}
    (order : InOrder size calls (reached size calls).slots.names)
    (listed : names.Sublist (reached size calls).slots.names) :
    InOrder size (calls ++ [call]) names := by
  constructor
  · intro name member
    have known := listed.subset member
    obtain ⟨k, created⟩ := order.created name known
    exact ⟨k, (lastCreatedAt_snoc_of_mem known).mpr created⟩
  · refine List.Pairwise.imp_of_mem ?_ (order.sorted.sublist listed)
    intro first second member also before i j created later
    exact before i j ((lastCreatedAt_snoc_of_mem (listed.subset member)).mp created)
      ((lastCreatedAt_snoc_of_mem (listed.subset also)).mp later)

theorem InOrder.grown (order : InOrder size calls (reached size calls).slots.names)
    (absent : name ∉ (reached size calls).slots.names)
    (listed : ((reached size calls).after call).slots.names =
      (reached size calls).slots.names ++ [name]) :
    InOrder size (calls ++ [call]) ((reached size calls).slots.names ++ [name]) := by
  have kept : InOrder size (calls ++ [call]) (reached size calls).slots.names :=
    order.kept (List.Sublist.refl _)
  have present : name ∈ ((reached size calls).after call).slots.names := by simp [listed]
  constructor
  · intro other member
    rcases List.mem_append.mp member with known | new
    · exact kept.created other known
    · rw [List.mem_singleton.mp new]
      exact ⟨calls.length, (lastCreatedAt_snoc_of_new absent present).mpr rfl⟩
  · rw [List.pairwise_append]
    refine ⟨kept.sorted, List.pairwise_singleton _ _, ?_⟩
    intro first known second new i j created later
    rw [List.mem_singleton.mp new] at later
    rw [(lastCreatedAt_snoc_of_new absent present).mp later]
    exact ((lastCreatedAt_snoc_of_mem known).mp created).here.within

theorem inOrder_reached (size : UInt64) (calls : List Call) :
    InOrder size calls (reached size calls).slots.names := by
  induction calls using List.reverseRecOn with
  | nil => exact ⟨nofun, List.Pairwise.nil⟩
  | append_singleton calls call ih =>
    rw [reached_snoc]
    rcases names_after_cases (reached size calls) call with fewer | ⟨name, absent, more⟩
    · exact ih.kept fewer
    · rw [more]
      exact ih.grown absent more

/-- Variables are listed in the order of the calls that created them last. A call that fails leaves
the list as it is, and one that succeeds moves no name: it may take its own out, or put it at the end
when it is new. -/
theorem names_in_creation_order (size : UInt64) (calls : List Call) :
    let store := reached size calls
    let names := store.slots.names
    (∀ name ∈ names, ∃ k, LastCreatedAt size calls name k) ∧
      (names.Pairwise fun first second =>
        ∀ i j, LastCreatedAt size calls first i → LastCreatedAt size calls second j → i < j) ∧
      ∀ call,
        (∀ error, store.call call = .error error → (store.after call).slots.names = names) ∧
          ∀ next, store.call call = .ok next →
            (store.after call).slots.names = call.listing names := by
  intro store names
  obtain ⟨created, sorted⟩ := inOrder_reached size calls
  refine ⟨created, sorted, ?_⟩
  intro call
  constructor
  · intro error failed
    rw [after_of_error failed]
  · intro next done
    rw [after_of_ok done]
    exact names_of_call done

end Script8255.Store
