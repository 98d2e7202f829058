import Mathlib
import Script8255.Proofs.Instruction
import Script8255.Proofs.Machine.Calls
import Script8255.Proofs.Store.Capacity

/-! Why the arena of a program never runs out: each capacity that is held stems from an allocation
of that very variable in the program, and the arena has room for all of them. -/

namespace Script8255

namespace Program

def allocatedName : List String → Option String
  | ["alc", token, _] => (variableName token).toOption
  | _ => none

def granted (name : String) (tokens : List String) : Nat :=
  if allocatedName tokens = some name then allocated tokens else 0

/-- All that the instructions allocate for one variable. -/
def demand (instructions : List (List String)) (name : String) : Nat :=
  (instructions.map (granted name)).sum

theorem demand_cons (tokens : List String) (later : List (List String)) (name : String) :
    demand (tokens :: later) name = granted name tokens + demand later name := rfl

theorem granted_sum_le (tokens : List String) {names : List String} (distinct : names.Nodup) :
    (names.map fun name => granted name tokens).sum ≤ allocated tokens := by
  induction names with
  | nil => exact Nat.zero_le _
  | cons name others ih =>
    have apart := List.nodup_cons.mp distinct
    rw [List.map_cons, List.sum_cons]
    -- the one name it allocates stands first, and then in none of the other places, or later
    by_cases mine : allocatedName tokens = some name
    · have none_else : ∀ other ∈ others, granted other tokens = 0 := by
        intro other member
        refine if_neg fun same => apart.1 ?_
        have equal : name = other := Option.some.inj (mine.symm.trans same)
        exact equal ▸ member
      rw [List.map_congr_left none_else]
      simp [granted, mine]
    · have nothing : granted name tokens = 0 := if_neg mine
      rw [nothing, Nat.zero_add]
      exact ih apart.2

theorem demand_sum_le (instructions : List (List String)) {names : List String}
    (distinct : names.Nodup) :
    (names.map (demand instructions)).sum ≤ (instructions.map allocated).sum := by
  induction instructions with
  | nil =>
    have nothing : ∀ name ∈ names, demand [] name = 0 := fun _ _ => rfl
    rw [List.map_congr_left nothing]
    simp
  | cons tokens later ih =>
    have first := granted_sum_le tokens distinct
    calc
      (names.map (demand (tokens :: later))).sum =
          (names.map fun name => granted name tokens).sum + (names.map (demand later)).sum := by
        rw [List.map_congr_left fun name _ => demand_cons tokens later name, List.sum_map_add]
      _ ≤ ((tokens :: later).map allocated).sum := by
        rw [List.map_cons, List.sum_cons]
        exact Nat.add_le_add first ih

theorem allocated_le_demand {instructions : List (List String)} {tokens : List String}
    {name : String} (member : tokens ∈ instructions) (mine : allocatedName tokens = some name) :
    allocated tokens ≤ demand instructions name := by
  have present : granted name tokens ∈ instructions.map (granted name) :=
    List.mem_map_of_mem member
  have bounded := List.single_le_sum (fun _ _ => Nat.zero_le _) _ present
  rw [granted, if_pos mine] at bounded
  exact bounded

end Program

/-- A store in which no variable holds more than the instructions allocate for it. -/
def Store.Backed (instructions : List (List String)) (store : Store) : Prop :=
  ∀ name slot, (name, slot) ∈ store.slots → slot.bytes ≤ Program.demand instructions name

namespace Store

variable {store next : Store} {instructions : List (List String)}

theorem Backed.room (backed : store.Backed instructions) (distinct : store.slots.names.Nodup)
    {name : String} {bytes : Nat} (wanted : bytes ≤ Program.demand instructions name) :
    store.heldByOthers name + bytes ≤ (instructions.map Program.allocated).sum := by
  have apart : (name :: (store.slots.others name).names).Nodup := by
    refine List.nodup_cons.mpr ⟨?_, distinct.sublist (List.filter_sublist.map _)⟩
    intro member
    obtain ⟨entry, kept, same⟩ := List.mem_map.mp member
    have other := of_decide_eq_true (List.mem_filter.mp kept).2
    exact other same
  have others : store.heldByOthers name ≤
      ((store.slots.others name).names.map (Program.demand instructions)).sum := by
    unfold heldByOthers held Table.names
    rw [List.map_map]
    apply List.sum_le_sum
    intro entry member
    exact backed entry.1 entry.2 (List.mem_of_mem_filter member)
  calc
    store.heldByOthers name + bytes ≤
        ((store.slots.others name).names.map (Program.demand instructions)).sum +
          Program.demand instructions name := Nat.add_le_add others wanted
    _ = ((name :: (store.slots.others name).names).map (Program.demand instructions)).sum := by
      rw [List.map_cons, List.sum_cons, Nat.add_comm]
    _ ≤ (instructions.map Program.allocated).sum := Program.demand_sum_le instructions apart

theorem Backed.put (backed : store.Backed instructions) {name : String} {slot : Variable}
    (wanted : slot.bytes ≤ Program.demand instructions name) :
    (store.put name slot).Backed instructions := by
  intro other found member
  rcases Table.mem_put member with here | before
  · cases here
    exact wanted
  · exact backed other found before

theorem Backed.assign (backed : store.Backed instructions) {name : String} {value : Value}
    {reserved : Bool} (done : store.assign name value reserved = .ok next) :
    next.Backed instructions := by
  obtain ⟨-, rfl⟩ := assign_eq_ok_iff.mp done
  apply backed.put
  cases found : store.get? name with
  | none => exact Nat.zero_le _
  | some slot => exact backed name slot (Table.mem_of_get? found)

theorem Backed.drop (backed : store.Backed instructions) {name : String} {slot : Variable}
    (done : store.drop name = .ok (slot, next)) : next.Backed instructions := by
  obtain ⟨-, -, rfl⟩ := drop_eq_ok_iff.mp done
  intro other found member
  exact backed other found (Table.mem_remove member)

end Store

namespace Machine

variable {m next : Machine} {program : Program} {store after : Store}

theorem allocation_backed {tokens : List String} {nameToken sizeToken name : String}
    {capacity : UInt64} (member : tokens ∈ program.instructions)
    (shape : Instruction.ofTokens? tokens = some (.allocate nameToken sizeToken))
    (named : variableName nameToken = .ok name) (sized : allocationSize sizeToken = .ok capacity) :
    capacity.toNat ≤ Program.demand program.instructions.toList name := by
  cases Instruction.spelled_of_ofTokens? shape
  have mine : Program.allocatedName ["alc", nameToken, sizeToken] = some name := by
    change (variableName nameToken).toOption = some name
    rw [named]
    rfl
  have counted : Program.allocated ["alc", nameToken, sizeToken] = capacity.toNat := by
    simp only [Program.allocated, sized]
  have bounded := Program.allocated_le_demand (Array.mem_toList_iff.mpr member) mine
  rw [counted] at bounded
  exact bounded

theorem backed_of_call {call : Store.Call} (backed : store.Backed program.instructions.toList)
    (permitted : Permitted program call) (done : store.call call = .ok after) :
    after.Backed program.instructions.toList := by
  cases permitted with
  | status status => exact backed.assign done
  | issued member shape issued =>
    cases issued with
    | allocate named sized =>
      obtain ⟨-, -, rfl⟩ := Store.allocate_eq_ok_iff.mp done
      exact backed.put (allocation_backed member shape named sized)
    | input | arithmetic | cast | assign =>
      exact backed.assign (Store.write_eq_ok_iff.mp done).2
    | drop named =>
      obtain ⟨⟨slot, left⟩, dropped, rfl⟩ := Result.map_eq_ok.mp done
      exact backed.drop dropped

theorem backed_of_calls {calls : List Store.Call}
    (permitted : ∀ call ∈ calls, Permitted program call)
    (backed : store.Backed program.instructions.toList) :
    (calls.foldl Store.after store).Backed program.instructions.toList :=
  Store.kept_by_calls backed fun call member _ _ kept done =>
    backed_of_call kept (permitted call member) done

theorem Abandoned.arena {i : Instruction} {failure : Failure}
    (abandoned : Abandoned m i failure next) (about : failure.origin = .arena) :
    ∃ nameToken sizeToken name capacity error, i = .allocate nameToken sizeToken ∧
      variableName nameToken = .ok name ∧ allocationSize sizeToken = .ok capacity ∧
        m.store.allocate name capacity = .error error ∧ failure = .store error := by
  cases abandoned with
  | early inner => exact absurd (inner.symm.trans about) nofun
  | unallocated named sized refused => exact ⟨_, _, _, _, _, rfl, named, sized, refused, rfl⟩
  | unlabelled | unwritten | unread | ended => cases about
  | unstored asked refused => exact absurd ((origin_of_write refused).symm.trans about) nofun

theorem step_arena {fatal : Fatal} (failed : m.step.1 = .error fatal)
    (about : fatal.failure.origin = .arena) :
    ∃ name capacity error, capacity.toNat ≤ Program.demand m.program.instructions.toList name ∧
      m.store.allocate name capacity = .error error ∧ fatal.failure = .store error := by
  unfold step at failed
  split at failed
  · cases failed
  next tokens fetched =>
    obtain ⟨failure, refused, rfl⟩ := Result.mapError_eq_error.mp failed
    obtain ⟨-, input, output, failed⟩ :=
      cycle_eq_error (by exact refused) (by simp [about]) (by simp [about])
    obtain ⟨left, executed⟩ := exists_executed failed
    cases executed with
    | failed shape abandoned =>
      obtain ⟨nameToken, sizeToken, name, capacity, error, rfl, named, sized, refused, same⟩ :=
        abandoned.arena about
      have member := Array.mem_of_getElem? fetched
      exact ⟨name, capacity, error, allocation_backed member shape named sized, refused, same⟩
    | malformed shape => cases about

theorem build_requiredSize {lines : List String}
    (fits : ((lines.map tokenize).map Program.allocated).sum < 2 ^ 64) :
    (Program.build lines).requiredSize.toNat =
      ((lines.map tokenize).map Program.allocated).sum := by
  have below : ((lines.map tokenize).map Program.allocated).sum ≤ UInt64.size - 1 :=
    Nat.le_pred_of_lt fits
  change (UInt64.ofNat (min ((lines.map tokenize).map Program.allocated).sum _)).toNat = _
  rw [Nat.min_eq_left below, UInt64.toNat_ofNat', Nat.mod_eq_of_lt fits]

/-- The arena that the allocations of a program sum up to is never exhausted in any of its runs. -/
theorem arena_never_exhausted (lines : List String) (mode : Mode) (input : List UInt8)
    (output : Output) (n : Nat)
    (fits : ((lines.map tokenize).map Program.allocated).sum < 2 ^ 64) :
    ∀ line text name requested used total,
      (({ start (Program.build lines) mode input with output }).afterSteps n).step.1 ≠
        .error ⟨line, text, .store (.arenaExhausted name requested used total)⟩ := by
  intro line text name requested used total failed
  obtain ⟨program, calls, permitted, reached⟩ :=
    afterSteps_start (Program.build lines) mode input output n
  have instructions : (Program.build lines).instructions.toList = lines.map tokenize := rfl
  have sound := Store.reached_sound (Program.build lines).requiredSize calls
  have size := Store.reached_size (Program.build lines).requiredSize calls
  have backed : (Store.reached (Program.build lines).requiredSize calls).Backed
      (lines.map tokenize) := backed_of_calls permitted nofun
  -- the step stands at an allocation that was counted, so the others leave room for it
  obtain ⟨label, capacity, error, wanted, refused, same⟩ := step_arena failed rfl
  cases same
  rw [program, instructions] at wanted
  rw [reached] at refused
  have room := backed.room sound.distinct wanted
  have lacking := Store.allocate_eq_exhausted refused
  rw [sound.released, size, build_requiredSize fits] at lacking
  omega

theorem arena_suffices_in_a_loop :
    let lines := ["lbl again", "alc &x :[8]", "drp x", "alc x :[8]", "cmp 1 1", "jeq again"]
    ((lines.map tokenize).map Program.allocated).sum < 2 ^ 64 ∧
      ∀ line text name requested used total,
        (({ start (Program.build lines) ⟨false, true⟩ [] with
            output := ⟨ByteArray.empty, none, false⟩ }).afterSteps 9).step.1 ≠
          .error ⟨line, text, .store (.arenaExhausted name requested used total)⟩ :=
  ⟨by decide, arena_never_exhausted _ _ _ _ 9 (by decide)⟩

end Machine

end Script8255
