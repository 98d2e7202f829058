import Script8255.Proofs.Machine.Handlers

/-! What an instruction does to a machine when it succeeds, apart from the counter and the status
register. -/

namespace Script8255

def Instruction.destination? : Instruction → Option String
  | .allocate name _ | .input _ name | .arithmetic _ _ _ name | .cast name _ | .drop name
  | .assign _ name => some name
  | .out _ | .label | .exit _ | .clear | .compare _ _ | .jump _ _ => none

namespace Machine

/-- What a successful instruction leaves behind. -/
inductive Effect (m : Machine) : Instruction → Machine → Prop
  | out {token : String} {value : Value} (resolved : resolve m.store token = .ok value)
      (room : m.output.HasRoom (value.display ++ "\n")) :
      Effect m (.out token) { m with output := m.output.append (value.display ++ "\n").toUTF8 }
  | label : Effect m .label m
  | clear (room : m.output.HasRoom clearScreen) (flushed : m.output.flushFails = false) :
      Effect m .clear { m with output := m.output.append clearScreen.toUTF8 }
  | allocate {nameToken sizeToken name : String} {capacity : UInt64} {store : Store}
      (named : variableName nameToken = .ok name)
      (sized : allocationSize sizeToken = .ok capacity)
      (stored : m.store.allocate name capacity = .ok store) :
      Effect m (.allocate nameToken sizeToken) { m with store }
  | input {promptToken nameToken prompt name text : String} {store : Store}
      (resolved : resolve m.store promptToken = .ok (.str prompt))
      (named : variableName nameToken = .ok name)
      (room : m.output.HasRoom prompt) (flushed : m.output.flushFails = false)
      (left : m.input ≠ []) (read : lineText (takeLine m.input).1 = .ok text)
      (stored : m.store.write name (.str (dropLineEnd text)) = .ok store) :
      Effect m (.input promptToken nameToken)
        { m with
          store
          input := (takeLine m.input).2
          output := m.output.append prompt.toUTF8 }
  | arithmetic {operation : Operation} {leftToken rightToken nameToken name : String}
      {left right value : Value} {store : Store}
      (named : variableName nameToken = .ok name)
      (onLeft : resolve m.store leftToken = .ok left)
      (onRight : resolve m.store rightToken = .ok right)
      (result : operation.apply left right = .ok value)
      (stored : m.store.write name value = .ok store) :
      Effect m (.arithmetic operation leftToken rightToken nameToken) { m with store }
  | cast {nameToken name : String} {target : CastTarget} {old value : Value} {store : Store}
      (named : variableName nameToken = .ok name)
      (present : m.store.read name = .ok old)
      (result : old.cast target = .ok value)
      (stored : m.store.write name value = .ok store) :
      Effect m (.cast nameToken target) { m with store }
  | compare {leftToken rightToken : String} {left right : Value} {flag : Flag}
      (onLeft : resolve m.store leftToken = .ok left)
      (onRight : resolve m.store rightToken = .ok right)
      (compared : left.compare right m.mode.ordered = .ok flag) :
      Effect m (.compare leftToken rightToken) { m with flag }
  | jump {jump : Jump} {label : String} (quiet : jump.fires m.flag m.mode.ordered = false) :
      Effect m (.jump jump label) m
  | drop {nameToken name : String} {slot : Variable} {store : Store}
      (named : variableName nameToken = .ok name)
      (dropped : m.store.drop name = .ok (slot, store)) :
      Effect m (.drop nameToken) { m with store }
  | assign {valueToken nameToken name : String} {value : Value} {store : Store}
      (named : variableName nameToken = .ok name)
      (resolved : resolve m.store valueToken = .ok value)
      (stored : m.store.write name value = .ok store) :
      Effect m (.assign valueToken nameToken) { m with store }

variable {m next : Machine}

theorem ask_eq_next_iff {promptToken nameToken : String} :
    m.ask promptToken nameToken = (.ok .next, next) ↔
      Effect m (.input promptToken nameToken) next := by
  constructor
  · intro done
    cases asked : request m.store promptToken nameToken with
    | error failure =>
      rw [ask_of_error asked] at done
      cases done
    | ok pair =>
      rcases pair with ⟨prompt, name⟩
      rcases presented : m.present prompt with ⟨result, shown⟩
      cases result with
      | error error =>
        rw [ask_of_unshown asked presented] at done
        cases done
      | ok written =>
        rw [ask_of_ok asked presented] at done
        obtain ⟨text, store, read, left, stored, rfl⟩ := received_eq_next_iff.mp done
        obtain ⟨room, flushed, rfl⟩ := present_eq_ok_iff.mp presented
        obtain ⟨resolved, named⟩ := request_eq_ok_iff.mp asked
        have input : m.input ≠ [] := fun empty => left ((isEmpty_iff_of_read read).mpr empty)
        exact .input resolved named room flushed input read stored
  · intro effect
    cases effect with
    | input resolved named room flushed left read stored =>
      have asked := request_eq_ok_iff.mpr ⟨resolved, named⟩
      have presented := present_eq_ok_iff.mpr ⟨room, flushed, rfl⟩
      have used := mt (isEmpty_iff_of_read read).mp left
      rw [ask_of_ok asked presented]
      exact received_eq_next_iff.mpr ⟨_, _, read, used, stored, rfl⟩

theorem out_eq_next_iff {token : String} :
    m.out token = (.ok .next, next) ↔ Effect m (.out token) next := by
  cases resolved : resolve m.store token with
  | error failure =>
    rw [out_of_error resolved]
    constructor
    · intro done
      cases done
    · intro effect
      cases effect with
      | out found room => cases resolved.symm.trans found
  | ok value =>
    rw [out_of_ok resolved, outputting_eq_next_iff, write_eq_ok_iff]
    constructor
    · rintro ⟨room, rfl⟩
      exact .out resolved room
    · intro effect
      cases effect with
      | out found room =>
        cases resolved.symm.trans found
        exact ⟨room, rfl⟩

theorem compare_eq_next_iff {leftToken rightToken : String} :
    m.compare leftToken rightToken = (.ok .next, next) ↔
      Effect m (.compare leftToken rightToken) next := by
  constructor
  · intro done
    cases compared : m.comparison leftToken rightToken with
    | error failure =>
      rw [compare_of_error compared] at done
      cases done
    | ok flag =>
      rw [compare_of_ok compared] at done
      cases done
      obtain ⟨left, onLeft, right, onRight, told⟩ := comparison_eq_ok_iff.mp compared
      exact .compare onLeft onRight told
  · intro effect
    cases effect with
    | compare onLeft onRight told =>
      exact compare_of_ok (comparison_eq_ok_iff.mpr ⟨_, onLeft, _, onRight, told⟩)

theorem perform_eq_next_iff {i : Instruction} :
    m.perform i = (.ok .next, next) ↔ Effect m i next := by
  cases i with
  | out token => exact out_eq_next_iff
  | label =>
    constructor
    · intro done
      cases done
      exact .label
    · intro effect
      cases effect
      rfl
  | exit token =>
    constructor
    · intro done
      exact absurd (Prod.mk.inj done).1 exiting_ne_next
    · intro effect
      cases effect
  | clear =>
    change outputting (m.present clearScreen) = _ ↔ _
    rw [outputting_eq_next_iff, present_eq_ok_iff]
    constructor
    · rintro ⟨room, flushed, rfl⟩
      exact .clear room flushed
    · intro effect
      cases effect with
      | clear room flushed => exact ⟨room, flushed, rfl⟩
  | allocate nameToken sizeToken =>
    change m.storing _ = _ ↔ _
    simp only [storing_eq_next_iff, allocate_eq_ok_iff]
    constructor
    · rintro ⟨store, ⟨name, named, capacity, sized, stored⟩, rfl⟩
      exact .allocate named sized stored
    · intro effect
      cases effect with
      | allocate named sized stored => exact ⟨_, ⟨_, named, _, sized, stored⟩, rfl⟩
  | input promptToken nameToken => exact ask_eq_next_iff
  | arithmetic operation leftToken rightToken nameToken =>
    change m.storing _ = _ ↔ _
    simp only [storing_eq_next_iff, arithmetic_eq_ok_iff]
    constructor
    · rintro ⟨store, ⟨name, named, left, onLeft, right, onRight, value, result, stored⟩, rfl⟩
      exact .arithmetic named onLeft onRight result stored
    · intro effect
      cases effect with
      | arithmetic named onLeft onRight result stored =>
        exact ⟨_, ⟨_, named, _, onLeft, _, onRight, _, result, stored⟩, rfl⟩
  | cast nameToken target =>
    change m.storing _ = _ ↔ _
    simp only [storing_eq_next_iff, cast_eq_ok_iff]
    constructor
    · rintro ⟨store, ⟨name, named, old, present, value, result, stored⟩, rfl⟩
      exact .cast named present result stored
    · intro effect
      cases effect with
      | cast named present result stored =>
        exact ⟨_, ⟨_, named, _, present, _, result, stored⟩, rfl⟩
  | compare leftToken rightToken => exact compare_eq_next_iff
  | jump jump label =>
    constructor
    · intro done
      obtain ⟨quiet, rfl⟩ := Prod.mk.inj done
      exact .jump (jumping_eq_next_iff.mp quiet)
    · intro effect
      cases effect with
      | jump quiet => exact Prod.ext (jumping_eq_next_iff.mpr quiet) rfl
  | drop nameToken =>
    change m.storing _ = _ ↔ _
    simp only [storing_eq_next_iff, drop_eq_ok_iff]
    constructor
    · rintro ⟨store, ⟨name, named, slot, dropped⟩, rfl⟩
      exact .drop named dropped
    · intro effect
      cases effect with
      | drop named dropped => exact ⟨_, ⟨_, named, _, dropped⟩, rfl⟩
  | assign valueToken nameToken =>
    change m.storing _ = _ ↔ _
    simp only [storing_eq_next_iff, assign_eq_ok_iff]
    constructor
    · rintro ⟨store, ⟨name, named, value, resolved, stored⟩, rfl⟩
      exact .assign named resolved stored
    · intro effect
      cases effect with
      | assign named resolved stored => exact ⟨_, ⟨_, named, _, resolved, stored⟩, rfl⟩

/-- The calls that an instruction may make on the store. -/
inductive Issues : Instruction → Store.Call → Prop
  | allocate {nameToken sizeToken name : String} {capacity : UInt64}
      (named : variableName nameToken = .ok name)
      (sized : allocationSize sizeToken = .ok capacity) :
      Issues (.allocate nameToken sizeToken) (.allocate name capacity)
  | input {promptToken nameToken name text : String} (named : variableName nameToken = .ok name) :
      Issues (.input promptToken nameToken) (.write name (.str text))
  | arithmetic {operation : Operation} {leftToken rightToken nameToken name : String}
      {value : Value} (named : variableName nameToken = .ok name) :
      Issues (.arithmetic operation leftToken rightToken nameToken) (.write name value)
  | cast {nameToken name : String} {target : CastTarget} {value : Value}
      (named : variableName nameToken = .ok name) :
      Issues (.cast nameToken target) (.write name value)
  | drop {nameToken name : String} (named : variableName nameToken = .ok name) :
      Issues (.drop nameToken) (.drop name)
  | assign {valueToken nameToken name : String} {value : Value}
      (named : variableName nameToken = .ok name) :
      Issues (.assign valueToken nameToken) (.write name value)

theorem Issues.guarded {i : Instruction} {call : Store.Call} (issued : Issues i call) :
    call.guarded = true := by
  cases issued <;> rfl

theorem Issues.target {i : Instruction} {call : Store.Call} (issued : Issues i call) :
    ∃ token, i.destination? = some token ∧ variableName token = .ok call.target := by
  cases issued <;> exact ⟨_, rfl, by assumption⟩

namespace Effect

variable {i : Instruction}

/-- An effect on the store is that of one call, on the variable that is the destination. -/
theorem store_cases (effect : Effect m i next) :
    (i.destination? = none ∧ next.store = m.store) ∨
      ∃ call, Issues i call ∧ m.store.call call = .ok next.store := by
  cases effect with
  | out | label | clear | compare | jump => exact Or.inl ⟨rfl, rfl⟩
  | allocate named sized stored => exact Or.inr ⟨_, .allocate named sized, stored⟩
  | input resolved named room flushed left read stored =>
    exact Or.inr ⟨_, .input named, stored⟩
  | arithmetic named onLeft onRight result stored =>
    exact Or.inr ⟨_, .arithmetic named, stored⟩
  | cast named present result stored => exact Or.inr ⟨_, .cast named, stored⟩
  | drop named dropped => exact Or.inr ⟨_, .drop named, Result.map_eq_ok.mpr ⟨_, dropped, rfl⟩⟩
  | assign named resolved stored => exact Or.inr ⟨_, .assign named, stored⟩

theorem statusRegister (effect : Effect m i next) :
    next.store.get? Script8255.statusRegister = m.store.get? Script8255.statusRegister := by
  rcases effect.store_cases with ⟨-, same⟩ | ⟨call, issued, done⟩
  · rw [same]
  · exact Store.get?_statusRegister_of_call issued.guarded done

theorem destination_free {token name : String} (effect : Effect m i next)
    (destination : i.destination? = some token) (named : variableName token = .ok name) :
    m.store.isReserved name = false := by
  rcases effect.store_cases with ⟨absent, -⟩ | ⟨call, issued, done⟩
  · cases absent.symm.trans destination
  · obtain ⟨other, same, target⟩ := issued.target
    cases same.symm.trans destination
    cases target.symm.trans named
    exact Store.isReserved_of_call issued.guarded done

theorem line (effect : Effect m i next) : next.line = m.line := by
  cases effect <;> rfl

theorem program (effect : Effect m i next) : next.program = m.program := by
  cases effect <;> rfl

end Effect

end Machine

end Script8255
