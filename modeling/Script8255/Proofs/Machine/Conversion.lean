import Script8255.Proofs.Decimal
import Script8255.Proofs.Machine.StatusRegister
import Script8255.Proofs.Store.Capacity
import Script8255.Proofs.Store.History

/-! Conversions of variables in place: they never need more room than the value that is there. -/

namespace Script8255

namespace Value

variable {value result : Value}

theorem byteSize_display (value : Value) : (Value.str value.display).byteSize = value.byteSize :=
  rfl

theorem byteSize_cast_integer (exact : value.kind ≠ .float)
    (cast : value.cast .integer = .ok result) :
    ∃ word, result = .int word ∧ (Value.int word).byteSize ≤ value.byteSize := by
  cases value with
  | int n =>
    cases cast
    exact ⟨n, rfl, Nat.le_refl _⟩
  | float x => exact absurd rfl exact
  | str text =>
    obtain ⟨n, padded⟩ := exists_padded_iff.mpr (Or.inl ⟨result, cast⟩)
    rw [cast_text_of_padded padded, Value.ofInteger] at cast
    split at cast
    next word held =>
      cases cast
      rw [← Text.word?_eq_some_iff.mp held] at padded
      exact ⟨word, rfl, byteSize_of_padded padded⟩
    · cases cast

theorem cast_display (word : Int64) :
    (Value.str (Value.int word).display).cast .integer = .ok (.int word) := by
  rw [cast_text_of_padded (display_integer word).padded, ofInteger_toInt]

end Value

namespace Store

variable {store : Store} {name : String} {slot : Variable} {old value : Value}

/-- A variable that holds a value and may be written, with a capacity that the value fits. -/
structure Rewritable (store : Store) (name : String) (slot : Variable) (value : Value) : Prop where
  found : store.get? name = some slot
  written : slot.value = some value
  other : name ≠ statusRegister
  unreserved : slot.reserved = false
  room : ∀ capacity, slot.capacity = some capacity → value.byteSize ≤ capacity.toNat

theorem Sound.rewritable (sound : Sound store) (only : store.OnlyStatusReserved)
    (other : name ≠ statusRegister) (found : store.get? name = some slot)
    (written : slot.value = some value) : Rewritable store name slot value where
  found := found
  written := written
  other := other
  unreserved := Bool.eq_false_of_not_eq_true fun reserved =>
    other (only name slot (Table.mem_of_get? found) reserved)
  room := fun capacity sized =>
    sound.fits name slot capacity value (Table.mem_of_get? found) sized written

namespace Rewritable

theorem read (rewritable : Rewritable store name slot value) : store.read name = .ok value := by
  rw [read_eq_ok_iff, rewritable.found]
  exact rewritable.written

theorem free (rewritable : Rewritable store name slot value) : store.isReserved name = false := by
  simp [isReserved, rewritable.other, rewritable.found, rewritable.unreserved]

theorem write (rewritable : Rewritable store name slot old)
    (shorter : value.byteSize ≤ old.byteSize) :
    store.write name value = .ok (store.put name { slot with value := some value }) := by
  rw [write_eq_ok_iff, assign_eq_ok_iff, rewritable.found]
  refine ⟨rewritable.free, fun capacity sized => ?_, ?_⟩
  · exact Nat.le_trans shorter (rewritable.room capacity sized)
  · simp [rewritable.unreserved]

theorem put (rewritable : Rewritable store name slot old)
    (shorter : value.byteSize ≤ old.byteSize) :
    Rewritable (store.put name { slot with value := some value }) name
      { slot with value := some value } value where
  found := by rw [get?_put, if_pos rfl]
  written := rfl
  other := rewritable.other
  unreserved := rewritable.unreserved
  room := fun capacity sized => Nat.le_trans shorter (rewritable.room capacity sized)

theorem withStatus (rewritable : Rewritable store name slot value) (status : Int64) :
    Rewritable (store.withStatus status) name slot value where
  found := (get?_withStatus_of_ne store status rewritable.other).trans rewritable.found
  written := rewritable.written
  other := rewritable.other
  unreserved := rewritable.unreserved
  room := rewritable.room

end Rewritable

end Store

namespace Machine

variable {m : Machine} {tokens : List String} {token name : String} {target : CastTarget}
  {slot : Variable} {old value : Value}

def recorded (m : Machine) (store : Store) (status : Int64) : Machine :=
  { m with store := store.withStatus status, line := m.line + 1 }

theorem recorded_unsized (m : Machine) (store : Store) (status : Int64) :
    (m.recorded store status).store.StatusUnsized := by
  have register : (m.recorded store status).store.get? statusRegister =
      (some status).map statusSlot := Store.get?_withStatus store status
  exact .of_register register

/-- An outcome that goes on to the next line with a status and a variable as given, and leaves the
other variables alone. -/
structure GoesOn (m : Machine) (name : String) (slot : Variable) (status : Int64)
    (outcome : Except Failure Progress × Machine) : Prop where
  running : outcome.1 = .ok .running
  line : outcome.2.line = m.line + 1
  here : outcome.2.store.get? name = some slot
  elsewhere : ∀ key, key ≠ name → key ≠ statusRegister →
    outcome.2.store.get? key = m.store.get? key
  status : outcome.2.store.get? statusRegister = some (statusSlot status)

theorem GoesOn.of_recorded {store : Store} (rewritable : store.Rewritable name slot value)
    (others : ∀ key, key ≠ name → store.get? key = m.store.get? key) (status : Int64) :
    GoesOn m name slot status (.ok .running, m.recorded store status) where
  running := rfl
  line := rfl
  here := (rewritable.withStatus status).found
  elsewhere := fun key different unnamed =>
    (Store.get?_withStatus_of_ne store status unnamed).trans (others key different)
  status := Store.get?_withStatus store status

theorem conclude_cast (rewritable : m.store.Rewritable name slot old)
    (unsized : m.store.StatusUnsized)
    (shape : Instruction.ofTokens? tokens = some (.cast token target))
    (named : variableName token = .ok name) (result : old.cast target = .ok value)
    (shorter : value.byteSize ≤ old.byteSize) :
    conclude (m.execute tokens) =
      (.ok .running, m.recorded (m.store.put name { slot with value := some value }) 0) := by
  have effect := Effect.cast named rewritable.read result (rewritable.write shorter)
  have kept := unsized.of_same effect.statusRegister
  rw [execute_of_effect shape effect]
  exact advance_of_unsized kept 0

theorem goesOn_of_cast (rewritable : m.store.Rewritable name slot old)
    (unsized : m.store.StatusUnsized)
    (shape : Instruction.ofTokens? tokens = some (.cast token target))
    (named : variableName token = .ok name) (result : old.cast target = .ok value)
    (shorter : value.byteSize ≤ old.byteSize) :
    GoesOn m name { slot with value := some value } 0 (conclude (m.execute tokens)) := by
  rw [conclude_cast rewritable unsized shape named result shorter]
  refine .of_recorded (rewritable.put shorter) (fun key different => ?_) 0
  rw [Store.get?_put, if_neg different]

theorem goesOn_of_uncast {reason : Unusable} (rewritable : m.store.Rewritable name slot old)
    (unsized : m.store.StatusUnsized)
    (shape : Instruction.ofTokens? tokens = some (.cast token target))
    (named : variableName token = .ok name) (refused : old.cast target = .error reason) :
    GoesOn m name slot 1 (conclude (m.execute tokens)) := by
  have failed : cast m.store token target = .error (.unusable reason) := by
    have present := rewritable.read
    unfold cast
    simp only [operandName, named, present, refused, Except.mapError, bind, Except.bind]
  have ended : conclude (m.execute tokens) = (.ok .running, m.recorded m.store 1) := by
    rw [execute_of_shape shape]
    change conclude (m.storing (cast m.store token target)) = _
    rw [failed]
    exact advance_of_unsized unsized 1
  rw [ended]
  exact .of_recorded rewritable (fun _ _ => rfl) 1

/-- In every run a variable with a value can be converted to a text, whatever its capacity is. To
convert an integer or a text to an integer is never fatal, and a text that was made from an integer
becomes that integer again. -/
theorem conversions_fit {program : Program} {mode : Mode} {input : List UInt8} {output : Output}
    {n : Nat} (reached : m = ({ start program mode input with output } : Machine).afterSteps n)
    (other : name ≠ statusRegister) (named : variableName token = .ok name)
    (found : m.store.get? name = some slot) (written : slot.value = some value) :
    let shown := conclude (m.execute ["cst", token, "STRING"])
    let counted := conclude (m.execute ["cst", token, "INTEGER"])
    GoesOn m name { slot with value := some (.str value.display) } 0 shown ∧
      (value.kind ≠ .float →
        (∃ word, value.cast .integer = .ok (.int word) ∧
            GoesOn m name { slot with value := some (.int word) } 0 counted) ∨
          ∃ reason, value.cast .integer = .error reason ∧ GoesOn m name slot 1 counted) ∧
        ∀ word, value = .int word →
          GoesOn shown.2 name slot 0 (conclude (shown.2.execute ["cst", token, "INTEGER"])) := by
  intro shown counted
  obtain ⟨-, calls, permitted, same⟩ := afterSteps_start program mode input output n
  have only := onlyStatusReserved_of_calls permitted program.requiredSize
  have sound := Store.reached_sound program.requiredSize calls
  rw [← same, ← reached] at only sound
  have unsized : m.store.StatusUnsized := by
    rw [reached]
    exact Store.StatusUnsized.of_register (register_afterSteps rfl n)
  have rewritable := sound.rewritable only other found written
  have equal := Nat.le_of_eq (Value.byteSize_display value)
  refine ⟨goesOn_of_cast rewritable unsized rfl named rfl equal, ?_, ?_⟩
  · intro exact
    cases result : value.cast .integer with
    | error reason =>
      exact Or.inr ⟨reason, rfl, goesOn_of_uncast rewritable unsized rfl named result⟩
    | ok converted =>
      obtain ⟨word, rfl, shorter⟩ := Value.byteSize_cast_integer exact result
      exact Or.inl ⟨word, rfl, goesOn_of_cast rewritable unsized rfl named result shorter⟩
  · rintro word rfl
    have between : shown = (.ok .running, m.recorded (m.store.put name
        { slot with value := some (.str (Value.int word).display) }) 0) :=
      conclude_cast rewritable unsized rfl named rfl equal
    have text := (rewritable.put equal).withStatus 0
    have shape : Instruction.ofTokens? ["cst", token, "INTEGER"] = some (.cast token .integer) :=
      rfl
    have back := goesOn_of_cast (m := m.recorded _ 0) text (recorded_unsized m _ 0) shape named
      (Value.cast_display word) (Nat.le_refl _)
    rw [between]
    -- the text and then the integer leave the variable as it was at first
    rw [← written] at back
    exact back

theorem full_variable_converts :
    let program := Program.build ["alc x :[4]", "-255 > x"]
    let m := ({ start program ⟨false, false⟩ [] with
      output := ⟨ByteArray.empty, none, false⟩ } : Machine).afterSteps 2
    let slot : Variable := ⟨some (.int (-255)), some 4, false⟩
    let shown := conclude (m.execute ["cst", "&x", "STRING"])
    "x" ≠ statusRegister ∧ variableName "&x" = .ok "x" ∧ m.store.get? "x" = some slot ∧
      GoesOn m "x" { slot with value := some (.str "-255") } 0 shown ∧
        GoesOn shown.2 "x" slot 0 (conclude (shown.2.execute ["cst", "&x", "INTEGER"])) := by
  intro program m slot shown
  have reached : m = ({ start program ⟨false, false⟩ [] with
      output := ⟨ByteArray.empty, none, false⟩ } : Machine).afterSteps 2 := rfl
  have other : "x" ≠ statusRegister := by decide
  have named : variableName "&x" = .ok "x" := rfl
  have found : m.store.get? "x" = some slot := by decide
  obtain ⟨text, -, back⟩ := conversions_fit reached other named found rfl
  exact ⟨other, named, found, text, back _ rfl⟩

end Machine

end Script8255
