import Script8255.Proofs.Machine.Calls
import Script8255.Proofs.Name

/-! The variables of a running program all have names by which it can reach them. -/

namespace Script8255.Machine

theorem statusRegister_named : IsName statusRegister := IsName.iff_all.mpr rfl

theorem Permitted.target_named {program : Program} {call : Store.Call}
    (permitted : Permitted program call) : IsName call.target := by
  cases permitted with
  | status status => exact statusRegister_named
  | issued member shape issued =>
    obtain ⟨token, -, named⟩ := issued.target
    exact (variableName_eq_ok_iff.mp named).1

theorem named_afterSteps (program : Program) (mode : Mode) (input : List UInt8) (output : Output)
    (n : Nat) : (({ start program mode input with output }).afterSteps n).store.Named := by
  obtain ⟨-, calls, permitted, reached⟩ := afterSteps_start program mode input output n
  have none : (Store.empty program.requiredSize).Named := fun _ impossible => by cases impossible
  rw [reached]
  exact Store.named_of_calls none fun call member => (permitted call member).target_named

/-- The variables of every run have names that are runs of word characters. Whatever token a value
is written through, a reference, a placeholder and a string token with that name then find it. -/
theorem variables_addressable :
    (∀ (program : Program) (mode : Mode) (input : List UInt8) (output : Output) (n : Nat),
      ∀ entry ∈ (({ start program mode input with output }).afterSteps n).store.slots,
        entry.1 ≠ "" ∧ (∀ c ∈ entry.1.toList, Text.isWord c = true) ∧
          variableName entry.1 = .ok entry.1 ∧ variableName ("&" ++ entry.1) = .ok entry.1) ∧
      ∀ (store next : Store) (token name : String) (value : Value),
        variableName token = .ok name → store.write name value = .ok next →
          resolve next ("&" ++ name) = .ok value ∧
            interpolate next ('$' :: name.toList) = .ok value.display.toList ∧
            (∀ text, Escape.decode value.display.toList = .ok text →
              resolve next ("\"$" ++ name ++ "\"") = .ok (.str (String.ofList text))) ∧
            (∀ reason, Escape.decode value.display.toList = .error reason →
              resolve next ("\"$" ++ name ++ "\"") = .error (.unusable reason)) ∧
            ('\\' ∉ value.display.toList →
              resolve next ("\"$" ++ name ++ "\"") = .ok (.str value.display)) := by
  constructor
  · intro program mode input output n entry member
    have named := named_afterSteps program mode input output n entry member
    exact ⟨named.filled, named.words, variableName_eq_ok_iff.mpr ⟨named, Or.inl rfl⟩,
      variableName_eq_ok_iff.mpr ⟨named, Or.inr rfl⟩⟩
  · intro store next token name value accepted written
    have named := (variableName_eq_ok_iff.mp accepted).1
    have present := Store.read_of_write written
    have quoted := resolve_placeholder named present
    refine ⟨resolve_reference named present, interpolate_placeholder named present, ?_, ?_, ?_⟩
    · intro text decoded
      rw [quoted, decoded]
    · intro reason undecoded
      rw [quoted, undecoded]
    · intro plain
      rw [quoted, Escape.decode_of_no_backslash plain]
      simp

theorem accented_variable_addressable :
    let m := (start (Program.build ["1 > &β_2"]) ⟨false, false⟩ []).afterSteps 1
    let store : Store := ⟨0, [("é", ⟨some (.str "a\\x41$é"), none, false⟩)]⟩
    ("β_2", ⟨some (.int 1), none, false⟩) ∈ m.store.slots ∧ variableName "&β_2" = .ok "β_2" ∧
      variableName "é" = .ok "é" ∧ Store.write (.empty 0) "é" (.str "a\\x41$é") = .ok store ∧
      resolve store "&é" = .ok (.str "a\\x41$é") ∧
      interpolate store ['$', 'é'] = .ok "a\\x41$é".toList ∧
      resolve store "\"$é\"" = .ok (.str "aA$é") := by
  intro m store
  have live : ("β_2", ⟨some (.int 1), none, false⟩) ∈ m.store.slots := by decide
  have accepted : variableName "é" = .ok "é" := rfl
  have written : Store.write (.empty 0) "é" (.str "a\\x41$é") = .ok store := rfl
  have code : Escape.read 'x' ['4', '1', '$', 'é'] = .ok (['A'], 2) := rfl
  have decoded : Escape.decode "a\\x41$é".toList = .ok "aA$é".toList := by
    simp [Escape.decode, code, Except.map]
  obtain ⟨reachable, named⟩ := variables_addressable
  obtain ⟨-, -, -, called⟩ := reachable _ _ _ _ 1 _ live
  obtain ⟨reference, placeholder, quoted, -⟩ := named _ _ _ _ _ accepted written
  exact ⟨live, called, accepted, written, reference, placeholder, quoted _ decoded⟩

end Script8255.Machine
