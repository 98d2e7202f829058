/-! When a chain of computations succeeds, and when it fails. -/

namespace Script8255.Result

variable {ε δ α β : Type}

theorem map_eq_ok {result : Except ε α} {f : α → β} {b : β} :
    result.map f = .ok b ↔ ∃ a, result = .ok a ∧ f a = b := by
  cases result <;> simp [Except.map]

theorem map_eq_error {result : Except ε α} {f : α → β} {e : ε} :
    result.map f = .error e ↔ result = .error e := by
  cases result <;> simp [Except.map]

theorem mapError_eq_ok {result : Except ε α} {f : ε → δ} {a : α} :
    result.mapError f = .ok a ↔ result = .ok a := by
  cases result with
  | ok b =>
    constructor
    · intro done
      cases done
      rfl
    · intro done
      cases done
      rfl
  | error e =>
    constructor
    · intro done
      cases done
    · intro done
      cases done

theorem mapError_eq_error {result : Except ε α} {f : ε → δ} {d : δ} :
    result.mapError f = .error d ↔ ∃ e, result = .error e ∧ f e = d := by
  cases result with
  | ok a =>
    constructor
    · intro failed
      cases failed
    · rintro ⟨e, failed, -⟩
      cases failed
  | error e =>
    constructor
    · intro failed
      cases failed
      exact ⟨e, rfl, rfl⟩
    · rintro ⟨e, failed, rfl⟩
      cases failed
      rfl

theorem bind_eq_ok {result : Except ε α} {f : α → Except ε β} {b : β} :
    (result >>= f) = .ok b ↔ ∃ a, result = .ok a ∧ f a = .ok b := by
  cases result <;> simp [bind, Except.bind]

theorem bind_eq_error {result : Except ε α} {f : α → Except ε β} {e : ε} :
    (result >>= f) = .error e ↔
      result = .error e ∨ ∃ a, result = .ok a ∧ f a = .error e := by
  cases result <;> simp [bind, Except.bind]

end Script8255.Result
