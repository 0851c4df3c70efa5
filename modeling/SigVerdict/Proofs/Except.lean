set_option autoImplicit false

/-! # Results of steps that can fail -/

namespace SigVerdict

variable {ε α β : Type} {x : Except ε α} {b : β}

/-- Two steps succeed one after the other when each of them succeeds. -/
theorem bind_eq_ok_iff {f : α → Except ε β} : x >>= f = .ok b ↔ ∃ a, x = .ok a ∧ f a = .ok b := by
  rcases x with e | a
  · exact ⟨nofun, nofun⟩
  · exact ⟨fun h => ⟨a, rfl, h⟩, fun ⟨_, rfl, h⟩ => h⟩

/-- Of two steps one after the other, the first one fails, or else the second one. -/
theorem bind_eq_error_iff {f : α → Except ε β} {e : ε} :
    x >>= f = .error e ↔ x = .error e ∨ ∃ a, x = .ok a ∧ f a = .error e := by
  rcases x with other | a
  · show Except.error other = .error e ↔ _
    simp
  · show f a = .error e ↔ _
    simp

theorem map_eq_ok_iff {f : α → β} : x.map f = .ok b ↔ ∃ a, x = .ok a ∧ f a = b := by
  rcases x with e | a
  · exact ⟨nofun, nofun⟩
  · rw [Except.map, Except.ok.injEq]
    exact ⟨fun h => ⟨a, rfl, h⟩, fun ⟨_, rfl, h⟩ => h⟩

theorem map_eq_error_iff {f : α → β} {e : ε} : x.map f = .error e ↔ x = .error e := by
  rcases x with other | a
  · rw [Except.map, Except.error.injEq, Except.error.injEq]
  · exact ⟨nofun, nofun⟩

theorem mapError_eq_error_iff {ε' : Type} {f : ε → ε'} {e : ε'} :
    x.mapError f = .error e ↔ ∃ cause, x = .error cause ∧ f cause = e := by
  rcases x with cause | a
  · show Except.error (f cause) = .error e ↔ _
    simp
  · exact ⟨nofun, nofun⟩

end SigVerdict
