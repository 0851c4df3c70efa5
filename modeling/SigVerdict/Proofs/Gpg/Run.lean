import SigVerdict.Gpg.Run

set_option autoImplicit false

/-! # Runs that end

A run ends when its command is started, nothing goes wrong in between, and the command ends within
the time limit. Then verifying gives the run that its octets and its exit code say
(`Verifier.verify_of_ends`); otherwise it gives a fault that says nothing about the signature
(`Verifier.ends_or_verify_fault`). -/

namespace SigVerdict.Gpg

/-- The command over a signature of a manifest ends in time, having written these octets to its
    status descriptor; the exit code is missing if a signal killed it. -/
def Verifier.Ends (v : Verifier) (launcher : Launcher) (manifest signature : String)
    (status : List UInt8) (exit : Option Nat) : Prop :=
  ∃ took, launcher.start (v.command launcher.descriptor manifest signature) =
      .ended took status exit ∧
    ∀ limit, v.timeout = some limit → took ≤ limit.toNanos

/-- The exit code of a run; a run that a signal killed has -1. -/
def exitCodeOf : Option Nat → Int
  | some n => n
  | none => -1

theorem exitCodeOf_eq_zero_iff {exit : Option Nat} : exitCodeOf exit = 0 ↔ exit = some 0 := by
  cases exit with
  | none => decide
  | some n => simp [exitCodeOf]

namespace Run

@[simp] theorem exitCode_ofEnd (status : List UInt8) (exit : Option Nat) :
    (ofEnd status exit).exitCode = exitCodeOf exit := by
  cases exit <;> rfl

@[simp] theorem items_ofEnd (status : List UInt8) (exit : Option Nat) :
    (ofEnd status exit).items = Status.items (Text.Utf8.decodeLossy status) := by
  rw [items, ofEnd, String.toList_ofList]

theorem success_ofEnd_iff {status : List UInt8} {exit : Option Nat} :
    (ofEnd status exit).success = true ↔ exit = some 0 := by
  rw [success, beq_iff_eq, exitCode_ofEnd, exitCodeOf_eq_zero_iff]

end Run

/-- A launcher whose commands write what they are given to their status descriptor, and succeed. -/
def Launcher.echo : Launcher := ⟨3, fun c => .ended 0 (Text.Utf8.encode c.input.toList) (some 0)⟩

namespace Verifier

variable {v : Verifier} {launcher : Launcher} {manifest signature : String}

/-- A run that ended is what its octets and its exit code say. -/
theorem verify_of_ends {status : List UInt8} {exit : Option Nat}
    (h : v.Ends launcher manifest signature status exit) :
    v.verify launcher manifest signature = .ok (.ofEnd status exit) := by
  obtain ⟨took, hstart, htime⟩ := h
  rw [verify_eq, hstart, conclude]
  cases hlimit : v.timeout with
  | none => rfl
  | some limit => exact if_pos (htime limit hlimit)

variable (v launcher manifest signature) in
/-- A run ends, or it is cut short by a fault that does not speak about the signature. -/
theorem ends_or_verify_fault :
    (∃ status exit, v.Ends launcher manifest signature status exit) ∨
      ∃ fault, v.verify launcher manifest signature = .error fault ∧ ∀ r, fault ≠ .rejected r := by
  cases hstart : launcher.start (v.command launcher.descriptor manifest signature) with
  | notStarted cause =>
      refine Or.inr ⟨.spawn (v.command launcher.descriptor manifest signature).line cause,
        ?_, nofun⟩
      rw [verify_eq, hstart, conclude]
  | broken stage cause =>
      refine Or.inr ⟨.exchange stage.failure cause, ?_, nofun⟩
      rw [verify_eq, hstart, conclude]
  | ended took status exit =>
      cases hlimit : v.timeout with
      | none => exact Or.inl ⟨status, exit, took, hstart, by simp [hlimit]⟩
      | some limit =>
          by_cases htime : took ≤ limit.toNanos
          · exact Or.inl ⟨status, exit, took, hstart, by simpa [hlimit] using htime⟩
          · refine Or.inr ⟨.timeout (v.command launcher.descriptor manifest signature).line limit,
              ?_, nofun⟩
            rw [verify_eq, hstart, conclude]
            simp only [hlimit, if_neg htime]

end Verifier

end SigVerdict.Gpg
