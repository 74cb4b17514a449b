import Mathlib.Tactic.Common

namespace Shiftlush

/-! # Results that may be errors -/

variable {ε α β : Type}

theorem ok_bind {a : α} {rest : α -> Except ε β} : (Except.ok a >>= rest) = rest a := rfl

theorem error_bind {failure : ε} {rest : α -> Except ε β} :
    (Except.error failure >>= rest) = .error failure := rfl

theorem map_ok {a : α} {f : α -> β} : (Except.ok a : Except ε α).map f = .ok (f a) := rfl

/-- A computation succeeds in two parts. -/
theorem bind_ok {first : Except ε α} {rest : α -> Except ε β} {b : β} :
    (first >>= rest) = .ok b ↔ ∃ a, first = .ok a ∧ rest a = .ok b := by
  cases first with
  | error failure =>
      constructor
      · intro impossible
        cases impossible
      · rintro ⟨a, impossible, _⟩
        cases impossible
  | ok a =>
      constructor
      · intro done
        exact ⟨a, rfl, done⟩
      · rintro ⟨a', same, done⟩
        cases same
        exact done

end Shiftlush
