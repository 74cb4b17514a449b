import Shiftlush.Rows

namespace Shiftlush
namespace Saves

/-!
# Saving an instance

What an object mapper makes of `save`.  A new instance is inserted under the key it was given.  One that
was read is an `UPDATE` of the row under its key, through the manager of its table: a row the manager
does not show is not reached.  Then the whole instance is inserted, and the key is taken; or, where only
some fields are saved, nothing is.
-/

inductive Refusal where
  | integrityError
  | notUpdated
  deriving DecidableEq, Repr

inductive Kind where
  /-- Of an instance that was never stored. -/
  | new
  | whole
  /-- Of some fields, with `update_fields`. -/
  | named
  deriving DecidableEq, Repr

inductive Write where
  | insert
  | update
  deriving DecidableEq, Repr

variable {ρ : Type}

/-- What a save writes, by the row that is stored under its key. -/
def write (shows : ρ -> Bool) (kind : Kind) : Option ρ -> Except Refusal Write
  | none =>
      match kind with
      | .named => .error .notUpdated
      | _ => .ok .insert
  | some row =>
      match kind with
      | .new => .error .integrityError
      | .whole => if shows row then .ok .update else .error .integrityError
      | .named => if shows row then .ok .update else .error .notUpdated

variable {shows : ρ -> Bool} {kind : Kind} {stored : Option ρ} {row : ρ}

theorem write_eq_update : write shows kind stored = .ok .update ↔
    kind ≠ .new ∧ ∃ row, stored = some row ∧ shows row = true := by
  cases stored with
  | none => cases kind <;> simp [write]
  | some row => cases kind <;> cases here : shows row <;> simp [write, here]

theorem write_eq_insert : write shows kind stored = .ok .insert ↔ kind ≠ .named ∧ stored = none := by
  cases stored with
  | none => cases kind <;> simp [write]
  | some row => cases kind <;> cases here : shows row <;> simp [write, here]

/-- An instance that was read is written where the manager shows its row. -/
theorem write_of_shows (read : kind ≠ .new) (here : shows row = true) :
    write shows kind (some row) = .ok .update :=
  write_eq_update.mpr ⟨read, row, rfl, here⟩

end Saves
end Shiftlush
