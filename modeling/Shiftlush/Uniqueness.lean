import Shiftlush.Rows

namespace Shiftlush

/-!
# Partial unique indexes

A unique constraint with a condition: the rows that pass it have a key, the others have none,
and no two rows have the same one.  What the database asks before it writes a row is whether
another row has the key it would get.
-/

namespace Rows

variable {ρ κ : Type}

/-- No two rows have one key. -/
def Unique (key : ρ -> Option κ) (rows : Rows ρ) : Prop :=
  ∀ r ∈ rows, ∀ r' ∈ rows, ∀ k, key r.2 = some k -> key r'.2 = some k -> r.1 = r'.1

variable {key : ρ -> Option κ} {rows : Rows ρ}

theorem unique_nil : Unique key ([] : Rows ρ) := fun _ mem => absurd mem List.not_mem_nil

/-- A change that gives no row a key it did not have. -/
theorem Unique.updateWhere (unique : Unique key rows) {p : Nat -> ρ -> Bool} {f : ρ -> ρ}
    (fewer : ∀ row k, key (f row) = some k -> key row = some k) : Unique key (rows.updateWhere p f) := by
  have before : ∀ r ∈ rows.updateWhere p f, ∀ k, key r.2 = some k -> ∃ r' ∈ rows, r'.1 = r.1 ∧ key r'.2 = some k := by
    intro r mem k at_k
    rcases List.mem_map.mp mem with ⟨r', listed, rfl⟩
    split at at_k
    · rename_i chosen
      refine ⟨r', listed, by rw [if_pos chosen], fewer r'.2 k at_k⟩
    · rename_i other
      exact ⟨r', listed, by rw [if_neg other], at_k⟩
  intro r mem r' mem' k at_k at_k'
  rcases before r mem k at_k with ⟨first, listed, same, keyed⟩
  rcases before r' mem' k at_k' with ⟨second, listed', same', keyed'⟩
  rw [← same, ← same']
  exact unique first listed second listed' k keyed keyed'

section Clashes

variable [DecidableEq κ]

/-- Another row has the key this one would get. -/
def clashes (key : ρ -> Option κ) (rows : Rows ρ) (id : Nat) (row : ρ) : Bool :=
  (key row).isSome && rows.any (fun r => decide (r.1 ≠ id) && decide (key r.2 = key row))

theorem clashes_eq_false {id : Nat} {row : ρ} : clashes key rows id row = false ↔
    ∀ k, key row = some k -> ∀ r ∈ rows, key r.2 = some k -> r.1 = id := by
  unfold clashes
  rw [Bool.and_eq_false_iff]
  constructor
  · rintro (none_ | free) k at_k r mem same
    · rw [at_k] at none_
      cases none_
    · by_contra other
      have clear := List.any_eq_false.mp free r mem
      simp [other, same, at_k] at clear
  · intro free
    cases at_k : key row with
    | none => exact Or.inl rfl
    | some k =>
        refine Or.inr (List.any_eq_false.mpr (fun r mem both => ?_))
        simp only [Bool.and_eq_true, decide_eq_true_eq] at both
        exact both.1 (free k at_k r mem both.2)

/-- Rows that are the old ones, or have no key, or the key of a row that no other has. -/
theorem Unique.of_rows (unique : Unique key rows) {rows' : Rows ρ} {id : Nat}
    (old : ∀ r ∈ rows', r.1 ≠ id -> ∀ k, key r.2 = some k -> ∃ r' ∈ rows, r'.1 = r.1 ∧ key r'.2 = some k)
    (free : ∀ r ∈ rows', r.1 = id -> clashes key rows id r.2 = false) : Unique key rows' := by
  intro r mem r' mem' k at_k at_k'
  by_cases here : r.1 = id <;> by_cases here' : r'.1 = id
  · rw [here, here']
  · rcases old r' mem' here' k at_k' with ⟨before, listed, same, keyed⟩
    have first := clashes_eq_false.mp (free r mem here) k at_k before listed keyed
    rw [here, ← first, same]
  · rcases old r mem here k at_k with ⟨before, listed, same, keyed⟩
    have first := clashes_eq_false.mp (free r' mem' here') k at_k' before listed keyed
    rw [here', ← first, same]
  · rcases old r mem here k at_k with ⟨before, listed, same, keyed⟩
    rcases old r' mem' here' k at_k' with ⟨before', listed', same', keyed'⟩
    rw [← same, ← same']
    exact unique before listed before' listed' k keyed keyed'

theorem Unique.insert (unique : Unique key rows) {id : Nat} {row : ρ} (absent : ∀ r ∈ rows, r.1 ≠ id)
    (free : clashes key rows id row = false) : Unique key (rows.insert id row) := by
  refine @Unique.of_rows _ _ _ _ _ unique _ id ?_ ?_
  · intro r mem other k at_k
    rcases List.mem_append.mp mem with before | new
    · exact ⟨r, before, rfl, at_k⟩
    · exact absurd (by rw [List.mem_singleton.mp new]) other
  · intro r mem here
    rcases List.mem_append.mp mem with before | new
    · exact absurd here (absent r before)
    · rw [List.mem_singleton.mp new]
      exact free

theorem Unique.update (unique : Unique key rows) {id : Nat} {f : ρ -> ρ}
    (free : ∀ row, (id, row) ∈ rows -> clashes key rows id (f row) = false) : Unique key (rows.update id f) := by
  refine @Unique.of_rows _ _ _ _ _ unique _ id ?_ ?_
  · intro r mem other k at_k
    rcases Rows.mem_update.mp mem with ⟨before, _⟩ | ⟨row, _, rfl⟩
    · exact ⟨r, before, rfl, at_k⟩
    · exact absurd rfl other
  · intro r mem here
    rcases Rows.mem_update.mp mem with ⟨_, other⟩ | ⟨row, before, rfl⟩
    · exact absurd here other
    · exact free row before

/-- A row is written that gets no key it did not have. -/
theorem Unique.fade (unique : Unique key rows) {id : Nat} {f : ρ -> ρ}
    (fewer : ∀ row k, key (f row) = some k -> key row = some k) : Unique key (rows.update id f) := by
  apply unique.update
  intro row before
  apply clashes_eq_false.mpr
  intro k at_k r mem same
  exact unique r mem (id, row) before k same (fewer row k at_k)

end Clashes

end Rows
end Shiftlush
