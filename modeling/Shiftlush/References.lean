import Shiftlush.Rows

namespace Shiftlush
namespace References

/-!
# Rows that are struck out and stay

A table whose rows carry a mark of deletion instead of being removed, and rows of another that point
to it.  Nothing in the database stops a row from pointing to one that is struck out: that none does
is kept by asking, before a row is struck out, whether anything that lives points to it.
-/

variable {ρ σ : Type}

/-- A row that can be struck out. -/
class SoftDelete (ρ : Type) where
  isDeleted : ρ -> Bool
  delete : ρ -> ρ
  isDeleted_delete : ∀ row, isDeleted (delete row) = true

export SoftDelete (isDeleted)

section Tables

variable [SoftDelete ρ]

def alive (r : Nat × ρ) : Bool := !isDeleted r.2

def find? (rows : Rows ρ) (id : Nat) : Option ρ := (rows.get? id).filter (fun row => !isDeleted row)

def lives (rows : Rows ρ) (id : Nat) : Bool := (find? rows id).isSome

def strike (rows : Rows ρ) (id : Nat) : Rows ρ := rows.update id SoftDelete.delete

variable {rows : Rows ρ} {id : Nat} {row : ρ}

theorem alive_iff {r : Nat × ρ} : alive r = true ↔ isDeleted r.2 = false := by
  unfold alive
  rw [Bool.not_eq_true']

theorem alive_kept {f : ρ -> ρ} (keeps : ∀ row, isDeleted (f row) = isDeleted row) (row : ρ)
    (here : alive (id, f row) = true) : alive (id, row) = true := by
  rw [alive_iff] at here ⊢
  rw [← keeps]
  exact here

theorem find?_eq_some : find? rows id = some row ↔ rows.get? id = some row ∧ isDeleted row = false := by
  unfold find?
  rw [Option.filter_eq_some_iff]
  simp

theorem lives_iff : lives rows id = true ↔ ∃ row, rows.get? id = some row ∧ isDeleted row = false := by
  unfold lives
  rw [Option.isSome_iff_exists]
  exact exists_congr (fun _ => find?_eq_some)

theorem lives_insert_of_lives {id' : Nat} (here : lives rows id' = true) : lives (rows.insert id row) id' = true := by
  rcases lives_iff.mp here with ⟨old, found, kept⟩
  exact lives_iff.mpr ⟨old, Rows.get?_insert_of_some found, kept⟩

theorem find?_insert {id' : Nat} {row' : ρ} (found : find? (rows.insert id row) id' = some row') :
    find? rows id' = some row' ∨ (id' = id ∧ row' = row) := by
  rcases find?_eq_some.mp found with ⟨there, kept⟩
  rw [Rows.get?_insert] at there
  rcases Option.or_eq_some_iff.mp there with old | ⟨_, new⟩
  · exact Or.inl (find?_eq_some.mpr ⟨old, kept⟩)
  · split at new
    · rename_i same
      exact Or.inr ⟨same.symm, (Option.some.inj new).symm⟩
    · cases new

/-- A row is written, its mark left as it is. -/
theorem find?_update {f : ρ -> ρ} (keeps : ∀ row, isDeleted (f row) = isDeleted row) (id' : Nat) :
    find? (rows.update id f) id' = if id' = id then (find? rows id').map f else find? rows id' := by
  unfold find?
  rw [Rows.get?_update]
  split
  · cases rows.get? id' with
    | none => rfl
    | some row =>
        rw [Option.map_some, Option.filter_some, Option.filter_some, keeps]
        split <;> rfl
  · rfl

theorem find?_strike (id' : Nat) : find? (strike rows id) id' = if id' = id then none else find? rows id' := by
  unfold find? strike
  rw [Rows.get?_update]
  split
  · cases rows.get? id' with
    | none => rfl
    | some row =>
        rw [Option.map_some, Option.filter_some, SoftDelete.isDeleted_delete]
        rfl
  · rfl

theorem lives_update {f : ρ -> ρ} (keeps : ∀ row, isDeleted (f row) = isDeleted row) (id' : Nat) :
    lives (rows.update id f) id' = lives rows id' := by
  unfold lives
  rw [find?_update keeps]
  split
  · rw [Option.isSome_map]
  · rfl

theorem lives_strike (id' : Nat) : lives (strike rows id) id' = (lives rows id' && decide (id' ≠ id)) := by
  unfold lives
  rw [find?_strike]
  split
  · rename_i same
    rw [same]
    simp
  · rename_i other
    rw [decide_eq_true other, Bool.and_true]

end Tables

/-! ## What lives points to what lives -/

/-- The rows that count point to something that lives, if they point. -/
def Refers (rows : Rows ρ) (counts : Nat × ρ -> Bool) (points : ρ -> Option Nat) (live : Nat -> Bool) : Prop :=
  ∀ r ∈ rows, counts r = true -> ∀ id, points r.2 = some id -> live id = true

section Refers

variable {rows : Rows ρ} {counts : Nat × ρ -> Bool} {points : ρ -> Option Nat} {live live' : Nat -> Bool}

theorem refers_nil : Refers ([] : Rows ρ) counts points live := by
  intro r mem
  cases mem

theorem Refers.mono (refers : Refers rows counts points live) (more : ∀ id, live id = true -> live' id = true) :
    Refers rows counts points live' :=
  fun r mem here id at_id => more id (refers r mem here id at_id)

theorem Refers.congr (refers : Refers rows counts points live) (same : ∀ id, live' id = live id) :
    Refers rows counts points live' :=
  refers.mono (fun id here => (same id).trans here)

/-- Every row that counts was there before, or points to what lives. -/
theorem Refers.of_rows {rows' : Rows ρ} (refers : Refers rows counts points live) {counts' : Nat × ρ -> Bool}
    (each : ∀ r ∈ rows', counts' r = true -> ∀ id, points r.2 = some id -> live id = true ∨
      ∃ r' ∈ rows, counts r' = true ∧ points r'.2 = some id) :
    Refers rows' counts' points live := by
  intro r mem here id at_id
  rcases each r mem here id at_id with lives | ⟨r', mem', here', at_id'⟩
  · exact lives
  · exact refers r' mem' here' id at_id'

theorem Refers.insert (refers : Refers rows counts points live) {id : Nat} {row : ρ}
    (new : ∀ id', points row = some id' -> live id' = true) : Refers (rows.insert id row) counts points live := by
  apply refers.of_rows
  intro r mem here id' at_id
  rcases List.mem_append.mp mem with old | last
  · exact Or.inr ⟨r, old, here, at_id⟩
  · rw [List.mem_singleton.mp last] at at_id
    exact Or.inl (new id' at_id)

/-- A row is written: it points where it did, or to something that lives. -/
theorem Refers.update (refers : Refers rows counts points live) {id : Nat} {f : ρ -> ρ}
    (keeps : ∀ row, counts (id, f row) = true -> counts (id, row) = true)
    (moved : ∀ row id', points (f row) = some id' -> points row = some id' ∨ live id' = true) :
    Refers (rows.update id f) counts points live := by
  apply refers.of_rows
  intro r mem here id' at_id
  rcases Rows.mem_update.mp mem with ⟨old, _⟩ | ⟨row, old, rfl⟩
  · exact Or.inr ⟨r, old, here, at_id⟩
  · rcases moved row id' at_id with stays | there
    · exact Or.inr ⟨_, old, keeps row here, stays⟩
    · exact Or.inl there

theorem Refers.move {owner : ρ -> Nat} (refers : Refers rows counts (fun row => some (owner row)) live) {id : Nat}
    {f : ρ -> ρ} (keeps : ∀ row, counts (id, f row) = true -> counts (id, row) = true)
    (moved : ∀ row, owner (f row) = owner row ∨ live (owner (f row)) = true) :
    Refers (rows.update id f) counts (fun row => some (owner row)) live := by
  apply refers.update keeps
  intro row id' named
  cases named
  rcases moved row with stays | there
  · exact Or.inl (congrArg some stays.symm)
  · exact Or.inr there

/-- What nothing points to may go. -/
theorem Refers.leave (refers : Refers rows counts points live) {gone : Nat}
    (gone_only : ∀ id, live' id = (live id && decide (id ≠ gone)))
    (unreferenced : rows.any (fun r => counts r && decide (points r.2 = some gone)) = false) :
    Refers rows counts points live' := by
  intro r mem here id at_id
  rw [gone_only, refers r mem here id at_id, Bool.true_and]
  apply decide_eq_true
  rintro rfl
  have none_ := List.any_eq_false.mp unreferenced r mem
  rw [here, at_id] at none_
  simp at none_

theorem Refers.strike [SoftDelete ρ] (refers : Refers rows alive points live) (id : Nat)
    (keeps : ∀ row : ρ, points (SoftDelete.delete row) = points row) : Refers (strike rows id) alive points live := by
  apply refers.update
  · intro row here
    unfold alive at here
    rw [SoftDelete.isDeleted_delete] at here
    cases here
  · intro row id' at_id
    rw [keeps] at at_id
    exact Or.inl at_id

end Refers

/-! ## Counts -/

section Counts

variable {rows : Rows ρ} {targets : Rows σ} {counts p : Nat × ρ -> Bool} {q : Nat × σ -> Bool}

theorem countP_eq_total (rows : Rows ρ) (p : Nat × ρ -> Bool) :
    rows.countP p = Rows.total (List.filter p rows) (fun _ _ => 1) := by
  rw [List.countP_eq_length_filter]
  induction List.filter p rows with
  | nil => rfl
  | cons r rest ih => rw [List.length_cons, Rows.total_cons, ih, Nat.add_comm]

/-- Rows counted through the rows of another table they point to. -/
theorem countP_group (distinct : targets.Distinct) (points : ρ -> Option Nat)
    (joins : ∀ r ∈ rows, p r = true ↔ counts r = true ∧ ∃ t ∈ targets, q t = true ∧ points r.2 = some t.1) :
    rows.countP p = Rows.total (List.filter q targets)
      (fun id _ => rows.countP (fun r => counts r && decide (points r.2 = some id))) := by
  have known : ∀ r ∈ List.filter p rows,
      (Rows.get? (List.filter q targets) ((points r.2).getD 0)).isSome = true := by
    intro r mem
    rcases List.mem_filter.mp mem with ⟨old, here⟩
    rcases ((joins r old).mp here).2 with ⟨t, there, passes, at_t⟩
    rw [at_t, Option.getD_some, Rows.get?_of_mem (distinct.filter q) (List.mem_filter.mpr ⟨there, passes⟩)]
    rfl
  rw [countP_eq_total, Rows.total_group (distinct.filter q) (fun row => (points row).getD 0) known]
  refine Rows.total_congr (fun t listed => ?_)
  rcases List.mem_filter.mp listed with ⟨there, passes⟩
  rw [List.filter_filter, countP_eq_total]
  congr 1
  apply List.filter_congr
  intro r mem
  rw [Bool.eq_iff_iff, Bool.and_eq_true, Bool.and_eq_true, decide_eq_true_eq, decide_eq_true_eq, joins r mem]
  constructor
  · rintro ⟨same, here, _, _, _, at_t⟩
    rw [at_t, Option.getD_some] at same
    rw [at_t, same]
    exact ⟨here, rfl⟩
  · rintro ⟨here, at_t⟩
    rw [at_t, Option.getD_some]
    exact ⟨rfl, here, t, there, passes, rfl⟩

end Counts

end References
end Shiftlush
