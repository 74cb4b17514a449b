import Shiftlush.Rows

namespace Shiftlush
namespace Rows

/-!
# Rows written whether or not they are there

`INSERT … ON CONFLICT (key) DO UPDATE` over a list of rows, in batches.  One statement
may not touch a row twice, so a batch has its keys once; over several batches the last
row of a key stays.  A table that has what is written already is left as it is.
-/

variable {ρ : Type}

/-- One row of `INSERT … ON CONFLICT (key) DO UPDATE`. -/
def upsert (rows : Rows ρ) (id : Nat) (row : ρ) : Rows ρ :=
  if (rows.get? id).isSome then rows.update id (fun _ => row) else rows.insert id row

def upsertAll (rows new : Rows ρ) : Rows ρ := new.foldl (fun rows r => rows.upsert r.1 r.2) rows

/-- One statement: refused when it names a key twice. -/
def upsertBatch (rows batch : Rows ρ) : Option (Rows ρ) :=
  if batch.Distinct then some (rows.upsertAll batch) else none

/-- `[objs[i : i + size] for i in range(0, len(objs), size)]` -/
def chunks {α : Type} (size : Nat) (l : List α) : List (List α) :=
  (List.range ((l.length + size - 1) / size)).map (fun i => (l.drop (i * size)).take size)

/-- `bulk_create(…, batch_size=…, update_conflicts=True)` -/
def upsertBatches (size : Nat) (rows new : Rows ρ) : Option (Rows ρ) :=
  (chunks size new).foldlM upsertBatch rows

/-! ## One row -/

theorem get?_upsert (rows : Rows ρ) (id id' : Nat) (row : ρ) :
    (rows.upsert id row).get? id' = if id' = id then some row else rows.get? id' := by
  unfold upsert
  by_cases here : id' = id
  · subst here
    rw [if_pos rfl]
    cases found : rows.get? id' with
    | none =>
        rw [Option.isSome_none, if_neg Bool.false_ne_true]
        exact get?_insert_self found
    | some old => rw [Option.isSome_some, if_pos rfl, get?_update_self, found, Option.map_some]
  · rw [if_neg here]
    split
    · exact get?_update_of_ne here
    · exact get?_insert_of_ne (fun same => here same.symm)

theorem Distinct.upsert {rows : Rows ρ} (distinct : rows.Distinct) (id : Nat) (row : ρ) :
    (rows.upsert id row).Distinct := by
  unfold Rows.upsert
  split
  · exact distinct.update id _
  · rename_i absent
    apply distinct.insert
    simpa using absent

/-! ## A list of rows -/

@[simp] theorem upsertAll_nil (rows : Rows ρ) : rows.upsertAll [] = rows := rfl

@[simp] theorem upsertAll_cons (rows : Rows ρ) (r : Nat × ρ) (new : Rows ρ) :
    rows.upsertAll (r :: new) = (rows.upsert r.1 r.2).upsertAll new := rfl

theorem upsertAll_append (rows new new' : Rows ρ) :
    rows.upsertAll (new ++ new') = (rows.upsertAll new).upsertAll new' :=
  List.foldl_append

/-- The last row written under a key, or what was there. -/
theorem get?_upsertAll (rows new : Rows ρ) (id : Nat) :
    (rows.upsertAll new).get? id = (get? new.reverse id).or (rows.get? id) := by
  induction new generalizing rows with
  | nil => rfl
  | cons r new ih =>
      have last : get? (r :: new).reverse id = (get? new.reverse id).or (if r.1 = id then some r.2 else none) := by
        rw [List.reverse_cons]
        exact get?_insert new.reverse r.1 id r.2
      rw [upsertAll_cons, ih, last, get?_upsert]
      by_cases here : r.1 = id
      · subst here
        simp
      · have other : id ≠ r.1 := fun same => here same.symm
        simp [here, other]

theorem Distinct.upsertAll {rows : Rows ρ} (distinct : rows.Distinct) (new : Rows ρ) :
    (rows.upsertAll new).Distinct := by
  induction new generalizing rows with
  | nil => exact distinct
  | cons r new ih => exact ih (distinct.upsert r.1 r.2)

theorem isSome_upsertAll {rows : Rows ρ} (new : Rows ρ) {id : Nat} (here : (rows.get? id).isSome = true) :
    ((rows.upsertAll new).get? id).isSome = true := by
  rw [get?_upsertAll, Option.isSome_or, here, Bool.or_true]

/-! ## Rows that are there already -/

/-- Two tables with the same keys in the same order, and the same row under each. -/
theorem eq_of_keys {rows rows' : Rows ρ} (distinct : rows.Distinct)
    (keys : rows.map Prod.fst = rows'.map Prod.fst) (same : ∀ id, rows.get? id = rows'.get? id) : rows = rows' := by
  have distinct' : rows'.Distinct := by
    unfold Distinct
    rw [← keys]
    exact distinct
  have length : rows.length = rows'.length := by simpa using congrArg List.length keys
  apply List.ext_getElem length
  intro i inside inside'
  have key : rows[i].1 = rows'[i].1 := by
    have at_i : (rows.map Prod.fst)[i]? = (rows'.map Prod.fst)[i]? := by rw [keys]
    simpa [inside, inside'] using at_i
  have left : rows.get? rows[i].1 = some rows[i].2 := get?_of_mem distinct (List.getElem_mem inside)
  have right : rows'.get? rows'[i].1 = some rows'[i].2 := get?_of_mem distinct' (List.getElem_mem inside')
  rw [same, key, right] at left
  exact Prod.ext key (Option.some.inj left).symm

theorem keys_upsertAll {rows new : Rows ρ} (there : ∀ r ∈ new, (rows.get? r.1).isSome = true) :
    (rows.upsertAll new).map Prod.fst = rows.map Prod.fst := by
  induction new generalizing rows with
  | nil => rfl
  | cons r new ih =>
      have here := there r List.mem_cons_self
      have updated : rows.upsert r.1 r.2 = rows.update r.1 (fun _ => r.2) := if_pos here
      rw [upsertAll_cons, updated, ih, keys_update]
      intro r' mem
      rw [get?_update]
      split
      · rw [Option.isSome_map]
        exact there r' (List.mem_cons_of_mem _ mem)
      · exact there r' (List.mem_cons_of_mem _ mem)

/-- Writing what a table has under each key changes nothing of it. -/
theorem upsertAll_eq_self {rows new : Rows ρ} (distinct : rows.Distinct)
    (there : ∀ id row, get? new.reverse id = some row -> rows.get? id = some row) : rows.upsertAll new = rows := by
  have last : ∀ r ∈ new, ∃ row, get? new.reverse r.1 = some row := by
    intro r mem
    cases found : get? new.reverse r.1 with
    | some row => exact ⟨row, rfl⟩
    | none => exact absurd (List.mem_reverse.mpr mem) (get?_eq_none.mp found r.2)
  have present : ∀ r ∈ new, (rows.get? r.1).isSome = true := by
    intro r mem
    rcases last r mem with ⟨row, found⟩
    rw [there r.1 row found, Option.isSome_some]
  refine (eq_of_keys distinct (keys_upsertAll present).symm ?_).symm
  intro id
  rw [get?_upsertAll]
  cases found : get? new.reverse id with
  | none => rw [Option.none_or]
  | some row => rw [there id row found, Option.some_or]

/-! ## Batches -/

theorem flatten_slices {α : Type} (size : Nat) (l : List α) (count : Nat) :
    ((List.range count).map (fun i => (l.drop (i * size)).take size)).flatten = l.take (count * size) := by
  induction count with
  | zero => simp
  | succ count ih => simp [List.range_succ, ih, Nat.succ_mul, List.take_add]

theorem flatten_chunks {α : Type} {size : Nat} (positive : 0 < size) (l : List α) : (chunks size l).flatten = l := by
  have enough : l.length ≤ (l.length + size - 1) / size * size := by
    have split := Nat.div_add_mod (l.length + size - 1) size
    have lower := Nat.mod_lt (l.length + size - 1) positive
    rw [Nat.mul_comm] at split
    omega
  unfold chunks
  rw [flatten_slices, List.take_of_length_le enough]

theorem foldlM_upsertBatch {batches : List (Rows ρ)} {rows after : Rows ρ}
    (ok : batches.foldlM upsertBatch rows = some after) : after = rows.upsertAll batches.flatten := by
  induction batches generalizing rows with
  | nil => exact (Option.some.inj ok).symm
  | cons batch batches ih =>
      rw [List.foldlM_cons] at ok
      rcases Option.bind_eq_some_iff.mp ok with ⟨between, first, rest⟩
      unfold upsertBatch at first
      split at first
      · rw [List.flatten_cons, upsertAll_append, Option.some.inj first]
        exact ih rest
      · cases first

/-- The batches of one call come to one write of all its rows. -/
theorem upsertBatches_eq {size : Nat} (positive : 0 < size) {rows new after : Rows ρ}
    (ok : upsertBatches size rows new = some after) :
    after = rows.upsertAll new := by
  have whole := foldlM_upsertBatch ok
  rwa [flatten_chunks positive] at whole

/-- Whether the batches are refused is up to the rows written alone. -/
theorem isSome_upsertBatches (size : Nat) (rows rows' new : Rows ρ) :
    (upsertBatches size rows new).isSome = (upsertBatches size rows' new).isSome := by
  unfold upsertBatches
  induction chunks size new generalizing rows rows' with
  | nil => rfl
  | cons batch batches ih =>
      rw [List.foldlM_cons, List.foldlM_cons]
      unfold upsertBatch
      split
      · exact ih _ _
      · rfl

/-! ## Rows taken away -/

theorem get?_filter {rows : Rows ρ} (distinct : rows.Distinct) (p : Nat × ρ -> Bool) (id : Nat) :
    get? (List.filter p rows) id = (rows.get? id).filter (fun row => p (id, row)) := by
  cases found : get? (List.filter p rows) id with
  | some row =>
      have mem := List.mem_filter.mp (mem_of_get? found)
      rw [get?_of_mem distinct mem.1, Option.filter_some, if_pos mem.2]
  | none =>
      cases before : rows.get? id with
      | none => rfl
      | some row =>
          rw [Option.filter_some]
          split
          · rename_i passes
            exact absurd (List.mem_filter.mpr ⟨mem_of_get? before, passes⟩) (get?_eq_none.mp found row)
          · rfl

end Rows
end Shiftlush
