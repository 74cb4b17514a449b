import Mathlib.Algebra.BigOperators.Group.List.Basic
import Mathlib.Algebra.Order.BigOperators.Group.List
import Mathlib.Algebra.Order.Group.Int
import Mathlib.Data.List.Sort
import Mathlib.Tactic.Abel

namespace Shiftlush

/-!
# Rows under primary keys

A table is the list of its rows in the order they were inserted, each with its
key.  Keys are natural numbers: what the code uses of a key is that it is
unique and that later rows have larger ones.  `total` is the aggregate `Sum`.
-/

abbrev Rows (ρ : Type) := List (Nat × ρ)

namespace Rows

variable {ρ M : Type}

def get? (rows : Rows ρ) (id : Nat) : Option ρ :=
  (List.find? (fun r => decide (r.1 = id)) rows).map Prod.snd

def insert (rows : Rows ρ) (id : Nat) (row : ρ) : Rows ρ := rows ++ [(id, row)]

/-- `UPDATE … WHERE id = …`. -/
def update (rows : Rows ρ) (id : Nat) (f : ρ -> ρ) : Rows ρ :=
  rows.map (fun r => if r.1 = id then (r.1, f r.2) else r)

/-- `UPDATE … WHERE …`. -/
def updateWhere (rows : Rows ρ) (p : Nat -> ρ -> Bool) (f : ρ -> ρ) : Rows ρ :=
  rows.map (fun r => if p r.1 r.2 then (r.1, f r.2) else r)

def Distinct (rows : Rows ρ) : Prop := (rows.map Prod.fst).Nodup

instance (rows : Rows ρ) : Decidable rows.Distinct :=
  inferInstanceAs (Decidable (rows.map Prod.fst).Nodup)

def total [AddCommMonoid M] (rows : Rows ρ) (f : Nat -> ρ -> M) : M :=
  (rows.map (fun r => f r.1 r.2)).sum

/-! ## Looking a row up -/

theorem get?_insert (rows : Rows ρ) (id id' : Nat) (row : ρ) :
    (rows.insert id row).get? id' = (rows.get? id').or (if id = id' then some row else none) := by
  unfold get? insert
  rw [List.find?_append]
  cases List.find? (fun r => decide (r.1 = id')) rows with
  | some r => rfl
  | none => by_cases same : id = id' <;> simp [same]

theorem get?_insert_of_ne {rows : Rows ρ} {id id' : Nat} {row : ρ} (different : id ≠ id') :
    (rows.insert id row).get? id' = rows.get? id' := by
  rw [get?_insert, if_neg different, Option.or_none]

theorem get?_insert_self {rows : Rows ρ} {id : Nat} {row : ρ} (absent : rows.get? id = none) :
    (rows.insert id row).get? id = some row := by
  rw [get?_insert, absent, if_pos rfl, Option.none_or]

theorem get?_insert_of_some {rows : Rows ρ} {id id' : Nat} {row row' : ρ}
    (found : rows.get? id' = some row') : (rows.insert id row).get? id' = some row' := by
  rw [get?_insert, found, Option.some_or]

theorem get?_update (rows : Rows ρ) (id id' : Nat) (f : ρ -> ρ) :
    (rows.update id f).get? id' = if id' = id then (rows.get? id').map f else rows.get? id' := by
  unfold get? update
  induction rows with
  | nil => simp
  | cons r rows ih =>
      rw [List.map_cons, List.find?_cons, List.find?_cons]
      by_cases at_id : r.1 = id <;> by_cases at_id' : r.1 = id'
      · subst at_id
        simp [at_id']
      · simp only [at_id, if_true]
        rw [at_id] at at_id'
        simp only [at_id', decide_false]
        exact ih
      · have other : ¬ id' = id := fun same => at_id (at_id'.trans same)
        simp [at_id', other]
      · simp only [at_id, if_false, at_id', decide_false]
        exact ih

theorem get?_update_self (rows : Rows ρ) (id : Nat) (f : ρ -> ρ) :
    (rows.update id f).get? id = (rows.get? id).map f := by
  rw [get?_update, if_pos rfl]

theorem get?_update_of_ne {rows : Rows ρ} {id id' : Nat} {f : ρ -> ρ} (different : id' ≠ id) :
    (rows.update id f).get? id' = rows.get? id' := by
  rw [get?_update, if_neg different]

/-- The first row of its key is the first of those that are chosen, if it is. -/
theorem get?_filter_of_get? {rows : Rows ρ} {p : Nat × ρ -> Bool} {id : Nat} {row : ρ}
    (found : rows.get? id = some row) (chosen : p (id, row) = true) :
    get? (rows.filter p) id = some row := by
  unfold get? at found ⊢
  rcases Option.map_eq_some_iff.mp found with ⟨r, first, rfl⟩
  have here : r.1 = id := by simpa using List.find?_some first
  subst here
  rcases List.find?_eq_some_iff_append.mp first with ⟨own, before, after, rfl, earlier⟩
  have later : ∀ other ∈ List.filter p before, (!decide (other.1 = r.1)) = true :=
    fun other mem => earlier other (List.mem_filter.mp mem).1
  have first' : List.find? (fun other => decide (other.1 = r.1)) (List.filter p (before ++ r :: after)) = some r := by
    rw [List.filter_append, List.filter_cons_of_pos chosen]
    exact List.find?_eq_some_iff_append.mpr ⟨own, _, _, rfl, later⟩
  rw [first', Option.map_some]

theorem mem_of_get? {rows : Rows ρ} {id : Nat} {row : ρ} (found : rows.get? id = some row) :
    (id, row) ∈ rows := by
  unfold get? at found
  rcases Option.map_eq_some_iff.mp found with ⟨r, at_r, rfl⟩
  have same : r.1 = id := by simpa using List.find?_some at_r
  exact same ▸ List.mem_of_find?_eq_some at_r

theorem get?_eq_none {rows : Rows ρ} {id : Nat} :
    rows.get? id = none ↔ ∀ row, (id, row) ∉ rows := by
  unfold get?
  rw [Option.map_eq_none_iff, List.find?_eq_none]
  constructor
  · intro absent row mem
    exact absent _ mem (by simp)
  · intro absent r mem at_id
    have same : r.1 = id := by simpa using at_id
    exact absent r.2 (same ▸ mem)

theorem get?_of_mem {rows : Rows ρ} (distinct : rows.Distinct) {id : Nat} {row : ρ}
    (mem : (id, row) ∈ rows) : rows.get? id = some row := by
  cases found : rows.get? id with
  | none => exact absurd mem (get?_eq_none.mp found row)
  | some row' =>
      have mem' := mem_of_get? found
      have := List.inj_on_of_nodup_map distinct mem mem' rfl
      exact congrArg some (Prod.mk.inj this).2.symm

theorem unique {rows : Rows ρ} (distinct : rows.Distinct) {r r' : Nat × ρ} (mem : r ∈ rows)
    (mem' : r' ∈ rows) (same : r.1 = r'.1) : r = r' :=
  List.inj_on_of_nodup_map distinct mem mem' same

/-- Rows rewritten under their keys. -/
theorem get?_map {rows : Rows ρ} {f : Nat × ρ -> Nat × ρ} (keyed : ∀ r, (f r).1 = r.1) (id : Nat) :
    get? (rows.map f) id = (rows.get? id).map (fun row => (f (id, row)).2) := by
  unfold get?
  induction rows with
  | nil => rfl
  | cons r rows ih =>
      rw [List.map_cons, List.find?_cons, List.find?_cons, keyed r]
      by_cases here : r.1 = id
      · subst here
        simp only [decide_true, Option.map_some]
      · simp only [here, decide_false]
        exact ih

theorem get?_updateWhere (rows : Rows ρ) (p : Nat -> ρ -> Bool) (f : ρ -> ρ) (id : Nat) :
    (rows.updateWhere p f).get? id = (rows.get? id).map (fun row => if p id row then f row else row) := by
  unfold updateWhere
  have keyed : ∀ r : Nat × ρ, (if p r.1 r.2 then (r.1, f r.2) else r).1 = r.1 := by
    intro r
    split
    · rfl
    · rfl
  rw [get?_map keyed]
  congr 1
  funext row
  split
  · rfl
  · rfl

theorem isSome_get?_updateWhere (rows : Rows ρ) (p : Nat -> ρ -> Bool) (f : ρ -> ρ) (id : Nat) :
    ((rows.updateWhere p f).get? id).isSome = (rows.get? id).isSome := by
  rw [get?_updateWhere, Option.isSome_map]

theorem get?_append (rows rows' : Rows ρ) (id : Nat) :
    get? (rows ++ rows') id = (rows.get? id).or (rows'.get? id) := by
  unfold get?
  rw [List.find?_append]
  cases List.find? (fun r => decide (r.1 = id)) rows with
  | some r => rfl
  | none => rfl

theorem isSome_get?_update (rows : Rows ρ) (id id' : Nat) (f : ρ -> ρ) :
    ((rows.update id f).get? id').isSome = (rows.get? id').isSome := by
  rw [get?_update]
  split
  · rw [Option.isSome_map]
  · rfl

/-! ## What two tables agree on -/

section Agreeing

variable {rows rows' : Rows ρ} {id id' : Nat} {f : ρ -> ρ}

/-- An update finds the same row wherever it is kept. -/
theorem update_kept (kept : ∀ row, rows.get? id' = some row -> rows'.get? id' = some row) :
    ∀ row, (rows.update id f).get? id' = some row -> (rows'.update id f).get? id' = some row := by
  intro row found
  rw [get?_update] at found ⊢
  split at found
  · rename_i here
    rw [if_pos here]
    rcases Option.map_eq_some_iff.mp found with ⟨before, listed, rfl⟩
    rw [kept before listed, Option.map_some]
  · rename_i other
    rw [if_neg other]
    exact kept row found

theorem update_same (same : rows'.get? id' = rows.get? id') :
    (rows'.update id f).get? id' = (rows.update id f).get? id' := by
  rw [get?_update, get?_update, same]

theorem update_absent (absent : rows.get? id' = none) : (rows.update id f).get? id' = none := by
  rw [get?_update, absent]
  split
  · rfl
  · rfl

theorem update_other (kept : ∀ row, rows.get? id' = some row -> rows'.get? id' = some row)
    (other : id' ≠ id) : ∀ row, rows.get? id' = some row -> (rows'.update id f).get? id' = some row := by
  intro row found
  rw [get?_update_of_ne other]
  exact kept row found

theorem insert_kept {new : ρ} (kept : ∀ row, rows.get? id' = some row -> rows'.get? id' = some row)
    (same : rows'.get? id = rows.get? id) :
    ∀ row, (rows.insert id new).get? id' = some row -> (rows'.insert id new).get? id' = some row := by
  intro row found
  by_cases here : id = id'
  · subst here
    rw [get?_insert] at found ⊢
    rw [same]
    exact found
  · rw [get?_insert_of_ne here] at found ⊢
    exact kept row found

theorem insert_same {new : ρ} (same : rows'.get? id' = rows.get? id') :
    (rows'.insert id new).get? id' = (rows.insert id new).get? id' := by
  rw [get?_insert, get?_insert, same]

end Agreeing

/-! ## Keys below the next one -/

/-- Every key is below a bound. -/
def Below (rows : Rows ρ) (bound : Nat) : Prop := ∀ id, (rows.get? id).isSome = true -> id < bound

namespace Below

variable {rows : Rows ρ} {bound : Nat}

theorem absent (below : rows.Below bound) {id : Nat} (beyond : bound ≤ id) : rows.get? id = none := by
  cases found : rows.get? id with
  | none => rfl
  | some row =>
      have here : (rows.get? id).isSome = true := by rw [found, Option.isSome_some]
      have lower := below id here
      omega

theorem of_mem (below : rows.Below bound) {r : Nat × ρ} (mem : r ∈ rows) : r.1 < bound := by
  apply below r.1
  cases found : rows.get? r.1 with
  | none => exact absurd mem (get?_eq_none.mp found r.2)
  | some row => rfl

theorem mono (below : rows.Below bound) {bound' : Nat} (le : bound ≤ bound') : rows.Below bound' :=
  fun id here => Nat.lt_of_lt_of_le (below id here) le

theorem insert (below : rows.Below bound) (row : ρ) : (rows.insert bound row).Below (bound + 1) := by
  intro id here
  by_cases last : bound = id
  · omega
  · rw [get?_insert_of_ne last] at here
    have lower := below id here
    omega

theorem of_isSome (below : rows.Below bound) {rows' : Rows ρ}
    (same : ∀ id, (rows'.get? id).isSome = (rows.get? id).isSome) : rows'.Below bound := by
  intro id here
  rw [same] at here
  exact below id here

theorem filter (below : rows.Below bound) (p : Nat × ρ -> Bool) : Below (List.filter p rows) bound := by
  intro id here
  rcases Option.isSome_iff_exists.mp here with ⟨row, found⟩
  exact @of_mem _ rows bound below (id, row) (List.mem_filter.mp (mem_of_get? found)).1

theorem append (below : rows.Below bound) {rows' : Rows ρ} {bound' : Nat} (le : bound ≤ bound')
    (below' : ∀ r ∈ rows', r.1 < bound') : (rows ++ rows' : Rows ρ).Below bound' := by
  intro id here
  rw [get?_append] at here
  cases found : rows.get? id with
  | some row =>
      have lower := below id (by rw [found, Option.isSome_some])
      omega
  | none =>
      rw [found, Option.none_or] at here
      rcases Option.isSome_iff_exists.mp here with ⟨row, listed⟩
      exact below' (id, row) (mem_of_get? listed)

end Below

/-! ## Keys stay distinct -/

theorem Distinct.insert {rows : Rows ρ} (distinct : rows.Distinct) {id : Nat} {row : ρ}
    (absent : rows.get? id = none) : (rows.insert id row).Distinct := by
  unfold Distinct Rows.insert
  rw [List.map_append]
  refine List.nodup_append.mpr ⟨distinct, List.nodup_singleton _, ?_⟩
  intro key mem key' mem' same
  rcases List.mem_map.mp mem with ⟨r, at_r, rfl⟩
  have last : key' = id := by simpa using mem'
  exact get?_eq_none.mp absent r.2 (by rw [← last, ← same]; exact at_r)

theorem keys_update (rows : Rows ρ) (id : Nat) (f : ρ -> ρ) :
    (rows.update id f).map Prod.fst = rows.map Prod.fst := by
  unfold update
  rw [List.map_map]
  refine List.map_congr_left (fun r _ => ?_)
  by_cases same : r.1 = id <;> simp [same]

theorem Distinct.update {rows : Rows ρ} (distinct : rows.Distinct) (id : Nat) (f : ρ -> ρ) :
    (rows.update id f).Distinct := by
  unfold Distinct
  rw [keys_update]
  exact distinct

theorem Distinct.updateWhere {rows : Rows ρ} (distinct : rows.Distinct) (p : Nat -> ρ -> Bool)
    (f : ρ -> ρ) : (rows.updateWhere p f).Distinct := by
  unfold Distinct Rows.updateWhere
  rw [List.map_map]
  have keys : rows.map (Prod.fst ∘ fun r => if p r.1 r.2 then (r.1, f r.2) else r) = rows.map Prod.fst := by
    apply List.map_congr_left
    intro r _
    rw [Function.comp_apply]
    split
    · rfl
    · rfl
  rw [keys]
  exact distinct

theorem Distinct.filter {rows : Rows ρ} (distinct : rows.Distinct) (p : Nat × ρ -> Bool) :
    Distinct (List.filter p rows) :=
  List.Nodup.sublist (List.Sublist.map Prod.fst List.filter_sublist) distinct

theorem Distinct.append {rows rows' : Rows ρ} (distinct : rows.Distinct) (distinct' : rows'.Distinct)
    (absent : ∀ r ∈ rows', rows.get? r.1 = none) : Distinct (rows ++ rows') := by
  unfold Distinct
  rw [List.map_append]
  refine List.nodup_append.mpr ⟨distinct, distinct', ?_⟩
  intro key mem key' mem' same
  rcases List.mem_map.mp mem with ⟨r, at_r, rfl⟩
  rcases List.mem_map.mp mem' with ⟨r', at_r', rfl⟩
  apply get?_eq_none.mp (absent r' at_r') r.2
  rw [← same]
  exact at_r

/-! ## Rows of an updated table -/

theorem update_absent_self {rows : Rows ρ} {id : Nat} {f : ρ -> ρ} (absent : ∀ row, (id, row) ∉ rows) :
    rows.update id f = rows := by
  unfold update
  refine (List.map_congr_left (fun r mem => if_neg ?_)).trans (List.map_id rows)
  rintro rfl
  exact absent r.2 mem

theorem mem_update {rows : Rows ρ} {id : Nat} {f : ρ -> ρ} {r : Nat × ρ} :
    r ∈ rows.update id f ↔ (r ∈ rows ∧ r.1 ≠ id) ∨ ∃ row, (id, row) ∈ rows ∧ r = (id, f row) := by
  unfold update
  rw [List.mem_map]
  constructor
  · rintro ⟨r', mem, rfl⟩
    by_cases same : r'.1 = id
    · rw [if_pos same]
      exact Or.inr ⟨r'.2, same ▸ mem, by rw [same]⟩
    · rw [if_neg same]
      exact Or.inl ⟨mem, same⟩
  · rintro (⟨mem, different⟩ | ⟨row, mem, rfl⟩)
    · exact ⟨r, mem, if_neg different⟩
    · exact ⟨(id, row), mem, if_pos rfl⟩

/-- An update that gives a row what it has. -/
theorem update_same_self {rows : Rows ρ} (distinct : rows.Distinct) {id : Nat} {row : ρ} {f : ρ -> ρ}
    (found : rows.get? id = some row) (same : f row = row) : rows.update id f = rows := by
  unfold update
  refine (List.map_congr_left ?_).trans (List.map_id rows)
  intro r mem
  split
  · rename_i here
    have listed := get?_of_mem distinct mem
    rw [here, found] at listed
    rw [← Option.some.inj listed, same]
    exact Prod.ext rfl (Option.some.inj listed)
  · rfl

/-- An update that makes no row pass a filter lets no more of them pass. -/
theorem length_filter_update (rows : Rows ρ) (id : Nat) (f : ρ -> ρ) (p : Nat × ρ -> Bool)
    (fewer : ∀ row, (id, row) ∈ rows -> p (id, f row) = true -> p (id, row) = true) :
    (List.filter p (rows.update id f)).length ≤ (List.filter p rows).length := by
  unfold update
  rw [← List.countP_eq_length_filter, ← List.countP_eq_length_filter, List.countP_map]
  apply List.countP_mono_left
  intro r mem passes
  by_cases same : r.1 = id
  · simp only [Function.comp_apply, if_pos same] at passes
    rw [same] at passes
    have before := fewer r.2 (by rw [← same]; exact mem) passes
    rwa [← same] at before
  · simpa only [Function.comp_apply, if_neg same] using passes

theorem update_insert {rows : Rows ρ} {id key : Nat} {f : ρ -> ρ} {row : ρ} (other : key ≠ id) :
    (rows.insert key row).update id f = (rows.update id f).insert key row := by
  unfold update Rows.insert
  rw [List.map_append, List.map_singleton, if_neg other]

/-- An update of rows a filter does not pass leaves the ones it does. -/
theorem filter_update (rows : Rows ρ) (id : Nat) (f : ρ -> ρ) (p : Nat × ρ -> Bool)
    (outside : ∀ row, (id, row) ∈ rows -> p (id, row) = false ∧ p (id, f row) = false) :
    List.filter p (rows.update id f) = List.filter p rows := by
  induction rows with
  | nil => rfl
  | cons r rows ih =>
      have rest := ih (fun row mem => outside row (List.mem_cons_of_mem _ mem))
      unfold update at rest ⊢
      rw [List.map_cons]
      by_cases here : r.1 = id
      · have blocked := outside r.2 (by rw [← here]; exact List.mem_cons_self)
        rw [← here] at blocked
        rw [if_pos here, List.filter_cons_of_neg (by rw [blocked.2]; decide),
          List.filter_cons_of_neg (by rw [blocked.1]; decide), rest]
      · rw [if_neg here, List.filter_cons, List.filter_cons, rest]

/-! ## Totals -/

section Total

variable [AddCommMonoid M]

@[simp] theorem total_nil (f : Nat -> ρ -> M) : total [] f = 0 := rfl

@[simp] theorem total_cons (r : Nat × ρ) (rows : Rows ρ) (f : Nat -> ρ -> M) :
    total (r :: rows) f = f r.1 r.2 + total rows f := by
  simp [total]

theorem total_append (rows rows' : Rows ρ) (f : Nat -> ρ -> M) :
    total (rows ++ rows') f = total rows f + total rows' f := by
  simp [total]

theorem total_insert (rows : Rows ρ) (id : Nat) (row : ρ) (f : Nat -> ρ -> M) :
    (rows.insert id row).total f = rows.total f + f id row := by
  unfold Rows.insert
  rw [total_append]
  simp

theorem total_congr {rows : Rows ρ} {f g : Nat -> ρ -> M}
    (same : ∀ r ∈ rows, f r.1 r.2 = g r.1 r.2) : rows.total f = rows.total g := by
  unfold total
  rw [List.map_congr_left same]

theorem total_add (rows : Rows ρ) (f g : Nat -> ρ -> M) :
    rows.total (fun id row => f id row + g id row) = rows.total f + rows.total g :=
  List.sum_map_add

theorem total_zero {rows : Rows ρ} {f : Nat -> ρ -> M} (zero : ∀ r ∈ rows, f r.1 r.2 = 0) :
    rows.total f = 0 := by
  rw [total_congr (g := fun _ _ => (0 : M)) zero]
  unfold total
  simp

theorem total_filter (rows : Rows ρ) (p : Nat × ρ -> Bool) (f : Nat -> ρ -> M) :
    total (rows.filter p) f = rows.total (fun id row => if p (id, row) then f id row else 0) := by
  induction rows with
  | nil => rfl
  | cons r rows ih =>
      by_cases keep : p r = true
      · rw [List.filter_cons_of_pos keep, total_cons, total_cons, ih, if_pos keep]
      · rw [List.filter_cons_of_neg keep, total_cons, ih, if_neg keep, zero_add]

/-- An updated row changes a total by itself alone. -/
theorem total_update {rows : Rows ρ} (distinct : rows.Distinct) {id : Nat} {row : ρ}
    (found : rows.get? id = some row) (g : ρ -> ρ) (f : Nat -> ρ -> M) :
    (rows.update id g).total f + f id row = rows.total f + f id (g row) := by
  induction rows with
  | nil => cases found
  | cons r rows ih =>
      have parts := List.nodup_cons.mp distinct
      by_cases at_id : r.1 = id
      · subst at_id
        have here : row = r.2 := by
          have := get?_of_mem distinct (List.mem_cons_self (a := r) (l := rows))
          exact Option.some.inj (found.symm.trans this)
        have rest : update rows r.1 g = rows := by
          unfold update
          refine (List.map_congr_left (fun r' mem => if_neg ?_)).trans (List.map_id rows)
          exact fun same => parts.1 (same ▸ List.mem_map_of_mem mem)
        have split : update (r :: rows) r.1 g = (r.1, g r.2) :: update rows r.1 g := by
          simp [update]
        rw [split, rest, total_cons, total_cons, here]
        abel
      · have rest : get? rows id = some row := by
          unfold get? at found ⊢
          rwa [List.find?_cons_of_neg (by simpa using at_id)] at found
        have split : update (r :: rows) id g = r :: update rows id g := by
          simp [update, at_id]
        rw [split, total_cons, total_cons, add_assoc, ih parts.2 rest, add_assoc]

/-- A total with one row in it. -/
theorem total_single {rows : Rows ρ} (distinct : rows.Distinct) {key : Nat} {row : ρ}
    (found : rows.get? key = some row) (x : M) :
    rows.total (fun id _ => if key = id then x else 0) = x := by
  induction rows with
  | nil => cases found
  | cons r rows ih =>
      have parts := List.nodup_cons.mp distinct
      rw [total_cons]
      by_cases here : key = r.1
      · rw [if_pos here, total_zero, add_zero]
        intro r' mem
        refine if_neg (fun same => parts.1 ?_)
        rw [← here, same]
        exact List.mem_map_of_mem mem
      · rw [if_neg here, zero_add]
        refine ih parts.2 ?_
        unfold get? at found ⊢
        rwa [List.find?_cons_of_neg (by simpa using fun same => here (Eq.symm same))] at found

/-- Rows grouped by the row of another table they belong to. -/
theorem total_group {σ : Type} {rows : Rows ρ} {groups : Rows σ} (distinct : groups.Distinct)
    (owner : ρ -> Nat) (known : ∀ r ∈ rows, (groups.get? (owner r.2)).isSome = true)
    (f : Nat -> ρ -> M) :
    rows.total f = groups.total (fun id _ => total (rows.filter (fun r => owner r.2 = id)) f) := by
  induction rows with
  | nil => exact (total_zero (fun _ _ => rfl)).symm
  | cons r rows ih =>
      have rest := ih (fun r' mem => known r' (List.mem_cons_of_mem _ mem))
      rcases Option.isSome_iff_exists.mp (known r List.mem_cons_self) with ⟨group, found⟩
      rw [total_cons, rest, ← total_single distinct found (f r.1 r.2), ← total_add]
      refine total_congr (fun g _ => ?_)
      by_cases here : owner r.2 = g.1
      · rw [if_pos here, List.filter_cons_of_pos (by simpa using here), total_cons]
      · rw [if_neg here, List.filter_cons_of_neg (by simpa using here), zero_add]

end Total

theorem total_le {rows : Rows ρ} {f g : Nat -> ρ -> Int}
    (le : ∀ r ∈ rows, f r.1 r.2 ≤ g r.1 r.2) : rows.total f ≤ rows.total g :=
  List.sum_le_sum le

theorem total_nonneg {rows : Rows ρ} {f : Nat -> ρ -> Int} (nonneg : ∀ r ∈ rows, 0 ≤ f r.1 r.2) :
    0 ≤ rows.total f := by
  have le := total_le (f := fun _ _ => 0) nonneg
  rwa [total_zero (fun _ _ => rfl)] at le

theorem total_pos {rows : Rows ρ} {f : Nat -> ρ -> Int} {r : Nat × ρ} (positive : 0 < f r.1 r.2)
    (mem : r ∈ rows) (nonneg : ∀ r ∈ rows, 0 ≤ f r.1 r.2) : 0 < rows.total f := by
  have listed : f r.1 r.2 ∈ rows.map (fun r => f r.1 r.2) :=
    List.mem_map_of_mem (f := fun r => f r.1 r.2) mem
  have le : f r.1 r.2 ≤ rows.total f := by
    apply List.single_le_sum _ _ listed
    intro x at_x
    rcases List.mem_map.mp at_x with ⟨r', mem', rfl⟩
    exact nonneg r' mem'
  exact Int.lt_of_lt_of_le positive le

end Rows
end Shiftlush
