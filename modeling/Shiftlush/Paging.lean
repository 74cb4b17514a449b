import Shiftlush.Upserts
import Mathlib.Data.List.Sort

namespace Shiftlush

/-!
# Ordered rows, a page at a time

A comparator that tells any two rows apart puts them in one order, whatever order a scan finds
them in.  The pages of that order, read in as many scans as there are pages, are the rows cut
into pieces: none is on two pages, and none is on none.
-/

/-- A way to compare rows. -/
structure Comparator (ρ : Type) where
  compare : ρ -> ρ -> Ordering
  lawful : Std.TransCmp compare

namespace Comparator

variable {ρ : Type} {κ : Type} [Ord κ]

instance (c : Comparator ρ) : Std.TransCmp c.compare := c.lawful

/-- By a value. -/
def by_ [Std.TransOrd κ] (value : ρ -> κ) : Comparator ρ :=
  ⟨compareOn value, inferInstanceAs (Std.TransCmp (compareOn value))⟩

def reverse (c : Comparator ρ) : Comparator ρ := ⟨fun a b => c.compare b a, inferInstance⟩

/-- One after another, as far as the earlier ones do not decide. -/
def inTurn : List (Comparator ρ) -> Comparator ρ
  | [] => ⟨fun _ _ => .eq, { eq_swap := rfl, isLE_trans := fun _ _ => rfl }⟩
  | c :: rest => ⟨compareLex c.compare (inTurn rest).compare, inferInstance⟩

/-- `ORDER BY` -/
def sort (c : Comparator ρ) (rows : List ρ) : List ρ := rows.mergeSort (fun a b => (c.compare a b).isLE)

theorem reverse_eq (c : Comparator ρ) {a b : ρ} (same : c.reverse.compare a b = .eq) : c.compare a b = .eq :=
  Std.OrientedCmp.eq_symm same

theorem inTurn_eq {cs : List (Comparator ρ)} {c : Comparator ρ} (mem : c ∈ cs) {a b : ρ}
    (same : (inTurn cs).compare a b = .eq) : c.compare a b = .eq := by
  induction cs with
  | nil => cases mem
  | cons first rest ih =>
      have parts := Ordering.then_eq_eq.mp same
      rcases List.mem_cons.mp mem with rfl | later
      · exact parts.1
      · exact ih later parts.2

/-- What further comparators decide, the first ones do not contradict. -/
theorem inTurn_append_isLE {cs : List (Comparator ρ)} (more : List (Comparator ρ)) {a b : ρ}
    (le : ((inTurn (cs ++ more)).compare a b).isLE = true) : ((inTurn cs).compare a b).isLE = true := by
  induction cs with
  | nil => rfl
  | cons c rest ih =>
      change ((c.compare a b).then ((inTurn (rest ++ more)).compare a b)).isLE = true at le
      change ((c.compare a b).then ((inTurn rest).compare a b)).isLE = true
      cases first : c.compare a b with
      | lt => rfl
      | eq =>
          rw [first] at le
          exact ih le
      | gt =>
          rw [first] at le
          cases le

theorem sort_perm (c : Comparator ρ) (rows : List ρ) : (c.sort rows).Perm rows := List.mergeSort_perm _ _

theorem sort_sorted (c : Comparator ρ) (rows : List ρ) :
    (c.sort rows).Pairwise (fun a b => (c.compare a b).isLE = true) := by
  refine List.pairwise_mergeSort ?_ ?_ rows
  · exact fun _ _ _ => Std.TransCmp.isLE_trans
  · intro a b
    rw [← @Std.OrientedCmp.isGE_eq_isLE _ c.compare _ a b]
    cases c.compare a b <;> rfl

/-- Rows that the comparator tells apart have one order. -/
theorem sort_eq_of_perm (c : Comparator ρ) {rows rows' : List ρ} (same : rows'.Perm rows)
    (apart : ∀ a ∈ rows, ∀ b ∈ rows, c.compare a b = .eq -> a = b) : c.sort rows' = c.sort rows := by
  have perm : (c.sort rows').Perm (c.sort rows) := ((c.sort_perm rows').trans same).trans (c.sort_perm rows).symm
  refine perm.eq_of_pairwise ?_ (c.sort_sorted rows') (c.sort_sorted rows)
  intro a b mem mem' le le'
  exact apart a (same.mem_iff.mp ((c.sort_perm rows').mem_iff.mp mem)) b ((c.sort_perm rows).mem_iff.mp mem')
    (Std.OrientedCmp.isLE_antisymm le le')

end Comparator

namespace Paging

variable {ρ : Type}

/-- One page at least. -/
def pageCount (total size : Nat) : Nat := (max total 1 + size - 1) / size

/-- A page by its number, from one on. -/
def page? (size : Nat) (rows : List ρ) (number : Nat) : Option (List ρ) :=
  if number = 0 ∨ pageCount rows.length size < number then none
  else some ((rows.drop ((number - 1) * size)).take size)

theorem length_le_pages {size : Nat} (positive : 0 < size) (total : Nat) : total ≤ pageCount total size * size := by
  have split := Nat.div_add_mod (max total 1 + size - 1) size
  have lower := Nat.mod_lt (max total 1 + size - 1) positive
  rw [Nat.mul_comm] at split
  unfold pageCount
  omega

theorem page?_of_lt {size : Nat} {rows : List ρ} {k : Nat} (here : k < pageCount rows.length size) :
    page? size rows (k + 1) = some ((rows.drop (k * size)).take size) := by
  unfold page?
  rw [if_neg (by omega), Nat.add_sub_cancel]

/-- The pages are the rows. -/
theorem flatten_pages {size : Nat} (positive : 0 < size) (rows : List ρ) :
    ((List.range (pageCount rows.length size)).map (fun k => (page? size rows (k + 1)).getD [])).flatten = rows := by
  have pages : (List.range (pageCount rows.length size)).map (fun k => (page? size rows (k + 1)).getD []) =
      (List.range (pageCount rows.length size)).map (fun k => (rows.drop (k * size)).take size) := by
    apply List.map_congr_left
    intro k mem
    rw [page?_of_lt (List.mem_range.mp mem), Option.getD_some]
  rw [pages, Rows.flatten_slices, List.take_of_length_le (length_le_pages positive rows.length)]

end Paging
end Shiftlush
