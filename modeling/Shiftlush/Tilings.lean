import Mathlib.Order.SuccPred.Basic
import Mathlib.Data.List.Chain
import Mathlib.Tactic.Common

namespace Shiftlush
namespace Tilings

/-!
# Tilings

Ranges laid end to end in a discrete order without a last element: each starts
right after the one before, from a first point through a last one.
-/

variable {α : Type} [LinearOrder α] [SuccOrder α]

/-- The ranges run from `low` through `high`, none empty and none apart. -/
def Tiles (high : α) : α -> List (α × α) -> Prop
  | low, [] => low = Order.succ high
  | low, tile :: rest => tile.1 = low ∧ tile.1 ≤ tile.2 ∧ Tiles high (Order.succ tile.2) rest

/-- The point is in the range. -/
def Within (tile : α × α) (point : α) : Prop := tile.1 ≤ point ∧ point ≤ tile.2

section Tiles

variable {low high : α} {tiles : List (α × α)} {tile : α × α}

theorem Tiles.le_succ (tiled : Tiles high low tiles) : low ≤ Order.succ high := by
  induction tiles generalizing low with
  | nil => exact le_of_eq tiled
  | cons tile rest ih =>
      rcases tiled with ⟨here, ordered, after⟩
      rw [← here]
      exact ordered.trans ((Order.le_succ tile.2).trans (ih after))

/-- No tile starts sooner. -/
theorem Tiles.low_le (tiled : Tiles high low tiles) (mem : tile ∈ tiles) : low ≤ tile.1 := by
  induction tiles generalizing low with
  | nil => cases mem
  | cons first rest ih =>
      rcases tiled with ⟨here, ordered, after⟩
      rcases List.mem_cons.mp mem with rfl | later
      · exact ge_of_eq here
      · rw [← here]
        exact ordered.trans ((Order.le_succ first.2).trans (ih after later))

theorem Tiles.ordered (tiled : Tiles high low tiles) (mem : tile ∈ tiles) : tile.1 ≤ tile.2 := by
  induction tiles generalizing low with
  | nil => cases mem
  | cons first rest ih =>
      rcases tiled with ⟨_, ordered, after⟩
      rcases List.mem_cons.mp mem with rfl | later
      · exact ordered
      · exact ih after later

/-- Each tile starts right after the one before. -/
theorem Tiles.contiguous (tiled : Tiles high low tiles) :
    tiles.IsChain (fun tile next => next.1 = Order.succ tile.2) := by
  induction tiles generalizing low with
  | nil => exact List.IsChain.nil
  | cons tile rest ih =>
      cases rest with
      | nil => exact List.IsChain.singleton tile
      | cons next rest =>
          rcases tiled with ⟨_, _, after⟩
          exact List.IsChain.cons_cons after.1 (ih after)

variable [NoMaxOrder α]

/-- A tile ends before a later one starts. -/
theorem Tiles.disjoint (tiled : Tiles high low tiles) : tiles.Pairwise (fun tile later => tile.2 < later.1) := by
  induction tiles generalizing low with
  | nil => exact List.Pairwise.nil
  | cons tile rest ih =>
      rcases tiled with ⟨_, _, after⟩
      refine List.Pairwise.cons ?_ (ih after)
      intro later mem
      exact Order.succ_le_iff.mp (after.low_le mem)

/-- The tiles hold the points from the first through the last, and no other. -/
theorem Tiles.exists_within (tiled : Tiles high low tiles) (point : α) :
    (∃ tile ∈ tiles, Within tile point) ↔ low ≤ point ∧ point ≤ high := by
  induction tiles generalizing low with
  | nil =>
      constructor
      · rintro ⟨tile, mem, _⟩
        cases mem
      · rintro ⟨after, before⟩
        have past : Order.succ high ≤ point := by
          rw [← tiled]
          exact after
        exact absurd before (not_le.mpr (Order.succ_le_iff.mp past))
  | cons tile rest ih =>
      rcases tiled with ⟨here, ordered, after⟩
      have bound := Order.succ_le_succ_iff.mp after.le_succ
      constructor
      · rintro ⟨found, mem, within⟩
        rcases List.mem_cons.mp mem with rfl | later
        · rw [← here]
          exact ⟨within.1, within.2.trans bound⟩
        · rcases (ih after).mp ⟨found, later, within⟩ with ⟨past, before⟩
          rw [← here]
          exact ⟨ordered.trans ((Order.le_succ tile.2).trans past), before⟩
      · rintro ⟨past, before⟩
        by_cases first : point ≤ tile.2
        · rw [← here] at past
          exact ⟨tile, List.mem_cons_self, past, first⟩
        · have next := Order.succ_le_iff.mpr (not_le.mp first)
          rcases (ih after).mpr ⟨next, before⟩ with ⟨found, mem, within⟩
          exact ⟨found, List.mem_cons_of_mem tile mem, within⟩

/-- Only the last tile ends where the tiling does. -/
theorem Tiles.last (tiled : Tiles high low tiles) (mem : tile ∈ tiles) :
    tile.2 = high ↔ tiles.getLast? = some tile := by
  induction tiles generalizing low with
  | nil => cases mem
  | cons first rest ih =>
      rcases tiled with ⟨here, ordered, after⟩
      cases rest with
      | nil =>
          have ends : first.2 = high := Order.succ_injective after
          rcases List.mem_singleton.mp mem with rfl
          exact ⟨fun _ => rfl, fun _ => ends⟩
      | cons next rest =>
          rw [List.getLast?_cons_cons]
          rcases List.mem_cons.mp mem with rfl | later
          · have before : tile.2 < high := by
              have nextOrdered := after.2.1
              rw [after.1] at nextOrdered
              have bound := Order.succ_le_succ_iff.mp after.2.2.le_succ
              exact (Order.lt_succ tile.2).trans_le (nextOrdered.trans bound)
            constructor
            · intro ends
              exact absurd ends (ne_of_lt before)
            · intro last
              have again : tile ∈ next :: rest := List.mem_of_getLast? last
              have before := (after.low_le again).trans ordered
              exact absurd (Order.succ_le_iff.mp before) (lt_irrefl tile.2)
          · exact ih after later

end Tiles

end Tilings
end Shiftlush
