import Mathlib.Data.List.Basic
import Mathlib.Data.List.Nodup
import Mathlib.Tactic.Common

namespace Shiftlush
namespace Notifications

/-!
# Rows that are written once for each key

A unique key decides whether a row is new: an insert whose key is taken leaves
the table as it is.  Nothing here says what the rows are, or their key.
-/

variable {ν κ : Type} [DecidableEq κ] (key : ν -> κ)

def createOnce (rows : List ν) (row : ν) : List ν := if key row ∈ rows.map key then rows else rows ++ [row]

def createAll (rows new : List ν) : List ν := new.foldl (createOnce key) rows

variable {key} {rows new : List ν} {row : ν}

theorem createOnce_grows (rows : List ν) (row : ν) : rows <+: createOnce key rows row := by
  unfold createOnce
  split
  · exact List.prefix_rfl
  · exact List.prefix_append rows [row]

theorem createAll_grows (rows new : List ν) : rows <+: createAll key rows new := by
  unfold createAll
  induction new generalizing rows with
  | nil => exact List.prefix_rfl
  | cons first new ih => exact (createOnce_grows rows first).trans (ih _)

/-- No key is taken twice. -/
theorem nodup_createOnce (distinct : (rows.map key).Nodup) (row : ν) : ((createOnce key rows row).map key).Nodup := by
  unfold createOnce
  split
  · exact distinct
  · rename_i new
    rw [List.map_append, List.map_singleton]
    exact distinct.append (List.nodup_singleton _) (List.disjoint_singleton.mpr new)

theorem nodup_createAll (distinct : (rows.map key).Nodup) (new : List ν) : ((createAll key rows new).map key).Nodup := by
  unfold createAll
  induction new generalizing rows with
  | nil => exact distinct
  | cons first new ih => exact ih (nodup_createOnce distinct first)

theorem mem_createOnce_self (rows : List ν) (row : ν) : key row ∈ (createOnce key rows row).map key := by
  unfold createOnce
  split
  · assumption
  · rw [List.map_append]
    exact List.mem_append_right _ List.mem_cons_self

/-- Afterwards every key asked for is taken. -/
theorem told_createAll (rows : List ν) (asked : row ∈ new) : key row ∈ (createAll key rows new).map key := by
  unfold createAll
  induction new generalizing rows with
  | nil => cases asked
  | cons first new ih =>
      rcases List.mem_cons.mp asked with rfl | later
      · have kept : createOnce key rows row <+: new.foldl (createOnce key) (createOnce key rows row) :=
          createAll_grows _ new
        exact (kept.map key).subset (mem_createOnce_self rows row)
      · exact ih _ later

/-- What is added is some of what was asked for, and had not been there. -/
theorem createAll_spec (rows new : List ν) : ∃ added, createAll key rows new = rows ++ added ∧
    added.Sublist new ∧ ∀ row ∈ added, key row ∉ rows.map key := by
  unfold createAll
  induction new generalizing rows with
  | nil => exact ⟨[], (List.append_nil rows).symm, List.Sublist.refl [], fun _ mem => by cases mem⟩
  | cons first new ih =>
      rcases ih (createOnce key rows first) with ⟨added, result, sub, fresh⟩
      rw [List.foldl_cons, result]
      unfold createOnce at fresh ⊢
      split
      · rename_i taken
        rw [if_pos taken] at fresh
        exact ⟨added, rfl, sub.cons first, fresh⟩
      · rename_i untaken
        rw [if_neg untaken, List.map_append, List.map_singleton] at fresh
        refine ⟨first :: added, by rw [List.append_assoc, List.singleton_append], sub.cons_cons first, ?_⟩
        intro row mem
        rcases List.mem_cons.mp mem with rfl | later
        · exact untaken
        · exact fun before => fresh row later (List.mem_append_left _ before)

end Notifications
end Shiftlush
