import Mathlib.Logic.Function.Basic
import Mathlib.Order.Lattice
import Mathlib.Tactic.Common

namespace Shiftlush
namespace Caches

/-!
# A cache whose entries expire

An entry is there until its time comes, and not from then on.  To add is to set what
is not there, and to count up leaves the time of an entry alone.
-/

variable {α K β : Type}

structure Entry (K β : Type) where
  value : β
  expiresAt : K
  deriving DecidableEq

abbrev Cache (α K β : Type) := α -> Option (Entry K β)

def empty : Cache α K β := fun _ => none

variable {cache : Cache α K β} {key other : α} {now : K} {entry : Entry K β}

section Reading

variable [LinearOrder K]

/-- The entry of a key, if it is there at this time. -/
def find (cache : Cache α K β) (key : α) (now : K) : Option (Entry K β) :=
  (cache key).filter (fun entry => decide (now < entry.expiresAt))

theorem find_eq_some : find cache key now = some entry ↔ cache key = some entry ∧ now < entry.expiresAt := by
  unfold find
  rw [Option.filter_eq_some_iff, decide_eq_true_eq]

theorem find_eq_none : find cache key now = none ↔ ∀ entry, cache key = some entry -> entry.expiresAt ≤ now := by
  unfold find
  rw [Option.filter_eq_none_iff]
  constructor
  · intro gone entry there
    exact not_lt.mp (fun live => gone entry there (decide_eq_true live))
  · intro gone entry there live
    exact absurd (of_decide_eq_true live) (not_lt.mpr (gone entry there))

end Reading

section Writing

variable [DecidableEq α]

def set (cache : Cache α K β) (key : α) (value : β) (expiresAt : K) : Cache α K β :=
  Function.update cache key (some ⟨value, expiresAt⟩)

def delete (cache : Cache α K β) (key : α) : Cache α K β := Function.update cache key none

@[simp] theorem set_same (value : β) (expiresAt : K) : set cache key value expiresAt key = some ⟨value, expiresAt⟩ :=
  Function.update_self ..

theorem set_other (different : other ≠ key) (value : β) (expiresAt : K) :
    set cache key value expiresAt other = cache other := Function.update_of_ne different ..

@[simp] theorem delete_same : delete cache key key = none := Function.update_self ..

theorem delete_other (different : other ≠ key) : delete cache key other = cache other :=
  Function.update_of_ne different ..

end Writing

section Counting

variable [DecidableEq α] [LinearOrder K]

def add (cache : Cache α K β) (key : α) (value : β) (expiresAt now : K) : Cache α K β :=
  if (find cache key now).isSome then cache else set cache key value expiresAt

/-- The count and what it leaves; `none` is the `ValueError` of a missing key. -/
def incr (cache : Cache α K Nat) (key : α) (now : K) : Option (Nat × Cache α K Nat) :=
  (find cache key now).map (fun entry => (entry.value + 1, set cache key (entry.value + 1) entry.expiresAt))

theorem add_of_some (there : find cache key now = some entry) (value : β) (expiresAt : K) :
    add cache key value expiresAt now = cache := by
  unfold add
  rw [there]
  rfl

theorem add_of_none (gone : find cache key now = none) (value : β) (expiresAt : K) :
    add cache key value expiresAt now = set cache key value expiresAt := by
  unfold add
  rw [gone]
  rfl

end Counting

end Caches
end Shiftlush
