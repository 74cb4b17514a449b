import Mathlib.Algebra.BigOperators.Group.List.Basic
import Mathlib.Algebra.Group.Basic
import Mathlib.Tactic.Abel
import Mathlib.Tactic.Common

namespace Shiftlush
namespace Paths

/-!
# The length of an open path

A path is a list of points, and its length the sum of the distances from each to the
next.  Reversing a stretch replaces the two edges at its ends, where there are any,
and keeps every other.
-/

variable {α K : Type} [AddCommGroup K] (w : α -> α -> K)

/-- The legs of a path. -/
def legs : List α -> List K
  | [] => []
  | [_] => []
  | a :: b :: rest => w a b :: legs (b :: rest)

def length (path : List α) : K := (legs w path).sum

/-- The edge between two ends, if both are there. -/
def link : Option α -> Option α -> K
  | some a, some b => w a b
  | _, _ => 0

variable {w} {path rest : List α}

@[simp] theorem length_nil : length w [] = 0 := rfl

@[simp] theorem length_singleton (a : α) : length w [a] = 0 := rfl

theorem length_cons (a : α) (path : List α) : length w (a :: path) = link w (some a) path.head? + length w path := by
  cases path with
  | nil =>
      rw [length_singleton, length_nil, add_zero]
      rfl
  | cons b path => exact List.sum_cons

@[simp] theorem link_none_left (b : Option α) : link w none b = 0 := by
  cases b <;> rfl

@[simp] theorem link_none_right (a : Option α) : link w a none = 0 := by
  cases a <;> rfl

/-- Two paths one after the other have one edge more. -/
theorem length_append (path rest : List α) :
    length w (path ++ rest) = length w path + link w path.getLast? rest.head? + length w rest := by
  induction path with
  | nil => rw [List.nil_append, List.getLast?_nil, length_nil, link_none_left, zero_add, zero_add]
  | cons a path ih =>
      cases path with
      | nil =>
          rw [List.singleton_append, length_cons, length_singleton, zero_add]
          rfl
      | cons b path =>
          rw [List.cons_append, length_cons, ih, length_cons a (b :: path), List.getLast?_cons_cons]
          have head : (b :: path ++ rest).head? = (b :: path).head? := rfl
          rw [head]
          abel

section Symmetric

variable (symm : ∀ a b, w a b = w b a)

include symm

theorem link_comm (a b : Option α) : link w a b = link w b a := by
  cases a with
  | none => rw [link_none_left, link_none_right]
  | some a =>
      cases b with
      | none => rfl
      | some b => exact symm a b

theorem length_reverse (path : List α) : length w path.reverse = length w path := by
  induction path with
  | nil => rfl
  | cons a path ih =>
      rw [List.reverse_cons, length_append, length_singleton, ih, List.getLast?_reverse, length_cons,
        link_comm symm path.head?, List.head?_singleton]
      abel

/-- What reversing a stretch gains is what its two edges lose. -/
theorem length_sub_reverse (path stretch rest : List α) :
    length w (path ++ (stretch ++ rest)) - length w (path ++ (stretch.reverse ++ rest)) =
      link w path.getLast? (stretch ++ rest).head? + link w stretch.getLast? rest.head? -
        link w path.getLast? (stretch.reverse ++ rest).head? - link w stretch.head? rest.head? := by
  rw [length_append, length_append path, length_append stretch, length_append stretch.reverse, length_reverse symm,
    List.getLast?_reverse]
  abel

end Symmetric

end Paths
end Shiftlush
