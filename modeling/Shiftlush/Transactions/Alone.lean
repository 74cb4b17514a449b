import Shiftlush.Transactions.Serial

namespace Shiftlush
namespace Transactions

/-!
# What a program leaves, alone

The rules for what holds when a program that runs alone has succeeded: one for
each statement, and one for each way of putting programs together.  Keys are
drawn in order from the next one.
-/

variable {S R N E : Type} {α β : Type}

/-- `post` holds of what `p` answers, the view it leaves and the next key. -/
def Yields (s : S) (p : Prog S R N E α) (post : α -> S -> Nat -> Prop) (view : S) (next : Nat) : Prop :=
  ∀ answer view' keys, p.alone s view (fun k => next + k) = .ok (answer, view', keys) ->
    ∃ next', keys = (fun k => next' + k) ∧ next ≤ next' ∧ post answer view' next'

variable {s view : S} {next : Nat}

/-- What follows from what is left, later keys included. -/
theorem Yields.mono {p : Prog S R N E α} {post post' : α -> S -> Nat -> Prop}
    (yields : Yields s p post view next) (weaker : ∀ a v n, next ≤ n -> post a v n -> post' a v n) :
    Yields s p post' view next := by
  intro answer view' keys ends
  rcases yields answer view' keys ends with ⟨next', drawn, le, holds⟩
  exact ⟨next', drawn, le, weaker answer view' next' le holds⟩

theorem yields_done {answer : α} {post : α -> S -> Nat -> Prop} (holds : post answer view next) :
    Yields s (.done answer : Prog S R N E α) post view next := by
  intro answer' view' keys ends
  cases ends
  exact ⟨next, rfl, Nat.le_refl next, holds⟩

theorem yields_raise {error : E} {post : α -> S -> Nat -> Prop} :
    Yields s (.raise error : Prog S R N E α) post view next := by
  intro answer view' keys ends
  cases ends

/-- The second program runs on what the first one leaves. -/
theorem Yields.bind {p : Prog S R N E α} {f : α -> Prog S R N E β} {post : β -> S -> Nat -> Prop}
    (first : Yields s p (fun a v n => Yields s (f a) post v n) view next) :
    Yields s (p >>= f) post view next := by
  intro answer view' keys ends
  have split := @Prog.alone_bind _ _ _ _ _ _ s view (fun k => next + k) p f
  have ends' : (p.bind f).alone s view (fun k => next + k) = .ok (answer, view', keys) := ends
  rw [split] at ends'
  cases middle : p.alone s view (fun k => next + k) with
  | error error =>
      rw [middle] at ends'
      cases ends'
  | ok done =>
      rcases done with ⟨a, v, keys'⟩
      rw [middle] at ends'
      rcases first a v keys' middle with ⟨n, rfl, le, rest⟩
      rcases rest answer view' keys ends' with ⟨next', drawn, le', holds⟩
      exact ⟨next', drawn, Nat.le_trans le le', holds⟩

/-! ## The statements -/

theorem yields_lock {mode : LockMode} {row : R} {post : Unit -> S -> Nat -> Prop}
    (holds : post () view next) : Yields s (lock mode row : Prog S R N E Unit) post view next := by
  intro answer view' keys ends
  cases ends
  exact ⟨next, rfl, Nat.le_refl next, holds⟩

/-- A row that is missing ends the run, and nothing is left to show. -/
theorem yields_fetch {query : S -> Option β} {error : E} {post : β -> S -> Nat -> Prop}
    (holds : ∀ b, query view = some b -> post b view next) :
    Yields s (fetch query error : Prog S R N E β) post view next := by
  intro answer view' keys ends
  rw [alone_fetch] at ends
  cases found : query view with
  | none =>
      rw [found] at ends
      cases ends
  | some b =>
      rw [found] at ends
      cases ends
      exact ⟨next, rfl, Nat.le_refl next, holds answer found⟩

theorem yields_find {query : S -> Option β} {post : Option β -> S -> Nat -> Prop}
    (holds : post (query view) view next) :
    Yields s (find query : Prog S R N E (Option β)) post view next := by
  intro answer view' keys ends
  unfold find at ends
  simp only [Prog.alone] at ends
  cases found : query view with
  | none =>
      rw [found] at ends holds
      cases ends
      exact ⟨next, rfl, Nat.le_refl next, holds⟩
  | some b =>
      rw [found] at ends holds
      cases ends
      exact ⟨next, rfl, Nat.le_refl next, holds⟩

theorem yields_observe {query : S -> β} {error : E} {post : β -> S -> Nat -> Prop}
    (holds : post (query view) view next) :
    Yields s (observe query error : Prog S R N E β) post view next := by
  intro answer view' keys ends
  cases ends
  exact ⟨next, rfl, Nat.le_refl next, holds⟩

theorem yields_peek {query : S -> β} {post : β -> S -> Nat -> Prop} (holds : post (query view) view next) :
    Yields s (peek query : Prog S R N E β) post view next := by
  intro answer view' keys ends
  cases ends
  exact ⟨next, rfl, Nat.le_refl next, holds⟩

theorem yields_peekLogged {query : S -> β} {log : β -> List N} {post : β -> S -> Nat -> Prop}
    (holds : post (query view) view next) :
    Yields s (peekLogged query log : Prog S R N E β) post view next := by
  intro answer view' keys ends
  cases ends
  exact ⟨next, rfl, Nat.le_refl next, holds⟩

/-- The key drawn is the next one. -/
theorem yields_fresh {post : Nat -> S -> Nat -> Prop} (holds : post next view (next + 1)) :
    Yields s (fresh : Prog S R N E Nat) post view next := by
  intro answer view' keys ends
  cases ends
  refine ⟨next + 1, ?_, Nat.le_succ next, holds⟩
  funext k
  dsimp only
  omega

theorem yields_write {update : S -> S} {post : Unit -> S -> Nat -> Prop} (holds : post () (update view) next) :
    Yields s (write update : Prog S R N E Unit) post view next := by
  intro answer view' keys ends
  cases ends
  exact ⟨next, rfl, Nat.le_refl next, holds⟩

/-- A test on the rows; where it fails the run has ended. -/
theorem yields_ensure {test : S -> Bool} {error : E} {post : Unit -> S -> Nat -> Prop}
    (holds : test view = true -> post () view next) :
    Yields s (ensure test error : Prog S R N E Unit) post view next := by
  intro answer view' keys ends
  rw [alone_ensure] at ends
  split at ends
  · rename_i passes
    cases ends
    exact ⟨next, rfl, Nat.le_refl next, holds passes⟩
  · cases ends

theorem yields_require {test : Bool} {error : E} {post : Unit -> S -> Nat -> Prop}
    (holds : test = true -> post () view next) :
    Yields s (require test error : Prog S R N E Unit) post view next := by
  intro answer view' keys ends
  rw [alone_require] at ends
  split at ends
  · rename_i passes
    cases ends
    exact ⟨next, rfl, Nat.le_refl next, holds passes⟩
  · cases ends

/-- A loop that leaves the rows alone. -/
theorem yields_forEach {body : β -> Prog S R N E α} {items : List β}
    (each : ∀ item ∈ items, Yields s (body item) (fun _ v n => v = view ∧ n = next) view next) :
    Yields s (forEach items body) (fun _ v n => v = view ∧ n = next) view next := by
  induction items with
  | nil => exact yields_done ⟨rfl, rfl⟩
  | cons item items ih =>
      refine Yields.bind ((each item List.mem_cons_self).mono ?_)
      rintro a v n _ ⟨rfl, rfl⟩
      refine Yields.bind ((ih (fun item' later => each item' (List.mem_cons_of_mem item later))).mono ?_)
      rintro answers v n _ ⟨rfl, rfl⟩
      exact yields_done ⟨rfl, rfl⟩

theorem yields_forEach_single {body : β -> Prog S R N E α} {item : β} {post : List α -> S -> Nat -> Prop}
    (each : Yields s (body item) (fun a v n => post [a] v n) view next) :
    Yields s (forEach [item] body) post view next := by
  refine Yields.bind (each.mono ?_)
  intro a v n _ holds
  exact Yields.bind (yields_done (yields_done holds))

end Transactions
end Shiftlush
