import Mathlib.Tactic.Common

namespace Shiftlush
namespace Failing

/-!
# Programs that may fail at any point

A program changes a state and may raise, at each of its points, what the failures to
come say.  What it changed before it raised stays changed, except in a database, which a
transaction gives back as it found it.  Hooks wait for the outermost commit.
-/

/-- What is raised at which point. -/
abbrev Failures (P E : Type) := P -> Option E

def Prog (P E S α : Type) : Type := Failures P E -> S -> Except E α × S

variable {P E S α β : Type}

namespace Prog

def done (a : α) : Prog P E S α := fun _ s => (.ok a, s)

def andThen (p : Prog P E S α) (k : α -> Prog P E S β) : Prog P E S β := fun f s =>
  match p f s with
  | (.ok a, s') => k a f s'
  | (.error e, s') => (.error e, s')

instance : Monad (Prog P E S) where
  pure := done
  bind := andThen

end Prog

/-- Something that may fail. -/
def point (p : P) : Prog P E S Unit := fun f s =>
  match f p with
  | none => (.ok (), s)
  | some e => (.error e, s)

def query (read : S -> α) : Prog P E S α := fun _ s => (.ok (read s), s)

def change (write : S -> S) : Prog P E S Unit := fun _ s => (.ok (), write s)

def raise (e : E) : Prog P E S α := fun _ s => (.error e, s)

/-- `try: ... except Exception: ...` -/
def catching (p : Prog P E S α) (handler : E -> Prog P E S α) : Prog P E S α := fun f s =>
  match p f s with
  | (.ok a, s') => (.ok a, s')
  | (.error e, s') => handler e f s'

def each (items : List β) (body : β -> Prog P E S Unit) : Prog P E S Unit :=
  match items with
  | [] => pure ()
  | item :: items => do
      body item
      each items body

/-! ## What a program ends with -/

/-- Whether it answers or raises, and what it leaves. -/
def Ends (f : Failures P E) (s : S) (p : Prog P E S α) (post : α -> S -> Prop) (raised : E -> S -> Prop) : Prop :=
  match p f s with
  | (.ok a, s') => post a s'
  | (.error e, s') => raised e s'

section Rules

variable {f : Failures P E} {s : S} {post : α -> S -> Prop} {raised : E -> S -> Prop}

theorem ends_pure {a : α} (holds : post a s) : Ends f s (pure a) post raised := holds

theorem ends_query {read : S -> α} (holds : post (read s) s) : Ends f s (query read) post raised := holds

theorem ends_change {write : S -> S} {post : Unit -> S -> Prop} (holds : post () (write s)) :
    Ends f s (change write) post raised := holds

theorem ends_raise {e : E} (holds : raised e s) : Ends f s (raise e) post raised := holds

theorem ends_point {p : P} {post : Unit -> S -> Prop} (passes : f p = none -> post () s)
    (fails : ∀ e, f p = some e -> raised e s) : Ends f s (point p) post raised := by
  unfold Ends point
  cases here : f p with
  | none => exact passes here
  | some e => exact fails e here

theorem ends_bind {p : Prog P E S α} {k : α -> Prog P E S β} {post : β -> S -> Prop}
    (first : Ends f s p (fun a s' => Ends f s' (k a) post raised) raised) : Ends f s (p >>= k) post raised := by
  have split : (p >>= k) f s = p.andThen k f s := rfl
  unfold Ends at first ⊢
  rw [split, Prog.andThen]
  cases ended : p f s with
  | mk outcome s' =>
      rw [ended] at first
      cases outcome with
      | ok a => exact first
      | error e => exact first

theorem ends_catching {p : Prog P E S α} {handler : E -> Prog P E S α}
    (body : Ends f s p post (fun e s' => Ends f s' (handler e) post raised)) :
    Ends f s (catching p handler) post raised := by
  unfold Ends at body ⊢
  unfold catching
  cases ended : p f s with
  | mk outcome s' =>
      rw [ended] at body
      cases outcome with
      | ok a => exact body
      | error e => exact body

theorem Ends.mono {p : Prog P E S α} {post' : α -> S -> Prop} {raised' : E -> S -> Prop}
    (ends : Ends f s p post raised) (answers : ∀ a s', post a s' -> post' a s')
    (raises : ∀ e s', raised e s' -> raised' e s') : Ends f s p post' raised' := by
  unfold Ends at ends ⊢
  cases ended : p f s with
  | mk outcome s' =>
      rw [ended] at ends
      cases outcome with
      | ok a => exact answers a s' ends
      | error e => exact raises e s' ends

/-- Every program ends. -/
theorem ends_any {p : Prog P E S α} (answers : ∀ a s', post a s') (raises : ∀ e s', raised e s') :
    Ends f s p post raised := by
  unfold Ends
  split
  · exact answers _ _
  · exact raises _ _

/-- What each turn of a loop keeps, the loop keeps. -/
theorem ends_each {items : List β} {body : β -> Prog P E S Unit} {J : S -> Prop}
    (turn : ∀ item ∈ items, ∀ s, J s -> Ends f s (body item) (fun _ => J) raised) (start : J s) :
    Ends f s (each items body) (fun _ => J) raised := by
  induction items generalizing s with
  | nil => exact start
  | cons item items ih =>
      unfold each
      exact ends_bind ((turn item List.mem_cons_self s start).mono
        (fun _ s' kept => ih (fun item mem => turn item (List.mem_cons_of_mem _ mem)) kept) (fun _ _ raises => raises))

/-- What is so of every ending is so of this one. -/
theorem Ends.state {p : Prog P E S α} {J : S -> Prop} (ends : Ends f s p (fun _ => J) (fun _ => J)) : J (p f s).2 := by
  unfold Ends at ends
  cases ended : p f s with
  | mk outcome s' =>
      rw [ended] at ends
      cases outcome with
      | ok a => exact ends
      | error e => exact ends

end Rules

/-! ## Transactions -/

/-- A database as the open transactions see it, what lies outside it, and what waits for the commit. -/
structure Session (D O H : Type) where
  db : D
  outside : O
  hooks : List H
  /-- The transactions that are open, one in another. -/
  depth : Nat

variable {D O H : Type}

/-- The hooks of a commit, in order. One that raises leaves the rest unrun. -/
def runHooks (hook : H -> Prog P E (Session D O H) Unit) : Prog P E (Session D O H) Unit := do
  let hooks ← query Session.hooks
  change (fun s => { s with hooks := [] })
  each hooks hook

/-- `transaction.atomic`: the outermost commits and runs the hooks, the others are savepoints. -/
def atomic (exit : P) (hook : H -> Prog P E (Session D O H) Unit) (body : Prog P E (Session D O H) α) :
    Prog P E (Session D O H) α := do
  let before ← query id
  let answer ← catching
    (do
      change (fun s => { s with depth := s.depth + 1 })
      let answer ← body
      point exit
      return answer)
    (fun e => do
      change (fun s => { s with db := before.db, hooks := before.hooks, depth := before.depth })
      raise e)
  change (fun s => { s with depth := before.depth })
  if before.depth = 0 then runHooks hook
  return answer

section Rules

variable {f : Failures P E} {s : Session D O H} {exit : P} {hook : H -> Prog P E (Session D O H) Unit}
  {body : Prog P E (Session D O H) α} {post : α -> Session D O H -> Prop} {raised : E -> Session D O H -> Prop}

theorem ends_runHooks {J : Session D O H -> Prop}
    (kept : ∀ h ∈ s.hooks, ∀ s, J s -> Ends f s (hook h) (fun _ => J) raised) (start : J { s with hooks := [] }) :
    Ends f s (runHooks hook) (fun _ => J) raised :=
  ends_bind (ends_query (ends_bind (ends_change (ends_each kept start))))

/-- What a transaction leaves: all that its body did, or what it did outside the database. -/
theorem ends_atomic
    (inside : Ends f { s with depth := s.depth + 1 } body
      (fun a s' =>
        (f exit = none -> Ends f { s' with depth := s.depth } (if s.depth = 0 then runHooks hook else pure ())
          (fun _ => post a) raised) ∧
        ∀ e, f exit = some e -> raised e { s' with db := s.db, hooks := s.hooks, depth := s.depth })
      (fun e s' => raised e { s' with db := s.db, hooks := s.hooks, depth := s.depth })) :
    Ends f s (atomic exit hook body) post raised := by
  unfold atomic
  refine ends_bind (ends_query (ends_bind (ends_catching ?_)))
  refine ends_bind (ends_change (ends_bind (inside.mono ?_ ?_)))
  · intro a s' ends
    refine ends_bind (ends_point ?_ ?_)
    · intro passes
      refine ends_pure (ends_bind (ends_change ?_))
      have rest := ends.1 passes
      dsimp only [id]
      split
      · rename_i outermost
        rw [if_pos outermost] at rest
        exact ends_bind (rest.mono (fun _ _ holds => ends_pure holds) (fun _ _ raises => raises))
      · rename_i nested
        rw [if_neg nested] at rest
        exact ends_pure rest
    · intro e fails
      exact ends_bind (ends_change (ends_raise (ends.2 e fails)))
  · intro e s' holds
    exact ends_bind (ends_change (ends_raise holds))

end Rules

end Failing
end Shiftlush
