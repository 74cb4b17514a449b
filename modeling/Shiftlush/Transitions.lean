import Mathlib.Data.List.Basic
import Mathlib.Tactic.Common

namespace Shiftlush
namespace Transitions

/-!
# Runs of a step function

A system whose steps are a function of the state and an event.  A law of such a
system is a fact about each step, and these are the rules that carry it to runs.
-/

universe u v

variable {σ : Type u} {ε : Type v}

/-- The state after a list of events. -/
def run (step : σ -> ε -> σ) : σ -> List ε -> σ
  | s, [] => s
  | s, event :: events => run step (step s event) events

/-- A test that every state of a run passes, the first and the last included. -/
def always (step : σ -> ε -> σ) (test : σ -> Bool) : σ -> List ε -> Bool
  | s, [] => test s
  | s, event :: events => test s && always step test (step s event) events

/-- A test that every step of a run passes, of the state it starts from and its event. -/
def everyStep (step : σ -> ε -> σ) (allowed : σ -> ε -> Bool) : σ -> List ε -> Bool
  | _, [] => true
  | s, event :: events => allowed s event && everyStep step allowed (step s event) events

variable {step : σ -> ε -> σ} {test : σ -> Bool} {allowed : σ -> ε -> Bool}

theorem run_append (s : σ) (before after : List ε) :
    run step s (before ++ after) = run step (run step s before) after := by
  induction before generalizing s with
  | nil => rfl
  | cons event before ih => exact ih (step s event)

theorem run_concat (s : σ) (events : List ε) (event : ε) :
    run step s (events ++ [event]) = step (run step s events) event := by
  rw [run_append]
  rfl

theorem always_cons (s : σ) (event : ε) (events : List ε) : always step test s (event :: events) =
    (test s && always step test (step s event) events) := rfl

theorem always_here {s : σ} {events : List ε} (passes : always step test s events = true) :
    test s = true := by
  cases events with
  | nil => exact passes
  | cons event events =>
      rw [always_cons, Bool.and_eq_true] at passes
      exact passes.1

theorem always_append {s : σ} {before after : List ε} :
    always step test s (before ++ after) = true ↔
      always step test s before = true ∧ always step test (run step s before) after = true := by
  induction before generalizing s with
  | nil =>
      constructor
      · intro passes
        have rest : always step test s after = true := passes
        have here : test s = true := always_here rest
        exact ⟨here, rest⟩
      · intro passes
        exact passes.2
  | cons event before ih =>
      rw [List.cons_append, always_cons, always_cons, Bool.and_eq_true, Bool.and_eq_true, ih,
        and_assoc]
      rfl

/-- An invariant of steps that start where the test passes. -/
theorem run_invariant_of_always {J : σ -> Prop}
    (keeps : ∀ s event, test s = true -> J s -> J (step s event)) {s : σ} {events : List ε}
    (passes : always step test s events = true) (now : J s) : J (run step s events) := by
  induction events generalizing s with
  | nil => exact now
  | cons event events ih =>
      rw [always_cons, Bool.and_eq_true] at passes
      exact ih passes.2 (keeps s event passes.1 now)

/-- An invariant of every step is one of every run. -/
theorem run_invariant {J : σ -> Prop} (keeps : ∀ s event, J s -> J (step s event)) {s : σ}
    (events : List ε) (now : J s) : J (run step s events) := by
  induction events generalizing s with
  | nil => exact now
  | cons event events ih => exact ih (keeps s event now)

theorem everyStep_cons (s : σ) (event : ε) (events : List ε) :
    everyStep step allowed s (event :: events) =
      (allowed s event && everyStep step allowed (step s event) events) := rfl

theorem everyStep_append {s : σ} {before after : List ε} :
    everyStep step allowed s (before ++ after) = true ↔
      everyStep step allowed s before = true ∧
        everyStep step allowed (run step s before) after = true := by
  induction before generalizing s with
  | nil =>
      constructor
      · intro passes
        exact ⟨rfl, passes⟩
      · intro passes
        exact passes.2
  | cons event before ih =>
      rw [List.cons_append, everyStep_cons, everyStep_cons, Bool.and_eq_true, Bool.and_eq_true, ih,
        and_assoc]
      rfl

theorem everyStep_and {allowed' : σ -> ε -> Bool} {s : σ} {events : List ε} :
    everyStep step (fun s event => allowed s event && allowed' s event) s events = true ↔
      everyStep step allowed s events = true ∧ everyStep step allowed' s events = true := by
  induction events generalizing s with
  | nil => simp [everyStep]
  | cons event events ih =>
      simp only [everyStep_cons, Bool.and_eq_true, ih]
      exact and_and_and_comm

/-- Every step of a run is one after some part of it. -/
theorem everyStep_iff {s : σ} {events : List ε} : everyStep step allowed s events = true ↔
    ∀ before event, before ++ [event] <+: events -> allowed (run step s before) event = true := by
  induction events generalizing s with
  | nil =>
      constructor
      · intro _ before event earlier
        have empty := List.prefix_nil.mp earlier
        simp at empty
      · intro _
        rfl
  | cons first events ih =>
      rw [everyStep_cons, Bool.and_eq_true, ih]
      constructor
      · rintro ⟨here, later⟩ before event earlier
        cases before with
        | nil =>
            rcases List.cons_prefix_cons.mp earlier with ⟨same, _⟩
            subst same
            exact here
        | cons head before =>
            rcases List.cons_prefix_cons.mp earlier with ⟨same, rest⟩
            subst same
            exact later before event rest
      · intro each
        refine ⟨each [] first (List.cons_prefix_cons.mpr ⟨rfl, List.nil_prefix⟩), ?_⟩
        intro before event earlier
        exact each (first :: before) event (List.cons_prefix_cons.mpr ⟨rfl, earlier⟩)

/-- An invariant of the allowed steps. -/
theorem run_invariant_of_everyStep {J : σ -> Prop}
    (keeps : ∀ s event, allowed s event = true -> J s -> J (step s event)) {s : σ} {events : List ε}
    (passes : everyStep step allowed s events = true) (now : J s) : J (run step s events) := by
  induction events generalizing s with
  | nil => exact now
  | cons event events ih =>
      rw [everyStep_cons, Bool.and_eq_true] at passes
      exact ih passes.2 (keeps s event passes.1 now)

/-- If every step that is not allowed leads out of the law, runs within the law
take allowed steps. -/
theorem everyStep_of_law {J L : σ -> Prop}
    (keeps : ∀ s event, allowed s event = true -> J s -> J (step s event))
    (leaves : ∀ s event, J s -> L (step s event) -> allowed s event = true) {s : σ} (now : J s)
    {events : List ε} (within : ∀ before, before <+: events -> L (run step s before)) :
    everyStep step allowed s events = true := by
  induction events generalizing s with
  | nil => rfl
  | cons event events ih =>
      have first : allowed s event = true := leaves s event now (within [event] ⟨events, rfl⟩)
      rw [everyStep_cons, Bool.and_eq_true]
      refine ⟨first, ih (keeps s event first now) ?_⟩
      intro before earlier
      exact within (event :: before) (List.cons_prefix_cons.mpr ⟨rfl, earlier⟩)

/-- The same of a law about each step. -/
theorem everyStep_of_stepLaw {J : σ -> Prop} {L : σ -> ε -> Prop}
    (keeps : ∀ s event, allowed s event = true -> J s -> J (step s event))
    (leaves : ∀ s event, J s -> L s event -> allowed s event = true) {s : σ} (now : J s)
    {events : List ε}
    (within : ∀ before event, before ++ [event] <+: events -> L (run step s before) event) :
    everyStep step allowed s events = true := by
  induction events generalizing s with
  | nil => rfl
  | cons event events ih =>
      have head : [] ++ [event] <+: event :: events := List.cons_prefix_cons.mpr ⟨rfl, List.nil_prefix⟩
      have first : allowed s event = true := leaves s event now (within [] event head)
      rw [everyStep_cons, Bool.and_eq_true]
      refine ⟨first, ih (keeps s event first now) ?_⟩
      intro before event' earlier
      exact within (event :: before) event' (List.cons_prefix_cons.mpr ⟨rfl, earlier⟩)

/-- Some state of a run, up to the last. -/
def Met (step : σ -> ε -> σ) (s : σ) (P : σ -> Prop) (events : List ε) : Prop :=
  ∃ before, before <+: events ∧ P (run step s before)

theorem met_concat {P : σ -> Prop} {s : σ} {events : List ε} {event : ε} :
    Met step s P (events ++ [event]) ↔ Met step s P events ∨ P (run step s (events ++ [event])) := by
  constructor
  · rintro ⟨before, earlier, here⟩
    rcases List.prefix_concat_iff.mp earlier with rfl | earlier
    · exact Or.inr here
    · exact Or.inl ⟨before, earlier, here⟩
  · rintro (⟨before, earlier, here⟩ | here)
    · exact ⟨before, earlier.trans (List.prefix_append _ _), here⟩
    · exact ⟨_, List.prefix_rfl, here⟩

/-! ## Loops -/

section Failing

variable {J Q : σ -> Prop} {turn : σ -> ε -> Option σ} {items : List ε}

/-- What each turn keeps, a loop that comes to its end keeps. -/
theorem foldlM_invariant (keeps : ∀ s a s', a ∈ items -> J s -> turn s a = some s' -> J s') {s s' : σ}
    (ended : items.foldlM turn s = some s') (now : J s) : J s' := by
  induction items generalizing s with
  | nil =>
      cases ended
      exact now
  | cons a items ih =>
      rw [List.foldlM_cons] at ended
      rcases Option.bind_eq_some_iff.mp ended with ⟨next, turned, rest⟩
      exact ih (fun s a s' mem => keeps s a s' (List.mem_cons_of_mem _ mem)) rest
        (keeps s a next List.mem_cons_self now turned)

/-- What one turn of a loop brings about and the others keep holds in the end. -/
theorem foldlM_reaches {item : ε} (keeps : ∀ s a s', a ∈ items -> J s -> turn s a = some s' -> J s')
    (reaches : ∀ s s', J s -> turn s item = some s' -> Q s')
    (stays : ∀ s a s', a ∈ items -> J s -> Q s -> turn s a = some s' -> Q s') (mem : item ∈ items) {s s' : σ}
    (ended : items.foldlM turn s = some s') (now : J s) : Q s' := by
  induction items generalizing s with
  | nil => cases mem
  | cons a items ih =>
      rw [List.foldlM_cons] at ended
      rcases Option.bind_eq_some_iff.mp ended with ⟨next, turned, rest⟩
      have keeps' := fun s a s' mem => keeps s a s' (List.mem_cons_of_mem _ mem)
      have stays' := fun s a s' mem => stays s a s' (List.mem_cons_of_mem _ mem)
      have there := keeps s a next List.mem_cons_self now turned
      rcases List.mem_cons.mp mem with same | later
      · subst same
        have both := foldlM_invariant (J := fun s => J s ∧ Q s)
          (fun s a s' mem here turned => ⟨keeps' s a s' mem here.1 turned, stays' s a s' mem here.1 here.2 turned⟩)
          rest ⟨there, reaches s next now turned⟩
        exact both.2
      · exact ih keeps' stays' later rest there

end Failing

/-- A loop that keeps the better of an element seen before and the next one. -/
theorem foldl_picks {turn : Option ε -> ε -> Option ε}
    (picks : ∀ best a, turn best a = best ∨ turn best a = some a) {items : List ε} {best : Option ε} {a : ε}
    (found : items.foldl turn best = some a) : best = some a ∨ a ∈ items := by
  induction items generalizing best with
  | nil => exact Or.inl found
  | cons first items ih =>
      rcases ih found with here | later
      · rcases picks best first with kept | taken
        · rw [kept] at here
          exact Or.inl here
        · rw [taken] at here
          cases here
          exact Or.inr List.mem_cons_self
      · exact Or.inr (List.mem_cons_of_mem first later)

/-- What such a loop is left with, from nothing on, is one of the elements. -/
theorem mem_of_foldl_best {turn : Option ε -> ε -> Option ε} (first : ∀ a, turn none a = some a)
    (next : ∀ b a, turn (some b) a = some a ∨ turn (some b) a = some b) {items : List ε} {a : ε}
    (found : items.foldl turn none = some a) : a ∈ items := by
  have picks : ∀ best a, turn best a = best ∨ turn best a = some a := by
    intro best a
    cases best with
    | none => exact Or.inr (first a)
    | some b => exact (next b a).symm
  rcases foldl_picks picks found with impossible | mem
  · cases impossible
  · exact mem

/-! ## Runs with events left out -/

/-- A run beside the run of some of its events.  The relation of the two states knows what events are
still to come. -/
theorem run_filter {R : List ε -> σ -> σ -> Prop} {own : ε -> Bool}
    (alone : ∀ event events s t, own event = false -> R (event :: events) s t -> R events (step s event) t)
    (both : ∀ event events s t, own event = true -> R (event :: events) s t ->
      R events (step s event) (step t event))
    {events : List ε} {s t : σ} (related : R events s t) :
    R [] (run step s events) (run step t (events.filter own)) := by
  induction events generalizing s t with
  | nil => exact related
  | cons event events ih =>
      cases here : own event with
      | false =>
          rw [List.filter_cons_of_neg (by rw [here]; exact Bool.false_ne_true)]
          exact ih (alone event events s t here related)
      | true =>
          rw [List.filter_cons_of_pos here]
          exact ih (both event events s t here related)

/-! ## Processes kept in a list -/

section Slots

variable {α : Type u} {slots : List α} {i j : Nat} {a b : α}

theorem slot_set (here : (slots.set i a)[j]? = some b) :
    (j = i ∧ b = a) ∨ (j ≠ i ∧ slots[j]? = some b) := by
  by_cases same : j = i
  · subst same
    rw [List.getElem?_set] at here
    simp only [if_true] at here
    split at here
    · exact Or.inl ⟨rfl, (Option.some.inj here).symm⟩
    · cases here
  · rw [List.getElem?_set_ne (Ne.symm same)] at here
    exact Or.inr ⟨same, here⟩

theorem slot_concat (here : (slots ++ [a])[j]? = some b) :
    (j = slots.length ∧ b = a) ∨ slots[j]? = some b := by
  rw [List.getElem?_append] at here
  split at here
  · exact Or.inr here
  · rename_i beyond
    rcases List.getElem?_eq_some_iff.mp here with ⟨within, same⟩
    have last : j = slots.length := by
      rw [List.length_singleton] at within
      omega
    rw [List.getElem_singleton] at same
    exact Or.inl ⟨last, same.symm⟩

end Slots

end Transitions
end Shiftlush
