import Shiftlush.Faults.Records
import Mathlib.Logic.Function.Basic

namespace Shiftlush
namespace Faults

open Fleet (FaultStatus)

/-!
# The stages of a fault

What a fault goes through, apart from everything else about it: a stage and the
moment each stage was reached.  A stage is only reached from one it may follow,
at a moment no earlier than any before.
-/

/-- Later stages are deeper, and nothing follows the last two. -/
def depth : FaultStatus -> Nat
  | .open => 0
  | .assigned => 1
  | .onSite => 2
  | .resolved => 3
  | .closed => 4
  | .cancelled => 5

theorem depth_injective {stage stage' : FaultStatus} (same : depth stage = depth stage') : stage = stage' := by
  cases stage <;> cases stage' <;> first | rfl | cases same

/-- The stages a transition may lead to. -/
def follows : FaultStatus -> List FaultStatus
  | .open => [.assigned, .cancelled]
  | .assigned => [.assigned, .onSite, .cancelled]
  | .onSite => [.resolved, .cancelled]
  | .resolved => [.closed]
  | .closed => []
  | .cancelled => []

structure Course where
  status : FaultStatus
  stamp : FaultStatus -> Option Nat

namespace Course

variable {c c' : Course} {stage stage' : FaultStatus} {moment : Nat}

def reported (moment : Nat) : Course := ⟨.open, fun stage => if stage = .open then some moment else none⟩

def reach (c : Course) (stage : FaultStatus) (moment : Nat) : Course :=
  ⟨stage, Function.update c.stamp stage (some moment)⟩

/-- No stamp is later than the moment. -/
def Until (c : Course) (moment : Nat) : Prop := ∀ stage stamped, c.stamp stage = some stamped -> stamped ≤ moment

inductive Step (moment : Nat) : Course -> Course -> Prop where
  | stays (c : Course) : Step moment c c
  | reaches {c : Course} {stage : FaultStatus} : stage ∈ follows c.status -> c.Until moment ->
      Step moment c (c.reach stage moment)

/-- A fault is reported, and may be assigned at once. -/
inductive Begins (moment : Nat) : Course -> Prop where
  | reported : Begins moment (Course.reported moment)
  | assigned : Begins moment ((Course.reported moment).reach .assigned moment)

/-! ## What holds of every course -/

/-- The stages reached are those up to the status.  What was cancelled had not been
resolved. -/
structure Agrees (c : Course) : Prop where
  reported : (c.stamp .open).isSome = true
  passed : c.status ≠ .cancelled -> ∀ stage, (c.stamp stage).isSome = true ↔ depth stage ≤ depth c.status
  cancelled : c.status = .cancelled -> (c.stamp .cancelled).isSome = true ∧ c.stamp .resolved = none ∧
    c.stamp .closed = none ∧ ((c.stamp .onSite).isSome = true -> (c.stamp .assigned).isSome = true)

def Ordered (c : Course) : Prop := ∀ stage stage' stamped stamped', depth stage ≤ depth stage' ->
  c.stamp stage = some stamped -> c.stamp stage' = some stamped' -> stamped ≤ stamped'

theorem reach_self (c : Course) (stage : FaultStatus) (moment : Nat) :
    (c.reach stage moment).stamp stage = some moment := Function.update_self ..

theorem reach_of_ne (c : Course) (moment : Nat) (different : stage' ≠ stage) :
    (c.reach stage moment).stamp stage' = c.stamp stage' := Function.update_of_ne different ..

theorem until_reported (moment : Nat) : (reported moment).Until moment := by
  intro stage stamped there
  unfold reported at there
  dsimp only at there
  split_ifs at there
  cases there
  exact le_rfl

theorem Until.reach {bound : Nat} (before : c.Until bound) (stage : FaultStatus) (within : moment ≤ bound) :
    (c.reach stage moment).Until bound := by
  intro stage' stamped there
  by_cases here : stage' = stage
  · rw [here, reach_self] at there
    cases there
    exact within
  · rw [reach_of_ne c moment here] at there
    exact before stage' stamped there

theorem Until.mono (before : c.Until moment) {moment' : Nat} (le : moment ≤ moment') : c.Until moment' :=
  fun stage stamped there => (before stage stamped there).trans le

/-- What follows is the next stage, the same again, or the end of a fault that is not
resolved. -/
theorem follows_depth {status : FaultStatus} (leads : stage ∈ follows status) : status ≠ .cancelled ∧
    (stage = .cancelled ∧ depth status ≤ 2 ∨
      stage ≠ .cancelled ∧ depth status ≤ depth stage ∧ depth stage ≤ depth status + 1) := by
  revert leads
  cases status <;> cases stage <;> decide

theorem depth_ne (different : stage ≠ stage') : depth stage ≠ depth stage' :=
  fun same => different (depth_injective same)

theorem Agrees.absent (agrees : c.Agrees) (alive : c.status ≠ .cancelled) (beyond : depth c.status < depth stage) :
    c.stamp stage = none := by
  rw [← Option.not_isSome_iff_eq_none, agrees.passed alive stage]
  omega

theorem agrees_reported (moment : Nat) : (reported moment).Agrees := by
  refine ⟨rfl, ?_, ?_⟩
  · intro _ stage
    cases stage <;> simp [reported, depth]
  · intro cancelled
    cases cancelled

theorem Agrees.reach (agrees : c.Agrees) (leads : stage ∈ follows c.status) (moment : Nat) :
    (c.reach stage moment).Agrees := by
  rcases follows_depth leads with ⟨alive, ⟨rfl, early⟩ | ⟨other, low, high⟩⟩
  · refine ⟨?_, fun still => absurd rfl still, ?_⟩
    · rw [reach_of_ne c moment (by decide)]
      exact agrees.reported
    · intro _
      have resolved : c.stamp .resolved = none := agrees.absent alive (Nat.lt_succ_of_le early)
      have closed : c.stamp .closed = none := agrees.absent alive (Nat.lt_succ_of_le (Nat.le_succ_of_le early))
      refine ⟨?_, ?_, ?_, ?_⟩
      · rw [reach_self]
        rfl
      · rw [reach_of_ne c moment (by decide), resolved]
      · rw [reach_of_ne c moment (by decide), closed]
      · rw [reach_of_ne c moment (by decide), reach_of_ne c moment (by decide), agrees.passed alive,
          agrees.passed alive]
        exact fun onSite => Nat.le_of_succ_le onSite
  · refine ⟨?_, ?_, fun cancelled => absurd cancelled other⟩
    · have started : stage ≠ .open := by
        rintro rfl
        revert leads
        cases c.status <;> decide
      rw [reach_of_ne c moment started.symm]
      exact agrees.reported
    · intro _ stage'
      have status : (c.reach stage moment).status = stage := rfl
      rw [status]
      by_cases here : stage' = stage
      · rw [here, reach_self]
        exact iff_of_true rfl le_rfl
      · have apart := depth_ne here
        rw [reach_of_ne c moment here, agrees.passed alive]
        omega

theorem ordered_reported (moment : Nat) : (reported moment).Ordered := by
  intro stage stage' stamped stamped' _ there there'
  unfold reported at there there'
  dsimp only at there there'
  split_ifs at there there'
  cases there
  cases there'
  exact le_rfl

theorem Ordered.reach (ordered : c.Ordered) (agrees : c.Agrees) (leads : stage ∈ follows c.status)
    (before : c.Until moment) : (c.reach stage moment).Ordered := by
  intro s s' stamped stamped' deep there there'
  by_cases last : s' = stage
  · rw [last, reach_self] at there'
    cases there'
    exact before.reach stage le_rfl s stamped there
  · rw [reach_of_ne c moment last] at there'
    have other : s ≠ stage := by
      rintro rfl
      rcases follows_depth leads with ⟨alive, within⟩
      have apart := depth_ne last
      have beyond : depth c.status < depth s' := by
        rcases within with ⟨rfl, early⟩ | ⟨_, low, _⟩
        · have deepest : depth .cancelled = 5 := rfl
          omega
        · omega
      rw [agrees.absent alive beyond] at there'
      cases there'
    rw [reach_of_ne c moment other] at there
    exact ordered s s' stamped stamped' deep there there'

/-- What holds of a fault at any time. -/
structure Sound (c : Course) : Prop where
  agrees : c.Agrees
  ordered : c.Ordered

theorem Sound.step (sound : c.Sound) (step : Step moment c c') : c'.Sound := by
  cases step with
  | stays => exact sound
  | reaches leads before => exact ⟨sound.agrees.reach leads moment, sound.ordered.reach sound.agrees leads before⟩

theorem Begins.sound (begins : Begins moment c) : c.Sound := by
  have new : (Course.reported moment).Sound := ⟨agrees_reported moment, ordered_reported moment⟩
  cases begins with
  | reported => exact new
  | assigned => exact new.step (.reaches List.mem_cons_self (until_reported moment))

/-- Nothing follows a closed fault, nor a cancelled one. -/
theorem Step.status_of_ended (step : Step moment c c') (ended : follows c.status = []) : c'.status = c.status := by
  cases step with
  | stays => rfl
  | reaches leads before =>
      rw [ended] at leads
      cases leads

theorem Step.until (step : Step moment c c') {bound : Nat} (before : c.Until bound) (within : moment ≤ bound) :
    c'.Until bound := by
  cases step with
  | stays => exact before
  | reaches leads _ => exact before.reach _ within

theorem Begins.until (begins : Begins moment c) : c.Until moment := by
  cases begins with
  | reported => exact until_reported _
  | assigned => exact (until_reported _).reach .assigned le_rfl

theorem Agrees.here (agrees : c.Agrees) : (c.stamp c.status).isSome = true := by
  by_cases cancelled : c.status = .cancelled
  · rw [cancelled]
    exact (agrees.cancelled cancelled).1
  · exact (agrees.passed cancelled c.status).mpr le_rfl

/-- The stamp that a step sets is that of the stage it leads to. -/
theorem Step.stamp_iff (step : Step moment c c') (sound : c.Sound) :
    (c'.stamp stage).isSome = true ↔ (c.stamp stage).isSome = true ∨ c'.status = stage := by
  cases step with
  | stays =>
      constructor
      · exact Or.inl
      · rintro (set | rfl)
        · exact set
        · exact sound.agrees.here
  | @reaches reached leads before =>
      have status : (c.reach reached moment).status = reached := rfl
      by_cases here : stage = reached
      · rw [here, reach_self, status]
        exact iff_of_true rfl (Or.inr rfl)
      · rw [reach_of_ne c moment here, status]
        constructor
        · exact Or.inl
        · rintro (set | same)
          · exact set
          · exact absurd same.symm here

theorem Begins.stamp_iff (begins : Begins moment c) (later : stage ≠ .open) :
    (c.stamp stage).isSome = true ↔ c.status = stage := by
  have new : ((Course.reported moment).stamp stage).isSome = false := by
    unfold Course.reported
    dsimp only
    rw [if_neg later]
    rfl
  cases begins with
  | reported =>
      rw [new]
      exact iff_of_false Bool.false_ne_true (fun same => later same.symm)
  | assigned =>
      have step : Step moment (Course.reported moment) ((Course.reported moment).reach .assigned moment) :=
        .reaches List.mem_cons_self (until_reported moment)
      rw [step.stamp_iff ⟨agrees_reported moment, ordered_reported moment⟩, new]
      exact or_iff_right Bool.false_ne_true

end Course

end Faults
end Shiftlush
