import Shiftlush.Idempotency.Fence

namespace Shiftlush
namespace Idempotency

open Transitions

/-!
# What replay protection guarantees

For any requests with one key, in any order of their statements, with crashes,
failing handlers, take-overs and purges.  A slow handler is not stopped when
its reservation is taken over, so it may still run when the key is stored for
another request; what it did is then rolled back.
-/

namespace Machine

/-- The key is stored and has not expired. -/
def live (m : Machine) : Bool := m.row.any (fun row => decide (m.clock < row.expiresAt))

/-- The key is stored and its answer is not. -/
def unanswered (m : Machine) : Bool := m.row.any (·.isPending)

/-- A handler's work is committed exactly when the key is completed, with its answer. -/
def Together (m m' : Machine) : Prop :=
  (m'.work = m.work ∧ ∀ row, m'.row = some row -> row.isPending = false -> m.row = some row) ∨
    ∃ w row expiresAt, m'.work = m.work ++ [w] ∧ m.row = some row ∧ row.isPending = true ∧
      m'.row = some (row.completed w.response expiresAt)

/-- A replayed answer is the stored one, and stored for this request. -/
def Replays (m m' : Machine) : Prop :=
  ∀ i request response, m'.At i ⟨request, .done (.replayed response)⟩ ->
    m.At i ⟨request, .done (.replayed response)⟩ ∨
      ∃ row, m.row = some row ∧ row.isFor request = true ∧
        row.responseStatus = some response.status ∧ row.responseBody = response.body

/-- While the key is stored for another request and unexpired, the handler of
this one is not started and its work is not committed. -/
structure Apart (m m' : Machine) : Prop where
  started : ∀ i request reservation, m'.At i ⟨request, .handling reservation⟩ ->
    m.At i ⟨request, .handling reservation⟩ ∨
      (m.live = true -> ∀ row, m.row = some row -> row.isFor request = true)
  committed : ∀ w row, m'.work = m.work ++ [w] -> m.row = some row -> row.isFor w.request = true

/-- The answer stored is that of a committed handler of the same request. -/
def Backed (m : Machine) : Prop :=
  ∀ row, m.row = some row -> row.isPending = false -> ∃ w ∈ m.work,
    row.isFor w.request = true ∧ row.responseStatus = some w.response.status ∧
      row.responseBody = w.response.body

end Machine

section Steps

variable {retention : String -> Nat} {m m' : Machine}

theorem Sane.together (sane : Sane m) (moves : m.Moves retention m') : m.Together m' := by
  have same : m'.work = m.work -> m'.row = m.row -> m.Together m' := by
    intro work row
    refine Or.inl ⟨work, ?_⟩
    intro r found _
    exact row ▸ found
  cases moves with
  | inserted here stage empty =>
      refine Or.inl ⟨rfl, ?_⟩
      intro row found answered
      cases found
      cases answered
  | taken here stage found free admits =>
      refine Or.inl ⟨rfl, ?_⟩
      intro row found answered
      cases found
      cases answered
  | @committed i thread reservation response expiresAt here stage =>
      right
      have holds := sane.committing i thread here (by rw [stage]; rfl)
      rcases sane.held i holds with ⟨_, _, _, _, row, _, _, found, mine⟩
      refine ⟨⟨i, thread.request, response⟩, row, expiresAt, rfl, found,
        (Bool.and_eq_true_iff.mp mine).2, ?_⟩
      change m.row.map _ = _
      rw [found]
      rfl
  | released here before after free =>
      refine Or.inl ⟨rfl, ?_⟩
      intro row found
      cases found
  | purged free =>
      refine Or.inl ⟨rfl, ?_⟩
      intro row found
      cases found
  | _ => exact same rfl rfl

/-- One step of a stored and unexpired row. -/
theorem Sane.live_moves (sane : Sane m) (moves : m.Moves retention m') (live : m.live = true)
    (live' : m'.live = true) :
    (m'.work = m.work ∧ (m.unanswered = false -> m'.unanswered = false)) ∨
      (m.unanswered = true ∧ m'.unanswered = false ∧ ∃ w, m'.work = m.work ++ [w]) := by
  cases moves with
  | inserted here stage empty =>
      unfold Machine.live at live
      rw [empty] at live
      cases live
  | @taken i thread attempt now candidate row here stage found free admits =>
      refine Or.inl ⟨rfl, ?_⟩
      intro answered
      exfalso
      unfold Machine.unanswered at answered
      rw [found, Option.any_some] at answered
      cases candidate with
      | abandoned =>
          rw [(Bool.and_eq_true_iff.mp admits).1] at answered
          cases answered
      | expired =>
          have expired : row.expiresAt ≤ now := of_decide_eq_true admits
          have reading := sane.readings i thread here
          rw [stage] at reading
          have reading : now ≤ m.clock := reading
          unfold Machine.live at live
          rw [found, Option.any_some, decide_eq_true_eq] at live
          omega
  | @committed i thread reservation response expiresAt here stage =>
      right
      have holds := sane.committing i thread here (by rw [stage]; rfl)
      rcases sane.held i holds with ⟨_, _, _, _, row, _, _, found, mine⟩
      refine ⟨?_, ?_, _, rfl⟩
      · unfold Machine.unanswered
        rw [found]
        exact (Bool.and_eq_true_iff.mp mine).2
      · unfold Machine.unanswered
        change (m.row.map _).any _ = false
        rw [found]
        rfl
  | released here before after free => cases live'
  | purged free => cases live'
  | _ => exact Or.inl ⟨rfl, fun answered => answered⟩

/-- A thread that has moved to another stage than this. -/
theorem Machine.at_set_ne {i k : Nat} {thread other : Thread} {stage : Stage}
    (different : other.stage ≠ stage)
    (here : (m.threads.set k { thread with stage := stage })[i]? = some other) : m.At i other := by
  rcases Machine.at_set here with ⟨_, same⟩ | ⟨_, before⟩
  · subst same
    exact absurd rfl different
  · exact before

theorem Stage.ne_of_isIdle {stage stage' : Stage} (idle : stage.isIdle = true)
    (busy : stage'.isIdle = false) : stage' ≠ stage := by
  intro same
  rw [same, idle] at busy
  cases busy

theorem Machine.at_arrived {i : Nat} {request : Request} {other : Thread}
    (busy : other.stage ≠ .reserving 0)
    (here : (m.threads ++ [⟨request, .reserving 0⟩])[i]? = some other) : m.At i other := by
  rcases Machine.at_concat here with before | same
  · exact before
  · subst same
    exact absurd rfl busy

/-- `look` ends with an answer only if it is the stored one. -/
theorem look_replayed {row : Option IdempotencyKey} {request : Request} {attempt now : Nat}
    {response : Response} (replayed : look row request attempt now = .done (.replayed response)) :
    ∃ existing, row = some existing ∧ existing.isFor request = true ∧
      existing.responseStatus = some response.status ∧ existing.responseBody = response.body := by
  unfold look at replayed
  split at replayed
  · split at replayed
    · cases replayed
    · cases replayed
  · rename_i existing
    split at replayed
    · cases replayed
    · split at replayed
      · cases replayed
      · rename_i mine
        split at replayed
        · rename_i status stored
          cases replayed
          exact ⟨existing, rfl, Bool.not_eq_false _ ▸ mine, stored, rfl⟩
        · split at replayed
          · cases replayed
          · cases replayed

theorem Machine.Moves.replays (moves : m.Moves retention m') : m.Replays m' := by
  intro i request response here
  have done : (Stage.done (.replayed response)).isIdle = false := rfl
  cases moves with
  | still later => exact Or.inl here
  | arrived request => exact Or.inl (Machine.at_arrived (by simp only [ne_eq, reduceCtorEq, not_false_iff]) here)
  | @looked k thread attempt now at_k stage =>
      rcases Machine.at_set here with ⟨_, same⟩ | ⟨_, before⟩
      · right
        have request_eq : request = thread.request := congrArg Thread.request same
        have stage_eq : .done (.replayed response) = look m.row thread.request attempt now :=
          congrArg Thread.stage same
        rw [request_eq]
        exact look_replayed stage_eq.symm
      · exact Or.inl before
  | committed at_k stage =>
      exact Or.inl (Machine.at_set_ne (by simp only [ne_eq, reduceCtorEq, Stage.done.injEq,
        not_false_iff]) here)
  | dropped at_k waits after => exact Or.inl (Machine.at_set_ne (Stage.ne_of_isIdle after done) here)
  | ended at_k before after => exact Or.inl (Machine.at_set_ne (Stage.ne_of_isIdle after done) here)
  | released at_k before after free =>
      exact Or.inl (Machine.at_set_ne (Stage.ne_of_isIdle after done) here)
  | purged free => exact Or.inl here
  | _ => exact Or.inl (Machine.at_set_ne (by simp only [ne_eq, reduceCtorEq, not_false_iff]) here)

theorem look_ne_handling {row : Option IdempotencyKey} {request : Request} {attempt now : Nat}
    {reservation : Reservation} : Stage.handling reservation ≠ look row request attempt now := by
  unfold look
  intro same
  split at same
  · split at same
    · cases same
    · cases same
  · split at same
    · cases same
    · split at same
      · cases same
      · split at same
        · cases same
        · split at same
          · cases same
          · cases same

theorem Fenced.apart (fenced : Fenced retention m) (sane : Sane m) (moves : m.Moves retention m') :
    m.Apart m' := by
  constructor
  · intro i request reservation here
    have handling : (Stage.handling reservation).isIdle = false := rfl
    cases moves with
    | still later => exact Or.inl here
    | arrived request =>
        exact Or.inl (Machine.at_arrived (by simp only [ne_eq, reduceCtorEq, not_false_iff]) here)
    | inserted at_k stage empty =>
        right
        intro _ row found
        rw [empty] at found
        cases found
    | looked at_k stage => exact Or.inl (Machine.at_set_ne look_ne_handling here)
    | @taken k thread attempt now candidate row at_k stage found free admits =>
        rcases Machine.at_set here with ⟨_, same⟩ | ⟨_, before⟩
        · right
          have request_eq : request = thread.request := congrArg Thread.request same
          intro live row' found'
          rw [found] at found'
          cases found'
          rcases fenced.taking at_k stage found admits with ⟨_, past, expired | ⟨_, mine⟩⟩
          · exfalso
            unfold Machine.live at live
            rw [found, Option.any_some, decide_eq_true_eq] at live
            omega
          · rw [request_eq]
            exact mine
        · exact Or.inl before
    | dropped at_k waits after =>
        exact Or.inl (Machine.at_set_ne (Stage.ne_of_isIdle after handling) here)
    | ended at_k before after =>
        exact Or.inl (Machine.at_set_ne (Stage.ne_of_isIdle after handling) here)
    | released at_k before after free =>
        exact Or.inl (Machine.at_set_ne (Stage.ne_of_isIdle after handling) here)
    | purged free => exact Or.inl here
    | _ => exact Or.inl (Machine.at_set_ne (by simp only [ne_eq, reduceCtorEq, not_false_iff]) here)
  · intro w row work found
    have nothing : ¬ m.work = m.work ++ [w] := by
      intro same
      have lengths := congrArg List.length same
      rw [List.length_append, List.length_singleton] at lengths
      omega
    cases moves with
    | committed at_k stage =>
        rcases fenced.committing sane at_k stage with ⟨row', found', _, mine, _⟩
        rw [found] at found'
        cases found'
        have last := List.append_cancel_left (work : m.work ++ [_] = m.work ++ [w])
        cases last
        exact mine
    | _ => exact absurd work nothing

theorem Machine.Backed.step (backed : m.Backed) (together : m.Together m') (apart : m.Apart m') :
    m'.Backed := by
  intro row found answered
  rcases together with ⟨work, kept⟩ | ⟨w, before, expiresAt, work, found', _, after⟩
  · rw [work]
    exact backed row (kept row found answered) answered
  · rw [after] at found
    cases found
    rw [work]
    exact ⟨w, List.mem_append_right _ (List.mem_singleton.mpr rfl),
      apart.committed w before work found', rfl, rfl⟩

end Steps

/-! ## Over whole runs -/

section Runs

variable (retention : String -> Nat)

/-- The state after some events, from the beginning. -/
def after (events : List Event) : Machine := run (Machine.step retention) .empty events

/-- The laws of one key, for every run. -/
structure ReplayLaw (events : List Event) : Prop where
  /-- While the key stays stored and unexpired, at most one handler's work is
  committed for it, and none once it is answered. -/
  once : ∀ before during, events = before ++ during ->
    always (Machine.step retention) Machine.live (after retention before) during = true ->
    (after retention events).work = (after retention before).work ∨
      ((after retention before).unanswered = true ∧
        ∃ w, (after retention events).work = (after retention before).work ++ [w])
  together : ∀ before event rest, events = before ++ event :: rest ->
    (after retention before).Together (after retention (before ++ [event]))
  replays : ∀ before event rest, events = before ++ event :: rest ->
    (after retention before).Replays (after retention (before ++ [event]))
  apart : always (Machine.step retention) (Machine.prompt retention) .empty events = true ->
    (after retention events).Backed ∧ ∀ before event rest, events = before ++ event :: rest ->
      (after retention before).Apart (after retention (before ++ [event]))

variable {retention}

theorem sane_after (events : List Event) : Sane (after retention events) :=
  run_invariant (fun _ event sane => sane.moves (Machine.step_moves retention _ event)) events .empty

theorem fenced_after (positive : ∀ e, pendingTimeout < retention e) {events : List Event}
    (prompt : always (Machine.step retention) (Machine.prompt retention) .empty events = true) :
    Fenced retention (after retention events) := by
  have both : Sane (after retention events) ∧ Fenced retention (after retention events) := by
    apply run_invariant_of_always (J := fun m => Sane m ∧ Fenced retention m) ?_ prompt
      ⟨.empty, .empty⟩
    rintro m event here ⟨sane, fenced⟩
    have moves := Machine.step_moves retention m event
    exact ⟨sane.moves moves, fenced.moves positive sane here moves⟩
  exact both.2

/-- While the key is stored and unexpired, by induction on the steps. -/
theorem Sane.live_run {m : Machine} (sane : Sane m) {during : List Event}
    (live : always (Machine.step retention) Machine.live m during = true) :
    (run (Machine.step retention) m during).work = m.work ∨
      (m.unanswered = true ∧ ∃ w, (run (Machine.step retention) m during).work = m.work ++ [w]) := by
  induction during generalizing m with
  | nil => exact Or.inl rfl
  | cons event during ih =>
      rw [always_cons, Bool.and_eq_true] at live
      have moves := Machine.step_moves retention m event
      have rest := ih (sane.moves moves) live.2
      rcases sane.live_moves moves live.1 (always_here live.2) with ⟨work, stays⟩ | ⟨open_before, answered, w, work⟩
      · unfold run
        rw [work] at rest
        rcases rest with same | ⟨waits, more⟩
        · exact Or.inl same
        · right
          refine ⟨?_, more⟩
          by_contra closed
          rw [stays (Bool.eq_false_iff.mpr closed)] at waits
          cases waits
      · unfold run
        right
        refine ⟨open_before, w, ?_⟩
        rcases rest with same | ⟨waits, _⟩
        · exact same.trans work
        · rw [answered] at waits
          cases waits

theorem backed_after (positive : ∀ e, pendingTimeout < retention e) {events : List Event}
    (prompt : always (Machine.step retention) (Machine.prompt retention) .empty events = true) :
    (after retention events).Backed := by
  have all : Sane (after retention events) ∧ Fenced retention (after retention events) ∧
      (after retention events).Backed := by
    apply run_invariant_of_always
      (J := fun m => Sane m ∧ Fenced retention m ∧ m.Backed) ?_ prompt
      ⟨.empty, .empty, fun row found => by cases found⟩
    rintro m event here ⟨sane, fenced, backed⟩
    have moves := Machine.step_moves retention m event
    exact ⟨sane.moves moves, fenced.moves positive sane here moves,
      backed.step (sane.together moves) (fenced.apart sane moves)⟩
  exact all.2.2

theorem replay_law (positive : ∀ e, pendingTimeout < retention e) (events : List Event) :
    ReplayLaw retention events where
  once before during split live := by
    subst split
    unfold after
    rw [run_append]
    exact (sane_after before).live_run live
  together before event rest _ := by
    unfold after
    rw [run_concat]
    exact (sane_after before).together (Machine.step_moves retention _ event)
  replays before event rest _ := by
    unfold after
    rw [run_concat]
    exact (Machine.step_moves retention _ event).replays
  apart prompt := by
    refine ⟨backed_after positive prompt, ?_⟩
    intro before event rest split
    rw [split] at prompt
    have fenced := fenced_after positive (always_append.mp prompt).1
    unfold after
    rw [run_concat]
    exact fenced.apart (sane_after before) (Machine.step_moves retention _ event)

end Runs

/-- One retention for every view. -/
def aDay (_ : String) : Nat := 86400000000

/-- A request, its answer, and a retry. -/
def retried : List Event :=
  .arrive ⟨"POST /contracts/", "a"⟩ :: List.replicate 3 (.act 0) ++
    .handled 0 ⟨201, some "c-1"⟩ :: List.replicate 3 (.act 0) ++
    .arrive ⟨"POST /contracts/", "a"⟩ :: List.replicate 4 (.act 1)

theorem aDay_long (e : String) : pendingTimeout < aDay e := by
  change pendingTimeout < 86400000000
  decide

theorem retried_lawful : ReplayLaw aDay retried ∧
    (after aDay retried).At 1 ⟨⟨"POST /contracts/", "a"⟩, .done (.replayed ⟨201, some "c-1"⟩)⟩ :=
  ⟨replay_law aDay_long retried, by decide +kernel⟩

/-! ## A different request can run -/

namespace Stage

def isRunning : Stage -> Bool
  | .handling _ => true
  | .storing _ _ => true
  | .completing _ _ _ => true
  | .committing _ _ _ => true
  | _ => false

end Stage

/-- No handler runs while the key is stored for another request and unexpired. -/
def Machine.exclusive (m : Machine) : Bool :=
  m.threads.all (fun thread => !(thread.stage.isRunning && m.live &&
    m.row.any (fun row => !row.isFor thread.request)))

/-- A slow handler is taken over, the retry fails and releases the key, and the
key is used for another request. -/
def slowRun : List Event :=
  .arrive ⟨"POST /contracts/", "a"⟩ :: List.replicate 3 (.act 0) ++
    .tick 60000001 :: .arrive ⟨"POST /contracts/", "a"⟩ :: List.replicate 5 (.act 1) ++
    .raised 1 :: List.replicate 2 (.act 1) ++
    .arrive ⟨"POST /contracts/", "b"⟩ :: List.replicate 3 (.act 2)

/-- A reservation inserted once it has expired: two take-overs later the row has
its `created_at` again, and its handler completes the key of another request. -/
def lateRun : List Event :=
  .arrive ⟨"POST /contracts/", "a"⟩ :: .act 0 :: .tick 86400000000 ::
    .arrive ⟨"POST /contracts/", "b"⟩ :: .act 1 :: .tick 86400000000 :: List.replicate 2 (.act 0) ++
    List.replicate 4 (.act 1) ++
    .arrive ⟨"POST /contracts/", "b"⟩ :: List.replicate 5 (.act 2) ++
    .handled 0 ⟨201, some "c-1"⟩ :: List.replicate 3 (.act 0)

/-- Neither can be left out: a taken over handler runs on, and without `prompt`
its work may even be committed. -/
theorem different_request_runs :
    (¬ ∀ retention events, (∀ e, pendingTimeout < retention e) ->
      always (Machine.step retention) (Machine.prompt retention) .empty events = true ->
        (after retention events).exclusive = true) ∧
    ¬ ∀ retention events, (∀ e, pendingTimeout < retention e) -> (after retention events).Backed := by
  constructor
  · intro law
    have broken : (after aDay slowRun).exclusive = false := by decide +kernel
    rw [law aDay slowRun aDay_long (by decide +kernel)] at broken
    cases broken
  · intro law
    have stored : (after aDay lateRun).row =
        some ⟨0, "POST /contracts/", "b", some 201, some "c-1", 172800000000, 259200000000⟩ := by
      decide +kernel
    have work : (after aDay lateRun).work =
        [⟨0, ⟨"POST /contracts/", "a"⟩, ⟨201, some "c-1"⟩⟩] := by decide +kernel
    rcases law aDay lateRun aDay_long _ stored rfl with ⟨w, mem, mine, _⟩
    rw [work, List.mem_singleton] at mem
    rw [mem] at mine
    exact absurd (IdempotencyKey.isFor_iff.mp mine).1 (by decide)

end Idempotency
end Shiftlush
