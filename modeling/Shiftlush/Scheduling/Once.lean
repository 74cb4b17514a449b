import Mathlib.Data.List.Nodup
import Shiftlush.Scheduling.Ticks

namespace Shiftlush
namespace Scheduling

open Transitions (run)

/-!
# Each job once a day

The claim of a job and a date and the task enqueued for it come and go together,
and two of them never do.
-/

/-- The runs there are, by their keys. -/
abbrev Keys := List (String × Nat)

/-! ## A tick -/

namespace Tick

variable {tick : Tick} {keys : Keys}

/-- What a tick has come past is in the table. -/
structure Sound (keys : Keys) (tick : Tick) : Prop where
  passed : ∀ job ∈ tick.passed, (job, tick.localNow.date) ∈ keys
  covered : ∀ schedule ∈ tick.schedules, schedule.isDue tick.localNow = true ->
    schedule ∈ tick.ahead ∨ schedule.name ∈ tick.passed ∨ schedule.name ∈ tick.refused

theorem Sound.mono {keys' : Keys} (sound : tick.Sound keys) (more : ∀ key ∈ keys, key ∈ keys') :
    tick.Sound keys' :=
  ⟨fun job mem => more _ (sound.passed job mem), sound.covered⟩

theorem Sound.at_stage (sound : tick.Sound keys) (stage : Stage) :
    Tick.Sound keys { tick with stage := stage } := ⟨sound.passed, sound.covered⟩

theorem mem_tail_of_ne {schedule head : DailySchedule} {rest : List DailySchedule}
    (ahead : tick.ahead = head :: rest) (mem : schedule ∈ tick.ahead) (other : schedule ≠ head) :
    schedule ∈ tick.ahead.tail := by
  rw [ahead] at mem
  rw [ahead, List.tail_cons]
  rcases List.mem_cons.mp mem with same | later
  · exact absurd same other
  · exact later

/-- A schedule that is not due is skipped. -/
theorem Sound.skip (sound : tick.Sound keys) {head : DailySchedule} {rest : List DailySchedule}
    (ahead : tick.ahead = head :: rest) (early : head.isDue tick.localNow = false) :
    tick.skip.Sound keys := by
  refine ⟨sound.passed, ?_⟩
  intro schedule mem due
  rcases sound.covered schedule mem due with before | past
  · refine Or.inl (mem_tail_of_ne ahead before ?_)
    rintro rfl
    have due' : schedule.isDue tick.localNow = true := due
    rw [early] at due'
    cases due'
  · exact Or.inr past

theorem Sound.pass (sound : tick.Sound keys) {head : DailySchedule} {rest : List DailySchedule}
    (ahead : tick.ahead = head :: rest) (there : (head.name, tick.localNow.date) ∈ keys) :
    (tick.pass head.name).Sound keys := by
  constructor
  · intro job mem
    rcases List.mem_cons.mp mem with same | before
    · rw [same]
      exact there
    · exact sound.passed job before
  · intro schedule mem due
    by_cases here : schedule = head
    · rw [here]
      exact Or.inr (Or.inl List.mem_cons_self)
    · rcases sound.covered schedule mem due with before | passed | refused
      · exact Or.inl (mem_tail_of_ne ahead before here)
      · exact Or.inr (Or.inl (List.mem_cons_of_mem _ passed))
      · exact Or.inr (Or.inr refused)

theorem Sound.start (sound : tick.Sound keys) {head : DailySchedule} {rest : List DailySchedule}
    (ahead : tick.ahead = head :: rest) (there : (head.name, tick.localNow.date) ∈ keys) :
    (tick.start head.name).Sound keys :=
  ⟨(sound.pass ahead there).passed, (sound.pass ahead there).covered⟩

theorem Sound.refuse (sound : tick.Sound keys) {head : DailySchedule} {rest : List DailySchedule}
    (ahead : tick.ahead = head :: rest) : (tick.refuse head.name).Sound keys := by
  refine ⟨sound.passed, ?_⟩
  intro schedule mem due
  by_cases here : schedule = head
  · rw [here]
    exact Or.inr (Or.inr List.mem_cons_self)
  · rcases sound.covered schedule mem due with before | passed | refused
    · exact Or.inl (mem_tail_of_ne ahead before here)
    · exact Or.inr (Or.inl passed)
    · exact Or.inr (Or.inr (List.mem_cons_of_mem _ refused))

theorem claim_of_not_claimed (free : tick.stage.isClaimed = false) : tick.claim = none := by
  unfold claim
  rw [free]
  split
  · rfl
  · rw [Bool.and_false]
    rfl

/-- A tick between two schedules has no transaction open. -/
theorem claim_of_checking (free : tick.stage = .checking) : tick.claim = none :=
  claim_of_not_claimed (by rw [free]; rfl)

theorem claim_of_nil (done : tick.ahead = []) : tick.claim = none := by
  unfold claim
  rw [done]

theorem claim_of_stage {schedule : DailySchedule} {rest : List DailySchedule}
    (ahead : tick.ahead = schedule :: rest) (due : schedule.isDue tick.localNow = true) (stage : Stage) :
    Tick.claim { tick with stage := stage } =
      if stage.isClaimed then some (schedule.name, tick.localNow.date) else none := by
  unfold claim
  rw [ahead]
  dsimp only
  rw [due, Bool.true_and]
  rfl

/-- The statements a tick has still to execute, at most. -/
def left (tick : Tick) : Nat :=
  6 * tick.ahead.length +
    match tick.stage with
    | .checking => 5
    | .claiming => 4
    | .enqueueing => 3
    | .recording _ => 2
    | .committing _ => 1

/-- The same call, further on. -/
structure Follows (tick tick' : Tick) : Prop where
  localNow : tick'.localNow = tick.localNow
  schedules : tick'.schedules = tick.schedules
  refused : tick'.refused = tick.refused
  ahead : ∀ schedule ∈ tick'.ahead, schedule ∈ tick.ahead
  left : tick'.left < tick.left

theorem follows_stage {stage : Stage} (less : Tick.left { tick with stage := stage } < tick.left) :
    tick.Follows { tick with stage := stage } := ⟨rfl, rfl, rfl, fun _ mem => mem, less⟩

theorem left_skip {head : DailySchedule} {rest : List DailySchedule} (ahead : tick.ahead = head :: rest) :
    tick.skip.left < tick.left := by
  unfold left skip
  rw [ahead, List.tail_cons, List.length_cons]
  dsimp only
  split <;> omega

/-- Of `skip`, `pass` and `start`. -/
theorem follows_skip {head : DailySchedule} {rest : List DailySchedule} (ahead : tick.ahead = head :: rest)
    {tick' : Tick} (same : tick'.localNow = tick.localNow ∧ tick'.schedules = tick.schedules ∧
      tick'.refused = tick.refused ∧ tick'.ahead = tick.ahead.tail ∧ tick'.stage = .checking) :
    tick.Follows tick' := by
  rcases same with ⟨localNow, schedules, refused, ahead', stage⟩
  refine ⟨localNow, schedules, refused, ?_, ?_⟩
  · intro schedule mem
    rw [ahead'] at mem
    exact List.mem_of_mem_tail mem
  · have less := left_skip ahead
    unfold left at less ⊢
    rw [ahead', stage]
    exact less

end Tick

namespace Process

variable {process : Process} {keys : Keys}

/-- The tick of a process that has one. -/
def tick : Process -> Option Tick
  | .ticking tick => some tick
  | .returned tick => some tick
  | .raised tick => some tick
  | .crashed => none

structure Sound (keys : Keys) (process : Process) : Prop where
  tick : ∀ tick, process.tick = some tick -> tick.Sound keys
  returned : ∀ tick, process = .returned tick -> tick.ahead = []

theorem Sound.mono {keys' : Keys} (sound : process.Sound keys) (more : ∀ key ∈ keys, key ∈ keys') :
    process.Sound keys' :=
  ⟨fun tick has => (sound.tick tick has).mono more, sound.returned⟩

theorem sound_ticking {tick : Tick} (sound : tick.Sound keys) : Process.Sound keys (.ticking tick) where
  tick := by
    rintro tick' ⟨⟩
    exact sound
  returned := by
    intro tick' same
    cases same

theorem sound_raised {tick : Tick} (sound : tick.Sound keys) : Process.Sound keys (.raised tick) where
  tick := by
    rintro tick' ⟨⟩
    exact sound
  returned := by
    intro tick' same
    cases same

theorem sound_crashed : Process.Sound keys .crashed where
  tick := by
    intro tick' has
    cases has
  returned := by
    intro tick' same
    cases same

theorem sound_returned {tick : Tick} (sound : tick.Sound keys) (done : tick.ahead = []) :
    Process.Sound keys (.returned tick) where
  tick := by
    rintro tick' ⟨⟩
    exact sound
  returned := by
    rintro tick' ⟨⟩
    exact done

end Process

/-! ## Every step -/

namespace State

variable {s : State} {i : Nat} {tick : Tick}

def keys (s : State) : Keys := s.runs.map ScheduledRun.key

structure Sound (s : State) : Prop where
  queued : s.queue.map QueuedTask.run = s.keys
  unique : s.keys.Nodup
  processes : ∀ process ∈ s.processes, process.Sound s.keys
  claimed : ∀ (i : Nat) (process : Process) key, s.processes[i]? = some process -> process.claim = some key ->
    key ∉ s.keys
  alone : ∀ (i j : Nat) (process other : Process) key, s.processes[i]? = some process -> s.processes[j]? = some other ->
    process.claim = some key -> other.claim = some key -> i = j

theorem alreadyRan_iff {key : String × Nat} : s.alreadyRan key = true ↔ key ∈ s.keys := by
  simp [alreadyRan, keys]

theorem isClaimed_iff {key : String × Nat} :
    s.isClaimed key = true ↔ ∃ process ∈ s.processes, process.claim = some key := by
  simp [isClaimed]

namespace Sound

/-- A process goes on, and what it has claimed nobody else has. -/
theorem put (sound : s.Sound) {process : Process} (ok : process.Sound s.keys)
    (claims : ∀ key, process.claim = some key -> key ∉ s.keys ∧
      ∀ j other, j ≠ i -> s.processes[j]? = some other -> other.claim ≠ some key) :
    (s.put i process).Sound where
  queued := sound.queued
  unique := sound.unique
  processes := by
    intro process' mem
    rcases List.mem_or_eq_of_mem_set mem with old | rfl
    · exact sound.processes process' old
    · exact ok
  claimed := by
    intro j process' key here holds
    rcases Transitions.slot_set here with ⟨_, rfl⟩ | ⟨_, old⟩
    · exact (claims key holds).1
    · exact sound.claimed j process' key old holds
  alone := by
    intro j k process' other key here there holds holds'
    rcases Transitions.slot_set here with ⟨at_j, rfl⟩ | ⟨not_j, old⟩
    · rcases Transitions.slot_set there with ⟨at_k, rfl⟩ | ⟨not_k, old'⟩
      · exact at_j.trans at_k.symm
      · exact absurd holds' ((claims key holds).2 k other not_k old')
    · rcases Transitions.slot_set there with ⟨at_k, rfl⟩ | ⟨not_k, old'⟩
      · exact absurd holds ((claims key holds').2 j process' not_j old)
      · exact sound.alone j k process' other key old old' holds holds'

theorem put_unclaimed (sound : s.Sound) {process : Process} (ok : process.Sound s.keys)
    (none' : process.claim = none) : (s.put i process).Sound := by
  refine sound.put ok ?_
  intro key holds
  rw [none'] at holds
  cases holds

/-- A process that keeps its claim. -/
theorem put_same (sound : s.Sound) {process before : Process} (here : s.processes[i]? = some before)
    (ok : process.Sound s.keys) (same : process.claim = before.claim) : (s.put i process).Sound := by
  refine sound.put ok ?_
  intro key holds
  rw [same] at holds
  refine ⟨sound.claimed i before key here holds, ?_⟩
  intro j other not_j there holds'
  exact not_j (sound.alone j i other before key there here holds' holds)

theorem tick_of (sound : s.Sound) (here : s.processes[i]? = some (.ticking tick)) : tick.Sound s.keys :=
  (sound.processes _ (List.mem_of_getElem? here)).tick tick rfl

/-- A claim is committed, with its task. -/
theorem commit (sound : s.Sound) (here : s.processes[i]? = some (.ticking tick)) {schedule : DailySchedule}
    {rest : List DailySchedule} (ahead : tick.ahead = schedule :: rest)
    (holds : tick.claim = some (schedule.name, tick.localNow.date)) (taskId : Nat) :
    (s.commit i tick schedule taskId).Sound := by
  have absent := sound.claimed i _ _ here holds
  have grown : (s.commit i tick schedule taskId).keys = s.keys ++ [(schedule.name, tick.localNow.date)] := by
    unfold State.keys State.commit
    rw [List.map_append]
    rfl
  have more : ∀ key ∈ s.keys, key ∈ (s.commit i tick schedule taskId).keys := by
    intro key mem
    rw [grown]
    exact List.mem_append_left _ mem
  have there : (schedule.name, tick.localNow.date) ∈ (s.commit i tick schedule taskId).keys := by
    rw [grown]
    exact List.mem_append_right _ List.mem_cons_self
  have others : ∀ j other key, j ≠ i -> s.processes[j]? = some other -> other.claim = some key ->
      key ∉ (s.commit i tick schedule taskId).keys := by
    intro j other key not_i old holds' mem
    rw [grown] at mem
    rcases List.mem_append.mp mem with before | new
    · exact sound.claimed j other key old holds' before
    · rw [List.mem_singleton.mp new] at holds'
      exact not_i (sound.alone j i other _ _ old here holds' holds)
  have free : (tick.start schedule.name).claim = none := Tick.claim_of_checking rfl
  refine ⟨?_, ?_, ?_, ?_, ?_⟩
  · rw [grown, ← sound.queued]
    unfold State.commit
    rw [List.map_append]
    rfl
  · rw [grown]
    refine List.nodup_append.mpr ⟨sound.unique, List.nodup_singleton _, ?_⟩
    intro key mem key' last same
    rw [List.mem_singleton.mp last] at same
    exact absent (same ▸ mem)
  · intro process mem
    rcases List.mem_or_eq_of_mem_set mem with old | rfl
    · exact (sound.processes process old).mono more
    · exact Process.sound_ticking (((sound.tick_of here).mono more).start ahead there)
  · intro j process key at_j holds'
    rcases Transitions.slot_set at_j with ⟨_, rfl⟩ | ⟨not_i, old⟩
    · have nobody : Process.claim (.ticking (tick.start schedule.name)) = none := free
      rw [nobody] at holds'
      cases holds'
    · exact others j process key not_i old holds'
  · intro j k process other key at_j at_k holds' holds''
    rcases Transitions.slot_set at_j with ⟨_, rfl⟩ | ⟨_, old⟩
    · have nobody : Process.claim (.ticking (tick.start schedule.name)) = none := free
      rw [nobody] at holds'
      cases holds'
    · rcases Transitions.slot_set at_k with ⟨_, rfl⟩ | ⟨_, old'⟩
      · have nobody : Process.claim (.ticking (tick.start schedule.name)) = none := free
        rw [nobody] at holds''
        cases holds''
      · exact sound.alone j k process other key old old' holds' holds''

theorem advanceTick (sound : s.Sound) (here : s.processes[i]? = some (.ticking tick)) :
    (s.advanceTick i tick).Sound := by
  have tidy := sound.tick_of here
  unfold State.advanceTick
  split
  · rename_i done
    exact sound.put_unclaimed (Process.sound_returned tidy done) rfl
  · rename_i schedule rest ahead
    split
    · rename_i early
      rw [Bool.not_eq_true'] at early
      exact sound.put_unclaimed (Process.sound_ticking (tidy.skip ahead early)) (Tick.claim_of_checking rfl)
    · rename_i due
      rw [Bool.not_eq_true', Bool.not_eq_false] at due
      have passes (ran : s.alreadyRan (schedule.name, schedule.period tick.localNow) = true) :
          (s.put i (.ticking (tick.pass schedule.name))).Sound :=
        sound.put_unclaimed (Process.sound_ticking (tidy.pass ahead (alreadyRan_iff.mp ran)))
          (Tick.claim_of_checking rfl)
      have claims (stage : Stage) := Tick.claim_of_stage ahead due stage
      have now' : tick.claim = if tick.stage.isClaimed then some (schedule.name, tick.localNow.date) else none :=
        claims tick.stage
      split
      · split
        · rename_i ran
          exact passes ran
        · exact sound.put_unclaimed (Process.sound_ticking (tidy.at_stage .claiming)) (claims .claiming)
      · split
        · rename_i ran
          exact passes ran
        · rename_i notRan
          split
          · exact sound
          · rename_i free
            refine sound.put (Process.sound_ticking (tidy.at_stage .enqueueing)) ?_
            intro key holds
            have same : some (schedule.name, tick.localNow.date) = some key := (claims .enqueueing).symm.trans holds
            cases same
            refine ⟨fun mem => notRan (alreadyRan_iff.mpr mem), ?_⟩
            intro j other _ old holds'
            exact free (isClaimed_iff.mpr ⟨other, List.mem_of_getElem? old, holds'⟩)
      · rename_i stage
        rw [stage] at now'
        have kept := sound.put_same (i := i) here (Process.sound_ticking (tidy.at_stage (.recording s.nextTask)))
          ((claims _).trans now'.symm)
        exact ⟨kept.queued, kept.unique, kept.processes, kept.claimed, kept.alone⟩
      · rename_i taskId stage
        rw [stage] at now'
        exact sound.put_same here (Process.sound_ticking (tidy.at_stage (.committing taskId)))
          ((claims _).trans now'.symm)
      · rename_i taskId stage
        rw [stage] at now'
        exact sound.commit here ahead now' taskId

theorem refuseTick (sound : s.Sound) (here : s.processes[i]? = some (.ticking tick)) :
    (s.refuseTick i tick).Sound := by
  unfold State.refuseTick
  split
  · exact sound
  · rename_i schedule rest ahead
    split
    · exact sound.put_unclaimed (Process.sound_ticking ((sound.tick_of here).refuse ahead))
        (Tick.claim_of_checking rfl)
    · exact sound

/-- A new tick has everything ahead. -/
theorem begin (sound : s.Sound) (now : Nat) (schedules : Option (List DailySchedule)) :
    (s.step (.tick now schedules)).Sound where
  queued := sound.queued
  unique := sound.unique
  processes := by
    intro process mem
    rcases List.mem_append.mp mem with old | new
    · exact sound.processes process old
    · rw [List.mem_singleton.mp new]
      exact Process.sound_ticking ⟨fun job past => absurd past List.not_mem_nil, fun schedule mem _ => Or.inl mem⟩
  claimed := by
    intro j process key there holds
    rcases Transitions.slot_concat there with ⟨_, rfl⟩ | old
    · have nobody : Process.claim (.ticking (State.begin now schedules)) = none := Tick.claim_of_checking rfl
      rw [nobody] at holds
      cases holds
    · exact sound.claimed j process key old holds
  alone := by
    intro j k process other key there there' holds holds'
    have nobody : Process.claim (.ticking (State.begin now schedules)) = none := Tick.claim_of_checking rfl
    rcases Transitions.slot_concat there with ⟨_, rfl⟩ | old
    · rw [nobody] at holds
      cases holds
    · rcases Transitions.slot_concat there' with ⟨_, rfl⟩ | old'
      · rw [nobody] at holds'
        cases holds'
      · exact sound.alone j k process other key old old' holds holds'

theorem step (sound : s.Sound) (event : Event) : (s.step event).Sound := by
  cases event with
  | tick now schedules => exact sound.begin now schedules
  | advance i =>
      unfold State.step
      dsimp only
      split
      · rename_i tick here
        exact sound.advanceTick here
      · exact sound
  | refuse i =>
      unfold State.step
      dsimp only
      split
      · rename_i tick here
        exact sound.refuseTick here
      · exact sound
  | fail i =>
      unfold State.step
      dsimp only
      split
      · rename_i tick here
        exact sound.put_unclaimed (Process.sound_raised (sound.tick_of here)) rfl
      · exact sound
  | crash i =>
      unfold State.step
      dsimp only
      split
      · exact sound.put_unclaimed Process.sound_crashed rfl
      · exact sound

end Sound

theorem step_advance (here : s.processes[i]? = some (.ticking tick)) :
    s.step (.advance i) = s.advanceTick i tick := by
  unfold step
  dsimp only
  rw [here]

theorem step_refuse (here : s.processes[i]? = some (.ticking tick)) :
    s.step (.refuse i) = s.refuseTick i tick := by
  unfold step
  dsimp only
  rw [here]

/-! ## What is enqueued -/

theorem enqueued_le_one (sound : s.Sound) (job : String) (date : Nat) : s.enqueued job date ≤ 1 := by
  unfold enqueued
  rw [sound.queued]
  exact List.nodup_iff_count_le_one.mp sound.unique (job, date)

theorem enqueued_of_mem (sound : s.Sound) {job : String} {date : Nat} (there : (job, date) ∈ s.keys) :
    s.enqueued job date = 1 := by
  unfold enqueued
  rw [sound.queued]
  exact List.count_eq_one_of_mem sound.unique there

/-- Each job at most once for a date, each claim with its task, and each due job a
tick has come past without a refusal. -/
structure Exact (s : State) : Prop where
  once : ∀ job date, s.enqueued job date ≤ 1
  claims : ∀ scheduled ∈ s.runs, s.enqueued scheduled.job scheduled.period = 1
  past : ∀ process ∈ s.processes, ∀ tick, process.tick = some tick -> ∀ schedule ∈ tick.schedules,
    schedule.isDue tick.localNow = true -> schedule ∈ tick.ahead ∨ schedule.name ∈ tick.refused ∨
      s.enqueued schedule.name tick.localNow.date = 1
  returned : ∀ tick, .returned tick ∈ s.processes -> tick.ahead = []

theorem Sound.exact (sound : s.Sound) : s.Exact where
  once := enqueued_le_one sound
  claims := fun scheduled mem => enqueued_of_mem sound (List.mem_map.mpr ⟨scheduled, mem, rfl⟩)
  past := by
    intro process mem tick has schedule listed due
    have tidy := (sound.processes process mem).tick tick has
    rcases tidy.covered schedule listed due with ahead | passed | refused
    · exact Or.inl ahead
    · exact Or.inr (Or.inr (enqueued_of_mem sound (tidy.passed schedule.name passed)))
    · exact Or.inr (Or.inl refused)
  returned := fun tick mem => (sound.processes _ mem).returned tick rfl

/-- No row is written, and the process has no transaction open. -/
structure LeavesNothing (s s' : State) (i : Nat) : Prop where
  runs : s'.runs = s.runs
  queue : s'.queue = s.queue
  claim : ∀ process, s'.processes[i]? = some process -> process.claim = none

theorem LeavesNothing.put {process : Process} (none' : process.claim = none) :
    LeavesNothing s (s.put i process) i := by
  refine ⟨rfl, rfl, ?_⟩
  intro process' here
  rcases Transitions.slot_set here with ⟨_, rfl⟩ | ⟨other, _⟩
  · exact none'
  · exact absurd rfl other

theorem LeavesNothing.stay (none' : ∀ process, s.processes[i]? = some process -> process.claim = none) :
    LeavesNothing s s i := ⟨rfl, rfl, none'⟩

/-- A process that is no tick under way has no transaction. -/
theorem claim_of_other {process : Process} (other : ∀ tick, process ≠ .ticking tick) : process.claim = none := by
  cases process with
  | ticking tick => exact absurd rfl (other tick)
  | _ => rfl

/-- A failure leaves no claim behind. -/
theorem failure_leaves_nothing (s : State) (i : Nat) {event : Event}
    (failure : event = .refuse i ∨ event = .fail i ∨ event = .crash i) :
    LeavesNothing s (s.step event) i := by
  have others (notTicking : ∀ tick, s.processes[i]? = some (.ticking tick) -> False) : LeavesNothing s s i := by
    refine LeavesNothing.stay ?_
    intro process here
    exact claim_of_other (fun tick same => notTicking tick (same ▸ here))
  rcases failure with rfl | rfl | rfl
  · unfold step
    dsimp only
    split
    · rename_i tick here
      unfold refuseTick
      split
      · rename_i done
        refine LeavesNothing.stay ?_
        intro process there
        rw [here] at there
        cases there
        exact Tick.claim_of_nil done
      · split
        · exact LeavesNothing.put (Tick.claim_of_checking rfl)
        · rename_i unclaimed
          refine LeavesNothing.stay ?_
          intro process there
          rw [here] at there
          cases there
          exact Option.not_isSome_iff_eq_none.mp unclaimed
    · rename_i other
      exact others other
  · unfold step
    dsimp only
    split
    · exact LeavesNothing.put rfl
    · rename_i other
      exact others other
  · unfold step
    dsimp only
    split
    · exact LeavesNothing.put rfl
    · rename_i other
      exact others other

/-- A refused enqueue leaves the tick at the next schedule. -/
theorem refuse_goes_on (here : s.processes[i]? = some (.ticking tick)) (holds : tick.claim.isSome = true) :
    ∃ tick', (s.step (.refuse i)).processes[i]? = some (.ticking tick') ∧ tick'.ahead = tick.ahead.tail ∧
      tick'.stage = .checking := by
  rcases List.getElem?_eq_some_iff.mp here with ⟨within, _⟩
  rw [step_refuse here]
  unfold refuseTick
  split
  · rename_i done
    rw [Tick.claim_of_nil done] at holds
    cases holds
  · rename_i schedule rest ahead
    rw [if_pos holds]
    exact ⟨tick.refuse schedule.name, List.getElem?_set_self within, rfl, rfl⟩

/-! ## A tick comes to its end -/

/-- No other call has a claim on what is ahead of a tick. -/
def Unclaimed (s : State) (i : Nat) (tick : Tick) : Prop :=
  ∀ (j : Nat) (other : Process), j ≠ i -> s.processes[j]? = some other ->
    ∀ schedule ∈ tick.ahead, other.claim ≠ some (schedule.name, tick.localNow.date)

/-- The process is at a later place of its call, or has come back. -/
def Moved (s : State) (i : Nat) (tick : Tick) : Prop :=
  (∃ tick', s.processes[i]? = some (.ticking tick') ∧ tick.Follows tick') ∨
    s.processes[i]? = some (.returned tick)

theorem moved_of_set {s' : State} {tick' : Tick} (here : s.processes[i]? = some (.ticking tick))
    (there : s'.processes = s.processes.set i (.ticking tick')) (follows : tick.Follows tick') :
    s'.Moved i tick := by
  rcases List.getElem?_eq_some_iff.mp here with ⟨within, _⟩
  refine Or.inl ⟨tick', ?_, follows⟩
  rw [there]
  exact List.getElem?_set_self within

/-- A tick whose claims nobody stands in the way of moves on. -/
theorem advance_moves (here : s.processes[i]? = some (.ticking tick)) (free : s.Unclaimed i tick) :
    (s.step (.advance i)).Moved i tick := by
  rcases List.getElem?_eq_some_iff.mp here with ⟨within, _⟩
  rw [step_advance here]
  unfold advanceTick
  split
  · exact Or.inr (List.getElem?_set_self within)
  · rename_i schedule rest ahead
    have skips : tick.Follows tick.skip := Tick.follows_skip ahead ⟨rfl, rfl, rfl, rfl, rfl⟩
    split
    · exact moved_of_set here rfl skips
    · split
      · rename_i stage
        split
        · exact moved_of_set here rfl ⟨rfl, rfl, rfl, skips.ahead, skips.left⟩
        · refine moved_of_set here rfl (Tick.follows_stage ?_)
          simp [Tick.left, stage]
      · rename_i stage
        split
        · exact moved_of_set here rfl ⟨rfl, rfl, rfl, skips.ahead, skips.left⟩
        · split
          · rename_i claimed
            rcases isClaimed_iff.mp claimed with ⟨other, mem, holds⟩
            rcases List.getElem?_of_mem mem with ⟨j, there⟩
            by_cases same : j = i
            · rw [same, here] at there
              cases there
              have none' : Process.claim (.ticking tick) = none :=
                Tick.claim_of_not_claimed (by rw [stage]; rfl)
              rw [none'] at holds
              cases holds
            · have mem' : schedule ∈ tick.ahead := ahead ▸ List.mem_cons_self
              exact absurd holds (free j other same there schedule mem')
          · refine moved_of_set here rfl (Tick.follows_stage ?_)
            simp [Tick.left, stage]
      · rename_i stage
        refine moved_of_set here rfl (Tick.follows_stage ?_)
        simp [Tick.left, stage]
      · rename_i taskId stage
        refine moved_of_set here rfl (Tick.follows_stage ?_)
        simp [Tick.left, stage]
      · exact moved_of_set here rfl ⟨rfl, rfl, rfl, skips.ahead, skips.left⟩

/-- A tick touches no process but its own. -/
theorem advance_other {j : Nat} (other : j ≠ i) : (s.step (.advance i)).processes[j]? = s.processes[j]? := by
  unfold step
  dsimp only
  split
  · unfold advanceTick
    split
    · exact List.getElem?_set_ne other.symm
    · split
      · exact List.getElem?_set_ne other.symm
      · split
        · split
          · exact List.getElem?_set_ne other.symm
          · exact List.getElem?_set_ne other.symm
        · split
          · exact List.getElem?_set_ne other.symm
          · split
            · rfl
            · exact List.getElem?_set_ne other.symm
        · exact List.getElem?_set_ne other.symm
        · exact List.getElem?_set_ne other.symm
        · exact List.getElem?_set_ne other.symm
  · rfl

theorem put_other {j : Nat} {process : Process} (other : j ≠ i) :
    (s.put i process).processes[j]? = s.processes[j]? := List.getElem?_set_ne other.symm

/-- A call that is over stays as it is. -/
theorem over_step {process : Process} (here : s.processes[i]? = some process) (done : ∀ tick, process ≠ .ticking tick)
    (event : Event) : (s.step event).processes[i]? = some process := by
  have idle {j : Nat} {tick : Tick} (there : s.processes[j]? = some (.ticking tick)) : i ≠ j := by
    rintro rfl
    exact done tick (Option.some.inj (here.symm.trans there))
  cases event with
  | tick now schedules =>
      have within := (List.getElem?_eq_some_iff.mp here).1
      exact (List.getElem?_append_left within).trans here
  | advance j =>
      by_cases same : i = j
      · subst same
        unfold step
        dsimp only
        split
        · rename_i tick there
          exact absurd rfl (idle there)
        · exact here
      · exact (advance_other same).trans here
  | refuse j =>
      unfold step
      dsimp only
      split
      · rename_i tick there
        unfold refuseTick
        split
        · exact here
        · split
          · exact (put_other (idle there)).trans here
          · exact here
      · exact here
  | fail j =>
      unfold step
      dsimp only
      split
      · rename_i tick there
        exact (put_other (idle there)).trans here
      · exact here
  | crash j =>
      unfold step
      dsimp only
      split
      · rename_i tick there
        exact (put_other (idle there)).trans here
      · exact here

/-- Any other error ends the tick for good. -/
theorem fail_ends (here : s.processes[i]? = some (.ticking tick)) (later : List Event) :
    (run step (s.step (.fail i)) later).processes[i]? = some (.raised tick) := by
  rcases List.getElem?_eq_some_iff.mp here with ⟨within, _⟩
  refine Transitions.run_invariant (J := fun s : State => s.processes[i]? = some (.raised tick)) ?_ later ?_
  · intro s event ended
    exact over_step ended (fun _ same => by cases same) event
  · unfold step
    dsimp only
    rw [here]
    exact List.getElem?_set_self within

theorem Unclaimed.advance (free : s.Unclaimed i tick) {tick' : Tick} (follows : tick.Follows tick') :
    (s.step (.advance i)).Unclaimed i tick' := by
  intro j other not_i there schedule mem
  rw [advance_other not_i] at there
  rw [follows.localNow]
  exact free j other not_i there schedule (follows.ahead schedule mem)

/-- Left to itself a tick returns. -/
theorem tick_returns (here : s.processes[i]? = some (.ticking tick)) (free : s.Unclaimed i tick) :
    ∃ n tick', (run step s (List.replicate n (.advance i))).processes[i]? = some (.returned tick') ∧
      tick'.localNow = tick.localNow ∧ tick'.schedules = tick.schedules ∧ tick'.refused = tick.refused := by
  generalize bound : tick.left = left
  induction left using Nat.strongRecOn generalizing s tick with
  | _ left ih =>
      rcases advance_moves here free with ⟨tick', there, follows⟩ | done
      · have less : tick'.left < left := bound ▸ follows.left
        rcases ih tick'.left less there (free.advance follows) rfl with ⟨n, tick'', at_end, same⟩
        refine ⟨n + 1, tick'', at_end, same.1.trans follows.localNow, same.2.1.trans follows.schedules,
          same.2.2.trans follows.refused⟩
      · exact ⟨1, tick, done, rfl, rfl, rfl⟩

/-- Whatever the schedulers do: each job once a day at most, no claim without its
task, nothing left by a failure; a tick goes on after a refused enqueue and is over
after any other error, and one that is left to itself comes to every due job of its
list. -/
theorem jobs_once_a_day (sound : s.Sound) (events : List Event) :
    (run step s events).Exact ∧
      (∀ i event, event = .refuse i ∨ event = .fail i ∨ event = .crash i ->
        (run step s events).LeavesNothing ((run step s events).step event) i) ∧
        (∀ (i : Nat) tick, (run step s events).processes[i]? = some (.ticking tick) ->
          tick.claim.isSome = true ->
            ∃ tick', ((run step s events).step (.refuse i)).processes[i]? = some (.ticking tick') ∧
              tick'.ahead = tick.ahead.tail ∧ tick'.stage = .checking) ∧
          (∀ (i : Nat) tick, (run step s events).processes[i]? = some (.ticking tick) ->
            ∀ later, (run step ((run step s events).step (.fail i)) later).processes[i]? = some (.raised tick)) ∧
          ∀ (i : Nat) tick, (run step s events).processes[i]? = some (.ticking tick) ->
            (run step s events).Unclaimed i tick ->
              ∃ n, ∀ schedule ∈ tick.schedules, schedule.isDue tick.localNow = true ->
                schedule.name ∉ tick.refused ->
                  (run step s (events ++ List.replicate n (.advance i))).enqueued schedule.name
                    tick.localNow.date = 1 := by
  have reached : ∀ events, (run step s events).Sound := fun events =>
    Transitions.run_invariant (J := Sound) (fun _ event sound => sound.step event) events sound
  refine ⟨(reached events).exact, fun i event failure => failure_leaves_nothing _ i failure,
    fun i tick here holds => refuse_goes_on here holds, fun i tick here later => fail_ends here later, ?_⟩
  intro i tick here free
  rcases tick_returns here free with ⟨n, tick', there, localNow, schedules, refused⟩
  refine ⟨n, ?_⟩
  intro schedule listed due unrefused
  rw [← Transitions.run_append] at there
  have exact' := (reached (events ++ List.replicate n (.advance i))).exact
  have mem := List.mem_of_getElem? there
  rw [← localNow] at due
  rcases exact'.past _ mem tick' rfl schedule (schedules ▸ listed) due with ahead | refused' | once
  · rw [exact'.returned tick' mem] at ahead
    cases ahead
  · exact absurd (refused ▸ refused') unrefused
  · rw [← localNow]
    exact once

/-! ## An enqueue that raises -/

/-- Nothing has run. -/
def nothingYet : State := ⟨[], [], 0, []⟩

theorem sound_nothingYet : nothingYet.Sound where
  queued := rfl
  unique := List.nodup_nil
  processes := fun process mem => absurd mem List.not_mem_nil
  claimed := fun i process key here => by cases here
  alone := fun i j process other key here => by cases here

def twoJobs : List DailySchedule := [⟨"broken", "broken", clock 3 0⟩, ⟨"nightly", "nightly", clock 3 0⟩]

/-- Two schedulers; the first enqueue of one is refused, and the other waits for it. -/
def twoSchedulers : List Event :=
  [.tick 18000 (some twoJobs), .tick 18000 (some twoJobs), .advance 0, .advance 1, .advance 0, .advance 1,
   .refuse 0, .advance 1, .advance 1, .advance 1, .crash 1]

theorem jobs_once_a_day_twoSchedulers :
    (run step nothingYet twoSchedulers).Exact ∧
      (∀ i event, event = .refuse i ∨ event = .fail i ∨ event = .crash i ->
        (run step nothingYet twoSchedulers).LeavesNothing ((run step nothingYet twoSchedulers).step event) i) ∧
        (∀ (i : Nat) tick, (run step nothingYet twoSchedulers).processes[i]? = some (.ticking tick) ->
          tick.claim.isSome = true ->
            ∃ tick', ((run step nothingYet twoSchedulers).step (.refuse i)).processes[i]? =
              some (.ticking tick') ∧ tick'.ahead = tick.ahead.tail ∧ tick'.stage = .checking) ∧
          (∀ (i : Nat) tick, (run step nothingYet twoSchedulers).processes[i]? = some (.ticking tick) ->
            ∀ later, (run step ((run step nothingYet twoSchedulers).step (.fail i)) later).processes[i]? =
              some (.raised tick)) ∧
          ∀ (i : Nat) tick, (run step nothingYet twoSchedulers).processes[i]? = some (.ticking tick) ->
            (run step nothingYet twoSchedulers).Unclaimed i tick ->
              ∃ n, ∀ schedule ∈ tick.schedules, schedule.isDue tick.localNow = true ->
                schedule.name ∉ tick.refused ->
                  (run step nothingYet (twoSchedulers ++ List.replicate n (.advance i))).enqueued
                    schedule.name tick.localNow.date = 1 :=
  jobs_once_a_day sound_nothingYet twoSchedulers

/-- The enqueue of the first job raises an error, and the second is left out. -/
theorem jobs_not_independent : ¬ ∀ (s : State) (events : List Event), s.Sound ->
    ∀ tick, Process.raised tick ∈ (run step s events).processes -> ∀ schedule ∈ tick.ahead.tail,
      schedule.isDue tick.localNow = true ->
        (run step s events).enqueued schedule.name tick.localNow.date = 1 := by
  intro all
  have independent := all nothingYet [.tick 18000 (some twoJobs), .advance 0, .advance 0, .fail 0]
    sound_nothingYet ⟨localTime 18000, twoJobs, twoJobs, [], .enqueueing, [], []⟩ (by decide +kernel)
    ⟨"nightly", "nightly", clock 3 0⟩ (by decide +kernel) (by decide +kernel)
  revert independent
  decide +kernel

end State
end Scheduling
end Shiftlush
