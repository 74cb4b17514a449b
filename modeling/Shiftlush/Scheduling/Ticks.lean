import Shiftlush.Transitions

namespace Shiftlush
namespace Scheduling

/-!
# The tick that starts the scheduled jobs

`core.scheduling`, any number of schedulers at once, statement by statement.  A
claim and its task are written in one transaction, and nobody else sees them
before its commit; the unique constraint makes a second claim of a job and a
date wait for the first.
-/

/-- A date, and the seconds since its midnight, in Istanbul. -/
structure LocalTime where
  date : Nat
  time : Nat
  deriving DecidableEq

/-- `astimezone(LOCAL_TZ)`, of the seconds since the epoch. -/
def localTime (now : Nat) : LocalTime := ⟨(now + 3 * 3600) / 86400, (now + 3 * 3600) % 86400⟩

structure DailySchedule where
  name : String
  task : String
  /-- `at` -/
  startsAt : Nat
  deriving DecidableEq

def DailySchedule.isDue (schedule : DailySchedule) (localNow : LocalTime) : Bool :=
  decide (schedule.startsAt ≤ localNow.time)

/-- A date stands for its ISO text. -/
def DailySchedule.period (_ : DailySchedule) (localNow : LocalTime) : Nat := localNow.date

def clock (hour minute : Nat) : Nat := 3600 * hour + 60 * minute

def getSchedules : List DailySchedule :=
  [⟨"contract_expiry", "contract_expiry", clock 0 30⟩,
   ⟨"plan_maintenance", "plan_maintenance", clock 1 0⟩,
   ⟨"purge_idempotency_keys", "purge_idempotency_keys", clock 3 0⟩,
   ⟨"purge_attachments", "purge_attachments", clock 3 15⟩,
   ⟨"prune_task_results", "prune_task_results", clock 3 30⟩,
   ⟨"purge_public_reporter_data", "purge_public_reporter_data", clock 3 45⟩,
   ⟨"carry_over_invoices", "carry_over_invoices", clock 4 30⟩,
   ⟨"draft_invoices", "draft_invoices", clock 5 0⟩,
   ⟨"contract_renewal_notice", "contract_renewal_notice", clock 6 0⟩,
   ⟨"inspection_due_notice", "inspection_due_notice", clock 6 15⟩,
   ⟨"correction_deadline_notice", "correction_deadline_notice", clock 6 30⟩,
   ⟨"maintenance_overdue", "maintenance_overdue", clock 7 0⟩,
   ⟨"monthly_customer_reports", "monthly_customer_reports", clock 8 0⟩]

theorem getSchedules_names_nodup : (getSchedules.map DailySchedule.name).Nodup := by decide

structure ScheduledRun where
  job : String
  period : Nat
  taskId : Nat
  deriving DecidableEq

/-- The key of `uq_scheduled_run_per_period`. -/
def ScheduledRun.key (run : ScheduledRun) : String × Nat := (run.job, run.period)

/-- A task of the queue.  The key of the run it was enqueued for is a record of
the model. -/
structure QueuedTask where
  id : Nat
  task : String
  run : String × Nat
  deriving DecidableEq

/-- The next statement of a tick, for the schedule it is at. -/
inductive Stage where
  /-- `_already_ran` -/
  | checking
  /-- `INSERT` of the run, the first of its transaction. -/
  | claiming
  | enqueueing
  /-- `UPDATE` of the run's `task_id`. -/
  | recording (taskId : Nat)
  | committing (taskId : Nat)
  deriving DecidableEq

/-- A call of `enqueue_due`. -/
structure Tick where
  localNow : LocalTime
  schedules : List DailySchedule
  ahead : List DailySchedule
  started : List String
  stage : Stage
  /-- The due jobs it has come past, and those of them whose enqueue raised an
  `IntegrityError`.  No statement reads them. -/
  passed : List String
  refused : List String
  deriving DecidableEq

inductive Process where
  | ticking (tick : Tick)
  | returned (tick : Tick)
  /-- An error other than `IntegrityError` left `enqueue_due`. -/
  | raised (tick : Tick)
  | crashed
  deriving DecidableEq

structure State where
  runs : List ScheduledRun
  queue : List QueuedTask
  nextTask : Nat
  processes : List Process

inductive Event where
  | tick (now : Nat) (schedules : Option (List DailySchedule))
  /-- A tick executes its next statement. -/
  | advance (process : Nat)
  /-- The statements of an enqueue raise an `IntegrityError`. -/
  | refuse (process : Nat)
  /-- A statement raises anything else. -/
  | fail (process : Nat)
  | crash (process : Nat)
  deriving DecidableEq

def Stage.isClaimed : Stage -> Bool
  | .checking => false
  | .claiming => false
  | _ => true

namespace Tick

variable (tick : Tick)

/-- The run a tick has inserted and not committed. -/
def claim : Option (String × Nat) :=
  match tick.ahead with
  | [] => none
  | schedule :: _ =>
      if schedule.isDue tick.localNow && tick.stage.isClaimed then
        some (schedule.name, schedule.period tick.localNow)
      else none

/-- `continue`, or the end of the loop's body. -/
def skip : Tick := { tick with ahead := tick.ahead.tail, stage := .checking }

/-- Past a job that has a run. -/
def pass (job : String) : Tick := { tick.skip with passed := job :: tick.passed }

/-- Past a job it has enqueued. -/
def start (job : String) : Tick := { tick.pass job with started := tick.started ++ [job] }

/-- Past a job whose enqueue raised an `IntegrityError`. -/
def refuse (job : String) : Tick := { tick.skip with refused := job :: tick.refused }

end Tick

def Process.claim : Process -> Option (String × Nat)
  | .ticking tick => tick.claim
  | _ => none

namespace State

variable (s : State)

def put (i : Nat) (process : Process) : State := { s with processes := s.processes.set i process }

/-- `_already_ran` -/
def alreadyRan (key : String × Nat) : Bool := s.runs.any (fun run => decide (run.key = key))

/-- Another transaction has inserted the run. -/
def isClaimed (key : String × Nat) : Bool := s.processes.any (fun process => decide (process.claim = some key))

/-- `enqueue_due`, up to its first statement. -/
def begin (now : Nat) (schedules : Option (List DailySchedule)) : Tick :=
  let schedules := schedules.getD getSchedules
  ⟨localTime now, schedules, schedules, [], .checking, [], []⟩

/-- The transaction of a claim commits. -/
def commit (i : Nat) (tick : Tick) (schedule : DailySchedule) (taskId : Nat) : State :=
  let key := (schedule.name, schedule.period tick.localNow)
  { s with
    runs := s.runs ++ [⟨key.1, key.2, taskId⟩]
    queue := s.queue ++ [⟨taskId, schedule.task, key⟩]
    processes := s.processes.set i (.ticking (tick.start schedule.name)) }

def advanceTick (i : Nat) (tick : Tick) : State :=
  match tick.ahead with
  | [] => s.put i (.returned tick)
  | schedule :: _ =>
      if !schedule.isDue tick.localNow then s.put i (.ticking tick.skip)
      else
        match tick.stage with
        | .checking =>
            if s.alreadyRan (schedule.name, schedule.period tick.localNow) then
              s.put i (.ticking (tick.pass schedule.name))
            else s.put i (.ticking { tick with stage := .claiming })
        | .claiming =>
            if s.alreadyRan (schedule.name, schedule.period tick.localNow) then
              s.put i (.ticking (tick.pass schedule.name))
            else if s.isClaimed (schedule.name, schedule.period tick.localNow) then s
            else s.put i (.ticking { tick with stage := .enqueueing })
        | .enqueueing =>
            { s.put i (.ticking { tick with stage := .recording s.nextTask }) with nextTask := s.nextTask + 1 }
        | .recording taskId => s.put i (.ticking { tick with stage := .committing taskId })
        | .committing taskId => s.commit i tick schedule taskId

/-- Its transaction is rolled back, and the loop goes on. -/
def refuseTick (i : Nat) (tick : Tick) : State :=
  match tick.ahead with
  | [] => s
  | schedule :: _ => if tick.claim.isSome then s.put i (.ticking (tick.refuse schedule.name)) else s

def step : Event -> State
  | .tick now schedules => { s with processes := s.processes ++ [.ticking (begin now schedules)] }
  | .advance i =>
      match s.processes[i]? with
      | some (.ticking tick) => s.advanceTick i tick
      | _ => s
  | .refuse i =>
      match s.processes[i]? with
      | some (.ticking tick) => s.refuseTick i tick
      | _ => s
  | .fail i =>
      match s.processes[i]? with
      | some (.ticking tick) => s.put i (.raised tick)
      | _ => s
  | .crash i =>
      match s.processes[i]? with
      | some (.ticking _) => s.put i .crashed
      | _ => s

/-- The tasks enqueued for a job and a date. -/
def enqueued (job : String) (date : Nat) : Nat := (s.queue.map QueuedTask.run).count (job, date)

end State
end Scheduling
end Shiftlush
