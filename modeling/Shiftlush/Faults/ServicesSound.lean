import Shiftlush.Faults.Discipline

namespace Shiftlush
namespace Faults

open Transactions

/-!
# What each request commits

Every program reads and writes under the protection of its locks, so whatever
the others do, a commit leaves the rows that its request alone would have made of
those committed then.
-/

variable {s s' : Board} {t : Trail Board Row Note} {id : Nat}

/-! ## Programs -/

theorem locked_here (t : Trail Board Row Note) (row : Row) : (t.hold .update row).Locked row :=
  List.mem_cons_self

theorem sound_locked {post : Board -> Fault -> Trail Board Row Note -> Prop}
    (after : ∀ fault, (t.writes s).faults.get? id = some fault -> post s fault (t.hold .update (.fault id))) :
    Sound convention (locked id) s t post := by
  unfold locked
  simp only [Prog.bind_eq, sound_bind, sound_lock, sound_fetch]
  refine ⟨trivial, ?_⟩
  intro fault found
  refine ⟨?_, after fault found⟩
  intro v rely
  exact (sameFault_of_locked (locked_here t (.fault id)) rely found).1.trans found

theorem sound_now {fault : Fault} {post : Board -> Nat -> Trail Board Row Note -> Prop} (here : t.writes s = s)
    (found : s.faults.get? id = some fault) (after : ∀ moment, post s moment (t.see [.stamp id moment])) :
    Sound convention (now id) s t post := by
  refine ⟨?_, after⟩
  intro note mem
  rw [List.mem_singleton.mp mem, here]
  exact ⟨rfl, fault, found⟩

/-- The clock, before anything is written. -/
theorem noted_clock (here : t.writes s = s) : ∀ note ∈ [Note.now (t.writes s).clock], convention.noted s note := by
  intro note mem
  rw [List.mem_singleton.mp mem, here]
  rfl

/-- The `SELECT` finds every fault that a report may be merged into. -/
theorem mem_candidates {elevator moment : Nat} {fault : Fault} (found : s.faults.get? id = some fault)
    (merges : mergesInto elevator moment fault = true) : id ∈ s.candidates elevator moment := by
  have listed : (id, fault) ∈ s.faults.filter (fun r => mergesInto elevator moment r.2) :=
    List.mem_filter.mpr ⟨Rows.mem_of_get? found, merges⟩
  exact List.mem_map.mpr ⟨(id, fault), (List.mergeSort_perm _ _).mem_iff.mpr listed, rfl⟩

theorem sound_notify {key : NoticeKey} {people : List Nat} {post : Board -> Unit -> Trail Board Row Note -> Prop}
    (mine : t.Locked (.fault id) ∨ s.faults.get? id = none) (there : ((t.writes s).faults.get? id).isSome = true)
    (after : post s () (t.write (fun v => v.notify id key people))) :
    Sound convention (write (fun v => v.notify id key people) : FaultProg Unit) s t post :=
  ⟨respects_notify key people, confined_notify key people mine there, after⟩

theorem sound_update {g : Fault -> Fault} {fault : Fault} {post : Board -> Unit -> Trail Board Row Note -> Prop}
    (fixes : Fixes g) (locked : t.Locked (.fault id)) (found : (t.writes s).faults.get? id = some fault)
    (waiting : (g fault).isWaiting = true -> fault.isWaiting = true)
    (after : post s () (t.write (fun v => v.updateFault id g))) :
    Sound convention (write (fun v => v.updateFault id g) : FaultProg Unit) s t post :=
  ⟨respects_updateFault fixes locked found, confined_updateFault fixes locked found waiting, after⟩

theorem sound_insert {row : Fault} {post : Board -> Unit -> Trail Board Row Note -> Prop} (drawn : id ∈ t.ids)
    (unused : s.Unused id) (here : t.writes s = s) (locked : row.channel = .publicQr -> t.Locked (.elevator row.elevator))
    (after : post s () (t.write (fun v => v.insertFault id row))) :
    Sound convention (write (fun v => v.insertFault id row) : FaultProg Unit) s t post := by
  refine ⟨respects_insertFault drawn row, ?_, after⟩
  rw [here]
  exact confined_insertFault drawn unused unused.1 locked

/-- The notice a report of a fault raises. -/
def Fault.noticeKey (fault : Fault) : NoticeKey := if fault.priority = .emergency then .emergency else .reported

theorem sound_announceReport {fault : Fault} {post : Board -> Unit -> Trail Board Row Note -> Prop}
    (mine : t.Locked (.fault id) ∨ s.faults.get? id = none) (there : ((t.writes s).faults.get? id).isSome = true)
    (after : ∀ people, post s ()
      ((t.see [.people id people]).write (fun v => v.notify id fault.noticeKey people))) :
    Sound convention (announceReport id fault) s t post := by
  unfold announceReport
  simp only [Prog.bind_eq, sound_bind, sound_peekLogged]
  refine ⟨?_, ?_⟩
  · intro note mem
    rw [List.mem_singleton.mp mem]
    trivial
  · intro people
    exact sound_notify mine there (after people)

/-- Whatever it tells whom, an announcement of an assignment writes notices of the
fault only. -/
theorem sound_announceAssignment {fault : Fault} {technician assignedAt : Nat}
    {post : Board -> Unit -> Trail Board Row Note -> Prop}
    (mine : t.Locked (.fault id) ∨ s.faults.get? id = none) (there : ((t.writes s).faults.get? id).isSome = true)
    (after : ∀ people, ∀ t', t'.seen = t.seen ->
      t'.writes s = (t.writes s).notify id (.assigned assignedAt) people -> post s () t') :
    Sound convention (announceAssignment id fault technician assignedAt) s t post := by
  unfold announceAssignment
  split_ifs
  · exact after [] t rfl rfl
  · simp only [Prog.bind_eq, sound_bind, sound_peek]
    intro people
    exact sound_notify mine there (after people _ rfl rfl)

/-! ## Changes of the rows -/

/-- A new fault, and whom it is announced to. -/
structure Opens (id : Nat) (row : Fault) (people : List Nat) (s s' : Board) : Prop where
  unused : s.Unused id
  clock : s'.clock = s.clock
  faults : s'.faults = s.faults.insert id row
  notices : ∀ n ∈ s'.notices, n ∈ s.notices ∨ n.fault = id
  kept : ∀ n ∈ s.notices, n ∈ s'.notices
  told : ∀ user ∈ people, ⟨user, id, row.noticeKey⟩ ∈ s'.notices

/-- A fault that is written, and nothing else but its notices. -/
structure Moves (id : Nat) (g : Fault -> Fault) (fault : Fault) (s s' : Board) : Prop where
  found : s.faults.get? id = some fault
  clock : s'.clock = s.clock
  faults : s'.faults = s.faults.update id g
  notices : ∀ n ∈ s'.notices, n ∈ s.notices ∨ n.fault = id
  kept : ∀ n ∈ s.notices, n ∈ s'.notices

/-- The report makes an emergency of the fault. -/
def PublicReport.raises (report : PublicReport) (fault : Fault) : Prop :=
  report.priority.rank < fault.priority.rank ∧ report.priority = .emergency

/-- What a request makes of the rows, and the notes it does it by. -/
inductive Change : Request -> Board -> Board -> List Note -> Prop where
  | ticks {seconds s} : Change (.tick seconds) s { s with clock := s.clock + seconds } []
  | peopled {users customers assignments s} : Change (.people users customers assignments) s
      { s with users := users, customers := customers, assignments := assignments } []
  | covered {lines s} : Change (.cover lines) s { s with cover := lines } []
  | staff {new now id people s s'} : Opens id (new.row now) people s s' ->
      Change (.reportByStaff new) s s' [.people id people, .now now]
  | portal {elevator report now id people s s'} :
      Opens id (report.row .customerPortal elevator now) people s s' ->
      Change (.reportByPortal elevator report) s s' [.people id people, .now now]
  | opens {elevator report now ids id people s s'} : Opens id (report.row .publicQr elevator now) people s s' ->
      (∀ id' ∈ ids, ∀ fault, s.faults.get? id' = some fault -> mergesInto elevator now fault = false) ->
      Change (.reportPublic elevator report) s s' [.people id people, .candidates elevator now ids, .now now]
  | merges {elevator report now ids id fault s s'} : Moves id (report.mergeInto now) fault s s' ->
      mergesInto elevator now fault = true -> ¬ report.raises fault ->
      Change (.reportPublic elevator report) s s' [.candidates elevator now ids, .now now]
  | escalates {elevator report now ids id fault people s s'} : Moves id (report.mergeInto now) fault s s' ->
      mergesInto elevator now fault = true -> report.raises fault ->
      (∀ user ∈ people, ⟨user, id, .emergency⟩ ∈ s'.notices) ->
      Change (.reportPublic elevator report) s s' [.people id people, .candidates elevator now ids, .now now]
  | assigns {id technician moment fault s s'} :
      Moves id (fun fault => { fault with
        technician := some technician, status := .assigned, assignedAt := some moment }) fault s s' ->
      fault.status = .open ∨ fault.status = .assigned ->
      Change (.assign id technician) s s' [.stamp id moment]
  | assigned {id technician s} : Change (.assign id technician) s s []
  | arrives {id moment fault s s'} :
      Moves id (fun fault => { fault with status := .onSite, onSiteAt := some moment }) fault s s' ->
      fault.status = .assigned -> Change (.arrive id) s s' [.stamp id moment]
  | resolves {id resolutionNotes partsUsed billable moment fault s s'} :
      Moves id (fun fault => { fault with
        status := .resolved, resolvedAt := some moment, resolutionNotes := resolutionNotes, partsUsed := partsUsed
        billable := if fault.billableOverridden then fault.billable else some billable }) fault s s' ->
      fault.status = .onSite -> Change (.resolve id resolutionNotes partsUsed) s s' [.stamp id moment]
  | closes {id moment fault s s'} :
      Moves id (fun fault => { fault with status := .closed, closedAt := some moment }) fault s s' ->
      fault.status = .resolved -> Change (.close id) s s' [.stamp id moment]
  | cancels {id reason moment fault s s'} :
      Moves id (fun fault => { fault with
        status := .cancelled, cancelledAt := some moment, cancelReason := reason }) fault s s' ->
      fault.status.isCancellable = true -> Change (.cancel id reason) s s' [.stamp id moment]
  | edits {id changes fault s s' seen} : Moves id changes.apply fault s s' ->
      Change (.edit id changes) s s' seen

theorem opens_notify {row : Fault} {people : List Nat} (unused : s.Unused id) :
    Opens id row people s ((s.insertFault id row).notify id row.noticeKey people) := by
  rcases notify_spec (s.insertFault id row) id row.noticeKey people with ⟨clock, faults, notices⟩
  refine ⟨unused, clock, faults, ?_, ?_, ?_⟩
  · intro n mem
    rcases (notices n).mp mem with before | ⟨_, here, _⟩
    · exact Or.inl before
    · exact Or.inr here
  · exact fun n mem => (notices n).mpr (Or.inl mem)
  · exact fun user mem => (notices _).mpr (Or.inr ⟨mem, rfl, rfl⟩)

theorem Opens.notify {row : Fault} {people : List Nat} (opens : Opens id row people s s') (key : NoticeKey)
    (people' : List Nat) : Opens id row people s (s'.notify id key people') := by
  rcases notify_spec s' id key people' with ⟨clock, faults, notices⟩
  refine ⟨opens.unused, clock.trans opens.clock, faults.trans opens.faults, ?_, ?_, ?_⟩
  · intro n mem
    rcases (notices n).mp mem with before | ⟨_, here, _⟩
    · exact opens.notices n before
    · exact Or.inr here
  · exact fun n mem => (notices n).mpr (Or.inl (opens.kept n mem))
  · exact fun user mem => (notices _).mpr (Or.inl (opens.told user mem))

theorem moves_update {g : Fault -> Fault} {fault : Fault} (found : s.faults.get? id = some fault) :
    Moves id g fault s (s.updateFault id g) :=
  ⟨found, rfl, rfl, fun _ mem => Or.inl mem, fun _ mem => mem⟩

theorem Moves.notify {g : Fault -> Fault} {fault : Fault} (moves : Moves id g fault s s') (key : NoticeKey)
    (people : List Nat) : Moves id g fault s (s'.notify id key people) := by
  rcases notify_spec s' id key people with ⟨clock, faults, notices⟩
  refine ⟨moves.found, clock.trans moves.clock, faults.trans moves.faults, ?_, ?_⟩
  · intro n mem
    rcases (notices n).mp mem with before | ⟨_, here, _⟩
    · exact moves.notices n before
    · exact Or.inr here
  · exact fun n mem => (notices n).mpr (Or.inl (moves.kept n mem))

/-! ## Sound programs -/

theorem get?_inserted {row : Fault} (unused : s.Unused id) : (s.insertFault id row).faults.get? id = some row := by
  rw [get?_insertFault, unused.1, if_pos rfl, Option.none_or]

theorem get?_updated {g : Fault -> Fault} {fault : Fault} (found : s.faults.get? id = some fault) :
    (s.updateFault id g).faults.get? id = some (g fault) := by
  rw [get?_updateFault, if_pos rfl, found, Option.map_some]

theorem sound_firstToMerge {elevator moment : Nat} {ids : List Nat}
    {post : Board -> Option (Nat × Fault) -> Trail Board Row Note -> Prop} (here : t.writes s = s)
    (found : ∀ id fault t', s.faults.get? id = some fault -> mergesInto elevator moment fault = true ->
      t'.Locked (.fault id) -> t'.writes s = s -> t'.seen = t.seen -> post s (some (id, fault)) t')
    (none_ : ∀ t', (∀ id ∈ ids, ∀ fault, s.faults.get? id = some fault -> mergesInto elevator moment fault = false) ->
      t'.writes s = s -> t'.seen = t.seen -> (∀ row, t.Locked row -> t'.Locked row) -> post s none t') :
    Sound convention (firstToMerge elevator moment ids) s t post := by
  induction ids generalizing t with
  | nil => exact none_ t (fun _ mem => by cases mem) here rfl (fun _ locked => locked)
  | cons id ids ih =>
      unfold firstToMerge
      simp only [Prog.bind_eq, sound_bind, sound_lock, sound_fetch]
      refine ⟨trivial, ?_⟩
      intro fault at_id
      rw [Trail.hold_writes, here] at at_id
      refine ⟨?_, ?_⟩
      · intro v rely
        rw [Trail.hold_writes, here] at rely
        exact (sameFault_of_locked (locked_here t (.fault id)) rely at_id).1.trans at_id
      · split_ifs with passes
        · exact found id fault _ at_id passes (locked_here t (.fault id)) here rfl
        · refine @ih (t.hold .update (.fault id)) here found ?_
          intro t' others writes seen locks
          refine none_ t' ?_ writes seen (fun row locked => locks row (locked_hold row locked))
          intro id' mem fault' at_id'
          rcases List.mem_cons.mp mem with rfl | later
          · rw [at_id] at at_id'
            cases at_id'
            exact Bool.not_eq_true _ ▸ passes
          · exact others id' later fault' at_id'

theorem fixes_mergeInto (report : PublicReport) (moment : Nat) : Fixes (report.mergeInto moment) :=
  fun _ => ⟨rfl, rfl, rfl⟩

theorem sound_around {f : Board -> Board} {post : Board -> Unit -> Trail Board Row Note -> Prop} (around : Around f)
    (after : post s () (t.write f)) : Sound convention (write f : FaultProg Unit) s t post :=
  ⟨respects_around around, confined_around around, after⟩

/-- A transition: the fault is locked, its status checked, the time read and the row
written. -/
theorem sound_transition {allowed : Fault -> Bool} {g : Nat -> Fault -> Fault} {q : Request}
    (fixes : ∀ moment, Fixes (g moment)) (past : ∀ moment fault, (g moment fault).isWaiting = false)
    (change : ∀ fault moment, Moves id (g moment) fault s (s.updateFault id (g moment)) -> allowed fault = true ->
      Change q s (s.updateFault id (g moment)) [.stamp id moment]) :
    Sound convention (do
      let fault ← locked id
      require (allowed fault) .faultTransitionNotAllowed
      let moment ← now id
      write (fun v => v.updateFault id (g moment))) s (.start 0) (fun s' _ t => Change q s' (t.writes s') t.seen) := by
  simp only [Prog.bind_eq, sound_bind]
  apply sound_locked
  intro fault found
  rw [sound_require]
  intro passes
  refine sound_now rfl found ?_
  intro moment
  refine sound_update (fixes moment) (locked_here _ _) found ?_ ?_
  · intro waiting
    rw [past moment fault] at waiting
    cases waiting
  · exact change fault moment (moves_update found) passes

/-- What the request commits is one of its changes, by the notes it is made with. -/
def Serves (s : Board) (q : Request) : Prop :=
  Sound convention (serve q) s (.start 0) (fun s' _ t => Change q s' (t.writes s') t.seen)

theorem sound_reportByStaff (new : StaffReport) : Serves s (.reportByStaff new) := by
  unfold Serves serve reportByStaff
  simp only [Prog.bind_eq, Prog.pure_eq, sound_bind, sound_peekLogged, sound_fresh]
  refine ⟨noted_clock rfl, ?_⟩
  intro moment id unused _
  have there := congrArg Option.isSome (@get?_inserted s id (new.row moment) unused)
  apply sound_insert List.mem_cons_self unused rfl (fun public_ => by cases public_)
  apply sound_announceReport (Or.inr unused.1) there
  intro people
  have opens := @opens_notify s id (new.row moment) people unused
  cases new.technician with
  | none => exact .staff opens
  | some technician =>
      apply sound_announceAssignment (Or.inr unused.1)
      · rw [← notify_faults _ id (new.row moment).noticeKey people] at there
        exact there
      · intro people' t' seen writes
        rw [writes, seen]
        exact .staff (opens.notify _ people')

theorem sound_reportByPortal (elevator : Nat) (report : PublicReport) :
    Serves s (.reportByPortal elevator report) := by
  unfold Serves serve reportByPortal
  simp only [Prog.bind_eq, sound_bind, sound_peekLogged, sound_fresh]
  refine ⟨noted_clock rfl, ?_⟩
  intro moment id unused _
  apply sound_insert List.mem_cons_self unused rfl (fun public_ => by cases public_)
  apply sound_announceReport (Or.inr unused.1) (congrArg Option.isSome (get?_inserted unused))
  intro people
  exact .portal (opens_notify unused)

/-- The report goes into a fault that is locked, and nothing has been written yet. -/
theorem sound_merge {elevator moment : Nat} {ids : List Nat} {fault : Fault} (report : PublicReport)
    (found : s.faults.get? id = some fault) (passes : mergesInto elevator moment fault = true)
    (locked : t.Locked (.fault id)) (here : t.writes s = s)
    (seen : t.seen = [.candidates elevator moment ids, .now moment]) :
    Sound convention (merge id fault report moment) s t
      (fun s' _ t => Change (.reportPublic elevator report) s' (t.writes s') t.seen) := by
  have at_id : (t.writes s).faults.get? id = some fault := by
    rw [here]
    exact found
  have moves := moves_update (g := report.mergeInto moment) found
  unfold merge
  simp only [Prog.bind_eq, Prog.pure_eq, sound_bind]
  apply sound_update (fixes_mergeInto report moment) locked at_id (fun waiting => waiting)
  have there : ((t.writes s).updateFault id (report.mergeInto moment)).faults.get? id =
      some (report.mergeInto moment fault) := get?_updated at_id
  split_ifs with raises
  · refine sound_announceReport (t := t.write _) (Or.inl locked) (congrArg Option.isSome there) ?_
    intro people
    have emergency : (report.mergeInto moment fault).noticeKey = .emergency := by
      unfold Fault.noticeKey PublicReport.mergeInto
      simp only [if_pos raises.1, if_pos raises.2]
    have change : Change (.reportPublic elevator report) s
        ((s.updateFault id (report.mergeInto moment)).notify id .emergency people)
        [.people id people, .candidates elevator moment ids, .now moment] := by
      refine .escalates (moves.notify .emergency people) passes raises ?_
      exact fun user mem => ((notify_spec _ id .emergency people).2.2 _).mpr (Or.inr ⟨mem, rfl, rfl⟩)
    show Change _ s (((t.writes s).updateFault id (report.mergeInto moment)).notify id _ people)
      (.people id people :: t.seen)
    rw [here, seen, emergency]
    exact change
  · have change : Change (.reportPublic elevator report) s (s.updateFault id (report.mergeInto moment))
        [.candidates elevator moment ids, .now moment] := .merges moves passes raises
    show Change _ s ((t.writes s).updateFault id (report.mergeInto moment)) t.seen
    rw [here, seen]
    exact change

/-- With no fault to merge it into, the report opens one. -/
theorem sound_open {elevator moment : Nat} {ids : List Nat} (report : PublicReport)
    (others : ∀ id ∈ ids, ∀ fault, s.faults.get? id = some fault -> mergesInto elevator moment fault = false)
    (lift : t.Locked (.elevator elevator)) (here : t.writes s = s)
    (seen : t.seen = [.candidates elevator moment ids, .now moment]) :
    Sound convention (do
      let id ← fresh
      write (fun v => v.insertFault id (report.row .publicQr elevator moment))
      announceReport id (report.row .publicQr elevator moment)) s t
      (fun s' _ t => Change (.reportPublic elevator report) s' (t.writes s') t.seen) := by
  simp only [Prog.bind_eq, sound_bind, sound_fresh]
  intro id unused _
  refine sound_insert List.mem_cons_self unused here (fun _ => lift) ?_
  have there : ((t.writes s).insertFault id (report.row .publicQr elevator moment)).faults.get? id =
      some (report.row .publicQr elevator moment) := by
    rw [here]
    exact get?_inserted unused
  refine sound_announceReport (Or.inr unused.1) (congrArg Option.isSome there) ?_
  intro people
  have change : Change (.reportPublic elevator report) s
      ((s.insertFault id (report.row .publicQr elevator moment)).notify id
        (report.row .publicQr elevator moment).noticeKey people)
      [.people id people, .candidates elevator moment ids, .now moment] :=
    .opens (opens_notify unused) others
  show Change _ s (((t.writes s).insertFault id _).notify id _ people) (.people id people :: t.seen)
  rw [here, seen]
  exact change

theorem sound_reportPublic (elevator : Nat) (report : PublicReport) : Serves s (.reportPublic elevator report) := by
  unfold Serves serve reportPublic
  simp only [Prog.bind_eq, sound_bind, sound_lock, sound_peekLogged]
  refine ⟨trivial, noted_clock rfl, ?_⟩
  intro moment
  refine ⟨?_, ?_⟩
  · intro note mem
    rw [List.mem_singleton.mp mem]
    exact fun id fault found merges => mem_candidates found merges
  intro ids
  apply sound_firstToMerge rfl
  · intro id fault t' found passes locked here seen
    exact sound_merge report found passes locked here seen
  · intro t' others here seen locks
    exact sound_open report others (locks _ (locked_here _ (.elevator elevator))) here seen

theorem sound_assign (id technician : Nat) : Serves s (.assign id technician) := by
  unfold Serves serve assign
  simp only [Prog.bind_eq, Prog.pure_eq, sound_bind]
  apply sound_locked
  intro fault found
  rw [sound_require]
  intro passes
  have waiting := of_decide_eq_true passes
  split_ifs
  · exact .assigned
  · simp only [sound_bind]
    refine sound_now rfl found ?_
    intro moment
    refine sound_update (fun _ => ⟨rfl, rfl, rfl⟩) (locked_here _ _) found (fun _ => decide_eq_true waiting) ?_
    refine sound_announceAssignment (Or.inl (locked_here _ _)) (congrArg Option.isSome (get?_updated found)) ?_
    intro people t' seen writes
    rw [seen, writes]
    exact .assigns ((moves_update found).notify _ people) waiting

theorem sound_resolve (id : Nat) (resolutionNotes partsUsed : String) :
    Serves s (.resolve id resolutionNotes partsUsed) := by
  unfold Serves serve resolve
  simp only [Prog.bind_eq, sound_bind]
  apply sound_locked
  intro fault found
  rw [sound_require]
  intro passes
  refine sound_now rfl found ?_
  intro moment
  rw [sound_peek]
  intro billable
  refine sound_update (fun _ => ⟨rfl, rfl, rfl⟩) (locked_here _ _) found (fun waiting => by cases waiting) ?_
  unfold announceResolution
  simp only [Prog.bind_eq, sound_bind, sound_peek]
  intro people
  refine sound_notify (Or.inl (locked_here _ _)) (congrArg Option.isSome (get?_updated found)) ?_
  exact .resolves ((moves_update found).notify .resolved people) (of_decide_eq_true passes)

theorem sound_edit (id : Nat) (changes : FaultChanges) : Serves s (.edit id changes) := by
  unfold Serves serve edit
  simp only [Prog.bind_eq, Prog.pure_eq, sound_bind]
  apply sound_locked
  intro fault found
  refine sound_update (fun _ => ⟨rfl, rfl, rfl⟩) (locked_here _ _) found (fun waiting => waiting) ?_
  split_ifs
  · refine sound_announceReport (Or.inl (locked_here _ _)) (congrArg Option.isSome (get?_updated found)) ?_
    intro people
    exact .edits ((moves_update found).notify _ people)
  · exact .edits (moves_update found)

theorem sound_serve (q : Request) : Serves s q := by
  cases q with
  | tick seconds =>
      refine sound_around ⟨fun _ => rfl, fun _ => rfl, fun _ => Nat.le_add_right _ _, ?_⟩ .ticks
      exact fun v v' le => Nat.add_le_add_right le seconds
  | people users customers assignments =>
      exact sound_around ⟨fun _ => rfl, fun _ => rfl, fun _ => le_rfl, fun _ _ le => le⟩ .peopled
  | cover lines =>
      exact sound_around ⟨fun _ => rfl, fun _ => rfl, fun _ => le_rfl, fun _ _ le => le⟩ .covered
  | reportByStaff new => exact sound_reportByStaff new
  | reportByPortal elevator report => exact sound_reportByPortal elevator report
  | reportPublic elevator report => exact sound_reportPublic elevator report
  | assign id technician => exact sound_assign id technician
  | arrive id =>
      refine sound_transition (fun _ _ => ⟨rfl, rfl, rfl⟩) (fun _ _ => rfl) ?_
      exact fun fault moment moves passes => .arrives moves (of_decide_eq_true passes)
  | resolve id resolutionNotes partsUsed => exact sound_resolve id resolutionNotes partsUsed
  | close id =>
      refine sound_transition (fun _ _ => ⟨rfl, rfl, rfl⟩) (fun _ _ => rfl) ?_
      exact fun fault moment moves passes => .closes moves (of_decide_eq_true passes)
  | cancel id reason =>
      refine sound_transition (fun _ _ => ⟨rfl, rfl, rfl⟩) (fun _ _ => rfl) ?_
      exact fun fault moment moves passes => .cancels moves passes
  | edit id changes => exact sound_edit id changes

end Faults
end Shiftlush
