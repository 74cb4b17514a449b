import Shiftlush.Faults.Services
import Shiftlush.Transactions.Guarded

namespace Shiftlush
namespace Faults

open Fleet (FaultStatus)
open Transactions

/-!
# What the locks of a fault and of a lift protect

Whoever holds a fault finds its row and its notices unchanged, and whoever holds
a lift the public faults reported on it.  Nobody reopens a fault that is past
merging, and the clock goes on.
-/

/-! ## Rows that stay -/

/-- A later row of the same fault. -/
structure Onward (a b : Fault) : Prop where
  elevator : b.elevator = a.elevator
  channel : b.channel = a.channel
  reportedAt : b.reportedAt = a.reportedAt
  waiting : b.isWaiting = true -> a.isWaiting = true

theorem Onward.refl (fault : Fault) : Onward fault fault := ⟨rfl, rfl, rfl, fun waiting => waiting⟩

theorem Onward.trans {a b c : Fault} (first : Onward a b) (second : Onward b c) : Onward a c :=
  ⟨second.elevator.trans first.elevator, second.channel.trans first.channel,
    second.reportedAt.trans first.reportedAt, fun waiting => first.waiting (second.waiting waiting)⟩

namespace Board

/-- When the fault was reported, if it is a public one of the lift. -/
def publicReport (v : Board) (elevator id : Nat) : Option Nat :=
  ((v.faults.get? id).filter (fun fault => decide (fault.elevator = elevator ∧ fault.channel = .publicQr))).map
    Fault.reportedAt

/-- The notices of a fault are the same. -/
def SameNotices (id : Nat) (v w : Board) : Prop := ∀ n : Notice, n.fault = id -> (n ∈ w.notices ↔ n ∈ v.notices)

/-- The fault is as it was. -/
def SameFault (id : Nat) (v w : Board) : Prop :=
  w.faults.get? id = v.faults.get? id ∧ SameNotices id v w

/-- Later rows of all faults, and a later time. -/
structure Later (v w : Board) : Prop where
  clock : v.clock ≤ w.clock
  faults : ∀ id fault, v.faults.get? id = some fault -> ∃ fault', w.faults.get? id = some fault' ∧ Onward fault fault'

def Unused (id : Nat) (v : Board) : Prop := v.faults.get? id = none ∧ ∀ n ∈ v.notices, n.fault ≠ id

theorem Later.refl (v : Board) : v.Later v := ⟨le_rfl, fun _ fault found => ⟨fault, found, .refl fault⟩⟩

theorem Later.trans {u v w : Board} (first : u.Later v) (second : v.Later w) : u.Later w := by
  refine ⟨first.clock.trans second.clock, ?_⟩
  intro id fault found
  rcases first.faults id fault found with ⟨fault', found', onward⟩
  rcases second.faults id fault' found' with ⟨fault'', found'', onward'⟩
  exact ⟨fault'', found'', onward.trans onward'⟩

theorem SameFault.refl (id : Nat) (v : Board) : SameFault id v v := ⟨rfl, fun _ _ => Iff.rfl⟩

end Board

def Row.kept : Row -> Board -> Board -> Prop
  | .fault id, v, w => ∀ fault, v.faults.get? id = some fault -> v.SameFault id w
  | .elevator lift, v, w => ∀ id, w.publicReport lift id = v.publicReport lift id

theorem unused_kept {id : Nat} {v w : Board} (unused : Board.Unused id v) (unused' : Board.Unused id w) :
    Board.SameFault id v w :=
  ⟨unused'.1.trans unused.1.symm, fun n here =>
    iff_of_false (fun mem => unused'.2 n mem here) (fun mem => unused.2 n mem here)⟩

/-- What a note says of the rows it is taken from. -/
def Board.Noted (v : Board) : Note -> Prop
  | .now moment => moment = v.clock
  | .stamp fault moment => moment = v.clock ∧ ∃ row, v.faults.get? fault = some row
  | .candidates elevator moment ids => ∀ id fault, v.faults.get? id = some fault ->
      mergesInto elevator moment fault = true -> id ∈ ids
  | .people _ _ => True

def convention : Convention Board Row Note where
  inv _ := True
  kept := Row.kept
  keptId := Board.SameFault
  always := Board.Later
  unused := Board.Unused
  order _ _ _ _ _ := True
  noted := Board.Noted
  kept_refl row v := by
    cases row with
    | fault id => exact fun _ _ => Board.SameFault.refl id v
    | elevator lift => exact fun _ => rfl
  always_refl := .refl
  unused_kept _ _ _ := unused_kept

variable {s v v' : Board} {t : Trail Board Row Note} {id : Nat}

/-! ## Updates of the tables -/

@[simp] theorem updateFault_clock (v : Board) (id : Nat) (f : Fault -> Fault) :
    (v.updateFault id f).clock = v.clock := rfl

@[simp] theorem updateFault_notices (v : Board) (id : Nat) (f : Fault -> Fault) :
    (v.updateFault id f).notices = v.notices := rfl

@[simp] theorem insertFault_clock (v : Board) (id : Nat) (fault : Fault) :
    (v.insertFault id fault).clock = v.clock := rfl

@[simp] theorem insertFault_notices (v : Board) (id : Nat) (fault : Fault) :
    (v.insertFault id fault).notices = v.notices := rfl

theorem get?_updateFault (v : Board) (id id' : Nat) (f : Fault -> Fault) :
    (v.updateFault id f).faults.get? id' = if id' = id then (v.faults.get? id').map f else v.faults.get? id' :=
  Rows.get?_update v.faults id id' f

theorem get?_insertFault (v : Board) (id id' : Nat) (fault : Fault) :
    (v.insertFault id fault).faults.get? id' = (v.faults.get? id').or (if id = id' then some fault else none) :=
  Rows.get?_insert v.faults id id' fault

theorem tell_spec (v : Board) (fault : Nat) (key : NoticeKey) (user : Nat) :
    (v.tell fault key user).clock = v.clock ∧ (v.tell fault key user).faults = v.faults ∧
    ∀ n, n ∈ (v.tell fault key user).notices ↔ n ∈ v.notices ∨ n = ⟨user, fault, key⟩ := by
  unfold Board.tell
  split
  · rename_i told
    refine ⟨rfl, rfl, ?_⟩
    intro n
    constructor
    · exact Or.inl
    · rintro (before | rfl)
      · exact before
      · exact told
  · refine ⟨rfl, rfl, ?_⟩
    intro n
    simp

/-- What `notify` does: everybody has the notice afterwards. -/
theorem notify_spec (v : Board) (fault : Nat) (key : NoticeKey) (people : List Nat) :
    (v.notify fault key people).clock = v.clock ∧ (v.notify fault key people).faults = v.faults ∧
    ∀ n, n ∈ (v.notify fault key people).notices ↔
      n ∈ v.notices ∨ (n.recipient ∈ people ∧ n.fault = fault ∧ n.key = key) := by
  unfold Board.notify
  induction people generalizing v with
  | nil => exact ⟨rfl, rfl, fun n => by simp⟩
  | cons user people ih =>
      rcases tell_spec v fault key user with ⟨clock, faults, notices⟩
      rcases ih (v.tell fault key user) with ⟨clock', faults', notices'⟩
      refine ⟨clock'.trans clock, faults'.trans faults, ?_⟩
      intro n
      rw [List.foldl_cons, notices', notices, List.mem_cons, or_assoc]
      cases n with
      | mk recipient about key' =>
          simp only [Notice.mk.injEq]
          tauto

@[simp] theorem notify_clock (v : Board) (fault : Nat) (key : NoticeKey) (people : List Nat) :
    (v.notify fault key people).clock = v.clock := (notify_spec v fault key people).1

@[simp] theorem notify_faults (v : Board) (fault : Nat) (key : NoticeKey) (people : List Nat) :
    (v.notify fault key people).faults = v.faults := (notify_spec v fault key people).2.1

/-! ## Writes under the locks -/

/-- A write of a fault keeps what a fault has for good. -/
def Fixes (g : Fault -> Fault) : Prop :=
  ∀ fault, (g fault).elevator = fault.elevator ∧ (g fault).channel = fault.channel ∧
    (g fault).reportedAt = fault.reportedAt

theorem publicReport_updateFault {g : Fault -> Fault} (fixes : Fixes g) (v : Board) (id elevator id' : Nat) :
    (v.updateFault id g).publicReport elevator id' = v.publicReport elevator id' := by
  unfold Board.publicReport
  rw [get?_updateFault]
  split
  · rename_i here
    rw [here]
    cases v.faults.get? id with
    | none => rfl
    | some fault =>
        rcases fixes fault with ⟨lift, channel, reported⟩
        by_cases public_ : fault.elevator = elevator ∧ fault.channel = .publicQr
        · simp [Option.filter, lift, channel, reported, public_]
        · simp [Option.filter, lift, channel, public_]
  · rfl

theorem sameFault_of_rely (drawn : id ∈ t.ids) (rely : convention.Rely t v v') : v.SameFault id v' :=
  rely.ids id drawn

theorem sameFault_of_locked (locked : t.Locked (.fault id)) (rely : convention.Rely t v v') {fault : Fault}
    (found : v.faults.get? id = some fault) : v.SameFault id v' :=
  (show Row.kept (.fault id) v v' from rely.rows _ locked) fault found

theorem respects_updateFault {g : Fault -> Fault} (fixes : Fixes g) (locked : t.Locked (.fault id)) {fault : Fault}
    (found : v.faults.get? id = some fault) : convention.Respects t (fun v => v.updateFault id g) v := by
  have same (v' : Board) (rely : convention.Rely t v v') (id' : Nat) (kept : v.SameFault id' v') :
      (v.updateFault id g).SameFault id' (v'.updateFault id g) := by
    refine ⟨?_, kept.2⟩
    rw [get?_updateFault, get?_updateFault, kept.1]
  refine ⟨?_, same, ?_⟩
  · intro v' rely row kept
    cases row with
    | elevator elevator =>
        intro id'
        rw [publicReport_updateFault fixes, publicReport_updateFault fixes]
        exact kept id'
    | fault id' =>
        intro fault' found'
        apply same v' rely id'
        by_cases here : id' = id
        · rw [here]
          exact sameFault_of_locked locked rely found
        · rw [get?_updateFault, if_neg here] at found'
          exact (show Row.kept (.fault id') v v' from kept) fault' found'
  · intro v' rely
    have later : v.Later v' := rely.always
    refine ⟨later.clock, ?_⟩
    intro id' fault' found'
    rw [get?_updateFault] at found' ⊢
    split
    · rename_i here
      rw [if_pos here] at found'
      rw [here] at found' ⊢
      rw [(sameFault_of_locked locked rely found).1]
      exact ⟨fault', found', .refl fault'⟩
    · rename_i there
      rw [if_neg there] at found'
      exact later.faults id' fault' found'

theorem confined_updateFault {g : Fault -> Fault} (fixes : Fixes g) (locked : t.Locked (.fault id)) {fault : Fault}
    (found : v.faults.get? id = some fault) (waiting : (g fault).isWaiting = true -> fault.isWaiting = true)
    (confined : convention.Confined t s v) : convention.Confined t s (v.updateFault id g) where
  rows row free := by
    have kept := confined.rows row free
    cases row with
    | elevator elevator =>
        intro id'
        rw [publicReport_updateFault fixes]
        exact kept id'
    | fault id' =>
        have other : id' ≠ id := by
          rintro rfl
          exact free locked
        intro fault' found'
        have before := (show Row.kept (.fault id') s v from kept) fault' found'
        refine ⟨?_, before.2⟩
        rw [get?_updateFault, if_neg other]
        exact before.1
  always := by
    have later : s.Later v := confined.always
    refine later.trans ⟨le_rfl, ?_⟩
    intro id' fault' found'
    rw [get?_updateFault]
    split
    · rename_i here
      rw [here, found] at found'
      cases found'
      rw [here, found]
      rcases fixes fault with ⟨lift, channel, reported⟩
      exact ⟨g fault, rfl, lift, channel, reported, waiting⟩
    · exact ⟨fault', found', .refl fault'⟩
  ids id' undrawn unused := by
    have before : Board.Unused id' v := confined.ids id' undrawn unused
    refine ⟨?_, before.2⟩
    rw [get?_updateFault]
    split
    · rw [before.1]
      rfl
    · exact before.1

theorem respects_insertFault (drawn : id ∈ t.ids) (fault : Fault) :
    convention.Respects t (fun v => v.insertFault id fault) v := by
  have same (v' : Board) (id' : Nat) (kept : v.SameFault id' v') :
      (v.insertFault id fault).SameFault id' (v'.insertFault id fault) := by
    refine ⟨?_, kept.2⟩
    rw [get?_insertFault, get?_insertFault, kept.1]
  refine ⟨?_, fun v' _ => same v', ?_⟩
  · intro v' rely row kept
    cases row with
    | elevator elevator =>
        intro id'
        unfold Board.publicReport
        by_cases here : id = id'
        · rw [get?_insertFault, get?_insertFault, ← here, (sameFault_of_rely drawn rely).1]
        · rw [get?_insertFault, get?_insertFault, if_neg here, Option.or_none, Option.or_none]
          exact kept id'
    | fault id' =>
        intro fault' found'
        apply same
        by_cases here : id = id'
        · rw [← here]
          exact sameFault_of_rely drawn rely
        · rw [get?_insertFault, if_neg here, Option.or_none] at found'
          exact (show Row.kept (.fault id') v v' from kept) fault' found'
  · intro v' rely
    have later : v.Later v' := rely.always
    refine ⟨later.clock, ?_⟩
    intro id' fault' found'
    by_cases here : id = id'
    · rw [get?_insertFault] at found' ⊢
      rw [← here] at found' ⊢
      rw [(sameFault_of_rely drawn rely).1]
      exact ⟨fault', found', .refl fault'⟩
    · rw [get?_insertFault, if_neg here, Option.or_none] at found' ⊢
      exact later.faults id' fault' found'

theorem confined_insertFault (drawn : id ∈ t.ids) (unused : s.Unused id) {fault : Fault} (absent : v.faults.get? id = none)
    (locked : fault.channel = .publicQr -> t.Locked (.elevator fault.elevator))
    (confined : convention.Confined t s v) : convention.Confined t s (v.insertFault id fault) where
  rows row free := by
    have kept := confined.rows row free
    cases row with
    | elevator elevator =>
        intro id'
        rw [← show v.publicReport elevator id' = s.publicReport elevator id' from kept id']
        unfold Board.publicReport
        rw [get?_insertFault]
        by_cases here : id = id'
        · have elsewhere : ¬ (fault.elevator = elevator ∧ fault.channel = .publicQr) := by
            rintro ⟨rfl, public_⟩
            exact free (locked public_)
          rw [← here, absent]
          simp [Option.filter, elsewhere]
        · rw [if_neg here, Option.or_none]
    | fault id' =>
        intro fault' found'
        have before := (show Row.kept (.fault id') s v from kept) fault' found'
        have other : id ≠ id' := by
          rintro rfl
          rw [unused.1] at found'
          cases found'
        refine ⟨?_, before.2⟩
        rw [get?_insertFault, if_neg other, Option.or_none]
        exact before.1
  always := by
    have later : s.Later v := confined.always
    refine later.trans ⟨le_rfl, ?_⟩
    intro id' fault' found'
    rw [get?_insertFault, found']
    exact ⟨fault', rfl, .refl fault'⟩
  ids id' undrawn unused' := by
    have before : Board.Unused id' v := confined.ids id' undrawn unused'
    have other : id ≠ id' := by
      rintro rfl
      exact undrawn drawn
    refine ⟨?_, before.2⟩
    rw [get?_insertFault, if_neg other, Option.or_none]
    exact before.1

theorem sameFault_notify {id' : Nat} (key : NoticeKey) (people : List Nat) (kept : v.SameFault id' v') :
    (v.notify id key people).SameFault id' (v'.notify id key people) := by
  refine ⟨?_, ?_⟩
  · rw [notify_faults, notify_faults]
    exact kept.1
  · intro n here
    rw [(notify_spec v' id key people).2.2, (notify_spec v id key people).2.2, kept.2 n here]

theorem respects_notify (key : NoticeKey) (people : List Nat) :
    convention.Respects t (fun v => v.notify id key people) v := by
  refine ⟨?_, fun v' _ id' => sameFault_notify key people, ?_⟩
  · intro v' rely row kept
    cases row with
    | elevator elevator =>
        intro id'
        unfold Board.publicReport
        rw [notify_faults, notify_faults]
        exact kept id'
    | fault id' =>
        intro fault' found'
        rw [notify_faults] at found'
        exact sameFault_notify key people ((show Row.kept (.fault id') v v' from kept) fault' found')
  · intro v' rely
    have later : v.Later v' := rely.always
    refine ⟨?_, ?_⟩
    · rw [notify_clock, notify_clock]
      exact later.clock
    · intro id' fault' found'
      rw [notify_faults] at found' ⊢
      exact later.faults id' fault' found'

/-- The notices of a fault are written under its lock, or with it. -/
theorem confined_notify (key : NoticeKey) (people : List Nat)
    (mine : t.Locked (.fault id) ∨ s.faults.get? id = none) (there : (v.faults.get? id).isSome = true)
    (confined : convention.Confined t s v) : convention.Confined t s (v.notify id key people) where
  rows row free := by
    have kept := confined.rows row free
    cases row with
    | elevator elevator =>
        intro id'
        unfold Board.publicReport
        rw [notify_faults]
        exact kept id'
    | fault id' =>
        intro fault' found'
        have before := (show Row.kept (.fault id') s v from kept) fault' found'
        refine ⟨?_, ?_⟩
        · rw [notify_faults]
          exact before.1
        · intro n here
          have other : n.fault ≠ id := by
            intro same
            rcases mine with locked | absent
            · rw [← here, same] at free
              exact free locked
            · rw [← here, same, absent] at found'
              cases found'
          rw [(notify_spec v id key people).2.2, ← before.2 n here]
          simp [other]
  always := by
    have later : s.Later v := confined.always
    refine ⟨?_, ?_⟩
    · rw [notify_clock]
      exact later.clock
    · intro id' fault' found'
      rw [notify_faults]
      exact later.faults id' fault' found'
  ids id' undrawn unused := by
    have before : Board.Unused id' v := confined.ids id' undrawn unused
    refine ⟨?_, ?_⟩
    · rw [notify_faults]
      exact before.1
    · intro n mem
      rcases ((notify_spec v id key people).2.2 n).mp mem with old | ⟨_, here, _⟩
      · exact before.2 n old
      · rintro rfl
        rw [← here, before.1] at there
        cases there

/-- A write of other tables, or of the clock. -/
structure Around (f : Board -> Board) : Prop where
  faults : ∀ v, (f v).faults = v.faults
  notices : ∀ v, (f v).notices = v.notices
  clock : ∀ v, v.clock ≤ (f v).clock
  mono : ∀ v v', v.clock ≤ v'.clock -> (f v).clock ≤ (f v').clock

theorem Around.later {f : Board -> Board} (around : Around f) (v : Board) : v.Later (f v) := by
  refine ⟨around.clock v, ?_⟩
  intro id fault found
  rw [around.faults]
  exact ⟨fault, found, .refl fault⟩

theorem Around.sameFault {f : Board -> Board} (around : Around f) (kept : v.SameFault id v') :
    (f v).SameFault id (f v') := by
  unfold Board.SameFault Board.SameNotices
  rw [around.faults, around.faults, around.notices, around.notices]
  exact kept

theorem Around.publicReport {f : Board -> Board} (around : Around f) (v : Board) (elevator id : Nat) :
    (f v).publicReport elevator id = v.publicReport elevator id := by
  unfold Board.publicReport
  rw [around.faults]

theorem respects_around {f : Board -> Board} (around : Around f) : convention.Respects t f v := by
  refine ⟨?_, fun v' _ id' => around.sameFault, ?_⟩
  · intro v' rely row kept
    cases row with
    | elevator elevator =>
        intro id'
        rw [around.publicReport, around.publicReport]
        exact kept id'
    | fault id' =>
        intro fault' found'
        rw [around.faults] at found'
        exact around.sameFault ((show Row.kept (.fault id') v v' from kept) fault' found')
  · intro v' rely
    have later : v.Later v' := rely.always
    refine ⟨around.mono v v' later.clock, ?_⟩
    rw [around.faults, around.faults]
    exact later.faults

theorem confined_around {f : Board -> Board} (around : Around f) (confined : convention.Confined t s v) :
    convention.Confined t s (f v) where
  rows row free := by
    have kept := confined.rows row free
    cases row with
    | elevator elevator =>
        intro id'
        rw [around.publicReport]
        exact kept id'
    | fault id' =>
        intro fault' found'
        have before := (show Row.kept (.fault id') s v from kept) fault' found'
        refine ⟨?_, ?_⟩
        · rw [around.faults]
          exact before.1
        · intro n here
          rw [around.notices]
          exact before.2 n here
  always := (show s.Later v from confined.always).trans (around.later v)
  ids id' undrawn unused := by
    have before : Board.Unused id' v := confined.ids id' undrawn unused
    refine ⟨?_, ?_⟩
    · rw [around.faults]
      exact before.1
    · rw [around.notices]
      exact before.2

end Faults
end Shiftlush
