import Shiftlush.Idempotency.Once

namespace Shiftlush
namespace Idempotency

/-!
# The fence

`created_at` tells the reservations of one row apart: every take-over moves it
forward, so a reservation taken over never matches again, and the row a
reservation matches is for its request.  This needs a row to be created before
it expires, which a take-over guarantees and an insert does if its two clock
readings lie less than a retention apart (`prompt`).
-/

/-- No reservation is about to be inserted after it has expired. -/
def Machine.prompt (retention : String -> Nat) (m : Machine) : Bool :=
  m.threads.all (fun thread =>
    match thread.stage with
    | .inserting _ now stamp => decide (stamp < now + retention thread.request.endpoint)
    | _ => true)

section Rows

variable (retention : String -> Nat)

/-- The stored row: its key is drawn, it was created before it expires, and no
later than its own retention allows. -/
def RowOk (m : Machine) : Prop :=
  ∀ row, m.row = some row -> row.pk < m.nextPk ∧ row.createdAt < row.expiresAt ∧
    (row.isPending = true -> row.expiresAt ≤ row.createdAt + retention row.endpoint)

/-- What may happen to the row, as the other requests see it. -/
inductive Evolves (m m' : Machine) : Prop where
  | still : m.clock ≤ m'.clock -> m.nextPk ≤ m'.nextPk -> m'.row = m.row -> Evolves m m'
  | inserted {row} : m'.clock = m.clock -> m'.nextPk = m.nextPk + 1 -> m'.row = some row ->
      row.pk = m.nextPk -> row.createdAt < row.expiresAt ->
      row.expiresAt ≤ row.createdAt + retention row.endpoint -> Evolves m m'
  | taken {row request now} : m'.clock = m.clock -> m'.nextPk = m.nextPk -> m.row = some row ->
      m'.row = some (row.takenOver request now (retention request.endpoint)) ->
      row.createdAt < now -> row.expiresAt ≤ now ∨ (row.isPending = true ∧ row.isFor request = true) ->
      Evolves m m'
  | completed {row response expiresAt} : m'.clock = m.clock -> m'.nextPk = m.nextPk ->
      m.row = some row -> m'.row = some (row.completed response expiresAt) ->
      row.isPending = true -> row.createdAt + retention row.endpoint ≤ expiresAt -> Evolves m m'
  | deleted : m'.clock = m.clock -> m'.nextPk = m.nextPk -> m'.row = none -> Evolves m m'

end Rows

section Threads

variable (retention : String -> Nat)

/-- What a request knows of the row it has reserved. -/
structure Owned (m : Machine) (request : Request) (reservation : Reservation) : Prop where
  drawn : reservation.pk < m.nextPk
  past : reservation.reservedAt ≤ m.clock
  fenced : ∀ row, m.row = some row -> row.pk = reservation.pk ->
    reservation.reservedAt ≤ row.createdAt ∧
      (row.createdAt = reservation.reservedAt -> row.isFor request = true)

/-- What a request knows of the abandoned row it has looked at. -/
structure Aimed (m : Machine) (request : Request) (now pk : Nat) : Prop where
  drawn : pk < m.nextPk
  past : now ≤ m.clock
  fenced : ∀ row, m.row = some row -> row.pk = pk ->
    (row.isFor request = true ∧ now < row.expiresAt) ∨ now ≤ row.createdAt

def Kept (m : Machine) (request : Request) : Stage -> Prop
  | .stamping _ now => now ≤ m.clock
  | .inserting _ now stamp => now ≤ stamp ∧ stamp ≤ m.clock
  | .looking _ now => now ≤ m.clock
  | .taking _ now pk .expired => pk < m.nextPk ∧ now ≤ m.clock
  | .taking _ now pk .abandoned => Aimed m request now pk
  | .handling reservation => Owned m request reservation
  | .storing reservation _ => Owned m request reservation
  | .completing reservation _ expiresAt => Owned m request reservation ∧
      reservation.reservedAt + retention request.endpoint ≤ expiresAt
  | .committing reservation _ expiresAt => Owned m request reservation ∧
      reservation.reservedAt + retention request.endpoint ≤ expiresAt
  | _ => True

structure Fenced (m : Machine) : Prop where
  row : RowOk retention m
  threads : ∀ i thread, m.At i thread -> Kept retention m thread.request thread.stage

end Threads

theorem IdempotencyKey.isFor_iff {row : IdempotencyKey} {request : Request} :
    row.isFor request = true ↔
      row.requestHash = request.fingerprint ∧ row.endpoint = request.endpoint := by
  unfold isFor
  exact decide_eq_true_iff

theorem IdempotencyKey.isFor_takenOver (row : IdempotencyKey) (request : Request)
    (now retention : Nat) : (row.takenOver request now retention).isFor request = true :=
  isFor_iff.mpr ⟨rfl, rfl⟩

theorem kept_of_isIdle {retention : String -> Nat} {m : Machine} {request : Request} {stage : Stage}
    (idle : stage.isIdle = true) : Kept retention m request stage := by
  cases stage with
  | reserving attempt => trivial
  | releasing reservation response => trivial
  | deleting pk response => trivial
  | done outcome => trivial
  | lost => trivial
  | _ => cases idle

section Evolution

variable {retention : String -> Nat} {m m' : Machine}

theorem Evolves.rowOk (evolves : Evolves retention m m') (positive : ∀ e, pendingTimeout < retention e)
    (ok : RowOk retention m) : RowOk retention m' := by
  intro row' found'
  cases evolves with
  | still clock nextPk same =>
      rw [same] at found'
      rcases ok row' found' with ⟨drawn, created, bound⟩
      exact ⟨Nat.lt_of_lt_of_le drawn nextPk, created, bound⟩
  | inserted clock nextPk new key created bound =>
      rw [new] at found'
      cases found'
      rw [nextPk, key]
      exact ⟨Nat.lt_succ_self _, created, fun _ => bound⟩
  | @taken row request now clock nextPk found new moved reason =>
      rw [new] at found'
      cases found'
      have room := positive request.endpoint
      refine ⟨nextPk ▸ (ok row found).1, ?_, fun _ => Nat.le_refl _⟩
      change now < now + retention request.endpoint
      omega
  | @completed row response expiresAt clock nextPk found new pending bound =>
      rw [new] at found'
      cases found'
      have room := positive row.endpoint
      refine ⟨nextPk ▸ (ok row found).1, ?_, fun waits => nomatch waits⟩
      change row.createdAt < expiresAt
      omega
  | deleted clock nextPk gone =>
      rw [gone] at found'
      cases found'

theorem Evolves.clock_le (evolves : Evolves retention m m') : m.clock ≤ m'.clock := by
  cases evolves with
  | still clock _ _ => exact clock
  | inserted clock _ _ _ _ _ => exact Nat.le_of_eq clock.symm
  | taken clock _ _ _ _ _ => exact Nat.le_of_eq clock.symm
  | completed clock _ _ _ _ _ => exact Nat.le_of_eq clock.symm
  | deleted clock _ _ => exact Nat.le_of_eq clock.symm

theorem Evolves.nextPk_le (evolves : Evolves retention m m') : m.nextPk ≤ m'.nextPk := by
  cases evolves with
  | still _ nextPk _ => exact nextPk
  | inserted _ nextPk _ _ _ _ => rw [nextPk]; exact Nat.le_succ _
  | taken _ nextPk _ _ _ _ => exact Nat.le_of_eq nextPk.symm
  | completed _ nextPk _ _ _ _ => exact Nat.le_of_eq nextPk.symm
  | deleted _ nextPk _ => exact Nat.le_of_eq nextPk.symm

/-- A reservation taken over is fenced off for good. -/
theorem Owned.evolve {request : Request} {reservation : Reservation}
    (owned : Owned m request reservation) (evolves : Evolves retention m m') :
    Owned m' request reservation := by
  refine ⟨Nat.lt_of_lt_of_le owned.drawn evolves.nextPk_le,
    Nat.le_trans owned.past evolves.clock_le, ?_⟩
  intro row' found' same
  cases evolves with
  | still clock nextPk row =>
      rw [row] at found'
      exact owned.fenced row' found' same
  | inserted clock nextPk new key created bound =>
      rw [new] at found'
      cases found'
      rw [key] at same
      exact absurd owned.drawn (by rw [same]; exact Nat.lt_irrefl _)
  | @taken row request' now clock nextPk found new moved reason =>
      rw [new] at found'
      cases found'
      have before := (owned.fenced row found same).1
      have later : reservation.reservedAt < now := Nat.lt_of_le_of_lt before moved
      refine ⟨Nat.le_of_lt later, ?_⟩
      intro again
      have again : now = reservation.reservedAt := again
      omega
  | @completed row response expiresAt clock nextPk found new pending bound =>
      rw [new] at found'
      cases found'
      exact owned.fenced row found same
  | deleted clock nextPk gone =>
      rw [gone] at found'
      cases found'

theorem Aimed.evolve {request : Request} {now pk : Nat} (aimed : Aimed m request now pk)
    (ok : RowOk retention m) (evolves : Evolves retention m m') : Aimed m' request now pk := by
  refine ⟨Nat.lt_of_lt_of_le aimed.drawn evolves.nextPk_le,
    Nat.le_trans aimed.past evolves.clock_le, ?_⟩
  intro row' found' same
  cases evolves with
  | still clock nextPk row =>
      rw [row] at found'
      exact aimed.fenced row' found' same
  | inserted clock nextPk new key created bound =>
      rw [new] at found'
      cases found'
      rw [key] at same
      exact absurd aimed.drawn (by rw [same]; exact Nat.lt_irrefl _)
  | @taken row request' now' clock nextPk found new moved reason =>
      rw [new] at found'
      cases found'
      have bound := (ok row found).2.2
      rcases aimed.fenced row found same with ⟨mine, fresh⟩ | older
      · rcases reason with expired | ⟨pending, theirs⟩
        · right
          exact Nat.le_of_lt (Nat.lt_of_lt_of_le fresh expired)
        · left
          rcases IdempotencyKey.isFor_iff.mp mine with ⟨hash, endpoint⟩
          rcases IdempotencyKey.isFor_iff.mp theirs with ⟨hash', endpoint'⟩
          refine ⟨IdempotencyKey.isFor_iff.mpr ⟨hash'.symm.trans hash, endpoint'.symm.trans endpoint⟩, ?_⟩
          have bound := bound pending
          change now < now' + retention request'.endpoint
          rw [← endpoint']
          omega
      · right
        exact Nat.le_of_lt (Nat.lt_of_le_of_lt older moved)
  | @completed row response expiresAt clock nextPk found new pending later =>
      rw [new] at found'
      cases found'
      have bound := (ok row found).2.2 pending
      rcases aimed.fenced row found same with ⟨mine, fresh⟩ | older
      · left
        refine ⟨mine, ?_⟩
        change now < expiresAt
        omega
      · exact Or.inr older
  | deleted clock nextPk gone =>
      rw [gone] at found'
      cases found'

theorem Evolves.kept {request : Request} {stage : Stage} (evolves : Evolves retention m m')
    (ok : RowOk retention m) (kept : Kept retention m request stage) :
    Kept retention m' request stage := by
  have clock := evolves.clock_le
  have nextPk := evolves.nextPk_le
  cases stage with
  | stamping attempt now => exact Nat.le_trans kept clock
  | inserting attempt now stamp => exact ⟨kept.1, Nat.le_trans kept.2 clock⟩
  | looking attempt now => exact Nat.le_trans kept clock
  | taking attempt now pk candidate =>
      cases candidate with
      | expired => exact ⟨Nat.lt_of_lt_of_le kept.1 nextPk, Nat.le_trans kept.2 clock⟩
      | abandoned => exact Aimed.evolve kept ok evolves
  | handling reservation => exact Owned.evolve kept evolves
  | storing reservation response => exact Owned.evolve kept evolves
  | completing reservation response expiresAt => exact ⟨kept.1.evolve evolves, kept.2⟩
  | committing reservation response expiresAt => exact ⟨kept.1.evolve evolves, kept.2⟩
  | _ => trivial

end Evolution

/-! ## Every move evolves the row -/

section Moves

variable {retention : String -> Nat} {m m' : Machine}

/-- The row a thread is about to complete is for its request. -/
theorem Fenced.committing (fenced : Fenced retention m) (sane : Sane m) {i : Nat} {thread : Thread}
    {reservation : Reservation} {response : Response} {expiresAt : Nat} (here : m.At i thread)
    (stage : thread.stage = .committing reservation response expiresAt) :
    ∃ row, m.row = some row ∧ row.isPending = true ∧ row.isFor thread.request = true ∧
      row.createdAt + retention row.endpoint ≤ expiresAt := by
  have holds := sane.committing i thread here (by rw [stage]; rfl)
  rcases sane.held i holds with ⟨other, reservation', response', expiresAt', row, at_i, stage', found, mine⟩
  have same := Option.some.inj (at_i.symm.trans here)
  subst same
  rw [stage] at stage'
  cases stage'
  have kept := fenced.threads i _ here
  rw [stage] at kept
  rcases Bool.and_eq_true_iff.mp mine with ⟨key, pending⟩
  rcases of_decide_eq_true key with ⟨pk, created⟩
  have mine := (kept.1.fenced row found pk).2 created
  refine ⟨row, found, pending, mine, ?_⟩
  rw [(IdempotencyKey.isFor_iff.mp mine).2, created]
  exact kept.2

theorem Fenced.taking (fenced : Fenced retention m) {i : Nat} {thread : Thread}
    {attempt now : Nat} {candidate : Candidate} {row : IdempotencyKey} (here : m.At i thread)
    (stage : thread.stage = .taking attempt now row.pk candidate) (found : m.row = some row)
    (admits : candidate.admits now row = true) : row.createdAt < now ∧ now ≤ m.clock ∧
      (row.expiresAt ≤ now ∨ (row.isPending = true ∧ row.isFor thread.request = true)) := by
  have kept := fenced.threads i _ here
  rw [stage] at kept
  cases candidate with
  | expired =>
      have expired : row.expiresAt ≤ now := of_decide_eq_true admits
      exact ⟨Nat.lt_of_lt_of_le (fenced.row row found).2.1 expired, kept.2, Or.inl expired⟩
  | abandoned =>
      rcases Bool.and_eq_true_iff.mp admits with ⟨pending, old⟩
      have old : row.createdAt + pendingTimeout < now := of_decide_eq_true old
      refine ⟨Nat.lt_of_le_of_lt (Nat.le_add_right _ _) old, kept.past, ?_⟩
      rcases kept.fenced row found rfl with ⟨mine, _⟩ | newer
      · exact Or.inr ⟨pending, mine⟩
      · omega

theorem prompt_inserting (prompt : m.prompt retention = true) {i : Nat} {thread : Thread}
    {attempt now stamp : Nat} (here : m.At i thread)
    (stage : thread.stage = .inserting attempt now stamp) :
    stamp < now + retention thread.request.endpoint := by
  have passes := List.all_eq_true.mp prompt thread (List.mem_of_getElem? here)
  rw [stage] at passes
  exact of_decide_eq_true passes

theorem Machine.Moves.evolves (moves : m.Moves retention m') (fenced : Fenced retention m)
    (sane : Sane m) (prompt : m.prompt retention = true) : Evolves retention m m' := by
  have quiet : ∀ {m' : Machine}, m'.clock = m.clock -> m'.nextPk = m.nextPk -> m'.row = m.row ->
      Evolves retention m m' := fun clock nextPk row =>
    .still (Nat.le_of_eq clock.symm) (Nat.le_of_eq nextPk.symm) row
  cases moves with
  | still later => exact .still later (Nat.le_refl _) rfl
  | arrived request => exact quiet rfl rfl rfl
  | readNow here stage => exact quiet rfl rfl rfl
  | readStamp here stage => exact quiet rfl rfl rfl
  | refusedInsert here stage => exact .still (Nat.le_refl _) (Nat.le_succ _) rfl
  | inserted here stage empty =>
      have kept := fenced.threads _ _ here
      rw [stage] at kept
      exact .inserted rfl rfl rfl rfl (prompt_inserting prompt here stage)
        (Nat.add_le_add_right kept.1 _)
  | looked here stage => exact quiet rfl rfl rfl
  | taken here stage found free admits =>
      rcases fenced.taking here stage found admits with ⟨moved, _, reason⟩
      exact .taken rfl rfl found rfl moved reason
  | handled response here stage => exact quiet rfl rfl rfl
  | stored here stage => exact quiet rfl rfl rfl
  | held here stage found mine free => exact quiet rfl rfl rfl
  | @committed i thread reservation response expiresAt here stage =>
      rcases fenced.committing sane here stage with ⟨row, found, pending, _, bound⟩
      have new : m.row.map (·.completed response expiresAt) =
          some (row.completed response expiresAt) := by
        rw [found]
        rfl
      exact .completed rfl rfl found new pending bound
  | dropped here waits after => exact quiet rfl rfl rfl
  | ended here before after => exact quiet rfl rfl rfl
  | released here before after free => exact .deleted rfl rfl rfl
  | purged free => exact .deleted rfl rfl rfl

theorem kept_look (ok : RowOk retention m) {request : Request} {attempt now : Nat}
    (past : now ≤ m.clock) : Kept retention m request (look m.row request attempt now) := by
  unfold look
  split
  · split
    · trivial
    · trivial
  · rename_i existing found
    split
    · exact ⟨(ok existing found).1, past⟩
    · rename_i fresh
      split
      · trivial
      · rename_i mine
        split
        · trivial
        · split
          · trivial
          · refine ⟨(ok existing found).1, past, ?_⟩
            intro row found' _
            rw [found] at found'
            cases found'
            exact Or.inl ⟨Bool.not_eq_false _ ▸ mine, Nat.not_le.mp fresh⟩

/-- Requests that do not move know what they knew. -/
theorem Fenced.others (fenced : Fenced retention m) (positive : ∀ e, pendingTimeout < retention e)
    (evolves : Evolves retention m m') {i : Nat} {thread : Thread} {stage : Stage}
    (threads : m'.threads = m.threads.set i { thread with stage := stage })
    (next : Kept retention m' thread.request stage) : Fenced retention m' := by
  refine ⟨evolves.rowOk positive fenced.row, ?_⟩
  intro j other at_j
  unfold Machine.At at at_j
  rw [threads] at at_j
  rcases Machine.at_set at_j with ⟨_, same⟩ | ⟨_, at_j⟩
  · subst same
    exact next
  · exact evolves.kept fenced.row (fenced.threads j other at_j)

theorem Fenced.moves (fenced : Fenced retention m) (positive : ∀ e, pendingTimeout < retention e)
    (sane : Sane m) (prompt : m.prompt retention = true) (moves : m.Moves retention m') :
    Fenced retention m' := by
  have evolves := moves.evolves fenced sane prompt
  have known := fun {i thread} (here : m.At i thread) =>
    evolves.kept fenced.row (fenced.threads i thread here)
  cases moves with
  | still later =>
      exact ⟨evolves.rowOk positive fenced.row, fun i thread here => known here⟩
  | arrived request =>
      refine ⟨evolves.rowOk positive fenced.row, ?_⟩
      intro j other at_j
      rcases Machine.at_concat at_j with before | same
      · exact known before
      · subst same
        trivial
  | readNow here stage =>
      exact fenced.others positive evolves rfl (Nat.le_refl _)
  | readStamp here stage =>
      have kept := known here
      rw [stage] at kept
      exact fenced.others positive evolves rfl ⟨kept, Nat.le_refl _⟩
  | refusedInsert here stage =>
      have kept := known here
      rw [stage] at kept
      exact fenced.others positive evolves rfl (Nat.le_trans kept.1 kept.2)
  | inserted here stage empty =>
      have kept := known here
      rw [stage] at kept
      refine fenced.others positive evolves rfl ⟨Nat.lt_succ_self _, kept.2, ?_⟩
      intro row found _
      cases found
      exact ⟨Nat.le_refl _, fun _ => IdempotencyKey.isFor_iff.mpr ⟨rfl, rfl⟩⟩
  | @looked i thread attempt now here stage =>
      have kept := fenced.threads i thread here
      rw [stage] at kept
      exact fenced.others positive evolves rfl (evolves.kept fenced.row (kept_look fenced.row kept))
  | taken here stage found free admits =>
      rcases fenced.taking here stage found admits with ⟨_, past, _⟩
      refine fenced.others positive evolves rfl ⟨(fenced.row _ found).1, past, ?_⟩
      intro row found' _
      cases found'
      exact ⟨Nat.le_refl _, fun _ => IdempotencyKey.isFor_takenOver _ _ _ _⟩
  | handled response here stage =>
      have kept := known here
      rw [stage] at kept
      exact fenced.others positive evolves rfl kept
  | stored here stage =>
      have kept := known here
      rw [stage] at kept
      have kept : Owned _ _ _ := kept
      exact fenced.others positive evolves rfl ⟨kept, Nat.add_le_add_right kept.past _⟩
  | held here stage found mine free =>
      have kept := known here
      rw [stage] at kept
      exact fenced.others positive evolves rfl kept
  | committed here stage => exact fenced.others positive evolves rfl trivial
  | dropped here waits after => exact fenced.others positive evolves rfl (kept_of_isIdle after)
  | ended here before after => exact fenced.others positive evolves rfl (kept_of_isIdle after)
  | released here before after free =>
      exact fenced.others positive evolves rfl (kept_of_isIdle after)
  | purged free => exact ⟨evolves.rowOk positive fenced.row, fun i thread here => known here⟩

theorem Fenced.empty : Fenced retention .empty where
  row row found := by cases found
  threads i thread here := by cases here

end Moves

end Idempotency
end Shiftlush
