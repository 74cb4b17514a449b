import Shiftlush.Attachments.Storage

namespace Shiftlush
namespace Attachments

open Transitions (run everyStep)

/-!
# Bytes with one owner

The purge removes the bytes of deleted rows by their key, and asks nothing about
the other rows of that key.  A key confirmed again after its row was deleted has
two rows until the purge has cleared the first.
-/

variable {rows : Rows Stored} {id : Nat}

/-- At most one live attachment refers to a storage key. -/
def OneLive (rows : Rows Stored) : Prop :=
  ∀ r ∈ rows, ∀ r' ∈ rows, r.2.isDeleted = false -> r'.2.isDeleted = false ->
    r.2.storageKey = r'.2.storageKey -> r.1 = r'.1

instance (rows : Rows Stored) : Decidable (OneLive rows) :=
  inferInstanceAs (Decidable (∀ r ∈ rows, ∀ r' ∈ rows, _ -> _ -> _ -> _))

/-- The row's bytes are the object of the key. -/
def Stored.owns (row : Stored) (backend : StorageBackend) (storageKey : String) : Bool :=
  decide (row.storageBackend = backend ∧ row.storageKey = storageKey)

/-- A live attachment refers to the object. -/
def isReferred (rows : Rows Stored) (backend : StorageBackend) (storageKey : String) : Bool :=
  rows.any (fun r => !r.2.isDeleted && r.2.owns backend storageKey)

/-- The objects a call of the purge still has to remove. -/
def Task.ahead : Task -> List Entry
  | .purging ahead _ => ahead
  | .clearing _ ahead _ => ahead
  | _ => []

namespace State

variable (s : State)

/-- The row an event writes. -/
def writes : Event -> Option Stored
  | .advance i =>
      match s.tasks[i]? with
      | some (.confirming upload (.recording backend object)) => some (confirmed upload backend object)
      | some (.saving file) => some file
      | _ => none
  | _ => none

/-- The object a call of the purge removes. -/
def removes : Event -> Option (StorageBackend × String)
  | .advance i =>
      match s.tasks[i]? with
      | some (.purging (entry :: _) _) => some (entry.storageBackend, entry.storageKey)
      | _ => none
  | _ => none

/-- No live row has the key of a file, no row has its bytes, and no purge is about
to remove them. -/
def isFree (file : Stored) : Bool :=
  s.attachments.all (fun r => !(decide (r.2.storageKey = file.storageKey) && !r.2.isDeleted) &&
    !r.2.owns file.storageBackend file.storageKey) &&
    s.tasks.all (fun task => task.ahead.all (fun entry =>
      !decide (entry.storageBackend = file.storageBackend ∧ entry.storageKey = file.storageKey)))

/-- A row is written for bytes that are nobody's. -/
def writesFree (event : Event) : Bool :=
  match s.writes event with
  | none => true
  | some file => !file.sizeWithinLimit || s.isFree file

end State

/-! ## Rows -/

/-- The row is there, and deleted. -/
def IsGone (rows : Rows Stored) (id : Nat) : Prop :=
  (∃ r ∈ rows, r.1 = id) ∧ ∀ r ∈ rows, r.1 = id -> r.2.isDeleted = true

/-- No live row refers to the bytes a deleted row still names. -/
structure Tidy (rows : Rows Stored) : Prop where
  oneLive : OneLive rows
  apart : ∀ r ∈ rows, r.2.isDeleted = true -> r.2.storageKey ≠ "" ->
    isReferred rows r.2.storageBackend r.2.storageKey = false

theorem isReferred_iff {backend : StorageBackend} {storageKey : String} :
    isReferred rows backend storageKey = true ↔
      ∃ r ∈ rows, r.2.isDeleted = false ∧ r.2.storageBackend = backend ∧ r.2.storageKey = storageKey := by
  simp [isReferred, Stored.owns]

/-- What a table of deleted rows may become. -/
structure Kept (rows rows' : Rows Stored) : Prop where
  referred : ∀ backend storageKey, isReferred rows' backend storageKey = true ->
    isReferred rows backend storageKey = true
  gone : ∀ id, IsGone rows id -> IsGone rows' id

/-- The live rows of an updated table were live. -/
theorem live_of_update {f : Stored -> Stored} (gone : ∀ row, (id, row) ∈ rows -> (f row).isDeleted = true)
    {r : Nat × Stored} (mem : r ∈ rows.update id f) (live : r.2.isDeleted = false) : r ∈ rows ∧ r.1 ≠ id := by
  rcases Rows.mem_update.mp mem with ⟨before, other⟩ | ⟨row, before, rfl⟩
  · exact ⟨before, other⟩
  · rw [gone row before] at live
    cases live

theorem kept_update {f : Stored -> Stored} (gone : ∀ row, (id, row) ∈ rows -> (f row).isDeleted = true) :
    Kept rows (rows.update id f) where
  referred := by
    intro backend storageKey refers
    rcases isReferred_iff.mp refers with ⟨r, mem, live, own⟩
    exact isReferred_iff.mpr ⟨r, (live_of_update gone mem live).1, live, own⟩
  gone := by
    rintro key ⟨⟨r, mem, same⟩, all⟩
    constructor
    · by_cases here : r.1 = id
      · exact ⟨(id, f r.2), Rows.mem_update.mpr (Or.inr ⟨r.2, here ▸ mem, rfl⟩), here.symm.trans same⟩
      · exact ⟨r, Rows.mem_update.mpr (Or.inl ⟨mem, here⟩), same⟩
    · intro r' mem' same'
      rcases Rows.mem_update.mp mem' with ⟨before, _⟩ | ⟨row, before, rfl⟩
      · exact all r' before same'
      · exact gone row before

theorem OneLive.update {f : Stored -> Stored} (one : OneLive rows)
    (gone : ∀ row, (id, row) ∈ rows -> (f row).isDeleted = true) : OneLive (rows.update id f) := by
  intro r mem r' mem' live live' same
  exact one r (live_of_update gone mem live).1 r' (live_of_update gone mem' live').1 live live' same

/-- A row is deleted: no other live row has its key. -/
theorem Tidy.delete (tidy : Tidy rows) (now : Nat) :
    Tidy (rows.update id (fun row => { row with deletedAt := some now })) := by
  have gone : ∀ row : Stored, (id, row) ∈ rows ->
      Stored.isDeleted { row with deletedAt := some now } = true := fun _ _ => rfl
  refine ⟨tidy.oneLive.update gone, ?_⟩
  intro r mem deleted named
  by_contra refers
  rw [Bool.not_eq_false] at refers
  rcases isReferred_iff.mp refers with ⟨r', mem', live, backend, key⟩
  rcases live_of_update gone mem' live with ⟨before', other⟩
  rcases Rows.mem_update.mp mem with ⟨before, _⟩ | ⟨row, before, rfl⟩
  · have unreferred := tidy.apart r before deleted named
    rw [isReferred_iff.mpr ⟨r', before', live, backend, key⟩] at unreferred
    cases unreferred
  · cases then' : row.isDeleted with
    | false => exact other (tidy.oneLive r' before' (id, row) before live then' key)
    | true =>
        have unreferred := tidy.apart (id, row) before then' named
        rw [isReferred_iff.mpr ⟨r', before', live, backend, key⟩] at unreferred
        cases unreferred

/-- The key of a deleted row is cleared. -/
theorem Tidy.clearKey (tidy : Tidy rows) (gone : IsGone rows id) :
    Tidy (rows.update id (fun row => { row with storageKey := "" })) := by
  have gone' : ∀ row : Stored, (id, row) ∈ rows ->
      Stored.isDeleted { row with storageKey := "" } = true := fun row mem => gone.2 (id, row) mem rfl
  refine ⟨tidy.oneLive.update gone', ?_⟩
  intro r mem deleted named
  rcases Rows.mem_update.mp mem with ⟨before, _⟩ | ⟨row, before, rfl⟩
  · by_contra refers
    rw [Bool.not_eq_false] at refers
    have unreferred := tidy.apart r before deleted named
    rw [(kept_update gone').referred _ _ refers] at unreferred
    cases unreferred
  · exact absurd rfl named

/-- A row is written for bytes no other row names. -/
theorem Tidy.insert (tidy : Tidy rows) {file : Stored} (live : file.isDeleted = false)
    (other : ∀ r ∈ rows, r.2.isDeleted = false -> r.2.storageKey ≠ file.storageKey)
    (unowned : ∀ r ∈ rows, r.2.owns file.storageBackend file.storageKey = false) :
    Tidy (rows.insert id file) := by
  constructor
  · intro r mem r' mem' here here' same
    rcases List.mem_append.mp mem with old | new
    · rcases List.mem_append.mp mem' with old' | new'
      · exact tidy.oneLive r old r' old' here here' same
      · have last := List.mem_singleton.mp new'
        subst last
        exact absurd same (other r old here)
    · have last := List.mem_singleton.mp new
      subst last
      rcases List.mem_append.mp mem' with old' | new'
      · exact absurd same.symm (other r' old' here')
      · rw [List.mem_singleton.mp new']
  · intro r mem deleted named
    rcases List.mem_append.mp mem with old | new
    · by_contra refers
      rw [Bool.not_eq_false] at refers
      rcases isReferred_iff.mp refers with ⟨r', mem', live', backend, key⟩
      rcases List.mem_append.mp mem' with old' | new'
      · have unreferred := tidy.apart r old deleted named
        rw [isReferred_iff.mpr ⟨r', old', live', backend, key⟩] at unreferred
        cases unreferred
      · have last := List.mem_singleton.mp new'
        subst last
        have unowned' := of_decide_eq_false (unowned r old)
        exact unowned' ⟨backend.symm, key.symm⟩
    · have last := List.mem_singleton.mp new
      subst last
      rw [live] at deleted
      cases deleted

/-! ## Calls of the purge -/

/-- A row the purge has selected. -/
structure Entry.IsDue (rows : Rows Stored) (entry : Entry) : Prop where
  gone : IsGone rows entry.id
  unreferred : isReferred rows entry.storageBackend entry.storageKey = false

/-- What a call of the purge goes by is still so. -/
def Task.Safe (rows : Rows Stored) : Task -> Prop
  | .purging ahead _ => ∀ entry ∈ ahead, entry.IsDue rows
  | .clearing id ahead _ => IsGone rows id ∧ ∀ entry ∈ ahead, entry.IsDue rows
  | .saving file => file.isDeleted = false
  | _ => True

theorem Entry.IsDue.kept {rows' : Rows Stored} {entry : Entry} (due : entry.IsDue rows)
    (kept : Kept rows rows') : entry.IsDue rows' := by
  refine ⟨kept.gone _ due.gone, ?_⟩
  by_contra refers
  rw [Bool.not_eq_false] at refers
  have before := kept.referred _ _ refers
  rw [due.unreferred] at before
  cases before

theorem IsGone.insert {key : Nat} {file : Stored} (gone : IsGone rows key) (fresh : key < id) :
    IsGone (rows.insert id file) key := by
  rcases gone with ⟨⟨r, mem, same⟩, all⟩
  refine ⟨⟨r, List.mem_append_left _ mem, same⟩, ?_⟩
  intro r' mem' same'
  rcases List.mem_append.mp mem' with old | new
  · exact all r' old same'
  · have last := List.mem_singleton.mp new
    subst last
    dsimp only at same'
    omega

theorem Entry.IsDue.insert {entry : Entry} {file : Stored} (due : entry.IsDue rows) (below : rows.Below id)
    (other : ¬ (entry.storageBackend = file.storageBackend ∧ entry.storageKey = file.storageKey)) :
    entry.IsDue (rows.insert id file) := by
  constructor
  · rcases due.gone with ⟨⟨r, mem, same⟩, all⟩
    exact IsGone.insert ⟨⟨r, mem, same⟩, all⟩ (same ▸ below.of_mem mem)
  · by_contra refers
    rw [Bool.not_eq_false] at refers
    rcases isReferred_iff.mp refers with ⟨r, mem, live, backend, key⟩
    rcases List.mem_append.mp mem with old | new
    · have before := due.unreferred
      rw [isReferred_iff.mpr ⟨r, old, live, backend, key⟩] at before
      cases before
    · have last := List.mem_singleton.mp new
      subst last
      exact other ⟨backend.symm, key.symm⟩

namespace Task.Safe

variable {task : Task}

theorem kept {rows' : Rows Stored} (safe : task.Safe rows) (kept : Kept rows rows') : task.Safe rows' := by
  cases task with
  | purging ahead purged => exact fun entry mem => (safe entry mem).kept kept
  | clearing id ahead purged =>
      exact ⟨kept.gone id safe.1, fun entry mem => (safe.2 entry mem).kept kept⟩
  | saving file => exact safe
  | _ => trivial

theorem insert (safe : task.Safe rows) {file : Stored} (below : rows.Below id)
    (other : ∀ entry ∈ task.ahead,
      ¬ (entry.storageBackend = file.storageBackend ∧ entry.storageKey = file.storageKey)) :
    task.Safe (rows.insert id file) := by
  cases task with
  | purging ahead purged => exact fun entry mem => (safe entry mem).insert below (other entry mem)
  | clearing key ahead purged =>
      rcases safe with ⟨⟨⟨r, mem, same⟩, all⟩, due⟩
      exact ⟨IsGone.insert ⟨⟨r, mem, same⟩, all⟩ (same ▸ below.of_mem mem),
        fun entry mem => (due entry mem).insert below (other entry mem)⟩
  | saving file => exact safe
  | _ => trivial

end Task.Safe

/-! ## Every step -/

namespace State

variable {s : State}

structure Sound (s : State) : Prop where
  distinct : s.attachments.Distinct
  below : s.attachments.Below s.nextAttachment
  tidy : Tidy s.attachments
  tasks : ∀ task ∈ s.tasks, task.Safe s.attachments

theorem isFree_iff {file : Stored} : s.isFree file = true ↔
    (∀ r ∈ s.attachments, r.2.isDeleted = false -> r.2.storageKey ≠ file.storageKey) ∧
      (∀ r ∈ s.attachments, r.2.owns file.storageBackend file.storageKey = false) ∧
        ∀ task ∈ s.tasks, ∀ entry ∈ task.ahead,
          ¬ (entry.storageBackend = file.storageBackend ∧ entry.storageKey = file.storageKey) := by
  unfold isFree
  rw [Bool.and_eq_true, List.all_eq_true, List.all_eq_true]
  constructor
  · rintro ⟨rows, tasks⟩
    refine ⟨fun r mem live same => ?_, fun r mem => ?_, fun task mem entry ahead same => ?_⟩
    · have here := rows r mem
      simp [live, same] at here
    · have here := rows r mem
      rw [Bool.and_eq_true, Bool.not_eq_true', Bool.not_eq_true'] at here
      exact here.2
    · have here := List.all_eq_true.mp (tasks task mem) entry ahead
      rw [decide_eq_true same] at here
      cases here
  · rintro ⟨other, unowned, tasks⟩
    constructor
    · intro r mem
      rw [unowned r mem, Bool.not_false, Bool.and_true]
      cases live : r.2.isDeleted with
      | true => simp
      | false => simp [other r mem live]
    · intro task mem
      refine List.all_eq_true.mpr (fun entry ahead => ?_)
      rw [decide_eq_false (tasks task mem entry ahead), Bool.not_false]

namespace Sound

theorem start (sound : s.Sound) {task : Task} (safe : task.Safe s.attachments) : (s.start task).Sound where
  distinct := sound.distinct
  below := sound.below
  tidy := sound.tidy
  tasks := by
    intro task' mem
    rcases List.mem_append.mp mem with old | new
    · exact sound.tasks task' old
    · rw [List.mem_singleton.mp new]
      exact safe

theorem put (sound : s.Sound) (i : Nat) {task : Task} (safe : task.Safe s.attachments) :
    (s.put i task).Sound where
  distinct := sound.distinct
  below := sound.below
  tidy := sound.tidy
  tasks := by
    intro task' mem
    rcases List.mem_or_eq_of_mem_set mem with old | rfl
    · exact sound.tasks task' old
    · exact safe

/-- The store is not the tables. -/
theorem putObject (sound : s.Sound) (backend : StorageBackend) (storageKey : String) (object : StoredObject) :
    (s.putObject backend storageKey object).Sound := ⟨sound.distinct, sound.below, sound.tidy, sound.tasks⟩

theorem deleteObject (sound : s.Sound) (backend : StorageBackend) (storageKey : String) :
    (s.deleteObject backend storageKey).Sound := ⟨sound.distinct, sound.below, sound.tidy, sound.tasks⟩

/-- A row is rewritten that is deleted from then on. -/
theorem update (sound : s.Sound) {id : Nat} {f : Stored -> Stored}
    (gone : ∀ row, (id, row) ∈ s.attachments -> (f row).isDeleted = true)
    (tidy : Tidy (s.attachments.update id f)) :
    State.Sound { s with attachments := s.attachments.update id f } where
  distinct := sound.distinct.update id f
  below := sound.below.of_isSome (fun id' => Rows.isSome_get?_update s.attachments id id' f)
  tidy := tidy
  tasks := fun task mem => (sound.tasks task mem).kept (kept_update gone)

theorem delete (sound : s.Sound) (id : Nat) : (s.delete id).Sound :=
  sound.update (fun _ _ => rfl) (sound.tidy.delete s.now)

theorem kept_clearKey {id : Nat} (gone : IsGone s.attachments id) :
    Kept s.attachments (s.clearKey id).attachments :=
  kept_update (f := fun row => { row with storageKey := "" }) (fun row here => gone.2 (id, row) here rfl)

theorem clearKey (sound : s.Sound) {id : Nat} (gone : IsGone s.attachments id) : (s.clearKey id).Sound :=
  sound.update (fun row here => gone.2 (id, row) here rfl) (sound.tidy.clearKey gone)

theorem record (sound : s.Sound) (i : Nat) {file : Stored} (live : file.isDeleted = false)
    (free : file.sizeWithinLimit = true -> s.isFree file = true) : (s.record i file).Sound := by
  unfold State.record
  split
  · rename_i within
    rcases isFree_iff.mp (free within) with ⟨other, unowned, ahead⟩
    have absent := sound.below.absent (Nat.le_refl s.nextAttachment)
    refine ⟨sound.distinct.insert absent, sound.below.insert file, sound.tidy.insert live other unowned, ?_⟩
    intro task mem
    rcases List.mem_or_eq_of_mem_set mem with old | rfl
    · exact (sound.tasks task old).insert sound.below (ahead task old)
    · trivial
  · exact sound.put i trivial

theorem advanceConfirm (sound : s.Sound) (i : Nat) (upload : Upload) (stage : Stage)
    (free : ∀ backend object, stage = .recording backend object ->
      (confirmed upload backend object).sizeWithinLimit = true ->
        s.isFree (confirmed upload backend object) = true) : (s.advanceConfirm i upload stage).Sound := by
  cases stage with
  | checkingRow =>
      unfold State.advanceConfirm
      dsimp only
      split
      · exact sound.put i trivial
      · exact sound.put i trivial
  | looking =>
      unfold State.advanceConfirm
      dsimp only
      split
      · exact sound.put i trivial
      · exact sound.put i trivial
  | checkingTarget =>
      unfold State.advanceConfirm
      dsimp only
      split
      · exact sound.put i trivial
      · exact sound.put i trivial
  | measuring =>
      unfold State.advanceConfirm
      dsimp only
      split
      · exact sound.put i trivial
      · split
        · exact sound.put i trivial
        · split
          · exact sound.put i trivial
          · split
            · exact sound.put i trivial
            · exact sound.put i trivial
  | checkingVisit backend object =>
      unfold State.advanceConfirm
      dsimp only
      split
      · exact sound.put i trivial
      · exact sound.put i trivial
  | checkingSignatures backend object =>
      unfold State.advanceConfirm
      dsimp only
      split
      · exact sound.put i trivial
      · exact sound.put i trivial
  | recording backend object => exact sound.record i rfl (free backend object rfl)
  | discarding backend failure => exact (sound.deleteObject backend upload.storageKey).put i trivial

theorem advance (sound : s.Sound) (i : Nat) (free : s.writesFree (.advance i) = true) :
    (s.advance i).Sound := by
  unfold writesFree writes at free
  dsimp only at free
  unfold State.advance
  cases here : s.tasks[i]? with
  | none => exact sound
  | some task =>
      have safe : task.Safe s.attachments := sound.tasks task (List.mem_of_getElem? here)
      rw [here] at free
      cases task with
      | confirming upload stage =>
          refine sound.advanceConfirm i upload stage ?_
          rintro backend object rfl within
          dsimp only at free
          rw [within] at free
          exact free
      | saving file =>
          refine sound.record i safe ?_
          intro within
          dsimp only at free
          rw [within] at free
          exact free
      | destroying id => exact (sound.delete id).put i trivial
      | purging ahead purged =>
          cases ahead with
          | nil => exact sound.put i trivial
          | cons entry ahead =>
              refine (sound.deleteObject entry.storageBackend entry.storageKey).put i ?_
              exact ⟨(safe entry List.mem_cons_self).gone,
                fun entry' later => safe entry' (List.mem_cons_of_mem entry later)⟩
      | clearing id ahead purged =>
          refine (sound.clearKey safe.1).put i ?_
          exact fun entry mem => (safe.2 entry mem).kept (kept_clearKey safe.1)
      | finished reply => exact sound

theorem confirm (company uploadedBy : Nat) (storageKey originalFilename : String) :
    (confirm company uploadedBy storageKey originalFilename).Safe s.attachments := by
  unfold State.confirm
  split
  · trivial
  · trivial

theorem destroy (company id : Nat) : (s.destroy company id).Safe s.attachments := by
  unfold State.destroy
  split
  · trivial
  · split
    · trivial
    · split
      · trivial
      · trivial

theorem replace (id : Nat) : (s.replace id).Safe s.attachments := by
  unfold State.replace
  split
  · trivial
  · trivial

/-- What the purge selects no live row refers to. -/
theorem detached (sound : s.Sound) (olderThanDays : Option Int) :
    (Task.purging (s.detached olderThanDays) 0).Safe s.attachments := by
  intro entry mem
  rcases List.mem_map.mp mem with ⟨r, chosen, rfl⟩
  rcases List.mem_filter.mp chosen with ⟨here, due⟩
  unfold isDetached at due
  cases deleted : r.2.deletedAt with
  | none =>
      rw [deleted] at due
      cases due
  | some deletedAt =>
      have gone : r.2.isDeleted = true := by
        unfold Stored.isDeleted Attachment.isDeleted
        rw [deleted, Option.isSome_some]
      rw [deleted] at due
      have named : r.2.storageKey ≠ "" := by simpa using (Bool.and_eq_true_iff.mp due).2
      refine ⟨⟨⟨r, here, rfl⟩, ?_⟩, sound.tidy.apart r here gone named⟩
      intro r' here' same
      rw [Rows.unique sound.distinct here' here same]
      exact gone

theorem step (sound : s.Sound) {event : Event} (free : s.writesFree event = true) : (s.step event).Sound := by
  cases event with
  | tick seconds => exact ⟨sound.distinct, sound.below, sound.tidy, sound.tasks⟩
  | upload backend storageKey object => exact sound.putObject backend storageKey object
  | configure category backend => exact ⟨sound.distinct, sound.below, sound.tidy, sound.tasks⟩
  | place objectType id target => exact ⟨sound.distinct, sound.below, sound.tidy, sound.tasks⟩
  | confirm company uploadedBy storageKey originalFilename =>
      exact sound.start (confirm company uploadedBy storageKey originalFilename)
  | save file =>
      unfold State.step State.save
      dsimp only
      split
      · exact sound.start trivial
      · exact (sound.putObject _ _ _).start rfl
  | destroy company id => exact sound.start (destroy company id)
  | replace id => exact sound.start (replace id)
  | purge olderThanDays => exact sound.start (sound.detached olderThanDays)
  | advance i => exact sound.advance i free
  | crash i =>
      unfold State.step State.crash
      dsimp only
      split
      · exact sound
      · exact sound.put i trivial
  | rollBack i =>
      unfold State.step State.rollBack
      dsimp only
      split
      · rename_i file here
        exact (sound.deleteObject file.storageBackend file.storageKey).put i trivial
      · exact sound

/-- The purge never removes what a live row refers to. -/
theorem spares (sound : s.Sound) {event : Event} {backend : StorageBackend} {storageKey : String}
    (removed : s.removes event = some (backend, storageKey)) :
    isReferred s.attachments backend storageKey = false := by
  unfold removes at removed
  split at removed
  · split at removed
    · rename_i i entry ahead purged here
      have safe := sound.tasks _ (List.mem_of_getElem? here)
      have due : entry.IsDue s.attachments := safe entry List.mem_cons_self
      cases removed
      exact due.unreferred
    · cases removed
  · cases removed

end Sound

/-- In a run that writes rows only for bytes that are nobody's, a key has at most
one live row, and the purge never removes the bytes of one. -/
theorem files_outlive_rows (sound : s.Sound) {events : List Event}
    (free : everyStep step writesFree s events = true) :
    (∀ before, before <+: events -> OneLive (run step s before).attachments) ∧
      ∀ before event, before ++ [event] <+: events -> ∀ backend storageKey,
        (run step s before).removes event = some (backend, storageKey) ->
          isReferred (run step s before).attachments backend storageKey = false := by
  have reached : ∀ before, before <+: events -> (run step s before).Sound := by
    rintro before ⟨after, rfl⟩
    have first := (Transitions.everyStep_append.mp free).1
    exact Transitions.run_invariant_of_everyStep (J := Sound) (fun s event free sound => Sound.step sound free) first sound
  constructor
  · intro before earlier
    exact (reached before earlier).tidy.oneLive
  · intro before event earlier backend storageKey removed
    have here : before <+: events := (List.prefix_append before [event]).trans earlier
    exact (reached before here).spares removed

/-! ## A key confirmed again -/

/-- A lift, and no files. -/
def oneLift : State where
  attachments := []
  nextAttachment := 1
  objects := fun _ _ => none
  targets := fun objectType id =>
    if objectType = .elevator ∧ id = 1 then some ⟨1, false, false⟩ else none
  backendFor := fun _ => .r2
  now := 0
  tasks := []

theorem sound_oneLift : oneLift.Sound where
  distinct := by decide
  below := fun id here => by cases here
  tidy := ⟨by decide, fun r mem => by cases mem⟩
  tasks := fun task mem => by cases mem

def photoKey : String := uploadKey 1 ⟨.elevator, 1, .photo⟩ 1 ".jpg"

/-- An upload, with its confirmation. -/
def confirmedOnce : List Event :=
  [.upload .r2 photoKey ⟨1000, "image/jpeg"⟩, .confirm 1 7 photoKey "shaft.jpg", .advance 0, .advance 0,
   .advance 0, .advance 0]

/-- The file is deleted, confirmed again, and a month later purged. -/
def reconfirmed : List Event :=
  confirmedOnce ++ [.destroy 1 1, .advance 1, .confirm 1 7 photoKey "shaft.jpg", .advance 2, .advance 2,
    .advance 2, .advance 2, .tick (30 * 86400), .purge none]

/-- Two confirmations at once. -/
def confirmedTwice : List Event :=
  [.upload .r2 photoKey ⟨1000, "image/jpeg"⟩, .confirm 1 7 photoKey "shaft.jpg",
   .confirm 1 7 photoKey "shaft.jpg", .advance 0, .advance 0, .advance 0, .advance 1, .advance 1, .advance 1,
   .advance 0, .advance 1]

/-- The key is uploaded and confirmed again when the purge is done with it. -/
def purgedBetween : List Event :=
  confirmedOnce ++ [.destroy 1 1, .advance 1, .tick (30 * 86400), .purge none, .advance 2, .advance 2,
    .advance 2, .upload .r2 photoKey ⟨1000, "image/jpeg"⟩, .confirm 1 7 photoKey "shaft.jpg", .advance 3,
    .advance 3, .advance 3, .advance 3, .purge none, .advance 4]

theorem files_outlive_rows_purgedBetween :
    (∀ before, before <+: purgedBetween -> OneLive (run step oneLift before).attachments) ∧
      ∀ before event, before ++ [event] <+: purgedBetween -> ∀ backend storageKey,
        (run step oneLift before).removes event = some (backend, storageKey) ->
          isReferred (run step oneLift before).attachments backend storageKey = false :=
  files_outlive_rows sound_oneLift (by decide +kernel)

theorem files_not_outlive_rows :
    (¬ ∀ (s : State) (events : List Event), s.Sound -> OneLive (run step s events).attachments) ∧
      ¬ ∀ (s : State) (events : List Event) (event : Event) (backend : StorageBackend) (storageKey : String),
        s.Sound -> (run step s events).removes event = some (backend, storageKey) ->
          isReferred (run step s events).attachments backend storageKey = false := by
  constructor
  · intro all
    have twice := all oneLift confirmedTwice sound_oneLift
    revert twice
    decide +kernel
  · intro all
    have purged := all oneLift reconfirmed (.advance 3) .r2 photoKey sound_oneLift (by decide +kernel)
    revert purged
    decide +kernel

end State
end Attachments
end Shiftlush
