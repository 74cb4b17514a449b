import Mathlib.Data.List.Range
import Mathlib.Data.List.Perm.Basic
import Shiftlush.Inbox.Notifying
import Shiftlush.Transitions

namespace Shiftlush
namespace Inbox

open Notifications (createAll createAll_spec nodup_createAll told_createAll)
open Transitions (run run_invariant)

/-!
# Who is told what, and how often

The jobs that notify run daily over every company and may run twice.  A transaction in which a
call is refused, or which is rolled back, leaves nothing behind.  One that commits adds, for every
person asked for, the row its key does not have yet, and puts the e-mails of exactly these rows in
the queue.
-/

/-- Whether `notify` raises: the facts have a JSON form, and the context owns the rows. -/
def Call.fits (context : Option Nat) (call : Call) : Bool :=
  call.data.isSome && call.recipients.all (fun r =>
    r.firm.all (fun company => context.all (fun context => decide (context = company))))

/-- A row that a call asks for. -/
structure Call.Asks (call : Call) (n : Notification) : Prop where
  recipient : ∃ r ∈ call.recipients, r.id = n.recipient ∧ r.firm = some n.company
  kind : n.kind = call.kind
  subjectType : n.subjectType = call.subjectType
  subjectId : n.subjectId = call.subjectId
  data : call.data = some n.data
  dedupeKey : n.dedupeKey = call.dedupeKey
  readAt : n.readAt = none

structure Office.Sound (office : Office) : Prop where
  keys : (office.notifications.map Notification.key).Nodup
  ids : (office.notifications.map Notification.id).Nodup
  below : ∀ n ∈ office.notifications, n.id < office.next
  mails : (office.sent.map Prod.fst ++ office.queue).Nodup
  stored : ∀ id ∈ office.sent.map Prod.fst ++ office.queue, id ∈ office.notifications.map Notification.id

/-! ## One call -/

theorem asks_of_mem {next : Nat} {call : Call} {data : List (String × String)} (given : call.data = some data)
    {n : Notification} (mem : n ∈ asked next call data) : call.Asks n := by
  rcases List.mem_map.mp mem with ⟨⟨⟨recipient, company⟩, id⟩, listed, rfl⟩
  have chosen := List.mem_of_getElem? (List.mk_mem_zipIdx_iff_le_and_getElem?_sub.mp listed).2
  rcases List.mem_filterMap.mp chosen with ⟨r, member, result⟩
  rcases Option.map_eq_some_iff.mp result with ⟨company', firm, same⟩
  cases same
  exact ⟨⟨r, member, rfl, firm⟩, rfl, rfl, rfl, given, rfl, rfl⟩

/-- Everybody active with a company is asked for. -/
theorem mem_asked (next : Nat) {call : Call} (data : List (String × String)) {r : Recipient}
    (member : r ∈ call.recipients) {company : Nat} (firm : r.firm = some company) :
    ∃ n ∈ asked next call data, n.key = (r.id, call.dedupeKey) ∧ n.company = company := by
  have chosen : (r.id, company) ∈ call.recipients.filterMap (fun r => r.firm.map (fun company => (r.id, company))) :=
    List.mem_filterMap.mpr ⟨r, member, by rw [firm, Option.map_some]⟩
  rcases List.mem_iff_getElem?.mp chosen with ⟨index, here⟩
  have listed := (@List.mk_mem_zipIdx_iff_getElem? _ index (r.id, company) _).mpr here
  refine ⟨_, List.mem_map.mpr ⟨((r.id, company), next + index), ?_, rfl⟩, rfl, rfl⟩
  rw [List.mk_mem_zipIdx_iff_le_and_getElem?_sub]
  exact ⟨Nat.le_add_right _ _, by rw [Nat.add_sub_cancel_left]; exact here⟩

theorem asked_ids (next : Nat) (call : Call) (data : List (String × String)) :
    (asked next call data).map Notification.id = List.range' next (asked next call data).length := by
  unfold asked
  rw [List.map_map, List.length_map, List.length_zipIdx, ← List.zipIdx_map_snd]
  rfl

/-- Rows under the keys that come next. -/
theorem ids_append {rows new : List Notification} {next : Nat} {call : Call} {data : List (String × String)}
    (distinct : (rows.map Notification.id).Nodup) (below : ∀ n ∈ rows, n.id < next)
    (sub : new.Sublist (asked next call data)) : ((rows ++ new).map Notification.id).Nodup ∧
      ∀ n ∈ rows ++ new, n.id < next + (asked next call data).length := by
  have sub' := sub.map Notification.id
  rw [asked_ids] at sub'
  have bounds : ∀ n ∈ new, next ≤ n.id ∧ n.id < next + (asked next call data).length :=
    fun n mem => List.mem_range'_1.mp (sub'.subset (List.mem_map_of_mem mem))
  constructor
  · rw [List.map_append]
    refine distinct.append (sub'.nodup List.nodup_range') ?_
    intro id mem mem'
    rcases List.mem_map.mp mem with ⟨n, listed, rfl⟩
    rcases List.mem_map.mp mem' with ⟨n', listed', same⟩
    have earlier := below n listed
    have later := (bounds n' listed').1
    omega
  · intro n mem
    rcases List.mem_append.mp mem with earlier | later
    · have lower := below n earlier
      omega
    · exact (bounds n later).2

theorem fits_iff {context : Option Nat} {next : Nat} {call : Call} {data : List (String × String)}
    (given : call.data = some data) : call.fits context = true ↔
      (asked next call data).any (fun n => context.any (fun company => decide (company ≠ n.company))) = false := by
  simp only [Call.fits, given, Option.isSome_some, Bool.true_and, List.all_eq_true, List.any_eq_false]
  cases context with
  | none => simp
  | some company =>
      simp only [Option.all_some, Option.any_some, decide_eq_true_eq, not_not]
      constructor
      · intro owns n mem
        rcases (asks_of_mem given mem).recipient with ⟨r, member, _, firm⟩
        simpa [firm] using owns r member
      · intro owns r member
        cases firm : r.firm with
        | none => rfl
        | some company' =>
            rcases mem_asked next data member firm with ⟨n, mem, _, rfl⟩
            simpa using owns n mem

/-- What a transaction has written since it began, and what waits for its commit. -/
structure Work.Since (work : Work) (office : Office) (suppressed : Bool) (added : List Notification) : Prop where
  state : work.office = { office with notifications := office.notifications ++ added, next := work.office.next }
  hooks : work.hooks =
    if suppressed then [] else (added.filter (fun n => wantsEmail office.preferences n.kind n.recipient)).map (·.id)
  keys : ((office.notifications ++ added).map Notification.key).Nodup
  ids : ((office.notifications ++ added).map Notification.id).Nodup
  below : ∀ n ∈ office.notifications ++ added, n.id < work.office.next

theorem since_start {office : Office} (sound : office.Sound) (suppressed : Bool) :
    Work.Since ⟨office, []⟩ office suppressed [] := by
  refine ⟨?_, ?_, ?_, ?_, ?_⟩
  · rw [List.append_nil]
  · cases suppressed with
    | true => rfl
    | false => rfl
  · rw [List.append_nil]
    exact sound.keys
  · rw [List.append_nil]
    exact sound.ids
  · rw [List.append_nil]
    exact sound.below

theorem since_notify {work : Work} {office : Office} {context : Option Nat} {suppressed : Bool}
    {added : List Notification} (since : work.Since office suppressed added) {call : Call}
    (fits : call.fits context = true) : ∃ work' new, notify context suppressed work call = some work' ∧
      work'.Since office suppressed (added ++ new) ∧ (∀ n ∈ new, call.Asks n) ∧
      ∀ r ∈ call.recipients, r.firm.isSome = true ->
        (r.id, call.dedupeKey) ∈ work'.office.notifications.map Notification.key := by
  cases given : call.data with
  | none => simp [Call.fits, given] at fits
  | some data =>
      have owned := (@fits_iff context work.office.next call data given).mp fits
      let rows := asked work.office.next call data
      rcases @createAll_spec _ _ _ Notification.key work.office.notifications rows with ⟨new, result, sub, _⟩
      have before : work.office.notifications = office.notifications ++ added := by
        rw [since.state]
      have created : (createAll Notification.key work.office.notifications rows).drop work.office.notifications.length =
          new := by
        rw [result, List.drop_left]
      let work' : Work := {
        office := { work.office with
          notifications := work.office.notifications ++ new
          next := work.office.next + rows.length }
        hooks := work.hooks ++ (if suppressed then []
          else new.filter (fun n => wantsEmail work.office.preferences call.kind n.recipient)).map (·.id) }
      refine ⟨work', new, ?_, ⟨?_, ?_, ?_, ?_, ?_⟩, ?_, ?_⟩
      · simp only [notify, given]
        rw [if_neg (by rw [owned]; decide), created, result]
      · change ({ work.office with
          notifications := work.office.notifications ++ new
          next := work.office.next + rows.length } : Office) = _
        rw [before, List.append_assoc, since.state]
      · have kinds : new.filter (fun n => wantsEmail work.office.preferences call.kind n.recipient) =
            new.filter (fun n => wantsEmail office.preferences n.kind n.recipient) := by
          apply List.filter_congr
          intro n mem
          rw [(asks_of_mem given (sub.subset mem)).kind, since.state]
        change work.hooks ++ (if suppressed then []
          else new.filter (fun n => wantsEmail work.office.preferences call.kind n.recipient)).map (·.id) = _
        rw [kinds, since.hooks]
        cases suppressed with
        | true => rfl
        | false => simp only [Bool.false_eq_true, if_false, List.filter_append, List.map_append]
      · rw [← List.append_assoc, ← before, ← result]
        exact nodup_createAll (by rw [before]; exact since.keys) rows
      · rw [← List.append_assoc]
        exact (ids_append since.ids since.below sub).1
      · rw [← List.append_assoc]
        exact (ids_append since.ids since.below sub).2
      · exact fun n mem => asks_of_mem given (sub.subset mem)
      · intro r member active
        rcases Option.isSome_iff_exists.mp active with ⟨company, firm⟩
        rcases mem_asked work.office.next data member firm with ⟨n, mem, keyed, _⟩
        change _ ∈ (work.office.notifications ++ new).map Notification.key
        rw [← result, ← keyed]
        exact told_createAll work.office.notifications mem

theorem notify_refused {context : Option Nat} {suppressed : Bool} {work : Work} {call : Call}
    (misfit : call.fits context = false) : notify context suppressed work call = none := by
  unfold notify
  cases given : call.data with
  | none => rfl
  | some data =>
      dsimp only
      refine if_pos ?_
      by_contra owned
      rw [(@fits_iff context work.office.next call data given).mpr (by simpa using owned)] at misfit
      cases misfit

/-! ## A transaction -/

/-- By induction on the calls: what a transaction has added is what its calls asked for. -/
theorem since_calls {office : Office} {context : Option Nat} {suppressed : Bool} (calls : List Call) {work : Work}
    {added : List Notification} (since : work.Since office suppressed added)
    (fits : ∀ call ∈ calls, call.fits context = true) :
    ∃ work' new, calls.foldlM (notify context suppressed) work = some work' ∧
      work'.Since office suppressed (added ++ new) ∧ (∀ n ∈ new, ∃ call ∈ calls, call.Asks n) ∧
      ∀ call ∈ calls, ∀ r ∈ call.recipients, r.firm.isSome = true ->
        (r.id, call.dedupeKey) ∈ work'.office.notifications.map Notification.key := by
  induction calls generalizing work added with
  | nil =>
      refine ⟨work, [], rfl, ?_, fun _ mem => absurd mem List.not_mem_nil, fun _ mem => absurd mem List.not_mem_nil⟩
      rw [List.append_nil]
      exact since
  | cons call calls ih =>
      rcases since_notify since (fits call List.mem_cons_self) with ⟨first, new, result, since', asks, told⟩
      rcases ih since' (fun call mem => fits call (List.mem_cons_of_mem _ mem)) with
        ⟨work', more, result', since'', asks', told'⟩
      refine ⟨work', new ++ more, ?_, ?_, ?_, ?_⟩
      · rw [List.foldlM_cons, result]
        exact result'
      · rw [← List.append_assoc]
        exact since''
      · intro n mem
        rcases List.mem_append.mp mem with here | later
        · exact ⟨call, List.mem_cons_self, asks n here⟩
        · rcases asks' n later with ⟨other, listed, asks⟩
          exact ⟨other, List.mem_cons_of_mem _ listed, asks⟩
      · intro call' mem r member active
        rcases List.mem_cons.mp mem with rfl | later
        · have kept : first.office.notifications <+: work'.office.notifications := by
            rw [since'.state, since''.state]
            change office.notifications ++ (added ++ new) <+: office.notifications ++ (added ++ new ++ more)
            exact ⟨more, by simp only [List.append_assoc]⟩
          exact (kept.map Notification.key).subset (told r member active)
        · exact told' call' later r member active

theorem calls_refused {context : Option Nat} {suppressed : Bool} {calls : List Call} (work : Work) {call : Call}
    (mem : call ∈ calls) (misfit : call.fits context = false) :
    calls.foldlM (notify context suppressed) work = none := by
  induction calls generalizing work with
  | nil => cases mem
  | cons first calls ih =>
      rw [List.foldlM_cons]
      rcases List.mem_cons.mp mem with rfl | later
      · rw [notify_refused misfit]
        rfl
      · cases notify context suppressed work first with
        | none => rfl
        | some work' => exact ih work' later

/-- What a transaction that commits leaves behind. -/
structure Told (office after : Office) (suppressed : Bool) (calls : List Call) (lost : List Nat) : Prop where
  added : ∃ added, after.notifications = office.notifications ++ added ∧ (∀ n ∈ added, ∃ call ∈ calls, call.Asks n) ∧
    after.queue = office.queue ++ if suppressed then []
      else ((added.filter (fun n => wantsEmail office.preferences n.kind n.recipient)).map (·.id)).filter
        (fun id => !lost.contains id)
  told : ∀ call ∈ calls, ∀ r ∈ call.recipients, r.firm.isSome = true ->
    (r.id, call.dedupeKey) ∈ after.notifications.map Notification.key
  users : after.users = office.users
  preferences : after.preferences = office.preferences
  sent : after.sent = office.sent

theorem step_transaction {office : Office} (sound : office.Sound) {context : Option Nat} (suppressed : Bool)
    {calls : List Call} (lost : List Nat) (fits : ∀ call ∈ calls, call.fits context = true) :
    Told office (step office (.transaction context suppressed calls true lost)) suppressed calls lost ∧
      (step office (.transaction context suppressed calls true lost)).Sound := by
  rcases since_calls calls (since_start sound suppressed) fits with ⟨work, added, result, since, asks, told⟩
  rw [List.nil_append] at since
  have after : step office (.transaction context suppressed calls true lost) = Office.commit work lost := by
    simp only [step, result, if_true]
  have listed : (Office.commit work lost).notifications = office.notifications ++ added := by
    change work.office.notifications = _
    rw [since.state]
  have queued : (Office.commit work lost).queue =
      office.queue ++ work.hooks.filter (fun id => !lost.contains id) := by
    change work.office.queue ++ _ = _
    rw [since.state]
  have sent : (Office.commit work lost).sent = office.sent := by
    change work.office.sent = _
    rw [since.state]
  have hooks : work.hooks.Sublist (added.map Notification.id) := by
    rw [since.hooks]
    cases suppressed with
    | true => exact List.nil_sublist _
    | false => exact List.filter_sublist.map _
  rw [after]
  refine ⟨⟨⟨added, listed, asks, ?_⟩, told, ?_, ?_, sent⟩, ⟨?_, ?_, ?_, ?_, ?_⟩⟩
  · rw [queued, since.hooks]
    cases suppressed with
    | true => rfl
    | false => rfl
  · change work.office.users = _
    rw [since.state]
  · change work.office.preferences = _
    rw [since.state]
  · rw [listed]
    exact since.keys
  · rw [listed]
    exact since.ids
  · rw [listed]
    exact since.below
  · rw [sent, queued, ← List.append_assoc]
    have ids := since.ids
    rw [List.map_append] at ids
    refine sound.mails.append ?_ ?_
    · exact (List.filter_sublist.trans hooks).nodup (List.nodup_append.mp ids).2.1
    · intro id mem mem'
      exact (List.disjoint_of_nodup_append ids) (sound.stored id mem) ((List.filter_sublist.trans hooks).subset mem')
  · rw [sent, queued, listed, ← List.append_assoc, List.map_append]
    intro id mem
    rcases List.mem_append.mp mem with earlier | later
    · exact List.mem_append_left _ (sound.stored id earlier)
    · exact List.mem_append_right _ ((List.filter_sublist.trans hooks).subset later)

/-- Rolled back, or refused on the way: nobody has been told anything. -/
theorem step_undone {office : Office} {context : Option Nat} {suppressed commits : Bool} {calls : List Call}
    {lost : List Nat} (undone : commits = false ∨ ∃ call ∈ calls, call.fits context = false) :
    step office (.transaction context suppressed calls commits lost) = office := by
  simp only [step]
  rcases undone with rfl | ⟨call, mem, misfit⟩
  · cases calls.foldlM (notify context suppressed) ⟨office, []⟩ with
    | none => rfl
    | some work => rfl
  · rw [calls_refused ⟨office, []⟩ mem misfit]

/-! ## The other events -/

section Steps

variable {office : Office}

theorem sound_empty : Office.empty.Sound := by
  refine ⟨List.nodup_nil, List.nodup_nil, fun _ mem => absurd mem List.not_mem_nil, List.nodup_nil, ?_⟩
  exact fun _ mem => absurd mem List.not_mem_nil

/-- A change of rows that keeps whose they are and under which keys. -/
theorem sound_same (sound : office.Sound) {after : Office} (keys : after.notifications.map Notification.key =
    office.notifications.map Notification.key) (ids : after.notifications.map Notification.id =
      office.notifications.map Notification.id) (next : office.next ≤ after.next)
    (queue : after.queue = office.queue) (sent : after.sent = office.sent) : after.Sound := by
  refine ⟨by rw [keys]; exact sound.keys, by rw [ids]; exact sound.ids, ?_, ?_, ?_⟩
  · intro n mem
    have listed : n.id ∈ office.notifications.map Notification.id := by
      rw [← ids]
      exact List.mem_map_of_mem mem
    rcases List.mem_map.mp listed with ⟨n', mem', same⟩
    have lower := sound.below n' mem'
    omega
  · rw [queue, sent]
    exact sound.mails
  · rw [queue, sent, ids]
    exact sound.stored

theorem sound_marked (sound : office.Sound) (p : Notification -> Prop) [DecidablePred p] (now : Int) (stale : Bool) :
    Office.Sound { office with
      notifications := office.notifications.map (fun n => if p n then n.markRead now stale else n) } := by
  refine sound_same sound ?_ ?_ (Nat.le_refl _) rfl rfl
  · change (office.notifications.map _).map Notification.key = _
    rw [List.map_map]
    apply List.map_congr_left
    intro n _
    rw [Function.comp_apply]
    split
    · rfl
    · rfl
  · change (office.notifications.map _).map Notification.id = _
    rw [List.map_map]
    apply List.map_congr_left
    intro n _
    rw [Function.comp_apply]
    split
    · rfl
    · rfl

/-- A task that is run leaves the queue, and asks for one e-mail at most. -/
theorem sound_deliver (sound : office.Sound) (index : Nat) : (step office (.deliver index)).Sound := by
  simp only [step]
  cases queued : office.queue[index]? with
  | none => exact sound
  | some id =>
      rcases List.getElem?_eq_some_iff.mp queued with ⟨bound, here⟩
      have perm := List.getElem_cons_eraseIdx_perm bound
      rw [here] at perm
      have asleep : Office.Sound { office with queue := office.queue.eraseIdx index } := by
        have sub : (office.sent.map Prod.fst ++ office.queue.eraseIdx index).Sublist
            (office.sent.map Prod.fst ++ office.queue) := (List.eraseIdx_sublist _ _).append_left _
        exact ⟨sound.keys, sound.ids, sound.below, sub.nodup sound.mails,
          fun id mem => sound.stored id (sub.subset mem)⟩
      unfold Office.deliver
      dsimp only
      cases office.notifications.find? (fun n => decide (n.id = id)) with
      | none => exact asleep
      | some n =>
          dsimp only
          cases office.users.get? n.recipient with
          | none => exact asleep
          | some user =>
              dsimp only
              split
              · have mails : List.Perm ((office.sent ++ [(id, user.email)]).map Prod.fst ++ office.queue.eraseIdx index)
                    (office.sent.map Prod.fst ++ office.queue) := by
                  rw [List.map_append, List.map_singleton, List.append_assoc, List.singleton_append]
                  exact perm.append_left _
                exact ⟨sound.keys, sound.ids, sound.below, mails.nodup_iff.mpr sound.mails,
                  fun id mem => sound.stored id (mails.mem_iff.mp mem)⟩
              · exact asleep

theorem next_setPreferences (company user : Nat) (entries : List (Kind × Bool)) (table : Rows Preference × Nat) :
    table.2 ≤ (setPreferences company user entries table).2 := by
  unfold setPreferences
  induction Kind.all generalizing table with
  | nil => exact Nat.le_refl _
  | cons kind kinds ih =>
      have first : table.2 ≤ (setPreference company user entries table kind).2 := by
        unfold setPreference
        split
        · exact Nat.le_succ _
        · exact Nat.le_refl _
        · exact Nat.le_refl _
        · exact Nat.le_refl _
      exact first.trans (ih _)

theorem sound_step (office : Office) (event : Event) (sound : office.Sound) : (step office event).Sound := by
  cases event with
  | transaction context suppressed calls commits lost =>
      by_cases fits : commits = true ∧ ∀ call ∈ calls, call.fits context = true
      · rw [fits.1]
        exact (step_transaction sound suppressed lost fits.2).2
      · have undone : commits = false ∨ ∃ call ∈ calls, call.fits context = false := by
          by_contra neither
          push Not at neither
          exact fits ⟨by simpa using neither.1, fun call mem => by simpa using neither.2 call mem⟩
        rw [step_undone undone]
        exact sound
  | deliver index => exact sound_deliver sound index
  | join id company email =>
      simp only [step]
      split
      · exact sound
      · exact sound_same sound rfl rfl (Nat.le_refl _) rfl rfl
  | change id isActive isDeleted email => exact sound_same sound rfl rfl (Nat.le_refl _) rfl rfl
  | setPreferences user entries =>
      simp only [step]
      cases (office.users.get? user).bind User.company with
      | none => exact sound
      | some company =>
          dsimp only
          split
          · exact sound_same sound rfl rfl (next_setPreferences company user entries (office.preferences, office.next))
              rfl rfl
          · exact sound
  | read user id now stale => exact sound_marked sound (fun n => n.id = id ∧ n.recipient = user) now stale
  | readAll user now => exact sound_marked sound (fun n => n.recipient = user) now false

end Steps

/-! ## Runs -/

/-- However jobs are repeated and workers take their turns: nobody holds a key twice and no e-mail
is asked for twice.  A transaction that commits leaves everybody its calls name told, adds what
they ask for and nothing else, and queues the e-mails of the new rows whose people want them; one
that does not commit changes nothing. -/
theorem told_once (events : List Event) :
    let office := run step Office.empty events
    (office.notifications.map Notification.key).Nodup ∧ (office.sent.map Prod.fst ++ office.queue).Nodup ∧
      ∀ (context : Option Nat) (suppressed commits : Bool) (calls : List Call) (lost : List Nat),
        let after := step office (.transaction context suppressed calls commits lost)
        (commits = true -> (∀ call ∈ calls, call.fits context = true) -> Told office after suppressed calls lost) ∧
          ((commits = false ∨ ∃ call ∈ calls, call.fits context = false) -> after = office) := by
  intro office
  have sound : office.Sound := @run_invariant _ _ step Office.Sound sound_step _ events sound_empty
  refine ⟨sound.keys, sound.mails, ?_⟩
  intro context suppressed commits calls lost
  constructor
  · rintro rfl fits
    exact (step_transaction sound suppressed lost fits).1
  · exact step_undone

end Inbox
end Shiftlush
