import Shiftlush.Sessions.Moves

namespace Shiftlush
namespace Sessions

open Transitions

/-!
# Single-use tokens

`rotate_refresh_token` reads the token, and later revokes its row by key,
whatever has become of it since.  Two rotations that read the row before either
has written it both go through.  This is the only way: a chain has two live
tokens, or a token two successors, exactly in the runs where a rotation commits
an exchange of a token that is exchanged already.
-/

/-- The token a thread has answered a pair for. -/
def Thread.exchanged? (thread : Thread) : Option Nat :=
  match thread.stage with
  | .answered (.rotated token) => some token
  | _ => none

/-- The tokens exchanged so far, once for each exchange. -/
def exchanged (threads : List Thread) : List Nat := threads.filterMap Thread.exchanged?

/-- The answer carries a new token. -/
def Stage.isPair : Stage -> Bool
  | .answered (.signedIn _) => true
  | .answered (.rotated _) => true
  | _ => false

/-- Every token is exchanged at most once, and a chain has at most one live token. -/
structure Lawful (m : Machine) : Prop where
  once : (exchanged m.threads).Nodup
  single : ∀ row ∈ m.table.rows, ∀ row' ∈ m.table.rows, row.chainId = row'.chainId ->
    row.isLive = true -> row'.isLive = true -> row = row'

/-- A step commits no exchange of a token that another rotation has exchanged
since this one read it. -/
def unrepeated (m : Machine) : Event -> Bool
  | .act i =>
      match m.threads[i]? with
      | some ⟨_, .issuing row _⟩ => decide (row.id ∉ exchanged m.threads)
      | _ => true
  | _ => true

/-! ## The exchanges of a step -/

theorem filterMap_set {α β : Type} {f : α -> Option β} {l : List α} {i : Nat} {a b : α}
    (here : l[i]? = some a) (silent : f a = none) :
    ((l.set i b).filterMap f).Perm ((f b).toList ++ l.filterMap f) := by
  induction l generalizing i with
  | nil => cases here
  | cons head tail ih =>
      cases i with
      | zero =>
          cases here
          rw [List.set_cons_zero, List.filterMap_cons, List.filterMap_cons, silent]
          cases f b with
          | none => exact List.Perm.refl _
          | some value => exact List.Perm.refl _
      | succ i =>
          rw [List.set_cons_succ, List.filterMap_cons, List.filterMap_cons]
          cases f head with
          | none => exact ih here
          | some value => exact ((ih here).cons value).trans List.perm_middle.symm

theorem Stage.isPair_of_isQuiet {stage : Stage} (quiet : stage.isQuiet = true) :
    stage.isPair = false := by
  cases stage with
  | answered reply =>
      cases reply with
      | ok => rfl
      | signedIn owner => cases quiet
      | rotated token => cases quiet
  | _ => rfl

theorem exchanged?_of_not_isPair {request : Request} {stage : Stage} (plain : stage.isPair = false) :
    Thread.exchanged? ⟨request, stage⟩ = none := by
  cases stage with
  | answered reply =>
      cases reply with
      | rotated token => cases plain
      | _ => rfl
  | _ => rfl

/-- What a step does to the exchanges and the table: it commits an exchange, or
none. -/
inductive Exchange (m : Machine) (event : Event) (threads : List Thread) (table : Table) : Prop where
  | kept : (exchanged threads).Perm (exchanged m.threads) -> table = m.table ->
      Exchange m event threads table
  | opened {owner now} : (exchanged threads).Perm (exchanged m.threads) ->
      table = m.table.issue owner none now -> Exchange m event threads table
  | revoked {ids now} : (exchanged threads).Perm (exchanged m.threads) ->
      table = m.table.revoke ids now -> Exchange m event threads table
  | exchanged {row now later} : (exchanged threads).Perm (row.id :: exchanged m.threads) ->
      m.table.Knows row ->
      table = (m.table.revoke [row.id] now).issue row.owner (some row) later ->
      unrepeated m event = decide (row.id ∉ Sessions.exchanged m.threads) ->
      Exchange m event threads table

variable {m : Machine} {event : Event} {threads : List Thread} {table : Table}

theorem exchanged?_of_not_isAnswered {thread : Thread} (pending : thread.stage.isAnswered = false) :
    thread.exchanged? = none := by
  rcases thread with ⟨request, stage⟩
  cases stage with
  | answered reply => cases pending
  | _ => rfl

/-- A thread that answers no pair leaves the exchanges alone. -/
theorem exchanged_set {i : Nat} {thread : Thread} {stage : Stage} (here : m.threads[i]? = some thread)
    (pending : thread.stage.isAnswered = false)
    (plain : (Thread.mk thread.request stage).exchanged? = none) :
    (exchanged (m.threads.set i { thread with stage := stage })).Perm (exchanged m.threads) := by
  have moved := filterMap_set (b := { thread with stage := stage }) here
    (exchanged?_of_not_isAnswered pending)
  rw [plain] at moved
  exact moved

theorem exchange_of_effect (sane : Sane m.threads m.table) (effect : m.Effect event threads table) :
    Exchange m event threads table := by
  cases effect with
  | none event => exact .kept (List.Perm.refl _) rfl
  | arrived =>
      refine .kept ?_ rfl
      unfold exchanged
      rw [List.filterMap_append]
      exact (List.append_nil _) ▸ List.Perm.refl _
  | died here pending => exact .kept (exchanged_set here pending rfl) rfl
  | @moved i thread stage table here moves =>
      rcases thread with ⟨request, before⟩
      have same : ∀ {stage : Stage}, before.isAnswered = false -> stage.isPair = false ->
          (exchanged (m.threads.set i ⟨request, stage⟩)).Perm (exchanged m.threads) :=
        fun pending plain => exchanged_set here pending (exchanged?_of_not_isPair plain)
      cases moves with
      | verifies _ _ => exact .kept (same rfl rfl) rfl
      | opens => exact .opened (exchanged_set here rfl rfl) rfl
      | loads _ _ _ loads =>
          refine .kept (same rfl ?_) rfl
          cases stage with
          | answered reply => cases loads
          | _ => rfl
      | keeps before_row after_row =>
          refine .kept (same ?_ ?_) rfl
          · cases before with
            | answered reply => cases before_row
            | _ => rfl
          · cases stage with
            | answered reply => cases after_row
            | _ => rfl
      | @exchanges row now =>
          have perm : (Sessions.exchanged (m.threads.set i ⟨request, .answered (.rotated row.id)⟩)).Perm
              (row.id :: Sessions.exchanged m.threads) := filterMap_set here rfl
          refine .exchanged perm ?_ rfl ?_
          · exact (sane.known i _ here).loaded row rfl
          · simp only [unrepeated, here]
      | starts => exact .kept (same rfl rfl) rfl
      | takes _ => exact .kept (same rfl rfl) rfl
      | skips _ _ => exact .kept (same rfl rfl) rfl
      | commits _ =>
          exact .revoked (same rfl (Stage.isPair_of_isQuiet (Machine.isQuiet_conclude _ _))) rfl
      | settles pending quiet => exact .kept (same pending (Stage.isPair_of_isQuiet quiet)) rfl

/-! ## Tokens that are spent -/

/-- An exchanged token is revoked, and its key has been drawn. -/
structure Spent (tokens : List Nat) (t : Table) : Prop where
  dead : ∀ row ∈ t.rows, row.id ∈ tokens -> row.isLive = false
  drawn : ∀ token ∈ tokens, token < t.nextId

/-- A chain has one token at most that is not exchanged. -/
def Single (tokens : List Nat) (t : Table) : Prop :=
  ∀ row ∈ t.rows, ∀ row' ∈ t.rows, row.chainId = row'.chainId -> row.id ∉ tokens ->
    row'.id ∉ tokens -> row = row'

theorem Spent.revoke {tokens : List Nat} {t : Table} (spent : Spent tokens t) (ids : List Nat)
    (now : Nat) : Spent tokens (t.revoke ids now) where
  dead row mem used := by
    rcases Table.of_mem_revoke mem with ⟨r, old, id, _, _, live⟩
    by_contra alive
    have alive : row.isLive = true := by simpa using alive
    rcases live alive with ⟨rfl, _⟩
    rw [spent.dead r old used] at alive
    cases alive
  drawn := spent.drawn

theorem Spent.issue {tokens : List Nat} {t : Table} (spent : Spent tokens t) (owner : Principal)
    (continues : Option RefreshSession) (now : Nat) : Spent tokens (t.issue owner continues now) where
  dead row mem used := by
    rcases Table.mem_issue.mp mem with old | rfl
    · exact spent.dead row old used
    · exact absurd (spent.drawn _ used) (Nat.lt_irrefl _)
  drawn token used := Nat.lt_succ_of_lt (spent.drawn token used)

theorem Spent.cons {tokens : List Nat} {t : Table} (spent : Spent tokens t) {row : RefreshSession}
    (known : t.Knows row) (sound : t.Sound) (now : Nat) :
    Spent (row.id :: tokens) (t.revoke [row.id] now) where
  dead r mem used := by
    rcases List.mem_cons.mp used with same | used
    · rcases Table.of_mem_revoke mem with ⟨r', _, id, _, _, live⟩
      by_contra alive
      have alive : r.isLive = true := by simpa using alive
      rcases live alive with ⟨rfl, missed⟩
      exact missed (List.mem_singleton.mpr same)
    · exact (spent.revoke [row.id] now).dead r mem used
  drawn token used := by
    rcases List.mem_cons.mp used with rfl | used
    · rcases known with ⟨r, mem, id, _⟩
      rw [← id]
      exact sound.below r mem
    · exact spent.drawn token used

theorem Single.revoke {tokens : List Nat} {t : Table} (single : Single tokens t) (ids : List Nat)
    (now : Nat) : Single tokens (t.revoke ids now) := by
  intro row mem row' mem' chain fresh fresh'
  rcases Table.mem_revoke.mp mem with ⟨r, old, rfl⟩
  rcases Table.mem_revoke.mp mem' with ⟨r', old', rfl⟩
  have key : ∀ s : RefreshSession, (if s.id ∈ ids then s.revoked now else s).id = s.id ∧
      (if s.id ∈ ids then s.revoked now else s).chainId = s.chainId := by
    intro s
    split
    · exact ⟨rfl, rfl⟩
    · exact ⟨rfl, rfl⟩
  rw [(key r).2, (key r').2] at chain
  rw [(key r).1] at fresh
  rw [(key r').1] at fresh'
  rw [single r old r' old' chain fresh fresh']

/-- A token that starts a chain is alone in it. -/
theorem Single.open {tokens : List Nat} {t : Table} (single : Single tokens t) (sound : t.Sound)
    (owner : Principal) (now : Nat) : Single tokens (t.issue owner none now) := by
  intro row mem row' mem' chain fresh fresh'
  rcases Table.mem_issue.mp mem with old | rfl
  · rcases Table.mem_issue.mp mem' with old' | rfl
    · exact single row old row' old' chain fresh fresh'
    · exact absurd (chain ▸ sound.named row old) (Nat.lt_irrefl _)
  · rcases Table.mem_issue.mp mem' with old' | rfl
    · exact absurd (chain.symm ▸ sound.named row' old') (Nat.lt_irrefl _)
    · rfl

/-- The successor takes the place of a token that was not exchanged. -/
theorem Single.exchange {tokens : List Nat} {t : Table} (single : Single tokens t)
    {row : RefreshSession} (known : t.Knows row) (unspent : row.id ∉ tokens) (now later : Nat) :
    Single (row.id :: tokens) ((t.revoke [row.id] now).issue row.owner (some row) later) := by
  have revoked := single.revoke [row.id] now
  -- No other token of the chain was left.
  have alone : ∀ r ∈ (t.revoke [row.id] now).rows, r.chainId = row.chainId -> r.id ∈ row.id :: tokens := by
    intro r mem chain
    by_contra fresh
    rcases known.revoke [row.id] now with ⟨k, stored, id, same, _⟩
    have other : r = k := by
      refine revoked r mem k stored (chain.trans same.symm) ?_ ?_
      · exact fun used => fresh (List.mem_cons_of_mem _ used)
      · rw [id]
        exact unspent
    apply fresh
    rw [other, id]
    exact List.mem_cons_self
  intro r mem r' mem' chain fresh fresh'
  rcases Table.mem_issue.mp mem with old | rfl
  · rcases Table.mem_issue.mp mem' with old' | rfl
    · exact revoked r old r' old' chain (fun used => fresh (List.mem_cons_of_mem _ used))
        (fun used => fresh' (List.mem_cons_of_mem _ used))
    · exact absurd (alone r old chain) fresh
  · rcases Table.mem_issue.mp mem' with old' | rfl
    · exact absurd (alone r' old' chain.symm) fresh'
    · rfl

/-! ## Runs -/

/-- What every run keeps. -/
structure Kept (m : Machine) : Prop where
  sane : Sane m.threads m.table
  spent : Spent (exchanged m.threads) m.table

theorem Spent.perm {tokens tokens' : List Nat} {t : Table} (spent : Spent tokens t)
    (perm : tokens'.Perm tokens) : Spent tokens' t :=
  ⟨fun row mem used => spent.dead row mem (perm.mem_iff.mp used),
    fun token used => spent.drawn token (perm.mem_iff.mp used)⟩

theorem Single.perm {tokens tokens' : List Nat} {t : Table} (single : Single tokens t)
    (perm : tokens'.Perm tokens) : Single tokens' t :=
  fun row mem row' mem' chain fresh fresh' => single row mem row' mem' chain
    (fun used => fresh (perm.mem_iff.mpr used)) (fun used => fresh' (perm.mem_iff.mpr used))

theorem Kept.step {m : Machine} (kept : Kept m) (event : Event) : Kept (m.step event) := by
  refine ⟨kept.sane.step event, ?_⟩
  cases exchange_of_effect kept.sane (m.step_effect event) with
  | kept perm table =>
      rw [table]
      exact kept.spent.perm perm
  | opened perm table =>
      rw [table]
      exact (kept.spent.perm perm).issue _ _ _
  | revoked perm table =>
      rw [table]
      exact (kept.spent.perm perm).revoke _ _
  | exchanged perm known table _ =>
      rw [table]
      exact ((kept.spent.cons known kept.sane.table _).perm perm).issue _ _ _

/-- What a run keeps while no exchange is repeated. -/
structure Ordered (m : Machine) : Prop where
  kept : Kept m
  once : (exchanged m.threads).Nodup
  single : Single (exchanged m.threads) m.table

theorem Ordered.step {m : Machine} {event : Event} (allowed : unrepeated m event = true)
    (ordered : Ordered m) : Ordered (m.step event) := by
  have kept := ordered.kept
  cases exchange_of_effect kept.sane (m.step_effect event) with
  | kept perm table =>
      refine ⟨kept.step event, perm.nodup_iff.mpr ordered.once, ?_⟩
      rw [table]
      exact ordered.single.perm perm
  | opened perm table =>
      refine ⟨kept.step event, perm.nodup_iff.mpr ordered.once, ?_⟩
      rw [table]
      exact (ordered.single.perm perm).open kept.sane.table _ _
  | revoked perm table =>
      refine ⟨kept.step event, perm.nodup_iff.mpr ordered.once, ?_⟩
      rw [table]
      exact (ordered.single.perm perm).revoke _ _
  | exchanged perm known table same =>
      rw [same] at allowed
      have unspent := of_decide_eq_true allowed
      refine ⟨kept.step event, perm.nodup_iff.mpr (List.nodup_cons.mpr ⟨unspent, ordered.once⟩), ?_⟩
      rw [table]
      exact (ordered.single.exchange known unspent _ _).perm perm

theorem Ordered.lawful {m : Machine} (ordered : Ordered m) : Lawful m where
  once := ordered.once
  single row mem row' mem' chain live live' := by
    have fresh : ∀ r ∈ m.table.rows, r.isLive = true -> r.id ∉ exchanged m.threads := by
      intro r mem live used
      rw [ordered.kept.spent.dead r mem used] at live
      cases live
    exact ordered.single row mem row' mem' chain (fresh row mem live) (fresh row' mem' live')

theorem kept_init (accounts : List Account) (resets : List OneTimeToken) :
    Kept (Machine.init accounts resets) where
  sane := .init accounts resets
  spent := ⟨fun _ mem => (nomatch mem), fun _ mem => (nomatch mem)⟩

theorem ordered_init (accounts : List Account) (resets : List OneTimeToken) :
    Ordered (Machine.init accounts resets) where
  kept := kept_init accounts resets
  once := List.nodup_nil
  single := fun _ mem => (nomatch mem)

/-- A step that repeats an exchange leaves the law. -/
theorem unrepeated_of_lawful {m : Machine} {event : Event} (lawful : Lawful (m.step event)) :
    unrepeated m event = true := by
  cases event with
  | act i =>
      cases here : m.threads[i]? with
      | none => simp only [unrepeated, here]
      | some thread =>
          rcases thread with ⟨request, stage⟩
          cases stage with
          | issuing row now =>
              simp only [unrepeated, here]
              have once := lawful.once
              rw [Machine.step_act m here] at once
              have perm : (exchanged (m.act i ⟨request, .issuing row now⟩).threads).Perm
                  (row.id :: exchanged m.threads) := filterMap_set here rfl
              exact decide_eq_true (List.nodup_cons.mp (perm.nodup_iff.mp once)).1
          | _ => simp only [unrepeated, here]
  | _ => rfl

/-! ## A token that is presented again -/

/-- A rotation that has found its token revoked, or has not begun. -/
def Stage.isShut : Stage -> Bool
  | .updating _ => true
  | stage => stage.isQuiet

theorem Stage.isShut_of_isQuiet {stage : Stage} (quiet : stage.isQuiet = true) :
    stage.isShut = true := by
  cases stage with
  | updating u => rfl
  | _ => exact quiet

theorem Stage.isPair_of_isShut {stage : Stage} (shut : stage.isShut = true) :
    stage.isPair = false := by
  cases stage with
  | updating u => rfl
  | _ => exact Stage.isPair_of_isQuiet shut

structure Barred (m : Machine) (i : Nat) (app : App) (token : Nat) : Prop where
  shut : ∃ stage, m.threads[i]? = some ⟨.rotate app token, stage⟩ ∧ stage.isShut = true
  spent : Spent [token] m.table

theorem Machine.Moves.shut {m : Machine} {app : App} {token : Nat} {stage stage' : Stage} {table : Table}
    (moves : m.Moves (.rotate app token) stage stage' table) (shut : stage.isShut = true)
    (spent : Spent [token] m.table) : stage'.isShut = true := by
  cases moves with
  | verifies request _ => cases request
  | opens => cases shut
  | loads request mem live _ =>
      cases request
      have dead := spent.dead _ mem (List.mem_singleton.mpr rfl)
      rw [dead] at live
      cases live
  | keeps before _ =>
      cases stage with
      | loaded row => cases shut
      | rotating row => cases shut
      | issuing row now => cases shut
      | _ => cases before
  | exchanges => cases shut
  | starts => rfl
  | takes _ => rfl
  | skips _ _ => rfl
  | commits _ => rfl
  | settles _ quiet => exact Stage.isShut_of_isQuiet quiet

theorem Barred.step {m : Machine} {i : Nat} {app : App} {token : Nat} (barred : Barred m i app token)
    (sane : Sane m.threads m.table) (event : Event) : Barred (m.step event) i app token := by
  rcases barred with ⟨⟨stage, here, shut⟩, spent⟩
  have effect := m.step_effect event
  constructor
  · generalize (m.step event).threads = threads at effect ⊢
    generalize (m.step event).table = table at effect
    have within : i < m.threads.length := (List.getElem?_eq_some_iff.mp here).1
    cases effect with
    | none event => exact ⟨stage, here, shut⟩
    | arrived =>
        refine ⟨stage, ?_, shut⟩
        rw [List.getElem?_append_left within]
        exact here
    | @died j thread at_j _ =>
        by_cases same : j = i
        · subst same
          cases at_j.symm.trans here
          exact ⟨.lost, List.getElem?_set_self within, rfl⟩
        · rw [List.getElem?_set_ne same]
          exact ⟨stage, here, shut⟩
    | @moved j thread stage' table at_j moves =>
        by_cases same : j = i
        · subst same
          cases at_j.symm.trans here
          exact ⟨stage', List.getElem?_set_self within, moves.shut shut spent⟩
        · rw [List.getElem?_set_ne same]
          exact ⟨stage, here, shut⟩
  · cases exchange_of_effect sane effect with
    | kept _ table =>
        rw [table]
        exact spent
    | opened _ table =>
        rw [table]
        exact spent.issue _ _ _
    | revoked _ table =>
        rw [table]
        exact spent.revoke _ _
    | exchanged _ _ table _ =>
        rw [table]
        exact (spent.revoke _ _).issue _ _ _

/-! ## The law, and how it is broken -/

/-- Sessions are single-use in every state of a run just when no step repeats an
exchange; and a token that is exchanged when it is presented is never answered
with a pair. -/
theorem rotation_law (accounts : List Account) (resets : List OneTimeToken) (events : List Event) :
    ((∀ before, before <+: events -> Lawful (run Machine.step (.init accounts resets) before)) ↔
      everyStep Machine.step unrepeated (.init accounts resets) events = true) ∧
    ∀ before after (i : Nat) (app : App) (token : Nat), events = before ++ after ->
      (run Machine.step (.init accounts resets) before).threads[i]? =
        some ⟨.rotate app token, .begun⟩ ->
      token ∈ exchanged (run Machine.step (.init accounts resets) before).threads ->
      ∀ thread : Thread, (run Machine.step (.init accounts resets) events).threads[i]? = some thread ->
        thread.stage.isPair = false := by
  refine ⟨⟨?_, ?_⟩, ?_⟩
  · intro lawful
    exact everyStep_of_law (J := Kept) (fun m event _ kept => kept.step event)
      (fun m event _ lawful => unrepeated_of_lawful lawful) (kept_init accounts resets) lawful
  · rintro passes before ⟨after, rfl⟩
    have ordered : Ordered (run Machine.step (.init accounts resets) before) :=
      run_invariant_of_everyStep (fun m event allowed ordered => ordered.step allowed)
        (everyStep_append.mp passes).1 (ordered_init accounts resets)
    exact ordered.lawful
  · intro before after i app token split begun used thread there
    subst split
    have kept : Kept (run Machine.step (.init accounts resets) before) :=
      run_invariant (fun m event kept => kept.step event) before (kept_init accounts resets)
    have barred : Barred (run Machine.step (.init accounts resets) before) i app token := by
      refine ⟨⟨.begun, begun, rfl⟩, ?_, ?_⟩
      · intro row mem same
        rw [List.mem_singleton] at same
        exact kept.spent.dead row mem (same ▸ used)
      · intro token' same
        rw [List.mem_singleton] at same
        exact kept.spent.drawn token' (same ▸ used)
    have after_barred : Kept (run Machine.step (.init accounts resets) (before ++ after)) ∧
        Barred (run Machine.step (.init accounts resets) (before ++ after)) i app token := by
      rw [run_append]
      exact run_invariant (J := fun m => Kept m ∧ Barred m i app token)
        (fun m event both => ⟨both.1.step event, both.2.step both.1.sane event⟩) after ⟨kept, barred⟩
    rcases after_barred.2.shut with ⟨stage, here, shut⟩
    cases there.symm.trans here
    exact Stage.isPair_of_isShut shut

/-- Somebody signs in, and two rotations of the token read it before either
writes. -/
def doubleRotation : List Event :=
  [.arrive (.signIn .staff "usta@example.com" "parola"), .act 0, .act 0,
    .arrive (.rotate .staff 0), .arrive (.rotate .staff 0), .act 1, .act 2, .act 1, .act 2,
    .act 1, .act 1, .act 2, .act 2]

theorem token_exchanged_twice : ¬ ∀ accounts resets events,
    Lawful (run Machine.step (.init accounts resets) events) := by
  intro law
  have once := (law [someone] [] doubleRotation).once
  have twice : exchanged (run Machine.step (.init [someone] []) doubleRotation).threads = [0, 0] := by
    decide +kernel
  rw [twice] at once
  exact absurd once (by decide)

end Sessions
end Shiftlush
