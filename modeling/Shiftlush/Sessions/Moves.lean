import Shiftlush.Sessions.Services

namespace Shiftlush
namespace Sessions

/-!
# What a statement can do

`Moves` lists what a statement does to the request that sends it and to the
session table.  A row is only ever added or revoked, so what a request has read
of it stays true but for `revoked_at`.
-/

namespace Stage

/-- No token is being exchanged, no update is under way, and no pair has been
answered. -/
def isQuiet : Stage -> Bool
  | .begun => true
  | .superseded _ => true
  | .consuming _ => true
  | .counting _ => true
  | .deactivating _ => true
  | .revoking _ _ => true
  | .answered .ok => true
  | .refused _ => true
  | .lost => true
  | _ => false

def isAnswered : Stage -> Bool
  | .answered _ => true
  | _ => false

theorem row?_of_isQuiet {stage : Stage} (quiet : stage.isQuiet = true) : stage.row? = none := by
  cases stage with
  | loaded row => cases quiet
  | rotating row => cases quiet
  | issuing row now => cases quiet
  | _ => rfl

end Stage

namespace Machine

inductive Moves (m : Machine) (request : Request) : Stage -> Stage -> Table -> Prop where
  | verifies {app email password owner} : request = .signIn app email password ->
      m.authenticate app email password = .ok owner -> Moves m request .begun (.verified owner) m.table
  | opens {owner} : Moves m request (.verified owner) (.answered (.signedIn owner))
      (m.table.issue owner none m.clock)
  | loads {app row stage} : request = .rotate app row.id -> row ∈ m.table.rows -> row.isLive = true ->
      stage.row? = some row -> Moves m request .begun stage m.table
  | keeps {stage stage' row} : stage.row? = some row -> stage'.row? = some row ->
      Moves m request stage stage' m.table
  | exchanges {row now} : Moves m request (.issuing row now) (.answered (.rotated row.id))
      ((m.table.revoke [row.id] now).issue row.owner (some row) m.clock)
  | starts {target pending} : Moves m request (.revoking target pending)
      (.updating (.start target pending m.clock m.table.rows)) m.table
  | takes {u id todo} : u.todo = id :: todo -> Moves m request (.updating u)
      (.updating { u with todo := todo, done := id :: u.done }) m.table
  | skips {u id todo} : u.todo = id :: todo ->
      (∀ row ∈ m.table.rows, row.id = id -> row.isLive = false) ->
      Moves m request (.updating u) (.updating { u with todo := todo }) m.table
  | commits {u} : u.todo = [] ->
      Moves m request (.updating u) (request.conclude u) (m.table.revoke u.done u.now)
  | settles {stage stage'} : stage.isAnswered = false -> stage'.isQuiet = true ->
      Moves m request stage stage' m.table

variable {m : Machine} {i : Nat} {thread : Thread}

theorem isQuiet_conclude (request : Request) (u : Update) : (request.conclude u).isQuiet = true := by
  cases request with
  | revokeSession user chainId =>
      unfold Request.conclude
      dsimp only
      split
      · rfl
      · rfl
  | _ => rfl

theorem find_spec {t : Table} {app : App} {token : Nat} {row : RefreshSession}
    (found : t.find app token = some row) : row ∈ t.rows ∧ row.id = token := by
  have holds := List.find?_some found
  exact ⟨List.mem_of_find?_eq_some found, (of_decide_eq_true holds).2⟩

theorem moves_present {app : App} {token : Nat} :
    m.Moves (.rotate app token) .begun (m.present app token) m.table := by
  unfold present
  cases found : m.table.find app token with
  | none => exact .settles rfl rfl
  | some row =>
      rcases find_spec found with ⟨mem, id⟩
      dsimp only
      split
      · exact .settles rfl rfl
      · rename_i live
        have live : row.isLive = true := by simpa using live
        have request : Request.rotate app token = .rotate app row.id := by rw [id]
        split
        · exact .settles rfl rfl
        · cases app with
          | staff => exact .loads request mem live rfl
          | portal =>
              dsimp only
              split
              · exact .loads request mem live rfl
              · exact .settles rfl rfl

theorem isQuiet_consume (app : App) (token : Nat) : (m.consume app token).isQuiet = true := by
  unfold consume
  split
  · rfl
  · split
    · rfl
    · split
      · rfl
      · split
        · rfl
        · split
          · rfl
          · rfl

theorem moves_begin (request : Request) : m.Moves request .begun (m.begin request) m.table := by
  cases request with
  | signIn app email password =>
      unfold begin
      dsimp only
      cases outcome : m.authenticate app email password with
      | error failure => exact .settles rfl rfl
      | ok owner => exact .verifies rfl outcome
  | rotate app token => exact moves_present
  | confirmPasswordReset app token newPassword => exact .settles rfl (isQuiet_consume app token)
  | deactivate actor user =>
      apply Moves.settles rfl
      unfold begin
      dsimp only
      split
      · rfl
      · split
        · rfl
        · split
          · rfl
          · split
            · rfl
            · rfl
  | _ => exact .settles rfl rfl

theorem table_commit (u : Update) : (m.commit u).table = m.table.revoke u.done u.now := by
  unfold commit
  cases u.pending <;> rfl

theorem threads_commit (u : Update) : (m.commit u).threads = m.threads := by
  unfold commit
  cases u.pending <;> rfl

/-- The request of a thread moves, or waits. -/
theorem act_moves (m : Machine) (i : Nat) (thread : Thread) :
    m.act i thread = m ∨ ∃ stage, m.Moves thread.request thread.stage stage (m.act i thread).table ∧
      (m.act i thread).threads = m.threads.set i { thread with stage := stage } := by
  rcases thread with ⟨request, stage⟩
  unfold act
  cases stage with
  | begun =>
      right
      cases request with
      | requestPasswordReset app email => exact ⟨_, .settles rfl rfl, rfl⟩
      | _ => exact ⟨_, moves_begin _, rfl⟩
  | verified owner => exact Or.inr ⟨_, .opens, rfl⟩
  | loaded row =>
      right
      dsimp only
      split
      · exact ⟨_, .keeps rfl rfl, rfl⟩
      · exact ⟨_, .settles rfl rfl, rfl⟩
  | rotating row =>
      dsimp only
      split
      · exact Or.inl rfl
      · exact Or.inr ⟨_, .keeps rfl rfl, rfl⟩
  | issuing row now => exact Or.inr ⟨_, .exchanges, rfl⟩
  | superseded row =>
      right
      dsimp only
      split
      · exact ⟨_, .settles rfl rfl, rfl⟩
      · exact ⟨_, .settles rfl rfl, rfl⟩
  | consuming record =>
      cases request with
      | confirmPasswordReset app token newPassword =>
          dsimp only
          split
          · exact Or.inl rfl
          · exact Or.inr ⟨_, .settles rfl rfl, rfl⟩
      | _ => exact Or.inl rfl
  | counting user =>
      right
      dsimp only
      split
      · exact ⟨_, .settles rfl rfl, rfl⟩
      · exact ⟨_, .settles rfl rfl, rfl⟩
  | deactivating user =>
      dsimp only
      split
      · exact Or.inl rfl
      · right
        split
        · exact ⟨_, .settles rfl rfl, rfl⟩
        · exact ⟨_, .settles rfl rfl, rfl⟩
  | revoking target pending => exact Or.inr ⟨_, .starts, rfl⟩
  | updating u =>
      dsimp only
      cases todo : u.todo with
      | nil =>
          refine Or.inr ⟨request.conclude u, ?_, ?_⟩
          · have table : ((m.commit u).setStage i ⟨request, .updating u⟩ (request.conclude u)).table =
                m.table.revoke u.done u.now := table_commit u
            rw [table]
            exact .commits todo
          · have threads : ((m.commit u).setStage i ⟨request, .updating u⟩ (request.conclude u)).threads =
                (m.commit u).threads.set i ⟨request, request.conclude u⟩ := rfl
            rw [threads, threads_commit]
      | cons id rest =>
          dsimp only
          split
          · exact Or.inl rfl
          · right
            split
            · exact ⟨_, .takes todo, rfl⟩
            · rename_i none
              refine ⟨_, .skips todo ?_, rfl⟩
              intro row mem same
              by_contra live
              apply none
              rw [List.any_eq_true]
              refine ⟨row, mem, ?_⟩
              rw [Bool.and_eq_true]
              exact ⟨decide_eq_true same, by simpa using live⟩
  | answered reply => exact Or.inl rfl
  | refused failure => exact Or.inl rfl
  | lost => exact Or.inl rfl

/-- The effect of one step. -/
inductive Effect (m : Machine) : Event -> List Thread -> Table -> Prop where
  | none (event) : Effect m event m.threads m.table
  | arrived {request} : Effect m (.arrive request) (m.threads ++ [⟨request, .begun⟩]) m.table
  | moved {i : Nat} {thread : Thread} {stage : Stage} {table : Table} : m.threads[i]? = some thread ->
      m.Moves thread.request thread.stage stage table ->
      Effect m (.act i) (m.threads.set i { thread with stage := stage }) table
  | died {i : Nat} {thread : Thread} : m.threads[i]? = some thread ->
      thread.stage.isAnswered = false ->
      Effect m (.lose i) (m.threads.set i { thread with stage := .lost }) m.table

theorem step_act (m : Machine) {i : Nat} {thread : Thread} (here : m.threads[i]? = some thread) :
    m.step (.act i) = m.act i thread := by
  simp only [step, here]

theorem step_lose (m : Machine) {i : Nat} {thread : Thread} (here : m.threads[i]? = some thread) :
    m.step (.lose i) = m.lose i thread := by
  simp only [step, here]

theorem step_absent (m : Machine) {i : Nat} (absent : m.threads[i]? = none) :
    m.step (.act i) = m ∧ m.step (.lose i) = m := by
  constructor
  · simp only [step, absent]
  · simp only [step, absent]

theorem step_effect (m : Machine) (event : Event) :
    m.Effect event (m.step event).threads (m.step event).table := by
  cases event with
  | arrive request => exact .arrived
  | tick time => exact .none _
  | act i =>
      cases here : m.threads[i]? with
      | none =>
          rw [(step_absent m here).1]
          exact .none _
      | some thread =>
          rw [step_act m here]
          rcases act_moves m i thread with waits | ⟨stage, moves, threads⟩
          · rw [waits]
            exact .none _
          · rw [threads]
            exact .moved here moves
  | lose i =>
      cases here : m.threads[i]? with
      | none =>
          rw [(step_absent m here).2]
          exact .none _
      | some thread =>
          rw [step_lose m here]
          unfold lose
          split
          · exact .none _
          · exact .none _
          · rename_i pending _
            refine .died here ?_
            cases stage : thread.stage with
            | answered reply => exact absurd stage (pending reply)
            | _ => rfl

end Machine

/-! ## Rows are added and revoked -/

/-- A row of the table, as it is or as it was. -/
def Table.Knows (t : Table) (row : RefreshSession) : Prop :=
  ∃ r ∈ t.rows, r.id = row.id ∧ r.chainId = row.chainId ∧ r.owner = row.owner

namespace Table

variable {t : Table} {row : RefreshSession}

theorem mem_revoke {ids : List Nat} {now : Nat} : row ∈ (t.revoke ids now).rows ↔
    ∃ r ∈ t.rows, row = if r.id ∈ ids then r.revoked now else r := by
  unfold revoke
  rw [List.mem_map]
  constructor
  · rintro ⟨r, mem, same⟩
    exact ⟨r, mem, same.symm⟩
  · rintro ⟨r, mem, same⟩
    exact ⟨r, mem, same.symm⟩

theorem mem_issue {owner : Principal} {continues : Option RefreshSession} {now : Nat} :
    row ∈ (t.issue owner continues now).rows ↔ row ∈ t.rows ∨
      row = ⟨t.nextId, owner, (continues.map RefreshSession.chainId).getD t.nextId,
        (continues.map RefreshSession.signedInAt).getD now, now + refreshTokenLifetime, none⟩ := by
  unfold issue
  rw [List.mem_append, List.mem_singleton]

/-- A row after a revocation comes from one with the same key, chain and owner,
which was live if it is. -/
theorem of_mem_revoke {ids : List Nat} {now : Nat} (mem : row ∈ (t.revoke ids now).rows) :
    ∃ r ∈ t.rows, r.id = row.id ∧ r.chainId = row.chainId ∧ r.owner = row.owner ∧
      (row.isLive = true -> r = row ∧ r.id ∉ ids) := by
  rcases mem_revoke.mp mem with ⟨r, old, same⟩
  by_cases hit : r.id ∈ ids
  · rw [if_pos hit] at same
    subst same
    refine ⟨r, old, rfl, rfl, rfl, ?_⟩
    intro live
    cases live
  · rw [if_neg hit] at same
    subst same
    exact ⟨row, old, rfl, rfl, rfl, fun _ => ⟨rfl, hit⟩⟩

theorem Knows.revoke (knows : t.Knows row) (ids : List Nat) (now : Nat) :
    (t.revoke ids now).Knows row := by
  rcases knows with ⟨r, mem, id, chain, owner⟩
  by_cases hit : r.id ∈ ids
  · refine ⟨r.revoked now, mem_revoke.mpr ⟨r, mem, (if_pos hit).symm⟩, id, chain, owner⟩
  · exact ⟨r, mem_revoke.mpr ⟨r, mem, (if_neg hit).symm⟩, id, chain, owner⟩

theorem Knows.issue (knows : t.Knows row) (owner : Principal) (continues : Option RefreshSession)
    (now : Nat) : (t.issue owner continues now).Knows row := by
  rcases knows with ⟨r, mem, same⟩
  exact ⟨r, mem_issue.mpr (Or.inl mem), same⟩

theorem knows_self (mem : row ∈ t.rows) : t.Knows row := ⟨row, mem, rfl, rfl, rfl⟩

/-- Keys are unique, and a chain has one owner. -/
structure Sound (t : Table) : Prop where
  below : ∀ row ∈ t.rows, row.id < t.nextId
  named : ∀ row ∈ t.rows, row.chainId < t.nextId
  keys : ∀ row ∈ t.rows, ∀ row' ∈ t.rows, row.id = row'.id -> row = row'
  owners : ∀ row ∈ t.rows, ∀ row' ∈ t.rows, row.chainId = row'.chainId -> row.owner = row'.owner

theorem Sound.revoke (sound : t.Sound) (ids : List Nat) (now : Nat) : (t.revoke ids now).Sound where
  below row mem := by
    rcases of_mem_revoke mem with ⟨r, old, id, _⟩
    rw [← id]
    exact sound.below r old
  named row mem := by
    rcases of_mem_revoke mem with ⟨r, old, _, chain, _⟩
    rw [← chain]
    exact sound.named r old
  keys row mem row' mem' same := by
    rcases mem_revoke.mp mem with ⟨r, old, rfl⟩
    rcases mem_revoke.mp mem' with ⟨r', old', rfl⟩
    have key : ∀ s : RefreshSession, (if s.id ∈ ids then s.revoked now else s).id = s.id := by
      intro s
      split
      · rfl
      · rfl
    rw [key, key] at same
    rw [sound.keys r old r' old' same]
  owners row mem row' mem' same := by
    rcases of_mem_revoke mem with ⟨r, old, _, chain, owner, _⟩
    rcases of_mem_revoke mem' with ⟨r', old', _, chain', owner', _⟩
    rw [← owner, ← owner']
    exact sound.owners r old r' old' (chain.trans (same.trans chain'.symm))

theorem Sound.issue (sound : t.Sound) {owner : Principal} {continues : Option RefreshSession}
    (known : ∀ row, continues = some row -> t.Knows row ∧ row.owner = owner) (now : Nat) :
    (t.issue owner continues now).Sound := by
  -- The chain of the new row is new, or that of a row of the same owner.
  have chain : (continues.map RefreshSession.chainId).getD t.nextId = t.nextId ∨
      ∃ r ∈ t.rows, r.chainId = (continues.map RefreshSession.chainId).getD t.nextId ∧
        r.owner = owner := by
    cases continues with
    | none => exact Or.inl rfl
    | some row =>
        rcases known row rfl with ⟨⟨r, mem, _, chain, same⟩, owner⟩
        exact Or.inr ⟨r, mem, chain, same.trans owner⟩
  have fresh : ∀ row ∈ t.rows, row.chainId = (continues.map RefreshSession.chainId).getD t.nextId ->
      row.owner = owner := by
    intro row mem same
    rcases chain with new | ⟨r, old, chain, owner⟩
    · have lt := sound.named row mem
      rw [same, new] at lt
      exact absurd lt (Nat.lt_irrefl _)
    · rw [← owner]
      exact sound.owners row mem r old (same.trans chain.symm)
  constructor
  · intro row mem
    rcases mem_issue.mp mem with old | rfl
    · exact Nat.lt_succ_of_lt (sound.below row old)
    · exact Nat.lt_succ_self _
  · intro row mem
    rcases mem_issue.mp mem with old | rfl
    · exact Nat.lt_succ_of_lt (sound.named row old)
    · rcases chain with new | ⟨r, old, chain, _⟩
      · change _ < t.nextId + 1
        rw [new]
        exact Nat.lt_succ_self _
      · change _ < t.nextId + 1
        rw [← chain]
        exact Nat.lt_succ_of_lt (sound.named r old)
  · intro row mem row' mem' same
    rcases mem_issue.mp mem with old | rfl
    · rcases mem_issue.mp mem' with old' | rfl
      · exact sound.keys row old row' old' same
      · exact absurd (same ▸ sound.below row old) (Nat.lt_irrefl _)
    · rcases mem_issue.mp mem' with old' | rfl
      · exact absurd (same ▸ sound.below row' old') (Nat.lt_irrefl _)
      · rfl
  · intro row mem row' mem' same
    rcases mem_issue.mp mem with old | rfl
    · rcases mem_issue.mp mem' with old' | rfl
      · exact sound.owners row old row' old' same
      · exact fresh row old same
    · rcases mem_issue.mp mem' with old' | rfl
      · exact (fresh row' old' same.symm).symm
      · rfl

end Table

/-! ## What requests have read -/

/-- The token being exchanged is in the table, and so are the rows of the
snapshot of an update. -/
structure Stage.Known (stage : Stage) (t : Table) : Prop where
  loaded : ∀ row, stage.row? = some row -> t.Knows row
  shown : ∀ u, stage = .updating u -> ∀ row ∈ u.snapshot, t.Knows row

theorem Stage.known_of_isQuiet {stage : Stage} (quiet : stage.isQuiet = true) (t : Table) :
    stage.Known t where
  loaded row loaded := by
    rw [Stage.row?_of_isQuiet quiet] at loaded
    cases loaded
  shown u updating := by
    subst updating
    cases quiet

namespace Machine.Moves

variable {m : Machine} {request : Request} {stage stage' : Stage} {table : Table}

/-- No move forgets a row. -/
theorem knows (moves : m.Moves request stage stage' table) {row : RefreshSession}
    (known : m.table.Knows row) : table.Knows row := by
  cases moves with
  | opens => exact known.issue _ _ _
  | exchanges => exact (known.revoke _ _).issue _ _ _
  | commits _ => exact known.revoke _ _
  | _ => exact known

theorem sound (moves : m.Moves request stage stage' table) (known : stage.Known m.table)
    (sound : m.table.Sound) : table.Sound := by
  cases moves with
  | opens =>
      refine sound.issue ?_ _
      intro row none
      cases none
  | @exchanges row now =>
      refine (sound.revoke _ _).issue ?_ _
      intro row' same
      cases same
      exact ⟨(known.loaded row rfl).revoke _ _, rfl⟩
  | commits _ => exact sound.revoke _ _
  | _ => exact sound

theorem known (moves : m.Moves request stage stage' table) (known : stage.Known m.table) :
    stage'.Known table := by
  cases moves with
  | verifies _ _ => exact ⟨fun _ none => (nomatch none), fun _ none => (nomatch none)⟩
  | opens => exact ⟨fun _ none => (nomatch none), fun _ none => (nomatch none)⟩
  | loads _ mem _ loads =>
      constructor
      · intro row loaded
        cases loads.symm.trans loaded
        exact Table.knows_self mem
      · intro u updating
        rw [updating] at loads
        cases loads
  | keeps before after =>
      constructor
      · intro row loaded
        cases after.symm.trans loaded
        exact known.loaded _ before
      · intro u updating
        rw [updating] at after
        cases after
  | exchanges => exact ⟨fun _ none => (nomatch none), fun _ none => (nomatch none)⟩
  | starts =>
      constructor
      · intro row none
        cases none
      · intro u updating row mem
        cases updating
        exact Table.knows_self mem
  | takes _ =>
      constructor
      · intro row none
        cases none
      · intro u updating row mem
        cases updating
        exact known.shown _ rfl row mem
  | skips _ _ =>
      constructor
      · intro row none
        cases none
      · intro u updating row mem
        cases updating
        exact known.shown _ rfl row mem
  | commits _ => exact Stage.known_of_isQuiet (Machine.isQuiet_conclude _ _) _
  | settles _ quiet => exact Stage.known_of_isQuiet quiet _

end Machine.Moves

structure Sane (threads : List Thread) (t : Table) : Prop where
  table : t.Sound
  known : ∀ (i : Nat) (thread : Thread), threads[i]? = some thread -> thread.stage.Known t

namespace Sane

theorem init (accounts : List Account) (resets : List OneTimeToken) :
    Sane (Machine.init accounts resets).threads (Machine.init accounts resets).table where
  table := ⟨fun _ mem => (nomatch mem), fun _ mem => (nomatch mem), fun _ mem => (nomatch mem),
    fun _ mem => (nomatch mem)⟩
  known _ _ none := nomatch none

theorem effect {m : Machine} (sane : Sane m.threads m.table) {event : Event}
    {threads : List Thread} {table : Table} (effect : m.Effect event threads table) :
    Sane threads table := by
  cases effect with
  | none => exact sane
  | arrived =>
      refine ⟨sane.table, ?_⟩
      intro j other at_j
      rcases Transitions.slot_concat at_j with ⟨_, rfl⟩ | at_j
      · exact Stage.known_of_isQuiet rfl _
      · exact sane.known j other at_j
  | died here _ =>
      refine ⟨sane.table, ?_⟩
      intro j other at_j
      rcases Transitions.slot_set at_j with ⟨_, rfl⟩ | ⟨_, at_j⟩
      · exact Stage.known_of_isQuiet rfl _
      · exact sane.known j other at_j
  | moved here moves =>
      refine ⟨moves.sound (sane.known _ _ here) sane.table, ?_⟩
      intro j other at_j
      rcases Transitions.slot_set at_j with ⟨_, rfl⟩ | ⟨_, at_j⟩
      · exact moves.known (sane.known _ _ here)
      · have known := sane.known j other at_j
        exact ⟨fun row loaded => moves.knows (known.loaded row loaded),
          fun u updating row mem => moves.knows (known.shown u updating row mem)⟩

theorem step {m : Machine} (sane : Sane m.threads m.table) (event : Event) :
    Sane (m.step event).threads (m.step event).table := sane.effect (m.step_effect event)

end Sane
end Sessions
end Shiftlush
