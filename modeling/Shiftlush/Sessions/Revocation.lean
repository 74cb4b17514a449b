import Mathlib.Data.List.Induction
import Shiftlush.Sessions.Moves

namespace Shiftlush
namespace Sessions

open Transitions

/-!
# Revocation is final

An `UPDATE` that revokes the sessions of a user finds the rows of its snapshot.
A rotation that has read its token before the update commits, and commits its
own transaction after that snapshot, adds a row the update has not seen.  A
rotation that overlaps no revocation of its chain does no harm, and then what a
revocation has ended stays ended.
-/

/-- The thread is in the update of a revocation that is to end this chain. -/
def Thread.ends (thread : Thread) (chain : Nat) : Bool :=
  thread.request.isRevocation &&
    match thread.stage with
    | .updating u => u.covers chain
    | _ => false

namespace Machine

/-- The rotations between the read of their token and their commit while a
revocation of its chain is under way. -/
def overtaken (m : Machine) : List Nat :=
  (List.range m.threads.length).filter (fun j =>
    match m.threads[j]? with
    | some thread =>
        thread.stage.row?.any (fun row => m.threads.any (fun other => other.ends row.chainId))
    | none => false)

/-- The rotation whose exchange a step commits. -/
def exchanging (m : Machine) : Event -> Option Nat
  | .act i =>
      match m.threads[i]? with
      | some ⟨_, .issuing _ _⟩ => some i
      | _ => none
  | _ => none

/-- The next step of this thread commits a revocation of the chain. -/
def endsNow (m : Machine) (i : Nat) (chain : Nat) : Bool :=
  match m.threads[i]? with
  | some ⟨request, .updating u⟩ => request.isRevocation && u.covers chain && decide (u.todo = [])
  | _ => false

end Machine

/-- A machine, and the rotations that have been overtaken so far. -/
structure Watch where
  machine : Machine
  late : List Nat

namespace Watch

def step (w : Watch) (event : Event) : Watch :=
  ⟨w.machine.step event, w.machine.overtaken ++ w.late⟩

/-- No overtaken rotation commits. -/
def clean (w : Watch) (event : Event) : Bool :=
  (w.machine.exchanging event).all (fun j => decide (j ∉ w.machine.overtaken ++ w.late))

theorem machine_run (w : Watch) (events : List Event) :
    (run step w events).machine = run Machine.step w.machine events := by
  induction events generalizing w with
  | nil => rfl
  | cons event events ih => exact ih (w.step event)

end Watch

namespace Machine

variable {m : Machine} {i j : Nat} {thread : Thread}

theorem endsNow_spec {chain : Nat} (ends : m.endsNow i chain = true) :
    ∃ request u, m.threads[i]? = some ⟨request, .updating u⟩ ∧ request.isRevocation = true ∧
      u.covers chain = true ∧ u.todo = [] := by
  unfold endsNow at ends
  split at ends
  · rename_i request u here
    rw [Bool.and_eq_true, Bool.and_eq_true] at ends
    exact ⟨request, u, here, ends.1.1, ends.1.2, of_decide_eq_true ends.2⟩
  · cases ends

theorem mem_overtaken {row : RefreshSession} (at_j : m.threads[j]? = some thread)
    (loaded : thread.stage.row? = some row) {other : Thread} (at_i : m.threads[i]? = some other)
    (ends : other.ends row.chainId = true) : j ∈ m.overtaken := by
  refine List.mem_filter.mpr ⟨List.mem_range.mpr (List.getElem?_eq_some_iff.mp at_j).1, ?_⟩
  simp only [at_j, loaded, Option.any_some]
  exact List.any_eq_true.mpr ⟨other, List.mem_of_getElem? at_i, ends⟩

end Machine

theorem Target.selects_of_takesChain {target : Target} {row : RefreshSession}
    (takes : target.takesChain row = true) : target.selects row = true := by
  cases target with
  | token app token => cases takes
  | _ => exact takes

theorem Target.takesChain_congr {target : Target} {row row' : RefreshSession}
    (owner : row.owner = row'.owner) (chain : row.chainId = row'.chainId) :
    target.takesChain row = target.takesChain row' := by
  cases target with
  | token app token => rfl
  | all owner' => simp only [takesChain, selects, owner]
  | chain owner' chainId => simp only [takesChain, selects, owner, chain]
  | others owner' keep => simp only [takesChain, selects, owner, chain]

theorem Update.covers_iff {u : Update} {chain : Nat} : u.covers chain = true ↔
    ∃ row ∈ u.snapshot, u.target.takesChain row = true ∧ row.chainId = chain := by
  unfold covers
  rw [List.any_eq_true]
  constructor
  · rintro ⟨row, mem, both⟩
    rw [Bool.and_eq_true] at both
    exact ⟨row, mem, both.1, of_decide_eq_true both.2⟩
  · rintro ⟨row, mem, takes, same⟩
    refine ⟨row, mem, ?_⟩
    rw [Bool.and_eq_true]
    exact ⟨takes, decide_eq_true same⟩

/-! ## While a revocation is under way -/

/-- The live tokens of a chain an update is to end are those it has taken or
still has to come to. -/
def Update.Reaches (u : Update) (t : Table) (chain : Nat) : Prop :=
  ∀ row ∈ t.rows, row.chainId = chain -> row.isLive = true -> row.id ∈ u.todo ∨ row.id ∈ u.done

/-- Every revocation under way reaches its chains. -/
def Reached (threads : List Thread) (t : Table) : Prop :=
  ∀ (i : Nat) request u chain, threads[i]? = some ⟨request, .updating u⟩ ->
    request.isRevocation = true -> u.covers chain = true -> u.Reaches t chain

namespace Update

variable {u : Update} {t : Table} {chain : Nat}

theorem Reaches.revoke (reaches : u.Reaches t chain) (ids : List Nat) (now : Nat) :
    u.Reaches (t.revoke ids now) chain := by
  intro row mem same live
  rcases Table.of_mem_revoke mem with ⟨r, old, _, _, _, alive⟩
  rcases alive live with ⟨rfl, _⟩
  exact reaches r old same live

/-- A new token of another chain. -/
theorem Reaches.issue (reaches : u.Reaches t chain) {owner : Principal}
    {continues : Option RefreshSession} (now : Nat)
    (other : (continues.map RefreshSession.chainId).getD t.nextId ≠ chain) :
    u.Reaches (t.issue owner continues now) chain := by
  intro row mem same live
  rcases Table.mem_issue.mp mem with old | rfl
  · exact reaches row old same live
  · exact absurd same other

/-- An update that starts has all live tokens of its chains before it. -/
theorem reaches_start (sound : t.Sound) (target : Target) (pending : Pending) (now : Nat)
    (covers : (start target pending now t.rows).covers chain = true) :
    (start target pending now t.rows).Reaches t chain := by
  rcases covers_iff.mp covers with ⟨seen, mem_seen, takes, chain_seen⟩
  intro row mem same live
  left
  have owner : row.owner = seen.owner :=
    sound.owners row mem seen mem_seen (same.trans chain_seen.symm)
  have taken : target.takesChain row = true :=
    (Target.takesChain_congr owner (same.trans chain_seen.symm)).trans takes
  refine List.mem_map.mpr ⟨row, List.mem_filter.mpr ⟨mem, ?_⟩, rfl⟩
  rw [Bool.and_eq_true]
  exact ⟨Target.selects_of_takesChain taken, live⟩

end Update

variable {m : Machine} {event : Event} {threads : List Thread} {table : Table}

/-- A chain that an update covers has been named. -/
theorem Sane.covered (sane : Sane m.threads m.table) {i : Nat} {request : Request} {u : Update}
    {chain : Nat} (here : m.threads[i]? = some ⟨request, .updating u⟩)
    (covers : u.covers chain = true) : chain < m.table.nextId := by
  rcases Update.covers_iff.mp covers with ⟨seen, mem, _, same⟩
  rcases (sane.known i _ here).shown u rfl seen mem with ⟨stored, old, _, chain', _⟩
  rw [← same, ← chain']
  exact sane.table.named stored old

/-- A move of another thread leaves an update its reach, unless it commits an
exchange in the chain. -/
theorem Update.Reaches.move {request : Request} {stage stage' : Stage} {u : Update} {chain : Nat}
    (reaches : u.Reaches m.table chain) (moves : m.Moves request stage stage' table)
    (named : chain < m.table.nextId)
    (apart : ∀ row now, stage = .issuing row now -> row.chainId ≠ chain) :
    u.Reaches table chain := by
  cases moves with
  | opens => exact reaches.issue _ (Nat.ne_of_gt named)
  | @exchanges row now => exact (reaches.revoke _ _).issue _ (apart row now rfl)
  | commits _ => exact reaches.revoke _ _
  | _ => exact reaches

/-- An update keeps its reach as it starts and as it goes on. -/
theorem Machine.Moves.reaches {request : Request} {stage stage' : Stage} {u : Update} {chain : Nat}
    (moves : m.Moves request stage stage' table) (updating : stage' = .updating u)
    (sound : m.table.Sound) (covers : u.covers chain = true)
    (before : ∀ old, stage = .updating old -> old.covers chain = true -> old.Reaches m.table chain) :
    u.Reaches table chain := by
  cases moves with
  | verifies _ _ => cases updating
  | opens => cases updating
  | loads _ _ _ loads =>
      subst updating
      cases loads
  | keeps _ after =>
      subst updating
      cases after
  | exchanges => cases updating
  | starts =>
      cases updating
      exact Update.reaches_start sound _ _ _ covers
  | @takes old id todo split =>
      cases updating
      intro row mem same live
      rcases before old rfl covers row mem same live with waiting | taken
      · rw [split] at waiting
        rcases List.mem_cons.mp waiting with first | later
        · exact Or.inr (first ▸ List.mem_cons_self)
        · exact Or.inl later
      · exact Or.inr (List.mem_cons_of_mem _ taken)
  | @skips old id todo split dead =>
      cases updating
      intro row mem same live
      rcases before old rfl covers row mem same live with waiting | taken
      · rw [split] at waiting
        rcases List.mem_cons.mp waiting with first | later
        · rw [dead row mem first] at live
          cases live
        · exact Or.inl later
      · exact Or.inr taken
  | @commits old _ =>
      have quiet := Machine.isQuiet_conclude request old
      rw [updating] at quiet
      cases quiet
  | settles _ quiet =>
      subst updating
      cases quiet

/-- The step commits no exchange in a chain while a revocation of it is under way. -/
theorem Reached.effect (reached : Reached m.threads m.table) (sane : Sane m.threads m.table)
    (effect : m.Effect event threads table)
    (clean : ∀ j, m.exchanging event = some j -> j ∉ m.overtaken) : Reached threads table := by
  intro k request u chain at_k revokes covers
  cases effect with
  | none event => exact reached k request u chain at_k revokes covers
  | arrived =>
      rcases slot_concat at_k with ⟨_, same⟩ | at_k
      · cases same
      · exact reached k request u chain at_k revokes covers
  | died here _ =>
      rcases slot_set at_k with ⟨_, same⟩ | ⟨_, at_k⟩
      · cases same
      · exact reached k request u chain at_k revokes covers
  | @moved i thread stage table here moves =>
      rcases thread with ⟨request', before⟩
      rcases slot_set at_k with ⟨rfl, same⟩ | ⟨_, before_k⟩
      · cases congrArg Thread.request same
        have updating : stage = .updating u := (congrArg Thread.stage same).symm
        exact moves.reaches updating sane.table covers
          (fun old old_eq => reached k request old chain (old_eq ▸ here) revokes)
      · refine (reached k request u chain before_k revokes covers).move moves
          (sane.covered before_k covers) ?_
        intro row now same chain_eq
        subst same
        apply clean i
        · simp only [Machine.exchanging, here]
        · refine Machine.mem_overtaken here rfl before_k ?_
          unfold Thread.ends
          rw [Bool.and_eq_true]
          exact ⟨revokes, chain_eq ▸ covers⟩

/-! ## Once a revocation has committed -/

/-- The chain is dead, and no rotation that is not late is about to continue it. -/
structure Ended (threads : List Thread) (t : Table) (late : List Nat) (chain : Nat) : Prop where
  named : chain < t.nextId
  dead : ∀ row ∈ t.rows, row.chainId = chain -> row.isLive = false
  stale : ∀ (j : Nat) thread row, threads[j]? = some thread -> thread.stage.row? = some row ->
    row.chainId = chain -> j ∈ late

theorem dead_revoke {t : Table} {chain : Nat}
    (dead : ∀ row ∈ t.rows, row.chainId = chain -> row.isLive = false) (ids : List Nat) (now : Nat) :
    ∀ row ∈ (t.revoke ids now).rows, row.chainId = chain -> row.isLive = false := by
  intro row mem same
  rcases Table.of_mem_revoke mem with ⟨r, old, _, _, _, alive⟩
  by_contra live
  have live : row.isLive = true := by simpa using live
  rcases alive live with ⟨rfl, _⟩
  rw [dead r old same] at live
  cases live

theorem dead_issue {t : Table} {chain : Nat}
    (dead : ∀ row ∈ t.rows, row.chainId = chain -> row.isLive = false) {owner : Principal}
    {continues : Option RefreshSession} (now : Nat)
    (other : (continues.map RefreshSession.chainId).getD t.nextId ≠ chain) :
    ∀ row ∈ (t.issue owner continues now).rows, row.chainId = chain -> row.isLive = false := by
  intro row mem same
  rcases Table.mem_issue.mp mem with old | rfl
  · exact dead row old same
  · exact absurd same other

/-- A chain that has ended stays so while no late rotation commits. -/
theorem Ended.effect {late : List Nat} {chain : Nat} (ended : Ended m.threads m.table late chain)
    (effect : m.Effect event threads table)
    (clean : ∀ j, m.exchanging event = some j -> j ∉ late) : Ended threads table late chain := by
  cases effect with
  | none event => exact ended
  | arrived =>
      refine ⟨ended.named, ended.dead, ?_⟩
      intro j thread row at_j loaded same
      rcases slot_concat at_j with ⟨_, rfl⟩ | at_j
      · cases loaded
      · exact ended.stale j thread row at_j loaded same
  | died here _ =>
      refine ⟨ended.named, ended.dead, ?_⟩
      intro j thread row at_j loaded same
      rcases slot_set at_j with ⟨_, rfl⟩ | ⟨_, at_j⟩
      · cases loaded
      · exact ended.stale j thread row at_j loaded same
  | @moved i thread stage table here moves =>
      rcases thread with ⟨request, before⟩
      have others : (∀ row, stage.row? = some row -> row.chainId = chain -> i ∈ late) ->
          ∀ j thread row, (m.threads.set i ⟨request, stage⟩)[j]? = some thread ->
            thread.stage.row? = some row -> row.chainId = chain -> j ∈ late := by
        intro own j thread row at_j loaded same
        rcases slot_set at_j with ⟨rfl, rfl⟩ | ⟨_, at_j⟩
        · exact own row loaded same
        · exact ended.stale j thread row at_j loaded same
      have idle : stage.row? = none -> ∀ row, stage.row? = some row -> row.chainId = chain -> i ∈ late := by
        intro none row loaded
        rw [none] at loaded
        cases loaded
      cases moves with
      | verifies _ _ => exact ⟨ended.named, ended.dead, others (idle rfl)⟩
      | opens =>
          exact ⟨Nat.lt_succ_of_lt ended.named, dead_issue ended.dead _ (Nat.ne_of_gt ended.named),
            others (idle rfl)⟩
      | @loads _ read _ _ mem live loads =>
          refine ⟨ended.named, ended.dead, others ?_⟩
          intro row loaded same
          have read_eq : read = row := Option.some.inj (loads.symm.trans loaded)
          rw [ended.dead read mem (read_eq ▸ same)] at live
          cases live
      | keeps before_row after_row =>
          refine ⟨ended.named, ended.dead, others ?_⟩
          intro row loaded same
          have kept : before.row? = some row := before_row.trans (after_row.symm.trans loaded)
          exact ended.stale i _ row here kept same
      | @exchanges row now =>
          have other : row.chainId ≠ chain := by
            intro same
            have late_i := ended.stale i _ row here rfl same
            exact clean i (by simp only [Machine.exchanging, here]) late_i
          exact ⟨Nat.lt_succ_of_lt ended.named, dead_issue (dead_revoke ended.dead _ _) _ other,
            others (idle rfl)⟩
      | starts => exact ⟨ended.named, ended.dead, others (idle rfl)⟩
      | takes _ => exact ⟨ended.named, ended.dead, others (idle rfl)⟩
      | skips _ _ => exact ⟨ended.named, ended.dead, others (idle rfl)⟩
      | commits _ =>
          exact ⟨ended.named, dead_revoke ended.dead _ _,
            others (idle (Stage.row?_of_isQuiet (Machine.isQuiet_conclude _ _)))⟩
      | settles _ quiet => exact ⟨ended.named, ended.dead, others (idle (Stage.row?_of_isQuiet quiet))⟩

theorem Ended.mono {t : Table} {late late' : List Nat} {chain : Nat} (ended : Ended threads t late chain)
    (more : ∀ j ∈ late, j ∈ late') : Ended threads t late' chain :=
  ⟨ended.named, ended.dead, fun j thread row at_j loaded same =>
    more j (ended.stale j thread row at_j loaded same)⟩

/-- The commit of a revocation ends its chains. -/
theorem Reached.ended {i chain : Nat} (ends : m.endsNow i chain = true)
    (reached : Reached m.threads m.table) (sane : Sane m.threads m.table) :
    Ended (m.step (.act i)).threads (m.step (.act i)).table m.overtaken chain := by
  rcases Machine.endsNow_spec ends with ⟨request, u, here, revokes, covers, todo⟩
  have act : m.act i ⟨request, .updating u⟩ =
      (m.commit u).setStage i ⟨request, .updating u⟩ (request.conclude u) := by
    simp only [Machine.act, todo]
  have table : (m.act i ⟨request, .updating u⟩).table = m.table.revoke u.done u.now := by
    rw [act]
    exact Machine.table_commit u
  have threads : (m.act i ⟨request, .updating u⟩).threads =
      m.threads.set i ⟨request, request.conclude u⟩ := by
    rw [act]
    change (m.commit u).threads.set i _ = _
    rw [Machine.threads_commit]
  rw [Machine.step_act m here, table, threads]
  refine ⟨sane.covered here covers, ?_, ?_⟩
  · intro row mem same
    rcases Table.of_mem_revoke mem with ⟨r, old, _, _, _, alive⟩
    by_contra live
    have live : row.isLive = true := by simpa using live
    rcases alive live with ⟨rfl, missed⟩
    rcases reached i request u chain here revokes covers r old same live with waiting | taken
    · rw [todo] at waiting
      cases waiting
    · exact missed taken
  · intro j thread row at_j loaded same
    rcases slot_set at_j with ⟨_, rfl⟩ | ⟨_, at_j⟩
    · rw [Stage.row?_of_isQuiet (Machine.isQuiet_conclude _ _)] at loaded
      cases loaded
    · refine Machine.mem_overtaken at_j loaded here ?_
      unfold Thread.ends
      rw [Bool.and_eq_true]
      exact ⟨revokes, same ▸ covers⟩

/-! ## Watched runs -/

namespace Watch

variable {w : Watch}

theorem clean_spec {event : Event} (clean : w.clean event = true) {j : Nat}
    (exchanges : w.machine.exchanging event = some j) : j ∉ w.machine.overtaken ++ w.late := by
  unfold Watch.clean at clean
  rw [exchanges] at clean
  exact of_decide_eq_true clean

/-- What a watched run keeps. -/
structure Orderly (w : Watch) : Prop where
  sane : Sane w.machine.threads w.machine.table
  reached : Reached w.machine.threads w.machine.table

theorem Orderly.step {event : Event} (clean : w.clean event = true) (orderly : Orderly w) :
    Orderly (w.step event) where
  sane := orderly.sane.step event
  reached := orderly.reached.effect orderly.sane (w.machine.step_effect event)
    (fun _ exchanges late => clean_spec clean exchanges (List.mem_append_left _ late))

theorem ended_step {event : Event} {chain : Nat} (clean : w.clean event = true)
    (ended : Ended w.machine.threads w.machine.table w.late chain) :
    Ended (w.step event).machine.threads (w.step event).machine.table (w.step event).late chain :=
  (ended.mono (fun _ mem => List.mem_append_right _ mem)).effect (w.machine.step_effect event)
    (fun _ exchanges => clean_spec clean exchanges)

theorem orderly_init (accounts : List Account) (resets : List OneTimeToken) :
    Orderly ⟨.init accounts resets, []⟩ where
  sane := .init accounts resets
  reached _ _ _ _ none := nomatch none

end Watch

/-! ## Where chains come from -/

/-- In the run, thread `i` has verified the password of an account that was
active. -/
def Verified (m : Machine) (events : List Event) (i : Nat) (owner : Principal) : Prop :=
  ∃ before after app email password, events = before ++ .act i :: after ∧
    (run Machine.step m before).threads[i]? = some ⟨.signIn app email password, .begun⟩ ∧
    ∃ account ∈ (run Machine.step m before).accounts, account.principal = owner ∧
      account.password = some password ∧ account.isActive = true

/-- A sign-in that has verified the password of its owner has started the chain. -/
def Opened (m : Machine) (events : List Event) (owner : Principal) (chain : Nat) : Prop :=
  ∃ before i after, events = before ++ .act i :: after ∧ Verified m before i owner ∧
    (∃ request, (run Machine.step m before).threads[i]? = some ⟨request, .verified owner⟩) ∧
    (run Machine.step m before).table.nextId = chain

theorem Verified.concat {m : Machine} {events : List Event} {i : Nat} {owner : Principal}
    (verified : Verified m events i owner) (event : Event) :
    Verified m (events ++ [event]) i owner := by
  rcases verified with ⟨before, after, app, email, password, rfl, rest⟩
  refine ⟨before, after ++ [event], app, email, password, ?_, rest⟩
  rw [List.append_assoc, List.cons_append]

theorem Opened.concat {m : Machine} {events : List Event} {owner : Principal} {chain : Nat}
    (opened : Opened m events owner chain) (event : Event) :
    Opened m (events ++ [event]) owner chain := by
  rcases opened with ⟨before, i, after, rfl, rest⟩
  refine ⟨before, i, after ++ [event], ?_, rest⟩
  rw [List.append_assoc, List.cons_append]

theorem Machine.mem_of_signInAccount {m : Machine} {app : App} {email : String} {account : Account}
    (found : m.signInAccount app email = some account) : account ∈ m.accounts := by
  cases app with
  | staff => exact List.mem_of_find?_eq_some found
  | portal =>
      have listed := Transitions.mem_of_foldl_best (fun _ => rfl) (fun _ _ => ite_eq_or_eq _ _ _) found
      exact (List.mem_filter.mp listed).1

theorem Machine.authenticate_spec {m : Machine} {app : App} {email password : String}
    {owner : Principal} (ok : m.authenticate app email password = .ok owner) :
    ∃ account ∈ m.accounts, account.principal = owner ∧ account.password = some password ∧
      account.isActive = true := by
  unfold Machine.authenticate at ok
  split at ok
  · cases ok
  · rename_i account found
    split at ok
    · cases ok
    · rename_i checked
      split at ok
      · cases ok
      · rename_i active
        have right : account.checkPassword password = true := by simpa using checked
        exact ⟨account, Machine.mem_of_signInAccount found, Except.ok.inj ok, of_decide_eq_true right,
          by simpa using active⟩

theorem Machine.Moves.verifying {request : Request} {stage stage' : Stage} {owner : Principal}
    (moves : m.Moves request stage stage' table) (now : stage' = .verified owner) :
    ∃ app email password, request = .signIn app email password ∧ stage = .begun ∧
      m.authenticate app email password = .ok owner := by
  cases moves with
  | @verifies app email password owner' signs ok =>
      cases now
      exact ⟨app, email, password, signs, rfl, ok⟩
  | loads _ _ _ loads =>
      subst now
      cases loads
  | keeps _ after =>
      subst now
      cases after
  | @commits old _ =>
      have quiet := Machine.isQuiet_conclude request old
      rw [now] at quiet
      cases quiet
  | settles _ quiet =>
      subst now
      cases quiet
  | _ => cases now

/-- A row of the table continues a chain that was there, or a sign-in has
started its chain. -/
theorem Machine.Moves.origin {request : Request} {stage stage' : Stage}
    (moves : m.Moves request stage stage' table) (known : stage.Known m.table) {row : RefreshSession}
    (mem : row ∈ table.rows) :
    (∃ r ∈ m.table.rows, r.chainId = row.chainId ∧ r.owner = row.owner) ∨
      (stage = .verified row.owner ∧ row.chainId = m.table.nextId) := by
  have revoked : ∀ {ids now row}, row ∈ (m.table.revoke ids now).rows ->
      ∃ r ∈ m.table.rows, r.chainId = row.chainId ∧ r.owner = row.owner := by
    intro ids now row mem
    rcases Table.of_mem_revoke mem with ⟨r, old, _, chain, owner, _⟩
    exact ⟨r, old, chain, owner⟩
  cases moves with
  | opens =>
      rcases Table.mem_issue.mp mem with old | rfl
      · exact Or.inl ⟨row, old, rfl, rfl⟩
      · exact Or.inr ⟨rfl, rfl⟩
  | @exchanges presented now =>
      left
      rcases Table.mem_issue.mp mem with old | rfl
      · exact revoked old
      · rcases known.loaded presented rfl with ⟨r, old, _, chain, owner⟩
        exact ⟨r, old, chain, owner⟩
  | commits _ => exact Or.inl (revoked mem)
  | _ => exact Or.inl ⟨row, mem, rfl, rfl⟩

/-- Every chain comes from a verified sign-in, by induction on the run. -/
theorem opened_run (m : Machine) (sane : Sane m.threads m.table) (empty : m.table.rows = [])
    (idle : m.threads = []) (events : List Event) :
    (∀ (i : Nat) request owner, (run Machine.step m events).threads[i]? =
      some ⟨request, .verified owner⟩ -> Verified m events i owner) ∧
    ∀ row ∈ (run Machine.step m events).table.rows, Opened m events row.owner row.chainId := by
  induction events using List.reverseRecOn with
  | nil =>
      constructor
      · intro i request owner here
        change m.threads[i]? = _ at here
        rw [idle] at here
        cases here
      · intro row mem
        change row ∈ m.table.rows at mem
        rw [empty] at mem
        cases mem
  | append_singleton events event ih =>
      rcases ih with ⟨verified, opened⟩
      have sane_now : Sane (run Machine.step m events).threads (run Machine.step m events).table :=
        run_invariant (J := fun m : Machine => Sane m.threads m.table)
          (fun _ event sane => sane.step event) events sane
      have effect := (run Machine.step m events).step_effect event
      rw [run_concat]
      generalize ((run Machine.step m events).step event).threads = threads at effect ⊢
      generalize ((run Machine.step m events).step event).table = table at effect ⊢
      cases effect with
      | none event =>
          exact ⟨fun i request owner here => (verified i request owner here).concat _,
            fun row mem => (opened row mem).concat _⟩
      | arrived =>
          refine ⟨?_, fun row mem => (opened row mem).concat _⟩
          intro i request owner here
          rcases slot_concat here with ⟨_, same⟩ | here
          · cases same
          · exact (verified i request owner here).concat _
      | died _ _ =>
          refine ⟨?_, fun row mem => (opened row mem).concat _⟩
          intro i request owner here
          rcases slot_set here with ⟨_, same⟩ | ⟨_, here⟩
          · cases same
          · exact (verified i request owner here).concat _
      | @moved i thread stage table at_i moves =>
          rcases thread with ⟨request, before⟩
          constructor
          · intro k request' owner here
            rcases slot_set here with ⟨rfl, same⟩ | ⟨_, here⟩
            · cases congrArg Thread.request same
              have now : stage = .verified owner := (congrArg Thread.stage same).symm
              rcases moves.verifying now with ⟨app, email, password, rfl, rfl, ok⟩
              exact ⟨events, [], app, email, password, rfl, at_i, Machine.authenticate_spec ok⟩
            · exact (verified k request' owner here).concat _
          · intro row mem
            rcases moves.origin (sane_now.known i _ at_i) mem with ⟨r, old, chain, owner⟩ | ⟨now, chain⟩
            · rw [← chain, ← owner]
              exact (opened r old).concat _
            · subst now
              exact ⟨events, i, [], rfl, verified i request row.owner at_i, ⟨request, at_i⟩, chain.symm⟩

/-! ## The law, and how it is broken -/

/-- If no overtaken rotation commits, a chain that a revocation has ended has no
live token ever after; and every chain was started by a sign-in. -/
theorem revocation_final (accounts : List Account) (resets : List OneTimeToken) {events : List Event}
    (clean : everyStep Watch.step Watch.clean ⟨.init accounts resets, []⟩ events = true) :
    (∀ before i after chain, events = before ++ .act i :: after ->
      (run Machine.step (.init accounts resets) before).endsNow i chain = true ->
      ∀ row ∈ (run Machine.step (.init accounts resets) events).table.rows, row.chainId = chain ->
        row.isLive = false) ∧
    ∀ row ∈ (run Machine.step (.init accounts resets) events).table.rows,
      Opened (.init accounts resets) events row.owner row.chainId := by
  constructor
  · intro before i after chain split ends
    subst split
    rcases everyStep_append.mp clean with ⟨first, rest⟩
    rw [everyStep_cons, Bool.and_eq_true] at rest
    have machine := Watch.machine_run ⟨.init accounts resets, []⟩ before
    have orderly : (run Watch.step ⟨.init accounts resets, []⟩ before).Orderly :=
      run_invariant_of_everyStep (fun w event clean orderly => Watch.Orderly.step clean orderly) first
        (Watch.orderly_init accounts resets)
    generalize run Watch.step ⟨.init accounts resets, []⟩ before = w at rest machine orderly
    rw [run_append, ← machine]
    rw [← machine] at ends
    have ended := (Reached.ended ends orderly.reached orderly.sane).mono
      (fun _ mem => List.mem_append_left w.late mem)
    have last := run_invariant_of_everyStep
      (J := fun w : Watch => Ended w.machine.threads w.machine.table w.late chain)
      (fun w event clean ended => Watch.ended_step clean ended) rest.2 ended
    have dead := last.dead
    rw [Watch.machine_run] at dead
    exact dead
  · exact (opened_run (.init accounts resets) (.init accounts resets) rfl rfl events).2

/-- A technician signs in, rotates the token, ends the session, and signs in
again. -/
def orderlyRevocation : List Event :=
  [.arrive (.signIn .staff "usta@example.com" "parola"), .act 0, .act 0,
    .arrive (.rotate .staff 0), .act 1, .act 1, .act 1, .act 1,
    .arrive (.revokeSession ⟨.staff, 1⟩ 0), .act 2, .act 2, .act 2, .act 2,
    .arrive (.signIn .staff "usta@example.com" "parola"), .act 3, .act 3]

theorem orderlyRevocation_final :
    everyStep Watch.step Watch.clean ⟨.init [someone] [], []⟩ orderlyRevocation = true ∧
      ∀ row ∈ (run Machine.step (.init [someone] []) orderlyRevocation).table.rows, row.chainId = 0 ->
        row.isLive = false := by
  have clean : everyStep Watch.step Watch.clean ⟨.init [someone] [], []⟩ orderlyRevocation = true := by
    decide +kernel
  refine ⟨clean, ?_⟩
  exact (revocation_final [someone] [] clean).1 (orderlyRevocation.take 12) 2
    (orderlyRevocation.drop 13) 0 (by decide +kernel) (by decide +kernel)

/-- The rotation has read the token when the session is ended, and goes on. -/
def overtakenRotation : List Event :=
  [.arrive (.signIn .staff "usta@example.com" "parola"), .act 0, .act 0,
    .arrive (.rotate .staff 0), .act 1, .act 1,
    .arrive (.revokeSession ⟨.staff, 1⟩ 0), .act 2, .act 2, .act 2, .act 2, .act 1, .act 1]

theorem revoked_session_lives : ¬ ∀ accounts resets events before i after chain,
    events = before ++ .act i :: after ->
      (run Machine.step (.init accounts resets) before).endsNow i chain = true ->
      ∀ row ∈ (run Machine.step (.init accounts resets) events).table.rows, row.chainId = chain ->
        row.isLive = false := by
  intro law
  have dead := law [someone] [] overtakenRotation (overtakenRotation.take 10) 2
    (overtakenRotation.drop 11) 0 (by decide +kernel) (by decide +kernel)
  have lives : ¬ ∀ row ∈ (run Machine.step (.init [someone] []) overtakenRotation).table.rows,
      row.chainId = 0 -> row.isLive = false := by decide +kernel
  exact lives dead

end Sessions
end Shiftlush
