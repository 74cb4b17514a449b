import Shiftlush.Users.Team

namespace Shiftlush
namespace Users

open Sessions (Role)
open Transitions (run everyStep)

/-!
# A firm and its owners

A statement takes the last owner from a firm exactly when it rewrites the row
that `_is_last_active_owner` would name at that moment.  The checks of the code
ask the same earlier, about the row as it was read.
-/

variable {users : Rows User} {firm : Option Nat} {id : Nat} {f : User -> User} {m : Machine}

/-! ## The rows of owners -/

theorem hasOwner_iff (distinct : users.Distinct) : hasOwner users firm = true ↔
    ∃ id user, users.get? id = some user ∧ user.owns firm = true := by
  unfold hasOwner
  rw [List.any_eq_true]
  constructor
  · rintro ⟨r, mem, owns⟩
    exact ⟨r.1, r.2, Rows.get?_of_mem distinct mem, owns⟩
  · rintro ⟨id, user, found, owns⟩
    exact ⟨(id, user), Rows.mem_of_get? found, owns⟩

theorem otherOwners_eq_zero (distinct : users.Distinct) : otherOwners users firm id = 0 ↔
    ∀ id' user, users.get? id' = some user -> user.owns firm = true -> id' = id := by
  unfold otherOwners
  rw [List.countP_eq_zero]
  constructor
  · intro none id' user found owns
    by_contra other
    apply none (id', user) (Rows.mem_of_get? found)
    simp [other, owns]
  · intro only r mem counted
    rw [Bool.and_eq_true, decide_eq_true_eq] at counted
    exact counted.1 (only r.1 r.2 (Rows.get?_of_mem distinct mem) counted.2)

theorem User.owns_iff {user : User} : user.owns firm = true ↔
    user.company = firm ∧ user.role = .owner ∧ user.isActive = true := by
  unfold owns
  rw [decide_eq_true_eq]

theorem hasOwner_insert {key : Nat} {user : User} (start : hasOwner users firm = true) :
    hasOwner (users.insert key user) firm = true := by
  unfold hasOwner Rows.insert at *
  rw [List.any_append, start, Bool.true_or]

/-- An `UPDATE` leaves the firm an owner, unless it is of the last one. -/
theorem hasOwner_update (distinct : users.Distinct) {user : User} (found : users.get? id = some user)
    (start : hasOwner users firm = true) : hasOwner (users.update id f) firm = true ↔
      (f user).owns firm = true ∨ user.owns firm = false ∨ otherOwners users firm id ≠ 0 := by
  rw [hasOwner_iff (distinct.update id f)]
  constructor
  · rintro ⟨id', user', found', owns⟩
    by_cases here : id' = id
    · subst here
      rw [Rows.get?_update_self, found] at found'
      cases found'
      exact Or.inl owns
    · rw [Rows.get?_update_of_ne here] at found'
      right
      right
      intro none
      exact here ((otherOwners_eq_zero distinct).mp none id' user' found' owns)
  · rintro (own | other | others)
    · exact ⟨id, f user, by rw [Rows.get?_update_self, found]; rfl, own⟩
    · rcases (hasOwner_iff distinct).mp start with ⟨id', user', found', owns⟩
      have different : id' ≠ id := by
        rintro rfl
        rw [found] at found'
        cases found'
        rw [other] at owns
        cases owns
      exact ⟨id', user', by rw [Rows.get?_update_of_ne different, found'], owns⟩
    · rw [Ne, otherOwners_eq_zero distinct] at others
      push Not at others
      rcases others with ⟨id', user', found', owns, different⟩
      exact ⟨id', user', by rw [Rows.get?_update_of_ne different, found'], owns⟩

/-! ## Keys -/

def Event.isStatement : Event -> Bool
  | .act _ _ => true
  | _ => false

structure Machine.Keyed (m : Machine) : Prop where
  users : m.users.Distinct
  below : m.users.Below m.nextId

namespace Machine

theorem users_setStage (i : Nat) (stage : Stage) : (m.setStage i stage).users = m.users ∧
    (m.setStage i stage).nextId = m.nextId := by
  unfold setStage
  split
  · exact ⟨rfl, rfl⟩
  · exact ⟨rfl, rfl⟩

/-- What the next statement of a request does to the table of users. -/
inductive Writes (m : Machine) (thread : Thread) : Machine -> Prop where
  | reads {m'} : thread.stage.write = none -> m'.users = m.users -> m'.nextId = m.nextId -> Writes m thread m'
  | inserts {m' user} : thread.stage.write = none -> m'.users = m.users.insert m.nextId user ->
      m'.nextId = m.nextId + 1 -> Writes m thread m'
  | updates {m' id f} : thread.stage.write = some (id, f) -> m'.users = m.users.update id f ->
      m'.nextId = m.nextId -> Writes m thread m'

theorem writes_act {i : Nat} (now : Nat) {thread : Thread} (listed : m.threads[i]? = some thread) :
    m.Writes thread (m.act i now) := by
  unfold act
  rw [listed]
  dsimp only
  split
  · rename_i id invitation _ at_stage
    have nothing : thread.stage.write = none := by rw [at_stage]; rfl
    split
    · exact .reads nothing (users_setStage _ _).1 (users_setStage _ _).2
    · rename_i m' joined
      unfold join at joined
      split at joined
      · cases joined
      · cases joined
        exact .inserts nothing (users_setStage _ _).1 (users_setStage _ _).2
  · unfold written
    cases at_write : thread.stage.write with
    | none => exact .reads at_write (users_setStage _ _).1 (users_setStage _ _).2
    | some write =>
        exact .updates at_write (users_setStage _ _).1 (users_setStage _ _).2

theorem act_of_none {i now : Nat} (absent : m.threads[i]? = none) : m.act i now = m := by
  unfold act
  rw [absent]

theorem users_step {event : Event} (other : event.isStatement = false) :
    (m.step event).users = m.users ∧ (m.step event).nextId = m.nextId := by
  cases event with
  | act i now => cases other
  | arrive request => exact ⟨rfl, rfl⟩
  | lose i => exact users_setStage i .lost
  | invite id invitation =>
      unfold step
      dsimp only
      split
      · exact ⟨rfl, rfl⟩
      · exact ⟨rfl, rfl⟩

theorem Keyed.of_same (keyed : m.Keyed) {m' : Machine}
    (same : m'.users = m.users ∧ m'.nextId = m.nextId) : m'.Keyed := by
  refine ⟨same.1 ▸ keyed.users, ?_⟩
  rw [same.1, same.2]
  exact keyed.below

theorem Keyed.step (keyed : m.Keyed) (event : Event) : (m.step event).Keyed := by
  cases event with
  | act i now =>
      cases listed : m.threads[i]? with
      | none =>
          have same : m.step (.act i now) = m := act_of_none listed
          rw [same]
          exact keyed
      | some thread =>
          rcases writes_act now listed with ⟨_, users, nextId⟩ | ⟨_, users, nextId⟩ |
            ⟨_, users, nextId⟩
          · exact keyed.of_same ⟨users, nextId⟩
          · constructor
            · rw [show (m.step (.act i now)).users = _ from users]
              exact keyed.users.insert (keyed.below.absent (le_refl _))
            · rw [show (m.step (.act i now)).users = _ from users,
                show (m.step (.act i now)).nextId = _ from nextId]
              exact keyed.below.insert _
          · constructor
            · rw [show (m.step (.act i now)).users = _ from users]
              exact keyed.users.update _ _
            · rw [show (m.step (.act i now)).users = _ from users,
                show (m.step (.act i now)).nextId = _ from nextId]
              exact keyed.below.of_isSome (fun id => Rows.isSome_get?_update _ _ _ _)
  | _ => exact keyed.of_same (users_step rfl)

/-! ## The law -/

/-- A write of a user row makes the last active owner of a firm neither inactive
nor anything else. -/
def keepsOwner (firm : Nat) (m : Machine) : Event -> Bool
  | .act i _ =>
      match (m.threads[i]?).bind (fun thread => thread.stage.write) with
      | none => true
      | some (id, f) =>
          match m.users.get? id with
          | none => true
          | some user => !(decide (user.company = some firm) && isLastActiveOwner m.users id user) ||
              (f user).owns (some firm)
  | _ => true

theorem isLastActiveOwner_eq_true {user : User} {firm : Nat} (company : user.company = some firm) :
    isLastActiveOwner users id user = true ↔
      user.owns (some firm) = true ∧ otherOwners users (some firm) id = 0 := by
  unfold isLastActiveOwner
  rw [Bool.and_eq_true, Bool.and_eq_true, Bool.and_eq_true, decide_eq_true_eq, decide_eq_true_eq,
    User.owns_iff, company]
  simp

theorem keepsOwner_of_other {firm : Nat} {event : Event} (other : event.isStatement = false) :
    keepsOwner firm m event = true := by
  cases event with
  | act i now => cases other
  | _ => rfl

theorem hasOwner_act {firm : Nat} (keyed : m.Keyed) (start : hasOwner m.users (some firm) = true)
    (i now : Nat) : hasOwner (m.step (.act i now)).users (some firm) = true ↔
      keepsOwner firm m (.act i now) = true := by
  unfold keepsOwner
  dsimp only
  cases listed : m.threads[i]? with
  | none =>
      have same : m.step (.act i now) = m := act_of_none listed
      rw [same, start]
      simp
  | some thread =>
      rw [Option.bind_some]
      rcases writes_act now listed with ⟨reads, users, _⟩ | ⟨reads, users, _⟩ |
        ⟨writes, users, _⟩
      · rw [show (m.step (.act i now)).users = m.users from users, reads, start]
      · rw [show (m.step (.act i now)).users = _ from users, reads, hasOwner_insert start]
      · rename_i id f _
        rw [show (m.step (.act i now)).users = _ from users, writes]
        dsimp only
        cases found : m.users.get? id with
        | none =>
            have same : m.users.update id f = m.users :=
              Rows.update_absent_self (Rows.get?_eq_none.mp found)
            rw [same, start]
        | some user =>
            dsimp only
            rw [hasOwner_update keyed.users found start, Bool.or_eq_true, Bool.not_eq_true',
              Bool.and_eq_false_iff, decide_eq_false_iff_not]
            by_cases company : user.company = some firm
            · have last := @isLastActiveOwner_eq_true m.users id user firm company
              rw [← Bool.not_eq_true, ← Bool.not_eq_true (isLastActiveOwner _ _ _), last]
              tauto
            · have outside : user.owns (some firm) = false := by
                rw [← Bool.not_eq_true, User.owns_iff]
                exact fun owner => company owner.1
              simp [outside, company]

theorem hasOwner_step {firm : Nat} (keyed : m.Keyed) (start : hasOwner m.users (some firm) = true)
    (event : Event) : hasOwner (m.step event).users (some firm) = true ↔ keepsOwner firm m event = true := by
  cases statement : event.isStatement with
  | false =>
      rw [(users_step statement).1, start, keepsOwner_of_other statement]
  | true =>
      cases event with
      | act i now => exact hasOwner_act keyed start i now
      | _ => cases statement

/-- A firm keeps an owner in every state of a run, exactly when no statement of
it rewrites the last one as it finds it. -/
theorem owner_remains (firm : Nat) (keyed : m.Keyed) (start : hasOwner m.users (some firm) = true)
    (events : List Event) :
    (∀ before, before <+: events -> hasOwner (run step m before).users (some firm) = true) ↔
      everyStep step (keepsOwner firm) m events = true := by
  let J : Machine -> Prop := fun m => m.Keyed ∧ hasOwner m.users (some firm) = true
  have now : J m := ⟨keyed, start⟩
  have keeps : ∀ m event, keepsOwner firm m event = true -> J m -> J (m.step event) := by
    rintro m event allowed ⟨keyed, start⟩
    exact ⟨keyed.step event, (hasOwner_step keyed start event).mpr allowed⟩
  constructor
  · intro within
    refine Transitions.everyStep_of_law (J := J) (L := fun m => hasOwner m.users (some firm) = true)
      keeps ?_ now within
    rintro m event ⟨keyed, start⟩ after
    exact (hasOwner_step keyed start event).mp after
  · rintro passes before ⟨after, rfl⟩
    have prefix' := (Transitions.everyStep_append.mp passes).1
    exact (Transitions.run_invariant_of_everyStep (J := J) keeps prefix' now).2

/-- The only two owners of a firm deactivate each other. -/
def eachOther : List Event :=
  [.arrive (.deactivate 1 2), .arrive (.deactivate 2 1), .act 0 0, .act 0 0, .act 1 0, .act 1 0,
   .act 0 0, .act 1 0, .act 0 0, .act 1 0]

def owner (email : String) : User := ⟨some 7, email, "", "", "", .owner, true, "", none⟩

def twoOwners : Machine := ⟨[(1, owner "a"), (2, owner "b")], 3, [], []⟩

theorem keyed_twoOwners : twoOwners.Keyed := by
  refine ⟨by decide, ?_⟩
  intro id here
  rcases Option.isSome_iff_exists.mp here with ⟨row, found⟩
  have mem := Rows.mem_of_get? found
  simp only [twoOwners, List.mem_cons, Prod.mk.injEq, List.not_mem_nil, or_false] at mem
  rcases mem with ⟨rfl, _⟩ | ⟨rfl, _⟩
  · decide
  · decide

theorem owner_remains_twoOwners :
    (∀ before, before <+: eachOther -> hasOwner (run step twoOwners before).users (some 7) = true) ↔
      everyStep step (keepsOwner 7) twoOwners eachOther = true :=
  owner_remains 7 keyed_twoOwners (by decide) eachOther

theorem no_owner_remains : ¬ ∀ (m : Machine) (firm : Nat) (events : List Event), m.Keyed ->
    hasOwner m.users (some firm) = true -> hasOwner (run step m events).users (some firm) = true := by
  intro all
  have none := all twoOwners 7 eachOther keyed_twoOwners (by decide)
  revert none
  decide +kernel

end Machine

/-! ## Requests that do not overlap -/

/-- The fields an owner is known by. -/
def User.SameStanding (row user : User) : Prop :=
  row.company = user.company ∧ row.role = user.role ∧ row.isActive = user.isActive

namespace Stage

/-- The row a request has read, or decided about, and has not written yet. -/
def inHand : Stage -> Option Nat
  | .saving id _ _ => some id
  | .checking id _ _ => some id
  | .moving id _ => some id
  | .counting id _ => some id
  | .deactivating id => some id
  | _ => none

/-- What a stage goes by is still so. -/
def Current (users : Rows User) : Stage -> Prop
  | .saving id user _ => ∃ row, users.get? id = some row ∧ row.SameStanding user
  | .checking id user _ => ∃ row, users.get? id = some row ∧ row.SameStanding user
  | .moving id role => ∃ row, users.get? id = some row ∧
      (isLastActiveOwner users id row = true -> role = .owner)
  | .counting id user => ∃ row, users.get? id = some row ∧ row.SameStanding user
  | .deactivating id => ∃ row, users.get? id = some row ∧ isLastActiveOwner users id row = false
  | _ => True

theorem current_of_inHand {stage : Stage} (nothing : stage.inHand = none) : stage.Current users := by
  cases stage with
  | saving id user role => cases nothing
  | checking id user role => cases nothing
  | moving id role => cases nothing
  | counting id user => cases nothing
  | deactivating id => cases nothing
  | _ => trivial

end Stage

theorem otherOwners_insert {key : Nat} {user : User}
    (none : otherOwners (users.insert key user) firm id = 0) : otherOwners users firm id = 0 := by
  unfold otherOwners Rows.insert at *
  rw [List.countP_append, Nat.add_eq_zero_iff] at none
  exact none.1

theorem isLastActiveOwner_insert {key : Nat} {user row : User}
    (last : isLastActiveOwner (users.insert key user) id row = true) :
    isLastActiveOwner users id row = true := by
  unfold isLastActiveOwner at *
  rw [Bool.and_eq_true, decide_eq_true_eq] at *
  exact ⟨last.1, otherOwners_insert last.2⟩

theorem Stage.Current.insert {stage : Stage} (current : stage.Current users) (key : Nat) (user : User) :
    stage.Current (users.insert key user) := by
  cases stage with
  | saving id user' role =>
      rcases current with ⟨row, found, same⟩
      exact ⟨row, Rows.get?_insert_of_some found, same⟩
  | checking id user' role =>
      rcases current with ⟨row, found, same⟩
      exact ⟨row, Rows.get?_insert_of_some found, same⟩
  | moving id role =>
      rcases current with ⟨row, found, stays⟩
      exact ⟨row, Rows.get?_insert_of_some found, fun last => stays (isLastActiveOwner_insert last)⟩
  | counting id user' =>
      rcases current with ⟨row, found, same⟩
      exact ⟨row, Rows.get?_insert_of_some found, same⟩
  | deactivating id =>
      rcases current with ⟨row, found, others⟩
      refine ⟨row, Rows.get?_insert_of_some found, ?_⟩
      rw [← Bool.not_eq_true] at others ⊢
      exact fun last => others (isLastActiveOwner_insert last)
  | _ => trivial

theorem User.SameStanding.isLastActiveOwner {row user : User} (same : row.SameStanding user) :
    isLastActiveOwner users id row = isLastActiveOwner users id user := by
  unfold Users.isLastActiveOwner
  rw [same.1, same.2.1, same.2.2]

namespace Machine

/-- A row is written while no other request has one in hand. -/
def oneAtATime (m : Machine) : Event -> Bool
  | .act i _ =>
      match (m.threads[i]?).bind (fun thread => thread.stage.write) with
      | none => true
      | some _ => (List.range m.threads.length).all (fun j =>
          decide (j = i) || ((m.threads[j]?).bind (fun thread => thread.stage.inHand)).isNone)
  | _ => true

/-- What every request goes by is still so. -/
def Current (m : Machine) : Prop :=
  ∀ (i : Nat) (thread : Thread), m.threads[i]? = some thread -> thread.stage.Current m.users

theorem object_spec {requester user : User} (found : m.object requester id = some user) :
    m.users.get? id = some user := (Option.filter_eq_some_iff.mp found).1

theorem sameStanding_apply (changes : UserChanges) (user : User) :
    user.SameStanding (changes.apply user) := ⟨rfl, rfl, rfl⟩

theorem isLastActiveOwner_owner {user : User} (last : isLastActiveOwner users id user = true) :
    user.role = .owner ∧ user.isActive = true ∧ user.company.isSome = true ∧
      otherOwners users user.company id = 0 := by
  unfold isLastActiveOwner at last
  simpa [and_assoc] using last

theorem current_edit {requester user : User} {changes : UserChanges} {role : Option Role}
    (found : users.get? id = some user) : (edit requester id user changes role).Current users := by
  unfold edit
  split
  · trivial
  · exact ⟨user, found, sameStanding_apply changes user⟩

theorem current_deactivateUser {user : User} (found : users.get? id = some user) :
    (deactivateUser id user).Current users := by
  unfold deactivateUser
  split
  · exact ⟨user, found, rfl, rfl, rfl⟩
  · rename_i other
    refine ⟨user, found, ?_⟩
    rw [← Bool.not_eq_true]
    exact fun last => other (isLastActiveOwner_owner last).1

/-- `change_role` looks for others whenever it matters. -/
theorem current_changeRole {user : User} {role : Role} (found : users.get? id = some user) :
    (changeRole id user role).Current users := by
  unfold changeRole
  split
  · exact ⟨user, found, rfl, rfl, rfl⟩
  · rename_i checked
    refine ⟨user, found, ?_⟩
    intro last
    rcases isLastActiveOwner_owner last with ⟨own, active, company, _⟩
    by_contra different
    exact checked ⟨by rw [own]; exact different, own, active, company⟩

theorem inHand_authenticate (request : Request) (requester : Nat) :
    (m.authenticate request requester).inHand = none := by
  unfold authenticate
  split
  · rfl
  · split
    · rfl
    · split
      · rfl
      · rfl

theorem inHand_lookUp (token : String) (now : Nat) : (m.lookUp token now).inHand = none := by
  unfold lookUp
  split
  · rfl
  · split
    · rfl
    · split
      · rfl
      · rfl

/-- The checks of a request hold when they are made. -/
theorem current_next {request : Request} {stage : Stage} {now : Nat} (current : stage.Current m.users) :
    (m.next now request stage).Current (m.written stage) := by
  cases stage with
  | begun =>
      apply Stage.current_of_inHand
      cases request with
      | update requester user changes role => exact inHand_authenticate _ _
      | deactivate requester user => exact inHand_authenticate _ _
      | accept token => exact inHand_lookUp token now
  | authenticated requester =>
      cases request with
      | update requesterId id changes role =>
          unfold next
          dsimp only
          split
          · trivial
          · rename_i user found
            exact current_edit (object_spec found)
      | deactivate requesterId id =>
          unfold next
          dsimp only
          split
          · trivial
          · rename_i user found
            split
            · trivial
            · exact current_deactivateUser (object_spec found)
      | accept token => trivial
  | saving id user role =>
      rcases current with ⟨row, found, _⟩
      have saved : (m.users.update id (fun _ => user)).get? id = some user := by
        rw [Rows.get?_update_self, found, Option.map_some]
      cases role with
      | none => cases request <;> trivial
      | some role => cases request <;> exact current_changeRole saved
  | checking id user role =>
      rcases current with ⟨row, found, same⟩
      have checks : (if isLastActiveOwner m.users id user then
          Stage.refused .lastOwnerCannotBeDeactivated else .moving id role).Current m.users := by
        split
        · trivial
        · rename_i others
          refine ⟨row, found, ?_⟩
          intro last
          rw [same.isLastActiveOwner] at last
          exact absurd last others
      cases request <;> exact checks
  | counting id user =>
      rcases current with ⟨row, found, same⟩
      have counts : (if otherOwners m.users user.company id = 0 then
          Stage.refused .lastOwnerCannotBeDeactivated else .deactivating id).Current m.users := by
        split
        · trivial
        · rename_i others
          refine ⟨row, found, ?_⟩
          rw [same.isLastActiveOwner, ← Bool.not_eq_true]
          exact fun last => others (isLastActiveOwner_owner last).2.2.2
      cases request <;> exact counts
  | _ => cases request <;> trivial

theorem threads_setStage {i j : Nat} {stage : Stage} {thread : Thread}
    (listed : (m.setStage i stage).threads[j]? = some thread) :
    (j = i ∧ thread.stage = stage) ∨ (j ≠ i ∧ m.threads[j]? = some thread) := by
  unfold setStage at listed
  split at listed
  · rcases Transitions.slot_set listed with ⟨same, rfl⟩ | ⟨other, listed'⟩
    · exact Or.inl ⟨same, rfl⟩
    · exact Or.inr ⟨other, listed'⟩
  · rename_i absent
    refine Or.inr ⟨?_, listed⟩
    rintro rfl
    rw [absent] at listed
    cases listed

theorem others_idle {i now j : Nat} (alone : m.oneAtATime (.act i now) = true) {thread other : Thread}
    (listed : m.threads[i]? = some thread) (writes : thread.stage.write = some (id, f))
    (different : j ≠ i) (listed' : m.threads[j]? = some other) : other.stage.inHand = none := by
  unfold oneAtATime at alone
  dsimp only at alone
  rw [listed, Option.bind_some, writes] at alone
  have within : j ∈ List.range m.threads.length :=
    List.mem_range.mpr (List.getElem?_eq_some_iff.mp listed').1
  have idle := List.all_eq_true.mp alone j within
  rw [listed', Option.bind_some, Bool.or_eq_true, decide_eq_true_eq, Option.isNone_iff_eq_none] at idle
  exact idle.resolve_left different

theorem Current.act (current : m.Current) {i now : Nat} (alone : m.oneAtATime (.act i now) = true) :
    (m.act i now).Current := by
  cases listed : m.threads[i]? with
  | none =>
      rw [act_of_none listed]
      exact current
  | some thread =>
      have own := current i thread listed
      unfold Machine.act
      rw [listed]
      dsimp only
      split
      · rename_i id invitation now' at_stage
        split
        · intro j other listed'
          rw [(users_setStage _ _).1]
          rcases threads_setStage listed' with ⟨_, stage⟩ | ⟨_, before⟩
          · rw [stage]
            trivial
          · exact current j other before
        · rename_i m' joined
          unfold join at joined
          split at joined
          · cases joined
          · cases joined
            intro j other listed'
            rw [(users_setStage _ _).1]
            rcases threads_setStage listed' with ⟨_, stage⟩ | ⟨_, before⟩
            · rw [stage]
              trivial
            · exact (current j other before).insert _ _
      · intro j other listed'
        rw [(users_setStage _ _).1]
        rcases threads_setStage listed' with ⟨_, stage⟩ | ⟨different, before⟩
        · rw [stage]
          exact current_next own
        · have kept := current j other before
          cases at_write : thread.stage.write with
          | none =>
              have same : m.written thread.stage = m.users := by
                unfold written
                rw [at_write]
              rw [same]
              exact kept
          | some write =>
              exact Stage.current_of_inHand (others_idle alone listed at_write different before)

theorem Current.step (current : m.Current) {event : Event} (alone : m.oneAtATime event = true) :
    (m.step event).Current := by
  cases event with
  | act i now => exact current.act alone
  | arrive request =>
      intro j other listed
      rcases Transitions.slot_concat listed with ⟨_, rfl⟩ | before
      · trivial
      · exact current j other before
  | lose i =>
      intro j other listed
      rw [show (m.step (.lose i)).users = m.users from (users_setStage _ _).1]
      rcases threads_setStage listed with ⟨_, stage⟩ | ⟨_, before⟩
      · rw [stage]
        trivial
      · exact current j other before
  | invite id invitation =>
      have same : (m.step (.invite id invitation)).threads = m.threads := by
        unfold Machine.step
        dsimp only
        split
        · rfl
        · rfl
      intro j other listed
      rw [(users_step rfl).1]
      rw [same] at listed
      exact current j other listed

theorem keepsOwner_of_current {firm : Nat} (current : m.Current) (event : Event) :
    keepsOwner firm m event = true := by
  unfold keepsOwner
  split
  · rename_i i now
    split
    · rfl
    · rename_i id f at_write
      rcases Option.bind_eq_some_iff.mp at_write with ⟨thread, listed, writes⟩
      split
      · rfl
      · rename_i user found
        rw [Bool.or_eq_true, Bool.not_eq_true', Bool.and_eq_false_iff, decide_eq_false_iff_not]
        by_cases here : user.company = some firm
        · cases last : isLastActiveOwner m.users id user with
          | false => exact Or.inl (Or.inr rfl)
          | true =>
              have owns := ((isLastActiveOwner_eq_true here).mp last).1
              have own := current i thread listed
              right
              cases at_stage : thread.stage with
              | saving id' user' role =>
                  rw [at_stage] at own writes
                  cases writes
                  rcases own with ⟨row, found', same⟩
                  rw [found] at found'
                  cases found'
                  rw [User.owns_iff] at owns ⊢
                  rw [← same.1, ← same.2.1, ← same.2.2]
                  exact owns
              | moving id' role =>
                  rw [at_stage] at own writes
                  cases writes
                  rcases own with ⟨row, found', stays⟩
                  rw [found] at found'
                  cases found'
                  rw [User.owns_iff] at owns ⊢
                  exact ⟨owns.1, stays last, owns.2.2⟩
              | deactivating id' =>
                  rw [at_stage] at own writes
                  cases writes
                  rcases own with ⟨row, found', others⟩
                  rw [found] at found'
                  cases found'
                  rw [last] at others
                  cases others
              | _ =>
                  rw [at_stage] at writes
                  cases writes
        · exact Or.inl (Or.inl here)
  · rfl

/-- The checks are enough as long as no request writes a row between those of
another. -/
theorem owner_remains_oneAtATime (firm : Nat) (keyed : m.Keyed)
    (start : hasOwner m.users (some firm) = true) (current : m.Current) {events : List Event}
    (alone : everyStep step oneAtATime m events = true) :
    hasOwner (run step m events).users (some firm) = true := by
  let J : Machine -> Prop := fun m => (m.Keyed ∧ hasOwner m.users (some firm) = true) ∧ m.Current
  have now : J m := ⟨⟨keyed, start⟩, current⟩
  have keeps : ∀ m event, oneAtATime m event = true -> J m -> J (m.step event) := by
    rintro m event passes ⟨⟨keyed, start⟩, current⟩
    exact ⟨⟨keyed.step event, (hasOwner_step keyed start event).mpr (keepsOwner_of_current current event)⟩,
      current.step passes⟩
  exact (Transitions.run_invariant_of_everyStep (J := J) keeps alone now).1.2

end Machine
end Users
end Shiftlush
