import Shiftlush.Portal.Accounts

namespace Shiftlush
namespace Portal

open Transitions (run everyStep)

/-!
# A closed account

Every road into an account but one asks whether it is active.  The one that
makes it active asks nothing about the closing.
-/

/-- The credential is from before the closing. -/
def Credential.isBefore (closing : Closing) : Credential -> Bool
  | .link token => decide (token < closing.links)
  | .session token => decide (token < closing.sessions)
  | .password => false

/-- Access to a closed account, by a link or a session from before. -/
def Reply.reopens (s : State) : Reply -> Bool
  | .access account credential =>
      s.closed.any (fun closing => decide (closing.account = account) && credential.isBefore closing)
  | _ => false

namespace State

variable {s s' : State} {closing : Closing}

/-! ## What a closing leaves -/

/-- Since the closing nothing has been issued to the account, which is not active. -/
structure Shut (s : State) (closing : Closing) : Prop where
  exists' : closing.account < s.nextAccount
  inactive : ∀ account, s.accounts.get? closing.account = some account -> account.isActive = false
  links : ∀ id link, s.links.get? id = some link -> link.account = closing.account -> id < closing.links
  sessions : ∀ id session, s.sessions.get? id = some session -> session.account = closing.account ->
    id < closing.sessions

structure Sound (s : State) : Prop where
  distinct : s.accounts.Distinct
  accounts : s.accounts.Below s.nextAccount
  links : s.links.Below s.nextLink
  sessions : s.sessions.Below s.nextSession
  shut : ∀ closing ∈ s.closed, s.Shut closing

/-! ## Tables -/

/-- The rows of an account were there before. -/
def Within {ρ : Type} (owner : ρ -> Nat) (rows rows' : Rows ρ) (id : Nat) : Prop :=
  ∀ key row', rows'.get? key = some row' -> owner row' = id ->
    ∃ row, rows.get? key = some row ∧ owner row = id

namespace Within

variable {ρ : Type} {owner : ρ -> Nat} {rows rows' : Rows ρ} {id : Nat}

theorem refl : Within owner rows rows id := fun _ row found own => ⟨row, found, own⟩

theorem update {f : ρ -> ρ} (owned : ∀ row, owner (f row) = owner row) (key : Nat) :
    Within owner rows (rows.update key f) id := by
  intro key' row' found own
  rw [Rows.get?_update] at found
  split at found
  · rcases Option.map_eq_some_iff.mp found with ⟨row, found', rfl⟩
    exact ⟨row, found', (owned row).symm.trans own⟩
  · exact ⟨row', found, own⟩

theorem updateWhere {f : ρ -> ρ} (owned : ∀ row, owner (f row) = owner row) (p : Nat -> ρ -> Bool) :
    Within owner rows (rows.updateWhere p f) id := by
  intro key row' found own
  rw [Rows.get?_updateWhere] at found
  rcases Option.map_eq_some_iff.mp found with ⟨row, found', rfl⟩
  refine ⟨row, found', ?_⟩
  split at own
  · exact (owned row).symm.trans own
  · exact own

theorem insert (within : Within owner rows rows' id) {key : Nat} {row : ρ} (other : owner row ≠ id) :
    Within owner rows (rows'.insert key row) id := by
  intro key' row' found own
  rw [Rows.get?_insert] at found
  cases before : rows'.get? key' with
  | some row'' =>
      rw [before, Option.some_or] at found
      cases found
      exact within key' row' before own
  | none =>
      rw [before, Option.none_or] at found
      split at found
      · cases found
        exact absurd own other
      · cases found

end Within

theorem Shut.issued (shut : s.Shut closing) (next : s.nextAccount = s'.nextAccount)
    (accounts : s'.accounts = s.accounts)
    (links : Within OneTimeToken.account s.links s'.links closing.account)
    (sessions : Within RefreshSession.account s.sessions s'.sessions closing.account) : s'.Shut closing where
  exists' := next ▸ shut.exists'
  inactive := accounts ▸ shut.inactive
  links key link' found' own := by
    rcases links key link' found' own with ⟨link, found, own'⟩
    exact shut.links key link found own'
  sessions key session' found' own := by
    rcases sessions key session' found' own with ⟨session, found, own'⟩
    exact shut.sessions key session found own'

/-! ## What each statement keeps -/

/-- The account is not a closed one. -/
def IsOpen (s : State) (id : Nat) : Prop := ∀ closing ∈ s.closed, closing.account ≠ id

namespace Sound

theorem isOpen_of_active (sound : s.Sound) {id : Nat} {account : Account}
    (found : s.accounts.get? id = some account) (active : account.isActive = true) : s.IsOpen id := by
  rintro closing mem rfl
  have inactive := (sound.shut closing mem).inactive account found
  rw [active] at inactive
  cases inactive

theorem revoke (sound : s.Sound) (selects : Nat -> RefreshSession -> Bool) (now : Nat) :
    (s.revoke selects now).Sound := by
  unfold State.revoke
  refine ⟨sound.distinct, sound.accounts, sound.links, sound.sessions.of_isSome ?_, ?_⟩
  · intro id
    dsimp only
    exact Rows.isSome_get?_updateWhere _ _ _ id
  · intro closing mem
    refine (sound.shut closing mem).issued rfl rfl .refl ?_
    dsimp only
    apply Within.updateWhere
    intro row
    rfl

theorem consume (sound : s.Sound) (token now : Nat) : (s.consume token now).Sound := by
  unfold State.consume
  refine ⟨sound.distinct, sound.accounts, sound.links.of_isSome ?_, sound.sessions, ?_⟩
  · intro id
    dsimp only
    exact Rows.isSome_get?_update _ _ _ _
  · intro closing mem
    refine (sound.shut closing mem).issued rfl rfl ?_ .refl
    dsimp only
    apply Within.update
    intro row
    rfl

theorem issueTokens (sound : s.Sound) {id : Nat} (isOpen : s.IsOpen id) (continues : Option RefreshSession)
    (now : Nat) : (s.issueTokens id continues now).Sound := by
  refine ⟨sound.distinct, sound.accounts, sound.links, sound.sessions.insert _, ?_⟩
  intro closing mem
  exact (sound.shut closing mem).issued rfl rfl .refl (Within.refl.insert (isOpen closing mem).symm)

theorem issueOneTimeToken (sound : s.Sound) {id : Nat} (isOpen : s.IsOpen id) (purpose : Purpose)
    (lifetime now : Nat) : (s.issueOneTimeToken id purpose lifetime now).Sound := by
  unfold State.issueOneTimeToken retired
  refine ⟨sound.distinct, sound.accounts, (sound.links.of_isSome ?_).insert _, sound.sessions, ?_⟩
  · intro id
    exact Rows.isSome_get?_updateWhere _ _ _ id
  · intro closing mem
    refine (sound.shut closing mem).issued rfl rfl ?_ .refl
    apply Within.insert _ (isOpen closing mem).symm
    apply Within.updateWhere
    intro row
    rfl

/-- Accounts are rewritten, and those of a closing stay inactive. -/
theorem rewrite (sound : s.Sound) {accounts : Rows Account} (distinct : accounts.Distinct)
    (same : ∀ id, (accounts.get? id).isSome = (s.accounts.get? id).isSome)
    (stays : ∀ closing ∈ s.closed, ∀ account', accounts.get? closing.account = some account' ->
      ∃ account, s.accounts.get? closing.account = some account ∧
        (account.isActive = false -> account'.isActive = false)) :
    ({ s with accounts := accounts } : State).Sound := by
  refine ⟨distinct, sound.accounts.of_isSome same, sound.links, sound.sessions, ?_⟩
  intro closing mem
  have shut := sound.shut closing mem
  refine ⟨shut.exists', ?_, shut.links, shut.sessions⟩
  intro account' found'
  rcases stays closing mem account' found' with ⟨account, found, kept⟩
  exact kept (shut.inactive account found)

theorem update (sound : s.Sound) {id : Nat} {f : Account -> Account}
    (stays : (∀ account, account.isActive = false -> (f account).isActive = false) ∨ s.IsOpen id) :
    ({ s with accounts := s.accounts.update id f } : State).Sound := by
  refine sound.rewrite (sound.distinct.update id f) (fun id' => Rows.isSome_get?_update _ _ _ _) ?_
  intro closing mem account' found'
  rw [Rows.get?_update] at found'
  split at found'
  · rename_i here
    rcases Option.map_eq_some_iff.mp found' with ⟨account, found, rfl⟩
    rcases stays with stays | isOpen
    · exact ⟨account, found, stays account⟩
    · exact absurd here (isOpen closing mem)
  · exact ⟨account', found', fun inactive => inactive⟩

/-- Accounts that are not active are closed. -/
theorem close (sound : s.Sound) (ids : List Nat)
    (here : ∀ id ∈ ids, id < s.nextAccount ∧
      ∀ account, s.accounts.get? id = some account -> account.isActive = false) :
    ({ s with closed := ids.map (fun id => ⟨id, s.nextLink, s.nextSession⟩) ++ s.closed } : State).Sound := by
  refine ⟨sound.distinct, sound.accounts, sound.links, sound.sessions, ?_⟩
  intro closing mem
  rcases List.mem_append.mp mem with new | old
  · rcases List.mem_map.mp new with ⟨id, listed, rfl⟩
    refine ⟨(here id listed).1, (here id listed).2, ?_, ?_⟩
    · intro key link found _
      exact sound.links key (by rw [found]; rfl)
    · intro key session found _
      exact sound.sessions key (by rw [found]; rfl)
  · have shut := sound.shut closing old
    exact ⟨shut.exists', shut.inactive, shut.links, shut.sessions⟩

/-! ## What each request keeps -/

theorem contacts (sound : s.Sound) (contacts : Rows Contact) : ({ s with contacts := contacts } : State).Sound := by
  refine ⟨sound.distinct, sound.accounts, sound.links, sound.sessions, ?_⟩
  intro closing mem
  have shut := sound.shut closing mem
  exact ⟨shut.exists', shut.inactive, shut.links, shut.sessions⟩

theorem signInAccount_mem {email : String} {r : Nat × Account} (found : s.signInAccount email = some r) :
    r ∈ s.accounts := by
  have listed := Transitions.mem_of_foldl_best (fun _ => rfl) (fun _ _ => ite_eq_or_eq _ _ _) found
  exact (List.mem_filter.mp listed).1

theorem signIn (sound : s.Sound) (email password : String) (now : Nat) :
    (s.signIn email password now).1.Sound := by
  unfold State.signIn
  split
  · exact sound
  · rename_i id account found
    split
    · exact sound
    · split
      · exact sound
      · rename_i active
        rw [Bool.not_eq_true', Bool.not_eq_false] at active
        have listed := Rows.get?_of_mem sound.distinct (signInAccount_mem found)
        exact sound.issueTokens (sound.isOpen_of_active listed active) none now

theorem rotate (sound : s.Sound) (token now : Nat) : (s.rotate token now).1.Sound := by
  unfold State.rotate
  split
  · exact sound
  · rename_i session _
    split
    · split
      · exact sound.revoke (fun _ row => decide (row.account = session.account)) now
      · exact sound
    · split
      · exact sound
      · split
        · exact sound
        · rename_i account found
          split
          · exact sound
          · rename_i lets
            rw [Bool.or_eq_true, not_or, Bool.not_eq_true', Bool.not_eq_false] at lets
            exact (sound.revoke _ now).issueTokens (sound.isOpen_of_active found lets.1) _ now

theorem requestPasswordReset (sound : s.Sound) (email : String) (now : Nat) :
    (s.requestPasswordReset email now).Sound := by
  unfold State.requestPasswordReset
  split
  · exact sound
  · rename_i id account found
    have listed := Rows.get?_of_mem sound.distinct (List.mem_of_find?_eq_some found)
    have passes := List.find?_some found
    rw [Bool.and_eq_true, Bool.and_eq_true] at passes
    exact sound.issueOneTimeToken (sound.isOpen_of_active listed passes.1.2) _ _ now

theorem confirmPasswordReset (sound : s.Sound) (token : Nat) (newPassword : String) (now : Nat) :
    (s.confirmPasswordReset token newPassword now).1.Sound := by
  unfold State.confirmPasswordReset
  split
  · exact sound
  · rename_i record _
    split
    · exact sound
    · split
      · exact sound
      · have used := (sound.consume token now).revoke (fun _ row => decide (row.account = record.account)) now
        exact used.update (Or.inl fun account inactive => inactive)

theorem deactivate (sound : s.Sound) (id now : Nat) : (s.deactivate id now).1.Sound := by
  unfold State.deactivate
  split
  · exact sound
  · rename_i account found
    have revoked := sound.revoke (fun _ row => decide (row.account = id)) now
    have inactive : ({ s.revokeAllSessions id now with
        accounts := s.accounts.update id (fun account => deactivated account now) } : State).Sound :=
      revoked.update (Or.inl fun account inactive => rfl)
    refine inactive.close [id] ?_
    intro id' same
    rw [List.mem_singleton] at same
    subst same
    constructor
    · apply sound.accounts
      rw [(Option.filter_eq_some_iff.mp found).1]
      rfl
    · intro account' found'
      rw [Rows.get?_update_self] at found'
      rcases Option.map_eq_some_iff.mp found' with ⟨_, _, rfl⟩
      rfl

theorem closeAccountsOf (sound : s.Sound) (contact now : Nat) : (s.closeAccountsOf contact now).Sound := by
  unfold State.closeAccountsOf
  have revoked := sound.revoke (fun _ row => (s.accounts.filter (fun r => closes contact r.2)).any
    (fun r => decide (r.1 = row.account))) now
  have shut := revoked.rewrite
    (sound.distinct.updateWhere (fun _ account => closes contact account) (fun account => deactivated account now))
    (Rows.isSome_get?_updateWhere _ _ _) (by
      intro closing _ account' found'
      rw [Rows.get?_updateWhere] at found'
      rcases Option.map_eq_some_iff.mp found' with ⟨account, found, rfl⟩
      refine ⟨account, found, ?_⟩
      intro inactive
      split
      · rfl
      · exact inactive)
  have closed := shut.close ((s.accounts.filter (fun r => decide (r.2.contact = contact) && !r.2.isDeleted)).map
    Prod.fst) (by
      intro id listed
      rcases List.mem_map.mp listed with ⟨r, mem, rfl⟩
      rcases List.mem_filter.mp mem with ⟨mem, meant⟩
      have found := Rows.get?_of_mem sound.distinct mem
      refine ⟨sound.accounts r.1 (by rw [found]; rfl), ?_⟩
      intro account' found'
      rw [Rows.get?_updateWhere, found, Option.map_some] at found'
      cases found'
      split
      · rfl
      · rename_i active
        unfold closes at active
        rw [meant, Bool.true_and, Bool.not_eq_true] at active
        exact active)
  rw [List.map_map] at closed
  exact closed

theorem isOpen_prepare (sound : s.Sound) (customer contact : Nat) (email : String) (now : Nat)
    (account : Option Nat) :
    (s.prepare customer contact email now account).IsOpen (account.getD s.nextAccount) := by
  cases account with
  | none =>
      intro closing mem same
      have here := (sound.shut closing mem).exists'
      rw [same, Option.getD_none] at here
      omega
  | some id =>
      intro closing mem
      exact of_decide_eq_true (List.mem_filter.mp mem).2

theorem prepare (sound : s.Sound) (customer contact : Nat) (email : String) (now : Nat)
    (account : Option Nat) : (s.prepare customer contact email now account).Sound := by
  cases account with
  | none =>
      have absent := sound.accounts.absent (le_refl _)
      refine ⟨sound.distinct.insert absent, sound.accounts.insert _, sound.links, sound.sessions, ?_⟩
      intro closing mem
      have shut := sound.shut closing mem
      refine ⟨Nat.lt_succ_of_lt shut.exists', ?_, shut.links, shut.sessions⟩
      intro account found
      have other : s.nextAccount ≠ closing.account := (Nat.ne_of_lt shut.exists').symm
      unfold State.prepare at found
      dsimp only at found
      rw [Rows.get?_insert_of_ne other] at found
      exact shut.inactive account found
  | some id =>
      have edited : ({ s with
          accounts := s.accounts.update id (fun account =>
            { account with email := email, invitedAt := now }) } : State).Sound :=
        sound.update (Or.inl fun account inactive => inactive)
      refine ⟨edited.distinct, edited.accounts, edited.links, edited.sessions, ?_⟩
      intro closing mem
      have shut := edited.shut closing (List.mem_filter.mp mem).1
      exact ⟨shut.exists', shut.inactive, shut.links, shut.sessions⟩

theorem invite (sound : s.Sound) (customer contact now : Nat) : (s.invite customer contact now).1.Sound := by
  unfold State.invite
  split
  · exact sound
  · rename_i email account _
    exact (sound.prepare customer contact email now account).issueOneTimeToken
      (sound.isOpen_prepare customer contact email now account) _ _ now

/-- An accepted account that is not a closed one. -/
theorem accept (sound : s.Sound) {token : Nat} (password : String) {now : Nat}
    (isOpen : ∀ id, s.acceptable token now = .ok id -> s.IsOpen id) : (s.accept token password now).1.Sound := by
  unfold State.accept
  split
  · exact sound
  · rename_i id accepted
    have here := isOpen id accepted
    exact ((sound.consume token now).update (f := fun account =>
      { account with
        password := password
        isActive := true
        acceptedAt := some now
        deactivatedAt := none }) (Or.inr here)).issueTokens here none now

end Sound

/-! ## The law -/

/-- The link presented is not one from before the closing of its account, or
`accept` refuses it. -/
def keepsClosed (s : State) (event : Event) : Bool :=
  match event.request with
  | .accept token _ =>
      match s.acceptable token event.now with
      | .ok id => !s.closed.any (fun closing => decide (closing.account = id) && decide (token < closing.links))
      | .error _ => true
  | _ => true

theorem consumable_ok {token now : Nat} {purpose : Purpose} {record : OneTimeToken}
    (usable : s.consumable token purpose now = .ok record) : s.links.get? token = some record ∧
      record.purpose = purpose ∧ record.usedAt = none ∧ now < record.expiresAt := by
  unfold consumable at usable
  split at usable
  · cases usable
  · rename_i record' found
    split at usable
    · cases usable
    · rename_i unused
      split at usable
      · cases usable
      · rename_i unexpired
        cases usable
        rcases Option.filter_eq_some_iff.mp found with ⟨listed, same⟩
        refine ⟨listed, of_decide_eq_true same, ?_, by omega⟩
        exact Option.isSome_eq_false_iff.mp (Bool.eq_false_iff.mpr unused) |> Option.isNone_iff_eq_none.mp

theorem acceptable_ok {token now id : Nat} (accepted : s.acceptable token now = .ok id) :
    ∃ record, s.consumable token .portalInvitation now = .ok record ∧ record.account = id := by
  unfold acceptable at accepted
  split at accepted
  · cases accepted
  · rename_i record usable
    split at accepted
    · cases accepted
    · split at accepted
      · cases accepted
      · split at accepted
        · cases accepted
        · exact ⟨record, usable, Except.ok.inj accepted⟩

theorem isOpen_of_keepsClosed (sound : s.Sound) {token now : Nat} {password : String}
    (keeps : s.keepsClosed ⟨.accept token password, now⟩ = true) {id : Nat}
    (accepted : s.acceptable token now = .ok id) : s.IsOpen id := by
  rintro closing mem rfl
  rcases acceptable_ok accepted with ⟨record, usable, own⟩
  have earlier := (sound.shut closing mem).links token record (consumable_ok usable).1 own
  unfold keepsClosed at keeps
  dsimp only at keeps
  rw [accepted] at keeps
  dsimp only at keeps
  rw [Bool.not_eq_true', List.any_eq_false] at keeps
  apply keeps closing mem
  simp [earlier]

theorem Sound.step (sound : s.Sound) {event : Event} (keeps : s.keepsClosed event = true) :
    (s.step event).Sound := by
  rcases event with ⟨request, now⟩
  cases request with
  | invite customer contact => exact sound.invite customer contact now
  | accept token password => exact sound.accept password (fun id => isOpen_of_keepsClosed sound keeps)
  | signIn email password => exact sound.signIn email password now
  | rotate token => exact sound.rotate token now
  | signOut token => exact sound.revoke _ now
  | present session => exact sound
  | requestPasswordReset email => exact sound.requestPasswordReset email now
  | confirmPasswordReset token newPassword => exact sound.confirmPasswordReset token newPassword now
  | deactivate account => exact sound.deactivate account now
  | deleteContact contact => exact (sound.contacts _).closeAccountsOf contact now
  | editContact contact email => exact sound.contacts _

/-- A road other than the acceptance lets an active account in. -/
theorem reopens_of_active (sound : s.Sound) {id : Nat} {account : Account} {credential : Credential}
    (found : s.accounts.get? id = some account) (active : account.isActive = true) :
    (Reply.access id credential).reopens s = false := by
  unfold Reply.reopens
  dsimp only
  rw [List.any_eq_false]
  intro closing mem
  have other := sound.isOpen_of_active found active closing mem
  simp [other]

theorem reopens_signIn (sound : s.Sound) (email password : String) (now : Nat) :
    (s.signIn email password now).2.reopens s = false := by
  unfold signIn
  split
  · rfl
  · rename_i id account found
    split
    · rfl
    · split
      · rfl
      · rename_i active
        rw [Bool.not_eq_true', Bool.not_eq_false] at active
        exact reopens_of_active sound (Rows.get?_of_mem sound.distinct (Sound.signInAccount_mem found)) active

theorem reopens_rotate (sound : s.Sound) (token now : Nat) : (s.rotate token now).2.reopens s = false := by
  unfold rotate
  split
  · rfl
  · split
    · split
      · rfl
      · rfl
    · split
      · rfl
      · split
        · rfl
        · rename_i account found
          split
          · rfl
          · rename_i lets
            rw [Bool.or_eq_true, not_or, Bool.not_eq_true', Bool.not_eq_false] at lets
            exact reopens_of_active sound found lets.1

theorem reopens_present (sound : s.Sound) (token now : Nat) : (s.present token now).reopens s = false := by
  unfold present
  split
  · rfl
  · split
    · rfl
    · split
      · rfl
      · rename_i account found
        split
        · rfl
        · split
          · rfl
          · rename_i lets
            rw [Bool.or_eq_true, not_or, Bool.not_eq_true', Bool.not_eq_false] at lets
            exact reopens_of_active sound found lets.1

theorem reopens_confirmPasswordReset (sound : s.Sound) (token : Nat) (newPassword : String) (now : Nat) :
    (s.confirmPasswordReset token newPassword now).2.reopens s = false := by
  unfold confirmPasswordReset
  split
  · rfl
  · split
    · rfl
    · rename_i account found
      split
      · rfl
      · rename_i active
        rw [Bool.not_eq_true', Bool.not_eq_false] at active
        exact reopens_of_active sound found active

/-- Only an acceptance lets somebody into a closed account. -/
theorem reopens_of_other (sound : s.Sound) {event : Event}
    (other : ∀ token password, event.request ≠ .accept token password) :
    (s.answer event).2.reopens s = false := by
  rcases event with ⟨request, now⟩
  cases request with
  | accept token password => exact absurd rfl (other token password)
  | invite customer contact =>
      unfold answer invite
      dsimp only
      split
      · rfl
      · rfl
  | signIn email password => exact reopens_signIn sound email password now
  | rotate token => exact reopens_rotate sound token now
  | present session => exact reopens_present sound session now
  | confirmPasswordReset token newPassword => exact reopens_confirmPasswordReset sound token newPassword now
  | deactivate account =>
      unfold answer deactivate
      dsimp only
      split
      · rfl
      · rfl
  | _ => rfl

theorem reopens_accept (token : Nat) (password : String) (now : Nat) :
    (s.accept token password now).2.reopens s = false ↔
      s.keepsClosed ⟨.accept token password, now⟩ = true := by
  unfold accept keepsClosed
  cases accepted : s.acceptable token now with
  | error failure => simp [accepted, Reply.reopens]
  | ok id => simp [accepted, Reply.reopens, Credential.isBefore]

theorem reopens_answer (sound : s.Sound) (event : Event) :
    (s.answer event).2.reopens s = false ↔ s.keepsClosed event = true := by
  rcases event with ⟨request, now⟩
  cases request with
  | accept token password => exact reopens_accept token password now
  | _ =>
      constructor
      · exact fun _ => rfl
      · exact fun _ => reopens_of_other sound (fun token password same => by cases same)

/-- No request of a run is let into a closed account by a link or a session from
before the closing, exactly when none presents a link that `accept` still takes. -/
theorem closing_is_final (sound : s.Sound) (events : List Event) :
    (∀ before event, before ++ [event] <+: events ->
      ((run step s before).answer event).2.reopens (run step s before) = false) ↔
      everyStep step keepsClosed s events = true := by
  constructor
  · refine Transitions.everyStep_of_stepLaw (J := Sound)
      (L := fun s event => (s.answer event).2.reopens s = false) ?_ ?_ sound
    · exact fun s event keeps sound => sound.step keeps
    · exact fun s event sound refused => (reopens_answer sound event).mp refused
  · intro passes before event earlier
    rcases earlier with ⟨after, rfl⟩
    have within := (Transitions.everyStep_append.mp passes).1
    rcases Transitions.everyStep_append.mp within with ⟨first, last⟩
    have then' : (run step s before).Sound :=
      Transitions.run_invariant_of_everyStep (J := Sound) (fun s event keeps sound => sound.step keeps)
        first sound
    rw [Transitions.everyStep_cons, Bool.and_eq_true] at last
    exact (reopens_answer then' event).mpr last.1

/-! ## An invitation that outlives the closing -/

/-- One contact, and nobody invited. -/
def firstContact : State := ⟨[(1, ⟨1, "a@b", false⟩)], [], 1, [], 1, [], 1, []⟩

theorem sound_firstContact : firstContact.Sound where
  distinct := by decide
  accounts := fun id here => by cases here
  links := fun id here => by cases here
  sessions := fun id here => by cases here
  shut := fun closing mem => by cases mem

/-- Invited, closed before the acceptance, and accepted. -/
def lateAcceptance : List Event :=
  [⟨.invite 1 1, 0⟩, ⟨.deactivate 1, 10⟩, ⟨.accept 1 "secret", 20⟩]

theorem closing_is_final_firstContact :
    (∀ before event, before ++ [event] <+: lateAcceptance ->
      ((run step firstContact before).answer event).2.reopens (run step firstContact before) = false) ↔
      everyStep step keepsClosed firstContact lateAcceptance = true :=
  closing_is_final sound_firstContact lateAcceptance

theorem closing_not_final : ¬ ∀ (s : State) (before : List Event) (event : Event), s.Sound ->
    ((run step s before).answer event).2.reopens (run step s before) = false := by
  intro all
  have final := all firstContact [⟨.invite 1 1, 0⟩, ⟨.deactivate 1, 10⟩] ⟨.accept 1 "secret", 20⟩
    sound_firstContact
  revert final
  decide +kernel

end State
end Portal
end Shiftlush
