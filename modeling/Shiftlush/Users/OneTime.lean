import Shiftlush.Users.Links

namespace Shiftlush
namespace Links

open Transitions (run everyStep)

/-!
# Links that are used once

A staff invitation is accepted once because the address of a user is unique.
Everything else is as one-time as the order of requests makes it: what a
statement writes is what an earlier one has checked.
-/

variable {t t' : Tables} {m : Machine}

namespace Tables

/-! ## What makes links no more usable -/

/-- Every usable link was one before. -/
def UsableWithin (t t' : Tables) : Prop :=
  ∀ r' ∈ t'.links, ∀ account purpose, r'.2.isUsable t'.clock account purpose = true ->
    ∃ r ∈ t.links, r.1 = r'.1 ∧ r.2.isUsable t.clock account purpose = true

/-- Every live invitation was one before. -/
def LiveWithin (t t' : Tables) : Prop :=
  ∀ r' ∈ t'.invitations, ∀ company email, r'.2.isLive t'.clock company email = true ->
    ∃ r ∈ t.invitations, r.1 = r'.1 ∧ r.2.isLive t.clock company email = true

theorem OneUsable.within (one : t.OneUsable) (within : t.UsableWithin t') : t'.OneUsable := by
  intro r mem r' mem' account purpose usable usable'
  rcases within r mem account purpose usable with ⟨before, listed, key, was⟩
  rcases within r' mem' account purpose usable' with ⟨before', listed', key', was'⟩
  rw [← key, ← key']
  exact one before listed before' listed' account purpose was was'

theorem OneLive.within (one : t.OneLive) (within : t.LiveWithin t') : t'.OneLive := by
  intro r mem r' mem' company email live live'
  rcases within r mem company email live with ⟨before, listed, key, was⟩
  rcases within r' mem' company email live' with ⟨before', listed', key', was'⟩
  rw [← key, ← key']
  exact one before listed before' listed' company email was was'

theorem UsableWithin.of_links (links : t'.links = t.links) (clock : t.clock ≤ t'.clock) :
    t.UsableWithin t' := by
  intro r mem account purpose usable
  rw [links] at mem
  refine ⟨r, mem, rfl, ?_⟩
  unfold OneTimeToken.isUsable at usable ⊢
  rw [Bool.and_eq_true, decide_eq_true_eq] at usable ⊢
  exact ⟨usable.1, by omega⟩

theorem LiveWithin.of_invitations (invitations : t'.invitations = t.invitations) (clock : t.clock ≤ t'.clock) :
    t.LiveWithin t' := by
  intro r mem company email live
  rw [invitations] at mem
  refine ⟨r, mem, rfl, ?_⟩
  unfold Invitation.isLive at live ⊢
  rw [Bool.and_eq_true, decide_eq_true_eq] at live ⊢
  exact ⟨live.1, by omega⟩

theorem isUsable_of_used {link : OneTimeToken} (used : link.usedAt.isSome = true) {now account : Nat}
    {purpose : Purpose} : link.isUsable now account purpose = false := by
  unfold OneTimeToken.isUsable OneTimeToken.isOutstanding
  rw [← Option.not_isSome, used]
  simp

theorem UsableWithin.use (t : Tables) (token : Nat) : t.UsableWithin (t.use token) := by
  intro r mem account purpose usable
  have mem : r ∈ t.links.update token (fun record => { record with usedAt := some t.clock }) := mem
  rcases Rows.mem_update.mp mem with ⟨mem, _⟩ | ⟨link, _, rfl⟩
  · exact ⟨r, mem, rfl, usable⟩
  · rw [isUsable_of_used rfl] at usable
    cases usable

/-- The links of an account and a purpose are retired, and no other is changed. -/
theorem mem_retire {account : Nat} {purpose : Purpose} {r : Nat × OneTimeToken}
    (mem : r ∈ (t.retire account purpose).links) :
    (r ∈ t.links ∧ r.2.isOutstanding account purpose = false) ∨ r.2.usedAt.isSome = true := by
  rcases List.mem_map.mp mem with ⟨before, listed, rfl⟩
  split
  · exact Or.inr rfl
  · rename_i outside
    rw [Bool.not_eq_true] at outside
    exact Or.inl ⟨listed, outside⟩

theorem UsableWithin.retire (t : Tables) (account : Nat) (purpose : Purpose) :
    t.UsableWithin (t.retire account purpose) := by
  intro r mem account' purpose' usable
  rcases mem_retire mem with ⟨listed, _⟩ | used
  · exact ⟨r, listed, rfl, usable⟩
  · rw [isUsable_of_used used] at usable
    cases usable

theorem not_usable_retire {account : Nat} {purpose : Purpose} {r : Nat × OneTimeToken}
    (mem : r ∈ (t.retire account purpose).links) (now : Nat) : r.2.isUsable now account purpose = false := by
  rcases mem_retire mem with ⟨_, outside⟩ | used
  · unfold OneTimeToken.isUsable
    rw [outside, Bool.false_and]
  · exact isUsable_of_used used

theorem lifetime_pos (purpose : Purpose) : 0 < purpose.lifetime := by
  cases purpose <;> decide

/-- A link is issued where none is usable. -/
theorem OneUsable.issue (one : t.OneUsable) {account : Nat} {purpose : Purpose}
    (none : ∀ r ∈ t.links, r.2.isUsable t.clock account purpose = false) :
    (t.issue account purpose).OneUsable := by
  have new : ∀ r, r ∈ (t.issue account purpose).links -> ∀ account' purpose',
      r.2.isUsable t.clock account' purpose' = true -> r ∈ t.links ∨
        r.1 = t.nextLink ∧ account' = account ∧ purpose' = purpose := by
    intro r mem account' purpose' usable
    rcases List.mem_append.mp mem with old | last
    · exact Or.inl old
    · rw [List.mem_singleton] at last
      subst last
      unfold OneTimeToken.isUsable OneTimeToken.isOutstanding at usable
      simp at usable
      exact Or.inr ⟨rfl, usable.1.1.symm, usable.1.2.symm⟩
  intro r mem r' mem' account' purpose' usable usable'
  rcases new r mem account' purpose' usable with old | ⟨key, rfl, rfl⟩
  · rcases new r' mem' account' purpose' usable' with old' | ⟨_, rfl, rfl⟩
    · exact one r old r' old' account' purpose' usable usable'
    · have dead : r.2.isUsable t.clock account' purpose' = false := none r old
      have usable : r.2.isUsable t.clock account' purpose' = true := usable
      rw [dead] at usable
      cases usable
  · rcases new r' mem' account' purpose' usable' with old' | ⟨key', _, _⟩
    · have dead : r'.2.isUsable t.clock account' purpose' = false := none r' old'
      have usable' : r'.2.isUsable t.clock account' purpose' = true := usable'
      rw [dead] at usable'
      cases usable'
    · exact key.trans key'.symm

/-- A link that is issued beside a usable one leaves two. -/
theorem not_oneUsable_issue {account : Nat} {purpose : Purpose} {r : Nat × OneTimeToken}
    (below : t.links.Below t.nextLink) (mem : r ∈ t.links)
    (usable : r.2.isUsable t.clock account purpose = true) : ¬ (t.issue account purpose).OneUsable := by
  intro one
  have last : (t.nextLink, (⟨account, purpose, t.clock + purpose.lifetime, none⟩ : OneTimeToken)) ∈
      (t.issue account purpose).links := List.mem_append_right _ (List.mem_singleton.mpr rfl)
  have same := one r (List.mem_append_left _ mem) _ last account purpose usable (by
    have positive := lifetime_pos purpose
    unfold OneTimeToken.isUsable OneTimeToken.isOutstanding
    simp [issue, positive])
  have lower := below.of_mem mem
  omega

theorem LiveWithin.update {id : Nat} {f : Invitation -> Invitation}
    (fewer : ∀ row now company email, (f row).isLive now company email = true ->
      row.isLive now company email = true)
    (invitations : t'.invitations = t.invitations.update id f) (clock : t'.clock = t.clock) :
    t.LiveWithin t' := by
  intro r mem company email live
  rw [invitations] at mem
  rw [clock] at live
  rcases Rows.mem_update.mp mem with ⟨mem, _⟩ | ⟨row, listed, rfl⟩
  · exact ⟨r, mem, rfl, live⟩
  · exact ⟨(id, row), listed, rfl, fewer row t.clock company email live⟩

/-- An invitation is issued, or issued again, where no other is live. -/
theorem OneLive.among (one : t.OneLive) (id company : Nat) (email : String)
    (others : ∀ r ∈ t.invitations, r.1 ≠ id -> r.2.isLive t.clock company email = false)
    (within : ∀ r' ∈ t'.invitations, ∀ company' email', r'.2.isLive t'.clock company' email' = true ->
      (r' ∈ t.invitations ∧ r'.1 ≠ id ∧ r'.2.isLive t.clock company' email' = true) ∨
        (r'.1 = id ∧ company' = company ∧ email' = email)) : t'.OneLive := by
  intro r mem r' mem' company' email' live live'
  rcases within r mem company' email' live with ⟨listed, other, was⟩ | ⟨key, rfl, rfl⟩
  · rcases within r' mem' company' email' live' with ⟨listed', _, was'⟩ | ⟨_, rfl, rfl⟩
    · exact one r listed r' listed' company' email' was was'
    · rw [others r listed other] at was
      cases was
  · rcases within r' mem' company' email' live' with ⟨listed', other', was'⟩ | ⟨key', _, _⟩
    · rw [others r' listed' other'] at was'
      cases was'
    · exact key.trans key'.symm

theorem isLive_iff {row : Invitation} {now company : Nat} {email : String} :
    row.isLive now company email = true ↔ row.company = company ∧ row.email = email ∧ row.acceptedAt = none ∧
      row.isDeleted = false ∧ now < row.expiresAt := by
  unfold Invitation.isLive
  rw [Bool.and_eq_true, Bool.and_eq_true, Bool.and_eq_true, decide_eq_true_eq, decide_eq_true_eq,
    Option.isNone_iff_eq_none, Bool.not_eq_true', and_assoc, and_assoc, and_assoc]

theorem OneLive.create (one : t.OneLive) (below : t.invitations.Below t.nextInvitation) {company : Nat}
    {email : String} (none : t.isPending company email = false) : (t.create company email).OneLive := by
  rw [isPending, List.any_eq_false] at none
  apply one.among t.nextInvitation company email
  · intro r mem _
    exact Bool.eq_false_iff.mpr (none r mem)
  · intro r mem company' email' live
    have mem : r ∈ t.invitations ++ [(t.nextInvitation,
      (⟨company, email, t.nextToken, t.clock + invitationLifetime, Option.none, false⟩ : Invitation))] := mem
    rcases List.mem_append.mp mem with old | last
    · exact Or.inl ⟨old, Nat.ne_of_lt (below.of_mem old), live⟩
    · rw [List.mem_singleton] at last
      subst last
      rcases isLive_iff.mp live with ⟨rfl, rfl, _⟩
      exact Or.inr ⟨rfl, rfl, rfl⟩

theorem not_oneLive_create (below : t.invitations.Below t.nextInvitation) {company : Nat}
    {email : String} (pending : t.isPending company email = true) : ¬ (t.create company email).OneLive := by
  intro one
  rcases List.any_eq_true.mp pending with ⟨r, mem, live⟩
  have last : (t.nextInvitation,
      (⟨company, email, t.nextToken, t.clock + invitationLifetime, none, false⟩ : Invitation)) ∈
      (t.create company email).invitations := List.mem_append_right _ (List.mem_singleton.mpr rfl)
  have same := one r (List.mem_append_left _ mem) _ last company email live (by
    rw [isLive_iff]
    refine ⟨rfl, rfl, rfl, rfl, ?_⟩
    exact Nat.lt_add_of_pos_right (by decide))
  have lower := below.of_mem mem
  omega

theorem mem_resend {id : Nat} {r : Nat × Invitation} : r ∈ (t.resend id).invitations ↔
    (r ∈ t.invitations ∧ r.1 ≠ id) ∨ ∃ row, (id, row) ∈ t.invitations ∧
      r = (id, { row with token := t.nextToken, expiresAt := t.clock + invitationLifetime }) := by
  unfold resend
  dsimp only
  exact Rows.mem_update

theorem OneLive.resend (one : t.OneLive) (distinct : t.invitations.Distinct) {id : Nat} {row : Invitation}
    (found : t.invitations.get? id = some row)
    (alone : row.acceptedAt.isSome = true ∨ row.isDeleted = true ∨ t.rivals id row = false) :
    (t.resend id).OneLive := by
  rcases alone with accepted | withdrawn | alone
  · refine one.within (fun r mem company email live => ?_)
    rcases mem_resend.mp mem with ⟨listed, _⟩ | ⟨row', listed, rfl⟩
    · exact ⟨r, listed, rfl, live⟩
    · have same := Rows.get?_of_mem distinct listed
      rw [found] at same
      cases same
      rw [(isLive_iff.mp live).2.2.1] at accepted
      cases accepted
  · refine one.within (fun r mem company email live => ?_)
    rcases mem_resend.mp mem with ⟨listed, _⟩ | ⟨row', listed, rfl⟩
    · exact ⟨r, listed, rfl, live⟩
    · have same := Rows.get?_of_mem distinct listed
      rw [found] at same
      cases same
      rw [(isLive_iff.mp live).2.2.2.1] at withdrawn
      cases withdrawn
  · unfold Tables.rivals at alone
    rw [List.any_eq_false] at alone
    apply one.among id row.company row.email
    · intro r mem other
      have not_live := alone r mem
      simpa [other] using not_live
    · intro r mem company email live
      rcases mem_resend.mp mem with ⟨listed, other⟩ | ⟨row', listed, rfl⟩
      · exact Or.inl ⟨listed, other, live⟩
      · have same := Rows.get?_of_mem distinct listed
        rw [found] at same
        cases same
        rcases isLive_iff.mp live with ⟨company', email', _⟩
        exact Or.inr ⟨rfl, company'.symm, email'.symm⟩

theorem not_oneLive_resend {id : Nat} {row : Invitation}
    (found : t.invitations.get? id = some row) (open' : row.acceptedAt = none) (kept : row.isDeleted = false)
    (rival : t.rivals id row = true) : ¬ (t.resend id).OneLive := by
  intro one
  rcases List.any_eq_true.mp rival with ⟨r, mem, passes⟩
  rw [Bool.and_eq_true, decide_eq_true_eq] at passes
  have first : r ∈ (t.resend id).invitations := mem_resend.mpr (Or.inl ⟨mem, passes.1⟩)
  have second : (id, { row with token := t.nextToken, expiresAt := t.clock + invitationLifetime }) ∈
      (t.resend id).invitations := mem_resend.mpr (Or.inr ⟨row, Rows.mem_of_get? found, rfl⟩)
  have same := one r first _ second row.company row.email passes.2 (by
    rw [isLive_iff]
    refine ⟨rfl, rfl, open', kept, ?_⟩
    exact Nat.lt_add_of_pos_right (by decide))
  exact passes.1 same

/-! ## Tokens of invitations -/

structure Issued (t : Tables) : Prop where
  links : t.links.Below t.nextLink
  distinct : t.invitations.Distinct
  below : t.invitations.Below t.nextInvitation
  tokens : ∀ r ∈ t.invitations, r.2.token < t.nextToken
  unique : ∀ r ∈ t.invitations, ∀ r' ∈ t.invitations, r.2.token = r'.2.token -> r.1 = r'.1

/-- Tokens are only ever replaced by new ones, and acceptances stay. -/
structure Advances (t t' : Tables) : Prop where
  nextToken : t.nextToken ≤ t'.nextToken
  emails : ∀ email ∈ t.emails, email ∈ t'.emails
  rows : ∀ r' ∈ t'.invitations, r'.2.token < t.nextToken -> ∃ r ∈ t.invitations, r.1 = r'.1 ∧
    r.2.token = r'.2.token ∧ r.2.email = r'.2.email ∧
    (r.2.acceptedAt.isSome = true -> r'.2.acceptedAt.isSome = true)

/-- The row a request has found under a token is the only one that has it. -/
def Joining (t : Tables) (id : Nat) (invitation : Invitation) : Prop :=
  invitation.token < t.nextToken ∧ ∀ r ∈ t.invitations, r.2.token = invitation.token ->
    r.1 = id ∧ r.2.email = invitation.email

/-- The token opens nothing any more. -/
def Spent (t : Tables) (token : Nat) : Prop :=
  token < t.nextToken ∧ ∀ r ∈ t.invitations, r.2.token = token -> r.2.acceptedAt.isSome = true

theorem Joining.advances {id : Nat} {invitation : Invitation} (joining : t.Joining id invitation)
    (advances : t.Advances t') : t'.Joining id invitation := by
  refine ⟨Nat.lt_of_lt_of_le joining.1 advances.nextToken, ?_⟩
  intro r' mem' same
  rcases advances.rows r' mem' (by rw [same]; exact joining.1) with ⟨r, mem, key, token, email, _⟩
  rcases joining.2 r mem (token.trans same) with ⟨own, address⟩
  exact ⟨key.symm.trans own, email.symm.trans address⟩

theorem Spent.advances {token : Nat} (spent : t.Spent token) (advances : t.Advances t') :
    t'.Spent token := by
  refine ⟨Nat.lt_of_lt_of_le spent.1 advances.nextToken, ?_⟩
  intro r' mem' same
  rcases advances.rows r' mem' (by rw [same]; exact spent.1) with ⟨r, mem, _, same', _, stays⟩
  exact stays (spent.2 r mem (same'.trans same))

/-- The invitations and the users are left alone. -/
structure SameInvitations (t t' : Tables) : Prop where
  invitations : t'.invitations = t.invitations
  nextInvitation : t'.nextInvitation = t.nextInvitation
  nextToken : t'.nextToken = t.nextToken
  emails : t'.emails = t.emails

theorem SameInvitations.advances (same : t.SameInvitations t') : t.Advances t' where
  nextToken := by rw [same.nextToken]
  emails email mem := by rwa [same.emails]
  rows r mem _ := ⟨r, same.invitations ▸ mem, rfl, rfl, rfl, fun accepted => accepted⟩

theorem SameInvitations.issued (same : t.SameInvitations t') (issued : t.Issued)
    (links : t'.links.Below t'.nextLink) : t'.Issued where
  links := links
  distinct := by rw [same.invitations]; exact issued.distinct
  below := by rw [same.invitations, same.nextInvitation]; exact issued.below
  tokens := by rw [same.invitations, same.nextToken]; exact issued.tokens
  unique := by rw [same.invitations]; exact issued.unique

theorem Advances.update {id : Nat} {f : Invitation -> Invitation}
    (token : ∀ row, (f row).token = row.token ∧ (f row).email = row.email)
    (accepted : ∀ row, row.acceptedAt.isSome = true -> (f row).acceptedAt.isSome = true)
    (invitations : t'.invitations = t.invitations.update id f) (nextToken : t'.nextToken = t.nextToken)
    (emails : ∀ email ∈ t.emails, email ∈ t'.emails) : t.Advances t' := by
  refine ⟨by rw [nextToken], emails, ?_⟩
  intro r mem _
  rw [invitations] at mem
  rcases Rows.mem_update.mp mem with ⟨listed, _⟩ | ⟨row, listed, rfl⟩
  · exact ⟨r, listed, rfl, rfl, rfl, fun accepted => accepted⟩
  · exact ⟨(id, row), listed, rfl, (token row).1.symm, (token row).2.symm, accepted row⟩

theorem Issued.update (issued : t.Issued) {id : Nat} {f : Invitation -> Invitation}
    (token : ∀ row, (f row).token = row.token) (links : t'.links = t.links) (nextLink : t'.nextLink = t.nextLink)
    (invitations : t'.invitations = t.invitations.update id f)
    (nextInvitation : t'.nextInvitation = t.nextInvitation) (nextToken : t'.nextToken = t.nextToken) :
    t'.Issued := by
  have before : ∀ r' ∈ t'.invitations, ∃ r ∈ t.invitations, r.1 = r'.1 ∧ r.2.token = r'.2.token := by
    intro r mem
    rw [invitations] at mem
    rcases Rows.mem_update.mp mem with ⟨listed, _⟩ | ⟨row, listed, rfl⟩
    · exact ⟨r, listed, rfl, rfl⟩
    · exact ⟨(id, row), listed, rfl, (token row).symm⟩
  refine ⟨?_, ?_, ?_, ?_, ?_⟩
  · rw [links, nextLink]
    exact issued.links
  · rw [invitations]
    exact issued.distinct.update id f
  · rw [invitations, nextInvitation]
    exact issued.below.of_isSome (fun id' => Rows.isSome_get?_update _ _ _ _)
  · intro r mem
    rcases before r mem with ⟨r', listed, _, same⟩
    rw [← same, nextToken]
    exact issued.tokens r' listed
  · intro r mem r' mem' same
    rcases before r mem with ⟨old, listed, key, token⟩
    rcases before r' mem' with ⟨old', listed', key', token'⟩
    rw [← key, ← key']
    exact issued.unique old listed old' listed' (token.trans (same.trans token'.symm))

/-- One row gets the next token. -/
theorem Issued.renew (issued : t.Issued) {id : Nat}
    (rows : ∀ r ∈ t'.invitations, r ∈ t.invitations ∨ r.1 = id ∧ r.2.token = t.nextToken)
    (distinct : t'.invitations.Distinct) (below : t'.invitations.Below t'.nextInvitation)
    (nextToken : t'.nextToken = t.nextToken + 1) (links : t'.links.Below t'.nextLink)
    (emails : t'.emails = t.emails) : t'.Issued ∧ t.Advances t' := by
  constructor
  · refine ⟨links, distinct, below, ?_, ?_⟩
    · intro r mem
      rcases rows r mem with old | ⟨_, token⟩
      · have lower := issued.tokens r old
        omega
      · omega
    · intro r mem r' mem' same
      rcases rows r mem with old | ⟨key, token⟩
      · rcases rows r' mem' with old' | ⟨_, token'⟩
        · exact issued.unique r old r' old' same
        · have lower := issued.tokens r old
          omega
      · rcases rows r' mem' with old' | ⟨key', _⟩
        · have lower := issued.tokens r' old'
          omega
        · exact key.trans key'.symm
  · refine ⟨by omega, fun email mem => by rwa [emails], ?_⟩
    intro r mem earlier
    rcases rows r mem with old | ⟨_, token⟩
    · exact ⟨r, old, rfl, rfl, rfl, fun accepted => accepted⟩
    · omega

theorem issued_create (issued : t.Issued) (company : Nat) (email : String) :
    (t.create company email).Issued ∧ t.Advances (t.create company email) := by
  have rows : ∀ r ∈ (t.create company email).invitations, r ∈ t.invitations ∨
      r.1 = t.nextInvitation ∧ r.2.token = t.nextToken := by
    intro r mem
    rcases List.mem_append.mp mem with old | last
    · exact Or.inl old
    · rw [List.mem_singleton] at last
      subst last
      exact Or.inr ⟨rfl, rfl⟩
  exact issued.renew rows (issued.distinct.insert (issued.below.absent (le_refl _))) (issued.below.insert _) rfl
    issued.links rfl

theorem issued_resend (issued : t.Issued) (id : Nat) : (t.resend id).Issued ∧ t.Advances (t.resend id) := by
  have rows : ∀ r ∈ (t.resend id).invitations, r ∈ t.invitations ∨ r.1 = id ∧ r.2.token = t.nextToken := by
    intro r mem
    rcases mem_resend.mp mem with ⟨old, _⟩ | ⟨row, _, rfl⟩
    · exact Or.inl old
    · exact Or.inr ⟨rfl, rfl⟩
  refine issued.renew rows ?_ ?_ rfl issued.links rfl
  · unfold resend
    dsimp only
    exact issued.distinct.update id _
  · unfold resend
    dsimp only
    exact issued.below.of_isSome (fun id' => Rows.isSome_get?_update _ _ _ _)

theorem issued_withdraw (issued : t.Issued) (id : Nat) : (t.withdraw id).Issued ∧ t.Advances (t.withdraw id) := by
  have rows : (t.withdraw id).invitations =
      t.invitations.update id (fun row => { row with isDeleted := true }) := rfl
  constructor
  · refine issued.update ?_ rfl rfl rows rfl rfl
    exact fun row => rfl
  · refine Advances.update ?_ ?_ rows rfl (fun email mem => mem)
    · exact fun row => ⟨rfl, rfl⟩
    · exact fun row accepted => accepted

theorem below_retire (issued : t.Issued) (account : Nat) (purpose : Purpose) :
    (t.retire account purpose).links.Below t.nextLink := by
  unfold retire
  dsimp only
  exact issued.links.of_isSome (fun id => Rows.isSome_get?_updateWhere _ _ _ id)

theorem below_use (issued : t.Issued) (token : Nat) : (t.use token).links.Below t.nextLink := by
  unfold use
  dsimp only
  exact issued.links.of_isSome (fun id => Rows.isSome_get?_update _ _ _ _)

/-! ## What a statement does -/

end Tables

/-- Neither under way to an account nor at the end. -/
def Stage.isPlain : Stage -> Bool
  | .joining _ _ => false
  | .consumed _ => false
  | _ => true

/-- Not about a staff invitation. -/
def Stage.isAside : Stage -> Bool
  | .joining _ _ => false
  | .consumed (.invitation _) => false
  | _ => true

theorem Stage.isAside_of_isPlain {stage : Stage} (plain : stage.isPlain = true) : stage.isAside = true := by
  cases stage with
  | joining id invitation => cases plain
  | consumed credential => cases plain
  | _ => rfl

namespace Tables

/-- The stage a statement of a request leads to. -/
inductive Leads (t : Tables) (stage : Stage) : Tables -> Stage -> Prop where
  | plain {t' stage'} : stage'.isPlain = true -> Leads t stage t' stage'
  | looks {id invitation} : (id, invitation) ∈ t.invitations -> invitation.acceptedAt = none ->
      Leads t stage t (.joining id invitation)
  | joins {id invitation} : stage = .joining id invitation -> invitation.email ∉ t.emails ->
      Leads t stage (t.joined id invitation) (.consumed (.invitation invitation.token))
  | uses {t' token} : stage = .consuming token -> Leads t stage t' (.consumed (.link token))
  | stays {credential} : stage = .consumed credential -> Leads t stage t stage

theorem isPlain_consume (token : Nat) (purpose : Purpose) : (t.consume token purpose).isPlain = true := by
  unfold consume
  split
  · rfl
  · split
    · rfl
    · split
      · rfl
      · rfl

theorem join_of_mem {id : Nat} {invitation : Invitation} (taken : invitation.email ∈ t.emails) :
    t.join id invitation = (t, .refused .integrityError) := by
  unfold join
  rw [if_pos taken]

theorem join_of_not_mem {id : Nat} {invitation : Invitation} (free : invitation.email ∉ t.emails) :
    t.join id invitation = (t.joined id invitation, .consumed (.invitation invitation.token)) := by
  unfold join
  rw [if_neg free]

theorem leads_lookUp {stage : Stage} (token : Nat) : t.Leads stage t (t.lookUp token) := by
  unfold lookUp
  split
  · exact .plain rfl
  · rename_i id invitation found
    split
    · exact .plain rfl
    · rename_i unaccepted
      split
      · exact .plain rfl
      · rw [Option.not_isSome_iff_eq_none] at unaccepted
        exact .looks (List.mem_of_find?_eq_some found) unaccepted

theorem isPlain_invite (contact : Nat) (account : Option Nat) : (t.invite contact account).2.isPlain = true := by
  cases account with
  | some id => rfl
  | none =>
      unfold invite
      dsimp only
      split
      · rfl
      · rfl

theorem leads_start (request : Request) {stage : Stage} :
    t.Leads stage (t.start request).1 (t.start request).2 := by
  cases request with
  | confirmPasswordReset token => exact .plain (isPlain_consume token _)
  | confirmEmailVerification token => exact .plain (isPlain_consume token _)
  | confirmPortalPasswordReset token => exact .plain (isPlain_consume token _)
  | acceptPortal token => exact .plain (isPlain_consume token _)
  | acceptInvitation token => exact leads_lookUp token
  | invitePortal contact =>
      apply Leads.plain
      unfold start
      dsimp only
      split
      · split
        · rfl
        · rfl
      · rfl
  | createInvitation company email =>
      apply Leads.plain
      unfold start
      dsimp only
      split
      · rfl
      · rfl
  | resendInvitation id =>
      apply Leads.plain
      unfold start
      dsimp only
      split
      · rfl
      · split
        · rfl
        · rfl
  | _ => exact .plain rfl

theorem leads_statement (request : Request) (stage : Stage) :
    t.Leads stage (t.statement request stage).1 (t.statement request stage).2 := by
  cases stage with
  | begun => exact leads_start request
  | inviting contact account => exact .plain (isPlain_invite contact account)
  | consuming token =>
      cases request with
      | _ => exact .uses rfl
  | checkingPending company email =>
      apply Leads.plain
      unfold statement
      dsimp only
      split
      · rfl
      · rfl
  | joining id invitation =>
      have joins : t.Leads (.joining id invitation) (t.join id invitation).1 (t.join id invitation).2 := by
        by_cases taken : invitation.email ∈ t.emails
        · rw [join_of_mem taken]
          exact .plain rfl
        · rw [join_of_not_mem taken]
          exact .joins rfl taken
      exact joins
  | consumed credential => exact .stays rfl
  | _ => exact .plain rfl

theorem issued_invite (issued : t.Issued) (contact : Nat) (account : Option Nat) :
    (t.invite contact account).1.Issued ∧ t.Advances (t.invite contact account).1 := by
  cases account with
  | some id =>
      have same : t.SameInvitations ((t.retire id .portalInvitation).issue id .portalInvitation) :=
        ⟨rfl, rfl, rfl, rfl⟩
      exact ⟨same.issued issued ((below_retire issued id .portalInvitation).insert _), same.advances⟩
  | none =>
      unfold invite
      dsimp only
      split
      · exact ⟨issued, SameInvitations.advances ⟨rfl, rfl, rfl, rfl⟩⟩
      · have opened : (t.openAccount contact).Issued :=
          ⟨issued.links, issued.distinct, issued.below, issued.tokens, issued.unique⟩
        have same : t.SameInvitations (((t.openAccount contact).retire t.nextPortalAccount .portalInvitation).issue
            t.nextPortalAccount .portalInvitation) := ⟨rfl, rfl, rfl, rfl⟩
        refine ⟨same.issued issued ?_, same.advances⟩
        exact (below_retire opened t.nextPortalAccount .portalInvitation).insert _

theorem issued_joined (issued : t.Issued) (id : Nat) (invitation : Invitation) :
    (t.joined id invitation).Issued ∧ t.Advances (t.joined id invitation) := by
  have rows : (t.joined id invitation).invitations =
      t.invitations.update id (fun row => { row with acceptedAt := some t.clock }) := rfl
  constructor
  · refine issued.update ?_ rfl rfl rows rfl rfl
    exact fun row => rfl
  · refine Advances.update ?_ ?_ rows rfl (fun email mem => List.mem_cons_of_mem _ mem)
    · exact fun row => ⟨rfl, rfl⟩
    · exact fun row _ => rfl

theorem issued_join (issued : t.Issued) (id : Nat) (invitation : Invitation) :
    (t.join id invitation).1.Issued ∧ t.Advances (t.join id invitation).1 := by
  by_cases taken : invitation.email ∈ t.emails
  · rw [join_of_mem taken]
    exact ⟨issued, SameInvitations.advances ⟨rfl, rfl, rfl, rfl⟩⟩
  · rw [join_of_not_mem taken]
    exact issued_joined issued id invitation

theorem issued_start (issued : t.Issued) (request : Request) :
    (t.start request).1.Issued ∧ t.Advances (t.start request).1 := by
  have stays : t.Issued ∧ t.Advances t := ⟨issued, SameInvitations.advances ⟨rfl, rfl, rfl, rfl⟩⟩
  have retires : ∀ account purpose, (t.retire account purpose).Issued ∧ t.Advances (t.retire account purpose) := by
    intro account purpose
    have same : t.SameInvitations (t.retire account purpose) := ⟨rfl, rfl, rfl, rfl⟩
    exact ⟨same.issued issued (below_retire issued account purpose), same.advances⟩
  cases request with
  | requestPasswordReset user => exact retires user _
  | requestEmailVerification user => exact retires user _
  | requestPortalPasswordReset account => exact retires account _
  | invitePortal contact =>
      unfold start
      dsimp only
      split
      · split
        · exact stays
        · exact stays
      · exact stays
  | createInvitation company email =>
      unfold start
      dsimp only
      split
      · exact stays
      · exact stays
  | resendInvitation id =>
      unfold start
      dsimp only
      split
      · exact stays
      · split
        · exact stays
        · exact stays
  | _ => exact stays

/-- Tokens stay in order through every statement. -/
theorem issued_statement (issued : t.Issued) (request : Request) (stage : Stage) :
    (t.statement request stage).1.Issued ∧ t.Advances (t.statement request stage).1 := by
  have stays : t.Issued ∧ t.Advances t := ⟨issued, SameInvitations.advances ⟨rfl, rfl, rfl, rfl⟩⟩
  have uses : ∀ token, (t.use token).Issued ∧ t.Advances (t.use token) := by
    intro token
    have same : t.SameInvitations (t.use token) := ⟨rfl, rfl, rfl, rfl⟩
    exact ⟨same.issued issued (below_use issued token), same.advances⟩
  cases stage with
  | begun => exact issued_start issued request
  | inserting account purpose =>
      have same : t.SameInvitations (t.issue account purpose) := ⟨rfl, rfl, rfl, rfl⟩
      exact ⟨same.issued issued (issued.links.insert _), same.advances⟩
  | inviting contact account => exact issued_invite issued contact account
  | consuming token =>
      cases request with
      | acceptPortal _ =>
          have same : t.SameInvitations ((t.use token).activate token) := by
            unfold activate
            split
            · exact ⟨rfl, rfl, rfl, rfl⟩
            · exact ⟨rfl, rfl, rfl, rfl⟩
          have links : ((t.use token).activate token).links = (t.use token).links ∧
              ((t.use token).activate token).nextLink = t.nextLink := by
            unfold activate
            split
            · exact ⟨rfl, rfl⟩
            · exact ⟨rfl, rfl⟩
          refine ⟨same.issued issued ?_, same.advances⟩
          rw [links.1, links.2]
          exact below_use issued token
      | _ => exact uses token
  | checkingPending company email =>
      unfold statement
      dsimp only
      split
      · exact stays
      · exact stays
  | creating company email => exact issued_create issued company email
  | resending id => exact issued_resend issued id
  | joining id invitation => exact issued_join issued id invitation
  | _ => exact stays

/-! ## One usable link, one live invitation -/

theorem UsableWithin.activate (t : Tables) (token : Nat) : t.UsableWithin (t.activate token) := by
  unfold Tables.activate
  split
  · exact .of_links rfl (le_refl _)
  · exact .of_links rfl (le_refl _)

theorem OneUsable.invite (one : t.OneUsable) (contact : Nat) (account : Option Nat) :
    (t.invite contact account).1.OneUsable := by
  cases account with
  | some id =>
      have retired := one.within (.retire t id .portalInvitation)
      exact retired.issue (fun r mem => not_usable_retire mem _)
  | none =>
      unfold Tables.invite
      dsimp only
      split
      · exact one
      · have opened : (t.openAccount contact).OneUsable := one
        have retired := opened.within (.retire _ t.nextPortalAccount .portalInvitation)
        exact retired.issue (fun r mem => not_usable_retire mem _)

theorem OneUsable.start (one : t.OneUsable) (request : Request) : (t.start request).1.OneUsable := by
  cases request with
  | requestPasswordReset user => exact one.within (.retire t user _)
  | requestEmailVerification user => exact one.within (.retire t user _)
  | requestPortalPasswordReset account => exact one.within (.retire t account _)
  | invitePortal contact =>
      unfold Tables.start
      dsimp only
      split
      · split
        · exact one
        · exact one
      · exact one
  | createInvitation company email =>
      unfold Tables.start
      dsimp only
      split
      · exact one
      · exact one
  | resendInvitation id =>
      unfold Tables.start
      dsimp only
      split
      · exact one
      · split
        · exact one
        · exact one
  | _ => exact one

theorem OneUsable.statement (one : t.OneUsable) {request : Request} {stage : Stage}
    (alone : ∀ account purpose, stage = .inserting account purpose ->
      ∀ r ∈ t.links, r.2.isUsable t.clock account purpose = false) :
    (t.statement request stage).1.OneUsable := by
  cases stage with
  | begun => exact one.start request
  | inserting account purpose => exact one.issue (alone account purpose rfl)
  | inviting contact account => exact one.invite contact account
  | consuming token =>
      have used := one.within (.use t token)
      cases request with
      | acceptPortal _ => exact used.within (.activate _ token)
      | _ => exact used
  | checkingPending company email =>
      unfold Tables.statement
      dsimp only
      split
      · exact one
      · exact one
  | joining id invitation =>
      refine one.within (.of_links ?_ ?_)
      · change (t.join id invitation).1.links = t.links
        unfold Tables.join
        split
        · rfl
        · rfl
      · change t.clock ≤ (t.join id invitation).1.clock
        unfold Tables.join
        split
        · exact le_refl _
        · exact le_refl _
  | _ => exact one

theorem LiveWithin.join (t : Tables) (id : Nat) (invitation : Invitation) :
    t.LiveWithin (t.join id invitation).1 := by
  by_cases taken : invitation.email ∈ t.emails
  · rw [join_of_mem taken]
    exact .of_invitations rfl (le_refl _)
  · rw [join_of_not_mem taken]
    have rows : (t.joined id invitation).invitations =
        t.invitations.update id (fun row => { row with acceptedAt := some t.clock }) := rfl
    refine LiveWithin.update ?_ rows rfl
    intro row now company email live
    have none := (isLive_iff.mp live).2.2.1
    cases none

theorem LiveWithin.start (t : Tables) (request : Request) : t.LiveWithin (t.start request).1 := by
  have stays : t.LiveWithin t := .of_invitations rfl (le_refl _)
  cases request with
  | invitePortal contact =>
      unfold Tables.start
      dsimp only
      split
      · split
        · exact stays
        · exact stays
      · exact stays
  | createInvitation company email =>
      unfold Tables.start
      dsimp only
      split
      · exact stays
      · exact stays
  | resendInvitation id =>
      unfold Tables.start
      dsimp only
      split
      · exact stays
      · split
        · exact stays
        · exact stays
  | _ => exact .of_invitations rfl (le_refl _)

theorem LiveWithin.invite (t : Tables) (contact : Nat) (account : Option Nat) :
    t.LiveWithin (t.invite contact account).1 := by
  cases account with
  | some id => exact .of_invitations rfl (le_refl _)
  | none =>
      unfold Tables.invite
      dsimp only
      split
      · exact .of_invitations rfl (le_refl _)
      · exact .of_invitations rfl (le_refl _)

theorem OneLive.statement (one : t.OneLive) (issued : t.Issued) {request : Request} {stage : Stage}
    (creating : ∀ company email, stage = .creating company email -> t.isPending company email = false)
    (resending : ∀ id row, stage = .resending id -> t.invitations.get? id = some row ->
      row.acceptedAt.isSome = true ∨ row.isDeleted = true ∨ t.rivals id row = false) :
    (t.statement request stage).1.OneLive := by
  cases stage with
  | begun => exact one.within (.start t request)
  | inviting contact account => exact one.within (.invite t contact account)
  | consuming token =>
      cases request with
      | acceptPortal _ =>
          refine one.within (.of_invitations ?_ ?_)
          · change ((t.use token).activate token).invitations = t.invitations
            unfold activate
            split
            · rfl
            · rfl
          · change t.clock ≤ ((t.use token).activate token).clock
            unfold activate
            split
            · exact le_refl _
            · exact le_refl _
      | _ => exact one
  | checkingPending company email =>
      unfold Tables.statement
      dsimp only
      split
      · exact one
      · exact one
  | creating company email => exact one.create issued.below (creating company email rfl)
  | resending id =>
      cases found : t.invitations.get? id with
      | some row => exact one.resend issued.distinct found (resending id row rfl found)
      | none =>
          refine one.within (fun r mem company email live => ?_)
          rcases mem_resend.mp mem with ⟨listed, _⟩ | ⟨row, listed, _⟩
          · exact ⟨r, listed, rfl, live⟩
          · exact absurd listed (Rows.get?_eq_none.mp found row)
  | joining id invitation => exact one.within (.join t id invitation)
  | _ => exact one

end Tables

/-! ## Requests under way -/

namespace Machine

structure Sound (m : Machine) : Prop where
  issued : m.tables.Issued
  joining : ∀ a ∈ m.threads, ∀ id invitation, a.stage = .joining id invitation -> m.tables.Joining id invitation
  same : ∀ a ∈ m.threads, ∀ b ∈ m.threads, ∀ id id' invitation invitation', a.stage = .joining id invitation ->
    b.stage = .joining id' invitation' -> invitation.token = invitation'.token ->
      invitation.email = invitation'.email
  spent : ∀ a ∈ m.threads, ∀ token, a.stage = .consumed (.invitation token) -> m.tables.Spent token
  /-- Who comes late with a token that is spent finds the address taken. -/
  late : ∀ a ∈ m.threads, ∀ b ∈ m.threads, ∀ id invitation,
    a.stage = .consumed (.invitation invitation.token) -> b.stage = .joining id invitation ->
      invitation.email ∈ m.tables.emails

/-- Threads that are as they were, over tables that have advanced. -/
theorem Sound.advances (sound : m.Sound) {m' : Machine} (issued : m'.tables.Issued)
    (advances : m.tables.Advances m'.tables) (threads : ∀ a ∈ m'.threads, a ∈ m.threads ∨ a.stage.isAside = true) :
    m'.Sound := by
  have old : ∀ a ∈ m'.threads, a.stage.isAside = false -> a ∈ m.threads := by
    intro a mem busy
    rcases threads a mem with before | aside
    · exact before
    · rw [busy] at aside
      cases aside
  refine ⟨issued, ?_, ?_, ?_, ?_⟩
  · intro a mem id invitation stage
    exact (sound.joining a (old a mem (by rw [stage]; rfl)) id invitation stage).advances advances
  · intro a mem b mem' id id' invitation invitation' stage stage'
    exact sound.same a (old a mem (by rw [stage]; rfl)) b (old b mem' (by rw [stage']; rfl)) id id' invitation
      invitation' stage stage'
  · intro a mem token stage
    exact (sound.spent a (old a mem (by rw [stage]; rfl)) token stage).advances advances
  · intro a mem b mem' id invitation stage stage'
    exact advances.emails _ (sound.late a (old a mem (by rw [stage]; rfl)) b (old b mem' (by rw [stage']; rfl)) id
      invitation stage stage')

theorem act_of_some {i : Nat} {thread : Thread} (listed : m.threads[i]? = some thread) :
    m.act i = ⟨(m.tables.statement thread.request thread.stage).1,
      m.threads.set i { thread with stage := (m.tables.statement thread.request thread.stage).2 }⟩ := by
  unfold act
  rw [listed]
  dsimp only
  unfold setStage
  dsimp only
  rw [listed]

theorem mem_act {i : Nat} {thread : Thread} (listed : m.threads[i]? = some thread) {a : Thread}
    (mem : a ∈ (m.act i).threads) : a ∈ m.threads ∨
      a = { thread with stage := (m.tables.statement thread.request thread.stage).2 } := by
  rw [act_of_some listed] at mem
  exact List.mem_or_eq_of_mem_set mem

theorem tables_act {i : Nat} {thread : Thread} (listed : m.threads[i]? = some thread) :
    (m.act i).tables = (m.tables.statement thread.request thread.stage).1 := by
  rw [act_of_some listed]

theorem act_of_none {i : Nat} (absent : m.threads[i]? = none) : m.act i = m := by
  unfold act
  rw [absent]

/-- A request has found an unaccepted row under its token. -/
theorem Sound.looks (sound : m.Sound) {m' : Machine} {id : Nat} {invitation : Invitation}
    (tables : m'.tables = m.tables) (listed : (id, invitation) ∈ m.tables.invitations)
    (unaccepted : invitation.acceptedAt = none)
    (threads : ∀ a ∈ m'.threads, a ∈ m.threads ∨ a.stage = .joining id invitation) : m'.Sound := by
  have own : m.tables.Joining id invitation := by
    refine ⟨sound.issued.tokens _ listed, ?_⟩
    intro r mem same
    have key := sound.issued.unique r mem _ listed same
    have found := Rows.get?_of_mem sound.issued.distinct listed
    have found' := Rows.get?_of_mem sound.issued.distinct (show (id, r.2) ∈ m.tables.invitations by
      rw [← show r.1 = id from key]; exact mem)
    rw [found] at found'
    exact ⟨key, by rw [Option.some.inj found']⟩
  have agrees : ∀ b ∈ m.threads, ∀ id' invitation', b.stage = .joining id' invitation' ->
      invitation.token = invitation'.token -> invitation.email = invitation'.email := by
    intro b mem id' invitation' stage same
    exact ((sound.joining b mem id' invitation' stage).2 _ listed same).2
  have fresh : ∀ a ∈ m.threads, a.stage ≠ .consumed (.invitation invitation.token) := by
    intro a mem stage
    have accepted := (sound.spent a mem _ stage).2 _ listed rfl
    rw [unaccepted] at accepted
    cases accepted
  refine ⟨tables ▸ sound.issued, ?_, ?_, ?_, ?_⟩
  · intro a mem id' invitation' stage
    rw [tables]
    rcases threads a mem with old | new
    · exact sound.joining a old id' invitation' stage
    · rw [new] at stage
      cases stage
      exact own
  · intro a mem b mem' id₁ id₂ invitation₁ invitation₂ stage stage' same
    rcases threads a mem with old | new
    · rcases threads b mem' with old' | new'
      · exact sound.same a old b old' id₁ id₂ invitation₁ invitation₂ stage stage' same
      · rw [new'] at stage'
        cases stage'
        exact (agrees a old id₁ invitation₁ stage same.symm).symm
    · rw [new] at stage
      cases stage
      rcases threads b mem' with old' | new'
      · exact agrees b old' id₂ invitation₂ stage' same
      · rw [new'] at stage'
        cases stage'
        rfl
  · intro a mem token stage
    rw [tables]
    rcases threads a mem with old | new
    · exact sound.spent a old token stage
    · rw [new] at stage
      cases stage
  · intro a mem b mem' id' invitation' stage stage'
    rw [tables]
    rcases threads a mem with old | new
    · rcases threads b mem' with old' | new'
      · exact sound.late a old b old' id' invitation' stage stage'
      · rw [new'] at stage'
        cases stage'
        exact absurd stage (fresh a old)
    · rw [new] at stage
      cases stage

/-- The row under the token has been accepted, and a user has its address. -/
theorem Sound.joins (sound : m.Sound) {m' : Machine} {b : Thread} {id : Nat} {invitation : Invitation}
    (under : b ∈ m.threads) (stage : b.stage = .joining id invitation)
    (tables : m'.tables = m.tables.joined id invitation)
    (threads : ∀ a ∈ m'.threads, a ∈ m.threads ∨ a.stage = .consumed (.invitation invitation.token)) :
    m'.Sound := by
  have advanced := Tables.issued_joined sound.issued id invitation
  rw [← tables] at advanced
  have own := sound.joining b under id invitation stage
  have spent : m'.tables.Spent invitation.token := by
    refine ⟨Nat.lt_of_lt_of_le own.1 advanced.2.nextToken, ?_⟩
    intro r mem same
    rw [tables] at mem
    have mem : r ∈ m.tables.invitations.update id (fun row => { row with acceptedAt := some m.tables.clock }) := mem
    rcases Rows.mem_update.mp mem with ⟨listed, other⟩ | ⟨row, _, rfl⟩
    · exact absurd (own.2 r listed same).1 other
    · rfl
  have taken : invitation.email ∈ m'.tables.emails := by
    rw [tables]
    exact List.mem_cons_self
  refine ⟨advanced.1, ?_, ?_, ?_, ?_⟩
  · intro a mem id' invitation' stage'
    rcases threads a mem with old | new
    · exact (sound.joining a old id' invitation' stage').advances advanced.2
    · rw [new] at stage'
      cases stage'
  · intro a mem a' mem' id₁ id₂ invitation₁ invitation₂ stage₁ stage₂
    rcases threads a mem with old | new
    · rcases threads a' mem' with old' | new'
      · exact sound.same a old a' old' id₁ id₂ invitation₁ invitation₂ stage₁ stage₂
      · rw [new'] at stage₂
        cases stage₂
    · rw [new] at stage₁
      cases stage₁
  · intro a mem token stage'
    rcases threads a mem with old | new
    · exact (sound.spent a old token stage').advances advanced.2
    · rw [new] at stage'
      cases stage'
      exact spent
  · intro a mem a' mem' id' invitation' stage₁ stage₂
    rcases threads a' mem' with old' | new'
    · rcases threads a mem with old | new
      · exact advanced.2.emails _ (sound.late a old a' old' id' invitation' stage₁ stage₂)
      · rw [new] at stage₁
        have token : invitation.token = invitation'.token := by
          injection stage₁ with credential
          injection credential
        rw [← sound.same b under a' old' id id' invitation invitation' stage stage₂ token]
        exact taken
    · rw [new'] at stage₂
      cases stage₂

theorem Sound.act (sound : m.Sound) (i : Nat) : (m.act i).Sound := by
  cases listed : m.threads[i]? with
  | none =>
      rw [act_of_none listed]
      exact sound
  | some thread =>
      have under : thread ∈ m.threads := List.mem_of_getElem? listed
      have advanced := Tables.issued_statement sound.issued thread.request thread.stage
      rw [← tables_act listed] at advanced
      have threads : ∀ a ∈ (m.act i).threads, a ∈ m.threads ∨
          a = { thread with stage := (m.tables.statement thread.request thread.stage).2 } :=
        fun a mem => mem_act listed mem
      have leads := Tables.leads_statement (t := m.tables) thread.request thread.stage
      rw [← tables_act listed] at leads
      generalize (m.tables.statement thread.request thread.stage).2 = stage' at leads threads
      generalize after : (m.act i).tables = t' at leads
      cases leads with
      | plain plain =>
          apply sound.advances advanced.1 advanced.2
          intro a mem
          rcases threads a mem with old | rfl
          · exact Or.inl old
          · exact Or.inr (Stage.isAside_of_isPlain plain)
      | looks mem unaccepted =>
          apply sound.looks after mem unaccepted
          intro a mem
          rcases threads a mem with old | rfl
          · exact Or.inl old
          · exact Or.inr rfl
      | joins stage free =>
          apply sound.joins under stage after
          intro a mem
          rcases threads a mem with old | rfl
          · exact Or.inl old
          · exact Or.inr rfl
      | uses stage =>
          apply sound.advances advanced.1 advanced.2
          intro a mem
          rcases threads a mem with old | rfl
          · exact Or.inl old
          · exact Or.inr rfl
      | stays stage =>
          apply sound.advances advanced.1 advanced.2
          intro a mem
          rcases threads a mem with old | rfl
          · exact Or.inl old
          · exact Or.inl under

theorem mem_setStage {i : Nat} {stage : Stage} {a : Thread} (mem : a ∈ (m.setStage i stage).threads) :
    a ∈ m.threads ∨ a.stage = stage := by
  unfold setStage at mem
  split at mem
  · rcases List.mem_or_eq_of_mem_set mem with old | same
    · exact Or.inl old
    · rw [same]
      exact Or.inr rfl
  · exact Or.inl mem

theorem tables_setStage (i : Nat) (stage : Stage) : (m.setStage i stage).tables = m.tables := by
  unfold setStage
  split
  · rfl
  · rfl

/-- A request that is not answered yet is given up, or nothing happens. -/
theorem giveUp_eq (i : Nat) : m.giveUp i = m ∨ (m.giveUp i = m.setStage i .lost ∧
    ∀ thread credential, m.threads[i]? = some thread -> thread.stage ≠ .consumed credential) := by
  unfold giveUp
  split
  · exact Or.inl rfl
  · rename_i thread listed
    split
    · exact Or.inl rfl
    · rename_i open'
      refine Or.inr ⟨rfl, ?_⟩
      rintro thread' credential listed' stage
      rw [listed] at listed'
      cases listed'
      exact open' credential stage

theorem Sound.step (sound : m.Sound) (event : Event) : (m.step event).Sound := by
  have still : m.tables.Advances m.tables := Tables.SameInvitations.advances ⟨rfl, rfl, rfl, rfl⟩
  cases event with
  | act i => exact sound.act i
  | arrive request =>
      refine sound.advances (show (m.step (.arrive request)).tables.Issued from sound.issued) still ?_
      intro a mem
      rcases List.mem_append.mp mem with old | new
      · exact Or.inl old
      · rw [List.mem_singleton.mp new]
        exact Or.inr rfl
  | giveUp i =>
      change (m.giveUp i).Sound
      rcases giveUp_eq (m := m) i with same | ⟨lost, _⟩
      · rw [same]
        exact sound
      · rw [lost]
        have tables : (m.setStage i .lost).tables = m.tables := tables_setStage i .lost
        apply sound.advances
        · rw [tables]
          exact sound.issued
        · rw [tables]
          exact still
        · intro a mem
          rcases mem_setStage mem with old | new
          · exact Or.inl old
          · rw [new]
            exact Or.inr rfl
  | tick time =>
      have same : m.tables.SameInvitations { m.tables with clock := max m.tables.clock time } :=
        ⟨rfl, rfl, rfl, rfl⟩
      exact sound.advances (same.issued sound.issued sound.issued.links) same.advances (fun a mem => Or.inl mem)
  | register email =>
      have issued : ({ m.tables with emails := email :: m.tables.emails } : Tables).Issued :=
        ⟨sound.issued.links, sound.issued.distinct, sound.issued.below, sound.issued.tokens, sound.issued.unique⟩
      refine sound.advances issued ⟨le_refl _, ?_, ?_⟩ (fun a mem => Or.inl mem)
      · exact fun address mem => List.mem_cons_of_mem _ mem
      · exact fun r mem _ => ⟨r, mem, rfl, rfl, rfl, fun accepted => accepted⟩
  | withdraw id =>
      have withdrawn := Tables.issued_withdraw sound.issued id
      exact sound.advances withdrawn.1 withdrawn.2 (fun a mem => Or.inl mem)
  | deactivatePortal id =>
      have same : m.tables.SameInvitations { m.tables with
          portalAccounts := m.tables.portalAccounts.update id (fun account => { account with isActive := false }) } :=
        ⟨rfl, rfl, rfl, rfl⟩
      exact sound.advances (same.issued sound.issued sound.issued.links) same.advances (fun a mem => Or.inl mem)

/-! ## The law, step by step -/

/-- Nobody else has consumed what a request consumes. -/
theorem unshared (sound : m.Sound) {i : Nat} {thread : Thread} (listed : m.threads[i]? = some thread)
    (alone : ∀ token, thread.stage = .consuming token -> ∀ b ∈ m.threads, b.stage ≠ .consumed (.link token))
    {credential : Credential}
    (consumed : (m.tables.statement thread.request thread.stage).2 = .consumed credential) :
    thread.stage = .consumed credential ∨ ∀ b ∈ m.threads, b.stage ≠ .consumed credential := by
  have under : thread ∈ m.threads := List.mem_of_getElem? listed
  have leads := Tables.leads_statement (t := m.tables) thread.request thread.stage
  rw [consumed] at leads
  generalize (m.tables.statement thread.request thread.stage).1 = t' at leads
  generalize own : thread.stage = stage at leads
  cases leads with
  | plain plain => cases plain
  | joins joining free =>
      right
      intro b mem stage'
      exact free (sound.late b mem thread under _ _ stage' (own.trans joining))
  | uses consuming => exact Or.inr (alone _ (own.trans consuming))
  | stays _ => exact Or.inl rfl

theorem consumedOnce_act (sound : m.Sound) (once : m.ConsumedOnce) {i : Nat} {thread : Thread}
    (listed : m.threads[i]? = some thread)
    (alone : ∀ token, thread.stage = .consuming token -> ∀ b ∈ m.threads, b.stage ≠ .consumed (.link token)) :
    (m.act i).ConsumedOnce := by
  have excludes : ∀ (k : Nat) (b : Thread) (credential : Credential), k ≠ i -> m.threads[k]? = some b ->
      (m.tables.statement thread.request thread.stage).2 = .consumed credential -> b.stage ≠ .consumed credential := by
    intro k b credential other listed' consumed stage
    rcases unshared sound listed alone consumed with before | nobody
    · exact other (once k i b thread credential listed' listed stage before)
    · exact nobody b (List.mem_of_getElem? listed') stage
  intro j k a b credential first second stage stage'
  rw [act_of_some listed] at first second
  rcases Transitions.slot_set first with ⟨rfl, rfl⟩ | ⟨other, old⟩
  · rcases Transitions.slot_set second with ⟨rfl, rfl⟩ | ⟨other', old'⟩
    · rfl
    · exact absurd stage' (excludes k b credential other' old' stage)
  · rcases Transitions.slot_set second with ⟨rfl, rfl⟩ | ⟨other', old'⟩
    · exact absurd stage (excludes j a credential other old stage')
    · exact once j k a b credential old old' stage stage'

theorem keepsOneTime_act {i : Nat} {thread : Thread} (listed : m.threads[i]? = some thread) :
    m.keepsOneTime (.act i) = true ↔
      (∀ token, thread.stage = .consuming token -> ∀ b ∈ m.threads, b.stage ≠ .consumed (.link token)) ∧
      (∀ account purpose, thread.stage = .inserting account purpose ->
        ∀ r ∈ m.tables.links, r.2.isUsable m.tables.clock account purpose = false) ∧
      (∀ company email, thread.stage = .creating company email -> m.tables.isPending company email = false) ∧
      (∀ id row, thread.stage = .resending id -> m.tables.invitations.get? id = some row ->
        row.acceptedAt.isSome = true ∨ row.isDeleted = true ∨ m.tables.rivals id row = false) := by
  unfold keepsOneTime
  dsimp only
  rw [listed, Option.map_some]
  generalize thread.stage = stage
  cases stage with
  | consuming token => simp [List.any_eq_false]
  | inserting account purpose => simp [List.any_eq_false]
  | creating company email => simp
  | resending id =>
      cases found : m.tables.invitations.get? id with
      | none =>
          have nothing : ∀ id' row, id = id' -> m.tables.invitations.get? id' ≠ some row := by
            rintro id' row rfl
            rw [found]
            exact fun same => by cases same
          constructor
          · intro _
            simp only [reduceCtorEq, false_implies, implies_true, true_and]
            intro id' row same listed
            injection same with same
            exact absurd listed (nothing id' row same)
          · intro _
            dsimp only
            rw [found]
      | some row =>
          dsimp only
          rw [found]
          simp only [reduceCtorEq, false_implies, implies_true, true_and, Bool.or_eq_true, Bool.not_eq_true', or_assoc]
          constructor
          · rintro free id' row' same found'
            injection same with same
            subst same
            rw [found] at found'
            cases found'
            exact free
          · exact fun free => free id row rfl found
  | _ => simp

theorem OneTime.act (one : m.OneTime) (sound : m.Sound) {i : Nat} (keeps : m.keepsOneTime (.act i) = true) :
    (m.act i).OneTime := by
  cases listed : m.threads[i]? with
  | none =>
      rw [act_of_none listed]
      exact one
  | some thread =>
      rcases (keepsOneTime_act listed).mp keeps with ⟨consuming, inserting, creating, resending⟩
      refine ⟨consumedOnce_act sound one.consumed listed consuming, ?_, ?_⟩
      · rw [tables_act listed]
        exact one.usable.statement inserting
      · rw [tables_act listed]
        exact one.live.statement sound.issued creating resending

theorem keepsOneTime_of_oneTime (sound : m.Sound) {i : Nat} (after : (m.act i).OneTime) :
    m.keepsOneTime (.act i) = true := by
  cases listed : m.threads[i]? with
  | none =>
      unfold keepsOneTime
      dsimp only
      rw [listed]
      rfl
  | some thread =>
      have usable := after.usable
      have live := after.live
      rw [tables_act listed] at usable live
      refine (keepsOneTime_act listed).mpr ⟨?_, ?_, ?_, ?_⟩
      · intro token consuming b mem stage
        rcases List.mem_iff_getElem?.mp mem with ⟨k, listed'⟩
        have other : k ≠ i := by
          rintro rfl
          rw [listed] at listed'
          cases listed'
          rw [consuming] at stage
          cases stage
        have consumed : (m.tables.statement thread.request thread.stage).2 = .consumed (.link token) := by
          rw [consuming]
          cases thread.request with
          | _ => rfl
        have first : (m.act i).threads[i]? = some { thread with
            stage := (m.tables.statement thread.request thread.stage).2 } := by
          rw [act_of_some listed]
          exact List.getElem?_set_self (List.getElem?_eq_some_iff.mp listed).1
        have second : (m.act i).threads[k]? = some b := by
          rw [act_of_some listed]
          exact (List.getElem?_set_ne other.symm).trans listed'
        exact other (after.consumed k i b _ (.link token) second first stage consumed)
      · intro account purpose inserting r mem
        rw [inserting] at usable
        rw [← Bool.not_eq_true]
        intro outstanding
        exact Tables.not_oneUsable_issue sound.issued.links mem outstanding usable
      · intro company email creating
        rw [creating] at live
        rw [← Bool.not_eq_true]
        intro pending
        exact Tables.not_oneLive_create sound.issued.below pending live
      · intro id row resending found
        rw [resending] at live
        cases accepted : row.acceptedAt with
        | some time => exact Or.inl rfl
        | none =>
            cases withdrawn : row.isDeleted with
            | true => exact Or.inr (Or.inl rfl)
            | false =>
                right
                right
                rw [← Bool.not_eq_true]
                intro rival
                exact Tables.not_oneLive_resend found accepted withdrawn rival live

theorem OneTime.other (one : m.OneTime) {m' : Machine}
    (threads : ∀ (j : Nat) (a : Thread) credential, m'.threads[j]? = some a -> a.stage = .consumed credential ->
      m.threads[j]? = some a)
    (usable : m.tables.UsableWithin m'.tables) (live : m.tables.LiveWithin m'.tables) : m'.OneTime := by
  refine ⟨?_, one.usable.within usable, one.live.within live⟩
  intro j k a b credential first second stage stage'
  exact one.consumed j k a b credential (threads j a credential first stage) (threads k b credential second stage')
    stage stage'

theorem OneTime.step (one : m.OneTime) (sound : m.Sound) {event : Event} (keeps : m.keepsOneTime event = true) :
    (m.step event).OneTime := by
  have same : ∀ (j : Nat) (a : Thread) (credential : Credential), m.threads[j]? = some a ->
      a.stage = .consumed credential -> m.threads[j]? = some a := fun j a credential listed _ => listed
  cases event with
  | act i => exact one.act sound keeps
  | arrive request =>
      refine one.other ?_ (.of_links rfl (le_refl _)) (.of_invitations rfl (le_refl _))
      intro j a credential listed stage
      rcases Transitions.slot_concat listed with ⟨_, rfl⟩ | old
      · cases stage
      · exact old
  | giveUp i =>
      change (m.giveUp i).OneTime
      rcases giveUp_eq (m := m) i with unchanged | ⟨lost, _⟩
      · rw [unchanged]
        exact one
      · rw [lost]
        have tables : (m.setStage i .lost).tables = m.tables := tables_setStage i .lost
        refine one.other ?_ (.of_links (by rw [tables]) (by rw [tables])) (.of_invitations (by rw [tables]) (by rw [tables]))
        intro j a credential listed stage
        unfold setStage at listed
        split at listed
        · rcases Transitions.slot_set listed with ⟨_, rfl⟩ | ⟨_, old⟩
          · cases stage
          · exact old
        · exact listed
  | tick time =>
      exact one.other same (.of_links rfl (Nat.le_max_left _ _)) (.of_invitations rfl (Nat.le_max_left _ _))
  | register email => exact one.other same (.of_links rfl (le_refl _)) (.of_invitations rfl (le_refl _))
  | withdraw id =>
      refine one.other same (.of_links rfl (le_refl _)) ?_
      have rows : (m.tables.withdraw id).invitations =
          m.tables.invitations.update id (fun row => { row with isDeleted := true }) := rfl
      refine Tables.LiveWithin.update ?_ rows rfl
      intro row now company email live
      have kept := (Tables.isLive_iff.mp live).2.2.2.1
      cases kept
  | deactivatePortal id => exact one.other same (.of_links rfl (le_refl _)) (.of_invitations rfl (le_refl _))

/-- Links are one-time in every state of a run, exactly when every write finds
what the checks before it found. -/
theorem links_oneTime (sound : m.Sound) (start : m.OneTime) (events : List Event) :
    (∀ before, before <+: events -> (run step m before).OneTime) ↔
      everyStep step keepsOneTime m events = true := by
  let J : Machine -> Prop := fun m => m.Sound ∧ m.OneTime
  have now : J m := ⟨sound, start⟩
  have keeps : ∀ m event, keepsOneTime m event = true -> J m -> J (m.step event) := by
    rintro m event allowed ⟨sound, one⟩
    exact ⟨sound.step event, one.step sound allowed⟩
  constructor
  · intro within
    refine Transitions.everyStep_of_law (J := J) (L := OneTime) keeps ?_ now within
    rintro m event ⟨sound, one⟩ after
    cases event with
    | act i => exact keepsOneTime_of_oneTime sound after
    | _ => rfl
  · rintro passes before ⟨after, rfl⟩
    have prefix' := (Transitions.everyStep_append.mp passes).1
    exact (Transitions.run_invariant_of_everyStep (J := J) keeps prefix' now).2

/-! ## Links that are used twice -/

def empty : Machine := ⟨⟨0, [], 1, [], 1, [], 1, 1, []⟩, []⟩

theorem sound_empty : empty.Sound := by
  refine ⟨⟨?_, List.nodup_nil, ?_, ?_, ?_⟩, ?_, ?_, ?_, ?_⟩
  · intro id here
    cases here
  · intro id here
    cases here
  · intro r mem
    cases mem
  · intro r mem
    cases mem
  · intro a mem
    cases mem
  · intro a mem
    cases mem
  · intro a mem
    cases mem
  · intro a mem
    cases mem

theorem oneTime_empty : empty.OneTime := by
  refine ⟨?_, ?_, ?_⟩
  · intro i j a b credential listed
    cases listed
  · intro r mem
    cases mem
  · intro r mem
    cases mem

/-- A reset link, and two requests that present it at once. -/
def presentedTwice : List Event :=
  [.arrive (.requestPasswordReset 1), .act 0, .act 0, .arrive (.confirmPasswordReset 1),
   .arrive (.confirmPasswordReset 1), .act 1, .act 2, .act 1, .act 2]

/-- Two requests for a reset at once. -/
def requestedTwice : List Event :=
  [.arrive (.requestPasswordReset 1), .arrive (.requestPasswordReset 1), .act 0, .act 1, .act 0, .act 1]

/-- An invitation that has expired is resent beside the one that replaced it. -/
def resentLate : List Event :=
  [.arrive (.createInvitation 7 "a@b"), .act 0, .act 0, .act 0, .tick 300000,
   .arrive (.createInvitation 7 "a@b"), .act 1, .act 1, .act 1, .arrive (.resendInvitation 1), .act 2, .act 2]

theorem links_oneTime_empty : (∀ before, before <+: presentedTwice -> (run step empty before).OneTime) ↔
    everyStep step keepsOneTime empty presentedTwice = true :=
  links_oneTime sound_empty oneTime_empty presentedTwice

/-- Each part of the law fails in a run of its own. -/
theorem links_not_oneTime : (¬ (run step empty presentedTwice).ConsumedOnce) ∧
    (¬ (run step empty requestedTwice).tables.OneUsable) ∧ ¬ (run step empty resentLate).tables.OneLive := by
  refine ⟨?_, ?_, ?_⟩
  · intro once
    have same := once 1 2 ⟨.confirmPasswordReset 1, .consumed (.link 1)⟩ ⟨.confirmPasswordReset 1, .consumed (.link 1)⟩
      (.link 1) (by decide +kernel) (by decide +kernel) rfl rfl
    cases same
  · intro one
    have same := one (1, ⟨1, .passwordReset, 3600, none⟩) (by decide +kernel) (2, ⟨1, .passwordReset, 3600, none⟩)
      (by decide +kernel) 1 .passwordReset (by decide +kernel) (by decide +kernel)
    cases same
  · intro one
    have same := one (1, ⟨7, "a@b", 3, 559200, none, false⟩) (by decide +kernel)
      (2, ⟨7, "a@b", 2, 559200, none, false⟩) (by decide +kernel) 7 "a@b" (by decide +kernel) (by decide +kernel)
    cases same

end Machine
end Links
end Shiftlush
