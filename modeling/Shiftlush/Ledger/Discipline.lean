import Shiftlush.Transactions.Atomicity
import Shiftlush.Ledger.InvoicesSound

namespace Shiftlush
namespace Ledger

open Transactions

/-!
# The ledger under any interleaving

Every request follows the convention, so whatever sessions run side by side,
the committed books change by one `LedgerStep` at a time and keep `Inv`.
-/

variable {s : Books} {t : Trail Books Row Note}

/-- What the commit of a request does, and what its notes say of it. -/
structure Change (q : Request) (s s' : Books) (seen : List Note) : Prop where
  step : ∃ written, LedgerStep s s' written ∧
    ∀ r ∈ written, Note.dateOpen r.2.company r.2.date ∈ seen
  companies : s'.companies = s.companies ∨ ∃ firm day, q = .setClosedThrough firm day ∧
    s'.companies = (s.setClosedThrough firm day).companies

theorem Change.inv {q : Request} {s s' : Books} {seen : List Note} (inv : Inv s)
    (change : Change q s s' seen) : Inv s' := by
  rcases change.step with ⟨_, step, _⟩
  exact step.inv inv

/-! ## The records a request names -/

theorem sound_findAccount {id : Id} {post : Books -> Id × Account -> Trail Books Row Note -> Prop}
    (after : ∀ account, account.1 = id -> (t.writes s).accounts.get? account.1 = some account.2 ->
      post s account t) : Sound convention (findAccount id) s t post := by
  unfold findAccount
  simp only [Prog.bind_eq, Prog.pure_eq, sound_bind, sound_fetch, sound_done]
  intro account found
  exact ⟨fun v rely => rely.always.accounts _ _ found, after (id, account) rfl found⟩

theorem sound_findCashAccount {id : Id}
    {post : Books -> Id × CashAccount -> Trail Books Row Note -> Prop}
    (after : ∀ till, till.1 = id -> (t.writes s).cashAccounts.get? till.1 = some till.2 ->
      post s till t) : Sound convention (findCashAccount id) s t post := by
  unfold findCashAccount
  simp only [Prog.bind_eq, Prog.pure_eq, sound_bind, sound_fetch, sound_done]
  intro till found
  exact ⟨fun v rely => rely.always.cashAccounts _ _ found, after (id, till) rfl found⟩

theorem sound_findOptional {ρ : Type} {look : Id -> LedgerProg (Id × ρ)}
    (there : Id × ρ -> Prop) {id : Option Id}
    {post : Books -> Option (Id × ρ) -> Trail Books Row Note -> Prop}
    (rule : ∀ id {post : Books -> Id × ρ -> Trail Books Row Note -> Prop},
      (∀ row, there row -> post s row t) -> Sound convention (look id) s t post)
    (after : ∀ row, (∀ r, row = some r -> there r) -> post s row t) :
    Sound convention (findOptional look id) s t post := by
  cases id with
  | none => exact after none (fun _ same => nomatch same)
  | some id =>
      unfold findOptional
      simp only [Prog.bind_eq, Prog.pure_eq, sound_bind, sound_done]
      apply rule
      intro row found
      apply after
      rintro r ⟨⟩
      exact found

theorem sound_optionalAccount {id : Option Id}
    {post : Books -> Option (Id × Account) -> Trail Books Row Note -> Prop}
    (after : ∀ row, (∀ r, row = some r -> (t.writes s).accounts.get? r.1 = some r.2) ->
      post s row t) : Sound convention (findOptional findAccount id) s t post := by
  refine sound_findOptional (fun r => (t.writes s).accounts.get? r.1 = some r.2) ?_ after
  intro id post after
  apply sound_findAccount
  exact fun row _ found => after row found

theorem sound_optionalCashAccount {id : Option Id}
    {post : Books -> Option (Id × CashAccount) -> Trail Books Row Note -> Prop}
    (after : ∀ row, (∀ r, row = some r -> (t.writes s).cashAccounts.get? r.1 = some r.2) ->
      post s row t) : Sound convention (findOptional findCashAccount id) s t post := by
  refine sound_findOptional (fun r => (t.writes s).cashAccounts.get? r.1 = some r.2) ?_
    after
  intro id post after
  apply sound_findCashAccount
  exact fun row _ found => after row found

/-! ## set_closed_through and the clock -/

theorem grows_tune (v : Books) (today : Date) (companies : Rows Company) :
    Grows v { v with today := today, companies := companies } :=
  ⟨rfl, rfl, rfl, rfl, fun _ _ found => found, fun _ _ found => found, fun _ _ _ found => found,
    fun single => single, fun keys => keys, fun keys => keys⟩

theorem Change.grown {q : Request} {s' : Books} {seen : List Note} (grows : Grows s s')
    (companies : s'.companies = s.companies ∨ ∃ firm day, q = .setClosedThrough firm day ∧
      s'.companies = (s.setClosedThrough firm day).companies) : Change q s s' seen :=
  ⟨⟨[], .grown grows rfl, fun _ mem => absurd mem List.not_mem_nil⟩, companies⟩

theorem sound_setClosedThrough {firm : Id} {day : Option Date} :
    Sound convention (serve (.setClosedThrough firm day)) s (.start 0)
      (fun s' _ t => Change (.setClosedThrough firm day) s' (t.writes s') t.seen) := by
  have nothing : ∀ {t' : Trail Books Row Note} {post : Books -> Unit -> Trail Books Row Note -> Prop},
      Sound convention (checkForeignKeys []) s t' post ↔ post s () t' := Iff.rfl
  unfold serve
  simp only [Request.service, Ledger.setClosedThrough, Prog.bind_eq, Prog.pure_eq, sound_bind,
    sound_peek, sound_require, sound_lock, sound_fetch]
  intro today _
  refine ⟨⟨fun _ mem => absurd mem List.not_mem_nil, .first rfl⟩, ?_⟩
  intro row found
  refine ⟨?_, ?_⟩
  · intro v rely
    have kept : (Row.company firm).kept _ v := rely.rows _ List.mem_cons_self
    exact kept.trans found
  · split
    · simp only [sound_done, nothing]
      exact .grown (.refl s) (Or.inl rfl)
    · simp only [sound_bind, sound_write, sound_done, nothing]
      refine ⟨respects_setClosedThrough, confined_setClosedThrough List.mem_cons_self, ?_⟩
      exact .grown (grows_tune s _ _) (Or.inr ⟨firm, day, rfl, rfl⟩)

theorem sound_today {day : Date} : Sound convention (serve (.today day)) s (.start 0)
    (fun s' _ t => Change (.today day) s' (t.writes s') t.seen) := by
  have nothing : ∀ {t' : Trail Books Row Note} {post : Books -> Unit -> Trail Books Row Note -> Prop},
      Sound convention (checkForeignKeys []) s t' post ↔ post s () t' := Iff.rfl
  unfold serve
  simp only [Request.service, Prog.bind_eq, Prog.pure_eq, sound_bind, sound_write, sound_done,
    nothing]
  exact ⟨respects_setClock, confined_setClock, .grown (grows_tune s _ _) (Or.inl rfl)⟩

/-! ## Every request -/

/-- What is served is committed once its foreign keys are checked. -/
theorem Served.sound {q : Request} {written : Rows Movement} (served : Served s t written) :
    Sound convention (checkForeignKeys written) s t
      (fun s' _ t' => Change q s' (t'.writes s') t'.seen) := by
  apply sound_checkForeignKeys served.fit.no_company served.keys
  intro t' locking
  refine ⟨⟨written, ?_, ?_⟩, Or.inl ?_⟩
  · rw [locking.view]
    exact served.step
  · rw [locking.seen]
    exact served.noted
  · rw [locking.view]
    exact served.fit.companies

theorem sound_serve (q : Request) (inv : Inv s) : Sound convention (serve q) s (.start 0)
    (fun s' _ t => Change q s' (t.writes s') t.seen) := by
  have sound := inv.toSoundBooks
  have fit : Fit s (.start 0) := .start sound 0
  have grows : Grows s ((Trail.start 0 : Trail Books Row Note).writes s) := .refl s
  have below : ∀ kind, Below (Trail.start 0) kind := fun kind => .start kind 0
  have checked : ∀ (written : Rows Movement) (t' : Trail Books Row Note), Served s t' written ->
      Sound convention (checkForeignKeys written) s t'
        (fun s' _ t => Change q s' (t.writes s') t.seen) := fun _ _ served => served.sound
  cases q with
  | setClosedThrough firm day => exact sound_setClosedThrough
  | today day => exact sound_today
  | cancelCollection collection =>
      apply sound_bind.mpr
      exact sound_cancelCollection inv rfl (fun _ _ _ _ served => served.sound)
  | applyCollection collection applies =>
      apply sound_bind.mpr
      exact sound_applyCollection fit rfl (below 0) checked
  | cancelPaymentOut payment =>
      apply sound_bind.mpr
      exact sound_cancelDocument (by decide) fit sound rfl (below 0) checked
  | cancelManualEntry entry =>
      apply sound_bind.mpr
      exact sound_cancelDocument (by decide) fit sound rfl (below 0) checked
  | cancelTransfer transfer =>
      apply sound_bind.mpr
      exact sound_cancelDocument (by decide) fit sound rfl (below 0) checked
  | cancelOpening opening =>
      apply sound_bind.mpr
      exact sound_cancelDocument (by decide) fit sound rfl (below 0) checked
  | issue invoice number date =>
      apply sound_bind.mpr
      exact sound_issue fit sound rfl (below 0) checked
  | cancelInvoice invoice reason =>
      apply sound_bind.mpr
      exact sound_cancelInvoice fit sound rfl (below 0) checked
  | recordCollection account cashAccount amount method date applies =>
      apply sound_bind.mpr
      simp only [Request.service, Prog.bind_eq, sound_bind]
      apply sound_findAccount
      intro account _ at_account
      apply sound_findCashAccount
      intro till _ at_till
      exact sound_recordCollection fit grows (below 4) ((below 0).fits (fun _ => rfl) _) at_account
        at_till checked
  | recordPaymentOut account cashAccount amount method date =>
      apply sound_bind.mpr
      simp only [Request.service, Prog.bind_eq, sound_bind]
      apply sound_findAccount
      intro account _ at_account
      apply sound_findCashAccount
      intro till _ at_till
      exact sound_recordPaymentOut fit grows (below 4) at_account at_till checked
  | recordManualEntry account direction amount date reason =>
      apply sound_bind.mpr
      simp only [Request.service, Prog.bind_eq, sound_bind]
      apply sound_findAccount
      intro account _ at_account
      exact sound_recordManualEntry fit grows (below 6) at_account checked
  | recordTransfer kind amount date fromAccount toAccount fromCash toCash =>
      apply sound_bind.mpr
      simp only [Request.service, Prog.bind_eq, sound_bind]
      apply sound_optionalAccount
      intro source at_source
      apply sound_optionalAccount
      intro target at_target
      apply sound_optionalCashAccount
      intro sourceCash at_sourceCash
      apply sound_optionalCashAccount
      intro targetCash at_targetCash
      apply sound_recordTransfer fit grows (below 6) _ _ checked
      · exact fun a same => same.elim (at_source a) (at_target a)
      · exact fun a same => same.elim (at_sourceCash a) (at_targetCash a)
  | recordOpening direction amount date account cashAccount =>
      apply sound_bind.mpr
      simp only [Request.service, Prog.bind_eq, sound_bind]
      apply sound_optionalAccount
      intro account at_account
      apply sound_optionalCashAccount
      intro till at_till
      exact sound_recordOpening fit grows (below 6) at_account at_till checked
  | markPaid invoice paidOn cashAccount method =>
      apply sound_bind.mpr
      simp only [Request.service, Prog.bind_eq, sound_bind]
      apply sound_optionalCashAccount
      intro till at_till
      exact sound_markPaid fit grows (below 0) at_till checked

theorem disciplined : Disciplined convention serve Change where
  sound q _ inv := sound_serve q inv
  inv _ _ _ _ inv change := change.inv inv

end Ledger
end Shiftlush
