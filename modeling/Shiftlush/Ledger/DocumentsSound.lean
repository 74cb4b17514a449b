import Shiftlush.Ledger.ServicesSound

namespace Shiftlush
namespace Ledger

open Transactions

/-!
# Recording a document follows the convention

The rules of the services that put a document into the books.  They all do it
the same way, which `Posting` follows: the document is inserted, then its
movements one after the other, and what has been checked of each movement makes
the whole `Enterable`.

`Served` is what every service of the ledger leaves behind: a step of the
books, the dates of its movements checked, and the rows they refer to ready for
the check of their foreign keys.
-/

variable {s : Books} {t : Trail Books Row Note}

structure Served (s : Books) (t : Trail Books Row Note) (written : Rows Movement) : Prop where
  step : LedgerStep s (t.writes s) written
  fit : Fit s t
  noted : ∀ r ∈ written, Note.dateOpen r.2.company r.2.date ∈ t.seen
  keys : KeysFit s t written

theorem Fit.start (sound : SoundBooks s) (retries : Nat) : Fit s (.start retries) :=
  ⟨Convention.Confined.refl _ s, rfl, sound.movementKeys,
    ⟨sound.accountKeys, sound.cashAccountKeys⟩, fun _ mem => absurd mem List.not_mem_nil⟩

/-! ## A document inserted -/

structure Entering (s : Books) (t t' : Trail Books Row Note) (id : Id) (d : Document) : Prop where
  later : Later t t'
  fit : Fit s t'
  held : t'.held = t.held
  mine : id ∈ t'.ids
  unused : Unused id s
  unusedHere : Unused id (t.writes s)
  view : t'.writes s = (t.writes s).addDocument id d

/-- Inserting a document under a key just drawn. -/
theorem Entering.insert {id : Id} {d : Document} (fit : Fit s t)
    (opening : ∀ side, d.openingSide? = some side -> t.Locked side.row) (unused : Unused id s)
    (above : ∀ earlier ∈ t.ids, earlier < id) :
    convention.Respects (t.draw id) (Books.addDocument id d) (t.writes s) ∧
      (convention.Confined (t.draw id) s (t.writes s) ->
        convention.Confined (t.draw id) s ((t.writes s).addDocument id d)) ∧
      Entering s t ((t.draw id).write (Books.addDocument id d)) id d := by
  have unusedHere := fit.fresh unused above
  have fit₁ := fit.draw id
  have confined : convention.Confined (t.draw id) s (t.writes s) ->
      convention.Confined (t.draw id) s ((t.writes s).addDocument id d) :=
    confined_addDocument List.mem_cons_self unusedHere.applications opening
  refine ⟨respects_addDocument List.mem_cons_self, confined, ?_⟩
  exact
    { later := ⟨fun _ mem => mem, mem_draw, fun _ mem => mem, rfl⟩
      fit := fit₁.write (confined fit₁.confined) rfl fit₁.keys fit₁.sides
      held := rfl, mine := List.mem_cons_self, unused := unused, unusedHere := unusedHere
      view := rfl }

/-! ## Its movements -/

/-- What has been checked of one movement of the document. -/
structure Entry (u : Books) (d : Document) (r : Id × Movement) : Prop where
  fresh : u.movements.get? r.1 = none
  currency : InOwnCurrency u r.2
  after : ∀ side, r.2.on side = true -> ∀ o ∈ u.standingOpenings side, o.2.date ≤ d.date

/-- The document is in, with the applications `applied` and the movements `rows`. -/
structure Posting (s u : Books) (t : Trail Books Row Note) (id : Id) (d : Document)
    (applied : Rows CollectionApplication) (rows : Rows Movement) : Prop where
  fit : Fit s t
  mine : id ∈ t.ids
  unused : Unused id s
  unusedBefore : Unused id u
  grows : Grows s u
  view : t.writes s = (u.enter id d rows).addApplications applied
  entries : ∀ r ∈ rows, Entry u d r
  drawn : ∀ r ∈ rows, r.1 ∈ t.ids
  keys : (rows.map (·.1)).Pairwise (· < ·)
  noted : ∀ r ∈ rows, Note.dateOpen r.2.company r.2.date ∈ t.seen
  locked : ∀ r ∈ rows, ∀ row ∈ r.2.references, row.isCompany = false -> t.Locked row

theorem Movement.references_side (m : Movement) {row : Row} (mem : row ∈ m.references)
    (side : row.isCompany = false) : ∃ side : Side, m.on side = true ∧ row = side.row := by
  unfold Movement.references at mem
  rcases List.mem_cons.mp mem with company | sided
  · rw [company] at side
    cases side
  · rcases List.mem_append.mp sided with account | cash
    · rcases Option.map_eq_some_iff.mp (Option.mem_toList.mp account) with ⟨pair, there, same⟩
      refine ⟨.account pair.1, ?_, same.symm⟩
      unfold Movement.on
      rw [there]
      exact decide_eq_true rfl
    · rcases Option.map_eq_some_iff.mp (Option.mem_toList.mp cash) with ⟨pair, there, same⟩
      refine ⟨.cash pair.1, ?_, same.symm⟩
      unfold Movement.on
      rw [there]
      exact decide_eq_true rfl

namespace Posting

variable {u : Books} {id : Id} {d : Document} {applied : Rows CollectionApplication}
  {rows : Rows Movement}

theorem start {t' : Trail Books Row Note} (entering : Entering s t t' id d)
    (grows : Grows s (t.writes s)) : Posting s (t.writes s) t' id d [] [] where
  fit := entering.fit
  mine := entering.mine
  unused := entering.unused
  unusedBefore := entering.unusedHere
  grows := grows
  view := by
    rw [entering.view]
    unfold Books.enter Books.addApplications Books.addDocument
    rw [List.append_nil, List.append_nil]
  entries _ mem := absurd mem List.not_mem_nil
  drawn _ mem := absurd mem List.not_mem_nil
  keys := List.Pairwise.nil
  noted _ mem := absurd mem List.not_mem_nil
  locked _ mem := absurd mem List.not_mem_nil

theorem owned (posting : Posting s u t id d applied rows) :
    Owned t s (t.writes s) ⟨d.body.type, id⟩ :=
  .own rfl posting.mine posting.unused

theorem accounts (posting : Posting s u t id d applied rows) :
    (t.writes s).accounts = u.accounts := by
  rw [posting.view]
  rfl

theorem cashAccounts (posting : Posting s u t id d applied rows) :
    (t.writes s).cashAccounts = u.cashAccounts := by
  rw [posting.view]
  rfl

/-- One more movement. -/
theorem post (posting : Posting s u t id d applied rows) {t' : Trail Books Row Note}
    {sides : List Side} {mid : Id} {m : Movement} (posted : Posted s t t' sides mid m)
    (on : ∀ side, m.on side = true -> side ∈ sides) (date : m.date = d.date)
    (opening : m.source = .opening -> ∀ side ∈ sides, u.standingOpenings side = []) :
    Posting s u t' id d applied (rows ++ [(mid, m)]) where
  fit := posted.fit
  mine := posted.later.ids _ posting.mine
  unused := posting.unused
  unusedBefore := posting.unusedBefore
  grows := posting.grows
  view := by
    rw [posted.view, posting.view]
    unfold Books.enter Books.addApplications Books.addMovement Rows.insert
    rw [List.append_assoc]
  entries r mem := by
    rcases List.mem_append.mp mem with old | new
    · exact posting.entries r old
    rw [List.mem_singleton.mp new]
    refine ⟨?_, ?_, ?_⟩
    · rw [posting.grows.movements]
      exact posted.unused.movement
    · apply posted.currency.mono
      · rw [posting.accounts]
        exact fun _ _ found => found
      · rw [posting.cashAccounts]
        exact fun _ _ found => found
    · intro side here o mem
      by_cases first : m.source = .opening
      · rw [opening first side (on side here)] at mem
        cases mem
      · rw [← date]
        apply posted.opening first side (on side here) o
        rw [posting.view]
        rcases List.mem_filter.mp mem with ⟨listed, passes⟩
        exact List.mem_filter.mpr ⟨List.mem_append_left _ listed, passes⟩
  drawn r mem := by
    rcases List.mem_append.mp mem with old | new
    · exact posted.later.ids _ (posting.drawn r old)
    · rw [List.mem_singleton.mp new]
      exact posted.drawn
  keys := by
    rw [List.map_append, List.pairwise_append]
    refine ⟨posting.keys, List.pairwise_singleton _ _, ?_⟩
    intro key old key' new
    rcases List.mem_map.mp old with ⟨r, mem, same⟩
    rw [List.mem_singleton.mp new, ← same]
    exact posted.above r.1 (posting.drawn r mem)
  noted r mem := by
    rcases List.mem_append.mp mem with old | new
    · exact posted.later.seen _ (posting.noted r old)
    · rw [List.mem_singleton.mp new]
      exact posted.noted
  locked r mem row listed side := by
    rcases List.mem_append.mp mem with old | new
    · exact posted.later.locked (posting.locked r old row listed side)
    · rw [List.mem_singleton.mp new] at listed
      rcases Movement.references_side m listed side with ⟨side', here, same⟩
      rw [same]
      exact posted.locked side' (on side' here)

/-- All legs posted. -/
theorem enterable (posting : Posting s u t id d applied rows) {firm : Id} (currency : String)
    (standing : d.standing = true) (positive : 0 < d.amount)
    (legs : rows.map (·.2) = d.body.legs.map ((d.voucher id).movement firm currency))
    (first : ∀ side, d.openingSide? = some side ->
      u.standingOpenings side = [] ∧ ∀ r ∈ u.unreversedOn side, d.date ≤ r.2.date) :
    Enterable u id d rows where
  new := posting.unusedBefore.document
  unnamed := posting.unusedBefore.entries d.body
  unapplied := posting.unusedBefore.applications
  standing := standing
  positive := positive
  originals := ⟨⟨firm, currency, legs⟩, posting.keys⟩
  fresh r mem := (posting.entries r mem).fresh
  currencies r mem := (posting.entries r mem).currency
  first := first
  after r mem := (posting.entries r mem).after

/-- A document without applications is served as soon as its legs are posted. -/
theorem served (posting : Posting s u t id d [] rows) (enterable : Enterable u id d rows) :
    Served s t rows where
  step := by
    apply LedgerStep.recorded posting.grows enterable (Or.inl rfl)
      (fun _ mem => absurd mem List.not_mem_nil)
    rw [posting.view]
    exact Syncs.nothing _
  fit := posting.fit
  noted := posting.noted
  keys := .locked posting.locked

/-- A document of one leg is served as soon as that is posted. -/
theorem served_one (posting : Posting s u t id d [] []) {t' : Trail Books Row Note} {sides : List Side} {mid : Id}
    {m : Movement} (posted : Posted s t t' sides mid m) (on : ∀ side, m.on side = true -> side ∈ sides)
    (date : m.date = d.date) (opening : m.source = .opening -> ∀ side ∈ sides, u.standingOpenings side = [])
    {firm : Id} (currency : String) (standing : d.standing = true) (positive : 0 < d.amount)
    (legs : [m] = d.body.legs.map ((d.voucher id).movement firm currency))
    (first : ∀ side, d.openingSide? = some side ->
      u.standingOpenings side = [] ∧ ∀ r ∈ u.unreversedOn side, d.date ≤ r.2.date) : Served s t' [(mid, m)] := by
  have posting₁ := posting.post posted on date opening
  apply posting₁.served
  exact posting₁.enterable currency standing positive legs first

end Posting

/-! ## What services check first -/

theorem sound_checkAmount {amount : Decimal} {post : Books -> Cents -> Trail Books Row Note -> Prop} :
    Sound convention (checkAmount amount) s t post ↔
      (amount.isMoney = true -> post s (amount.cents?.getD 0) t) := by
  unfold checkAmount
  simp only [Prog.bind_eq, Prog.pure_eq, sound_bind, sound_require, sound_done]

theorem sound_checkMethod {method : Option PaymentMethod}
    {post : Books -> PaymentMethod -> Trail Books Row Note -> Prop} :
    Sound convention (checkMethod method) s t post ↔ ∀ m, method = some m -> post s m t := by
  cases method with
  | none => exact iff_of_true trivial (fun _ same => nomatch same)
  | some m => simp [checkMethod, sound_done]

theorem sound_checkDirection {direction : Option Direction}
    {post : Books -> Direction -> Trail Books Row Note -> Prop} :
    Sound convention (checkDirection direction) s t post ↔
      ∀ d, direction = some d -> post s d t := by
  cases direction with
  | none => exact iff_of_true trivial (fun _ same => nomatch same)
  | some d => simp [checkDirection, sound_done]

theorem money_pos {amount : Decimal} (money : amount.isMoney = true) :
    0 < amount.cents?.getD 0 := by
  rcases Decimal.isMoney_iff.mp money with ⟨cents, at_cents, positive⟩
  rw [at_cents]
  exact positive

/-! ## One or two movements -/

theorem grows_setCounter (v : Books) (firm : Id) (numberPrefix : NumberPrefix) (last : Nat) :
    Grows v (v.setCounter firm numberPrefix last) :=
  ⟨rfl, rfl, rfl, rfl, fun _ _ found => found, fun _ _ found => found, fun _ _ _ found => found,
    fun single => single, fun keys => keys, fun keys => keys⟩

theorem Below.same {kind : Nat} {t' : Trail Books Row Note} (below : Below t kind)
    (held : t'.held = t.held) : Below t' kind := by
  intro h mem
  rw [held] at mem
  exact below h mem

theorem Below.of_bound {level kind : Nat} {t' : Trail Books Row Note} (below : Below t level)
    (bound : ∀ h ∈ t'.held, h ∈ t.held ∨ h.2.kind = level) (lt : level < kind) :
    Below t' kind :=
  (below.mono (Nat.le_of_lt lt)).locking bound lt

theorem sound_recordPaymentOut {account : Id × Account} {cashAccount : Id × CashAccount}
    {amount : Decimal} {method : Option PaymentMethod} {date : Date}
    {post : Books -> Rows Movement -> Trail Books Row Note -> Prop} (fit : Fit s t)
    (grows : Grows s (t.writes s)) (below : Below t 4)
    (at_account : (t.writes s).accounts.get? account.1 = some account.2)
    (at_till : (t.writes s).cashAccounts.get? cashAccount.1 = some cashAccount.2)
    (after : ∀ written t', Served s t' written -> post s written t') :
    Sound convention (recordPaymentOut account cashAccount amount method date) s t post := by
  unfold recordPaymentOut
  simp only [Prog.bind_eq, Prog.pure_eq, sound_bind, sound_require, sound_checkMethod,
    sound_checkAmount]
  intro _ method' _ money
  apply sound_nextNumber fit below
  intro number t₁ _ fit₁ view₁ _ bound
  simp only [sound_fresh, sound_write]
  intro id unused above
  rcases Entering.insert (d := ⟨account.2.company, .paymentOut account.1 cashAccount.1 number method',
    amount.cents?.getD 0, date, none⟩) fit₁ (fun _ opening => nomatch opening) unused above with
    ⟨respects, confined, entering⟩
  refine ⟨respects, confined, ?_⟩
  have grown : Grows s (t₁.writes s) := by
    rw [view₁]
    exact grows.trans (grows_setCounter _ _ _ _)
  have posting := Posting.start entering grown
  have below₁ : Below _ 6 := (below.of_bound bound (by decide)).same entering.held
  have below₂ : Below _ 7 := (below.of_bound bound (by decide)).same entering.held
  apply sound_post entering.fit (below₁.fits (fun _ => rfl) _) (below₂.fits (fun _ => rfl) _)
    posting.owned
  · rintro _ ⟨⟩
    rw [posting.accounts, view₁]
    exact at_account
  · rintro _ ⟨⟩
    rw [posting.cashAccounts, view₁]
    exact at_till
  · intro firm mid t₂ company _ _ posted
    simp only [sound_done]
    apply after
    apply posting.served_one posted (fun _ => on_sided) rfl (fun opening => nomatch opening)
      account.2.currency rfl (money_pos money)
    · have same := company account rfl
      subst same
      rfl
    · exact fun _ opening => nomatch opening

theorem sound_recordManualEntry {account : Id × Account} {direction : Option Direction}
    {amount : Decimal} {date : Date} {reason : String}
    {post : Books -> Rows Movement -> Trail Books Row Note -> Prop} (fit : Fit s t)
    (grows : Grows s (t.writes s)) (below : Below t 6)
    (at_account : (t.writes s).accounts.get? account.1 = some account.2)
    (after : ∀ written t', Served s t' written -> post s written t') :
    Sound convention (recordManualEntry account direction amount date reason) s t post := by
  unfold recordManualEntry
  simp only [Prog.bind_eq, Prog.pure_eq, sound_bind, sound_require, sound_checkDirection,
    sound_checkAmount, sound_fresh, sound_write]
  intro _ direction' _ money id unused above
  rcases Entering.insert (d := ⟨account.2.company, .manualEntry account.1 direction' (strip reason),
    amount.cents?.getD 0, date, none⟩) fit (fun _ opening => nomatch opening) unused above with
    ⟨respects, confined, entering⟩
  refine ⟨respects, confined, ?_⟩
  have posting := Posting.start entering grows
  have below₁ : Below _ 6 := below.same entering.held
  apply sound_post entering.fit (below₁.fits (fun _ => rfl) _)
    (.locked (fun _ mem => absurd mem List.not_mem_nil)) posting.owned
  · rintro _ ⟨⟩
    rw [posting.accounts]
    exact at_account
  · exact fun _ same => nomatch same
  · intro firm mid t₁ company _ _ posted
    simp only [sound_done]
    apply after
    apply posting.served_one posted (fun _ => on_sided) rfl (fun opening => nomatch opening)
      account.2.currency rfl (money_pos money)
    · have same := company account rfl
      subst same
      rfl
    · exact fun _ opening => nomatch opening

/-! ## record_transfer -/

theorem sound_checkTransfer {ρ : Type} {companyOf : ρ -> Id} {currencyOf : ρ -> String}
    {sourceField targetField : String} {source target : Option (Id × ρ)}
    {post : Books -> (Id × ρ) × (Id × ρ) -> Trail Books Row Note -> Prop}
    (after : ∀ a b, source = some a -> target = some b -> companyOf b.2 = companyOf a.2 ->
      a.1 ≠ b.1 -> currencyOf a.2 = currencyOf b.2 -> post s (a, b) t) :
    Sound convention (checkTransfer companyOf currencyOf sourceField targetField source target) s t
      post := by
  unfold checkTransfer
  cases source with
  | none => trivial
  | some a =>
      cases target with
      | none => trivial
      | some b =>
          simp only [Prog.bind_eq, Prog.pure_eq, sound_bind, sound_require, sound_done]
          intro company different currency
          exact after a b rfl rfl (of_decide_eq_true company) (of_decide_eq_true different)
            (of_decide_eq_true currency)

/-- The movement of one side of a transfer. -/
def transferLeg (firm : Id) (side : Option (Id × Account)) (cashSide : Option (Id × CashAccount))
    (direction : Option Direction) (cashDirection : Option CashDirection) (amount : Decimal)
    (currency : String) (date : Date) (id : Id) : Movement :=
  postedMovement firm side cashSide direction cashDirection amount currency date .transfer
    ⟨.transfer, id⟩

/-- The two postings of a transfer, its sides locked before. -/
theorem sound_postBoth {u : Books} {id : Id} {d : Document} {a b : Option (Id × Account)}
    {c e : Option (Id × CashAccount)} {direction direction' : Option Direction}
    {cashDirection cashDirection' : Option CashDirection} {amount : Decimal} {currency : String}
    {date : Date} {post : Books -> Rows Movement -> Trail Books Row Note -> Prop}
    (posting : Posting s u t id d [] [])
    (locked : ∀ side ∈ sidesOf (a.map (·.1)) (c.map (·.1)) ++ sidesOf (b.map (·.1)) (e.map (·.1)),
      t.Locked side.row)
    (accounts : ∀ r, a = some r ∨ b = some r -> u.accounts.get? r.1 = some r.2)
    (tills : ∀ r, c = some r ∨ e = some r -> u.cashAccounts.get? r.1 = some r.2)
    (type : d.body.type = .transfer) (dated : d.date = date)
    (enters : ∀ firm firm' rows, (∀ r, a = some r -> r.2.company = firm) ->
      (∀ r, c = some r -> r.2.company = firm) -> (∀ r, b = some r -> r.2.company = firm') ->
      (∀ r, e = some r -> r.2.company = firm') ->
      rows.map Prod.snd = [transferLeg firm a c direction cashDirection amount currency date id,
        transferLeg firm' b e direction' cashDirection' amount currency date id] ->
      (∀ t', Posting s u t' id d [] rows -> Enterable u id d rows))
    (after : ∀ written t', Served s t' written -> post s written t') :
    Sound convention (do
      let first ← Ledger.post a c direction cashDirection amount currency date .transfer
        ⟨.transfer, id⟩
      let second ← Ledger.post b e direction' cashDirection' amount currency date .transfer
        ⟨.transfer, id⟩
      return [first, second] : LedgerProg (Rows Movement)) s t post := by
  have owned : ∀ {t' rows}, Posting s u t' id d [] rows ->
      Owned t' s (t'.writes s) ⟨.transfer, id⟩ := by
    intro t' rows posting'
    rw [← type]
    exact posting'.owned
  -- Each posting locks its sides again.
  have fits : ∀ {sides : List Side} {rowOf : Id -> Row} {ids : List Id} {t' : Trail Books Row Note},
      Later t t' -> (∀ side ∈ sides, t.Locked side.row) ->
      (∀ k ∈ ids, ∃ side ∈ sides, rowOf k = side.row) -> FitsIn t' rowOf ids := by
    intro sides rowOf ids t' later sidesLocked covered
    apply FitsIn.locked
    intro k mem
    rcases covered k mem with ⟨side, listed, same⟩
    rw [same]
    exact later.locked (sidesLocked side listed)
  have account_sides : ∀ (x : Option Id) (y : Option Id), ∀ k ∈ x.toList,
      ∃ side ∈ sidesOf x y, Row.account k = side.row := by
    intro x y k mem
    refine ⟨.account k, List.mem_append_left _ ?_, rfl⟩
    rw [Option.mem_toList] at mem ⊢
    exact Option.mem_map_of_mem _ mem
  have cash_sides : ∀ (x : Option Id) (y : Option Id), ∀ k ∈ y.toList,
      ∃ side ∈ sidesOf x y, Row.cashAccount k = side.row := by
    intro x y k mem
    refine ⟨.cash k, List.mem_append_right _ ?_, rfl⟩
    rw [Option.mem_toList] at mem ⊢
    exact Option.mem_map_of_mem _ mem
  have first : ∀ side ∈ sidesOf (a.map (·.1)) (c.map (·.1)), t.Locked side.row :=
    fun side mem => locked side (List.mem_append_left _ mem)
  have second : ∀ side ∈ sidesOf (b.map (·.1)) (e.map (·.1)), t.Locked side.row :=
    fun side mem => locked side (List.mem_append_right _ mem)
  simp only [Prog.bind_eq, Prog.pure_eq, sound_bind]
  apply sound_post posting.fit (fits (.refl t) first (account_sides _ _))
    (fits (.refl t) first (cash_sides _ _)) (owned posting)
  · intro r same
    rw [posting.accounts]
    exact accounts r (Or.inl same)
  · intro r same
    rw [posting.cashAccounts]
    exact tills r (Or.inl same)
  intro firm mid t₁ companies companies' _ posted
  have posting₁ := posting.post posted (fun _ => on_sided) dated.symm (fun opening => nomatch opening)
  apply sound_post posted.fit (fits posted.later second (account_sides _ _))
    (fits posted.later second (cash_sides _ _)) (owned posting₁)
  · intro r same
    rw [posting₁.accounts]
    exact accounts r (Or.inr same)
  · intro r same
    rw [posting₁.cashAccounts]
    exact tills r (Or.inr same)
  intro firm' mid' t₂ companies₁ companies₁' _ posted'
  have posting₂ := posting₁.post posted' (fun _ => on_sided) dated.symm
    (fun opening => nomatch opening)
  simp only [sound_done]
  apply after
  apply posting₂.served
  exact enters firm firm' _ companies companies' companies₁ companies₁' rfl t₂ posting₂

theorem sound_recordTransfer {kind : Option TransferKind} {amount : Decimal} {date : Date}
    {fromAccount toAccount : Option (Id × Account)} {fromCash toCash : Option (Id × CashAccount)}
    {post : Books -> Rows Movement -> Trail Books Row Note -> Prop} (fit : Fit s t)
    (grows : Grows s (t.writes s)) (below : Below t 6)
    (accounts : ∀ a, fromAccount = some a ∨ toAccount = some a ->
      (t.writes s).accounts.get? a.1 = some a.2)
    (tills : ∀ a, fromCash = some a ∨ toCash = some a ->
      (t.writes s).cashAccounts.get? a.1 = some a.2)
    (after : ∀ written t', Served s t' written -> post s written t') :
    Sound convention (recordTransfer kind amount date fromAccount toAccount fromCash toCash) s t
      post := by
  have below' : Below t 7 := below.mono (by decide)
  cases kind with
  | none => trivial
  | some kind =>
      cases kind with
      | account =>
          simp only [recordTransfer, Prog.bind_eq, Prog.pure_eq, sound_bind, sound_require]
          intro _
          apply sound_checkTransfer
          intro a b is_source is_target company _ _
          simp only [sound_checkAmount]
          intro money
          apply sound_lockSides fit (below.fits (fun _ => rfl) _) (below'.fits (fun _ => rfl) _)
          intro t₁ locking fit₁ locked _ _
          simp only [sound_fresh, sound_write]
          intro id unused above
          rcases Entering.insert (d := ⟨a.2.company, .accountTransfer a.1 b.1,
            amount.cents?.getD 0, date, none⟩) fit₁ (fun _ opening => nomatch opening) unused above
            with ⟨respects, confined, entering⟩
          refine ⟨respects, confined, ?_⟩
          have view := locking.view s
          have written := @sound_postBoth s _ _ _ _ (some a) (some b) none none (some .credit)
            (some .debit) none none amount a.2.currency date post
            (.start entering (view ▸ grows))
          simp only [Prog.bind_eq, Prog.pure_eq, sound_bind] at written
          apply written
          · intro side mem
            rcases List.mem_cons.mp mem with here | mem
            · rw [here]
              exact entering.later.locked (locked a.1 List.mem_cons_self)
            · rw [List.mem_singleton.mp mem]
              exact entering.later.locked (locked b.1 (List.mem_cons_of_mem _ List.mem_cons_self))
          · intro r same
            rw [view]
            rcases same with same | same
            · exact accounts r (Or.inl (is_source.trans same))
            · exact accounts r (Or.inr (is_target.trans same))
          · exact fun _ same => by rcases same with same | same <;> cases same
          · rfl
          · trivial
          · intro firm firm' rows at_firm _ at_firm' _ legs t' posting
            apply posting.enterable a.2.currency rfl (money_pos money)
            · rw [legs, ← at_firm a rfl, ← at_firm' b rfl, company]
              rfl
            · exact fun _ opening => nomatch opening
          · exact after
      | cash =>
          simp only [recordTransfer, Prog.bind_eq, Prog.pure_eq, sound_bind, sound_require]
          intro _
          apply sound_checkTransfer
          intro a b is_source is_target company _ _
          simp only [sound_checkAmount]
          intro money
          apply sound_lockSides fit (below.fits (fun _ => rfl) _) (below'.fits (fun _ => rfl) _)
          intro t₁ locking fit₁ _ locked _
          simp only [sound_fresh, sound_write]
          intro id unused above
          rcases Entering.insert (d := ⟨a.2.company, .cashTransfer a.1 b.1,
            amount.cents?.getD 0, date, none⟩) fit₁ (fun _ opening => nomatch opening) unused above
            with ⟨respects, confined, entering⟩
          refine ⟨respects, confined, ?_⟩
          have view := locking.view s
          have written := @sound_postBoth s _ _ _ _ none none (some a) (some b) none none
            (some .out) (some .in) amount a.2.currency date post
            (.start entering (view ▸ grows))
          simp only [Prog.bind_eq, Prog.pure_eq, sound_bind] at written
          apply written
          · intro side mem
            rcases List.mem_cons.mp mem with here | mem
            · rw [here]
              exact entering.later.locked (locked a.1 List.mem_cons_self)
            · rw [List.mem_singleton.mp mem]
              exact entering.later.locked (locked b.1 (List.mem_cons_of_mem _ List.mem_cons_self))
          · exact fun _ same => by rcases same with same | same <;> cases same
          · intro r same
            rw [view]
            rcases same with same | same
            · exact tills r (Or.inl (is_source.trans same))
            · exact tills r (Or.inr (is_target.trans same))
          · rfl
          · trivial
          · intro firm firm' rows _ at_firm _ at_firm' legs t' posting
            apply posting.enterable a.2.currency rfl (money_pos money)
            · rw [legs, ← at_firm a rfl, ← at_firm' b rfl, company]
              rfl
            · exact fun _ opening => nomatch opening
          · exact after

/-! ## record_opening -/

theorem startsBy_iff {v : Books} {side : Side} {day : Date} :
    v.startsBy side day = true ↔ ∀ r ∈ v.unreversedOn side, day ≤ r.2.date := by
  unfold Books.startsBy
  rw [List.all_eq_true]
  apply forall₂_congr
  intro r _
  exact decide_eq_true_iff

theorem sound_checkOpening (side : Side) {field : String} {day : Date}
    {post : Books -> Unit -> Trail Books Row Note -> Prop} (locked : t.Locked side.row)
    (after : (t.writes s).standingOpenings side = [] ->
      (∀ r ∈ (t.writes s).unreversedOn side, day ≤ r.2.date) -> post s () t) :
    Sound convention (checkOpening side field day) s t post := by
  unfold checkOpening
  simp only [Prog.bind_eq, sound_bind, sound_ensure, List.isEmpty_iff, startsBy_iff]
  have kept : ∀ v, convention.Rely t (t.writes s) v -> NoLater side (t.writes s) v :=
    fun v rely => kept_side (rely.rows _ locked)
  intro empty
  refine ⟨?_, ?_⟩
  · intro v rely
    apply List.eq_nil_iff_forall_not_mem.mpr
    intro o mem
    have before := (kept v rely).openings o mem
    rw [empty] at before
    cases before
  · intro starts
    refine ⟨?_, after empty starts⟩
    exact fun v rely r mem => starts r ((kept v rely).movements r mem)

theorem sound_recordOpening {direction : Option Direction} {amount : Decimal} {date : Date}
    {account : Option (Id × Account)} {cashAccount : Option (Id × CashAccount)}
    {post : Books -> Rows Movement -> Trail Books Row Note -> Prop} (fit : Fit s t)
    (grows : Grows s (t.writes s)) (below : Below t 6)
    (at_account : ∀ a, account = some a -> (t.writes s).accounts.get? a.1 = some a.2)
    (at_till : ∀ c, cashAccount = some c -> (t.writes s).cashAccounts.get? c.1 = some c.2)
    (after : ∀ written t', Served s t' written -> post s written t') :
    Sound convention (recordOpening direction amount date account cashAccount) s t post := by
  have below' : Below t 7 := below.mono (by decide)
  cases account with
  | some a =>
      cases cashAccount with
      | some c => trivial
      | none =>
          simp only [recordOpening, Prog.bind_eq, Prog.pure_eq, sound_bind, sound_checkDirection,
            sound_checkAmount]
          intro d _ money
          apply sound_lockSides fit (below.fits (fun _ => rfl) _) (below'.fits (fun _ => rfl) _)
          intro t₁ locking fit₁ locked _ _
          have lockedA : t₁.Locked (Row.account a.1) := locked a.1 List.mem_cons_self
          apply sound_checkOpening (.account a.1) lockedA
          intro empty starts
          simp only [sound_fresh, sound_write]
          intro id unused above
          have opening : ∀ side, (⟨a.2.company, .accountOpening a.1 d, amount.cents?.getD 0, date,
              none⟩ : Document).openingSide? = some side -> side = .account a.1 :=
            fun side same => (Option.some.inj same).symm
          rcases Entering.insert fit₁ (fun side same => opening side same ▸ lockedA) unused above
            with ⟨respects, confined, entering⟩
          refine ⟨respects, confined, ?_⟩
          have posting := Posting.start entering (locking.view s ▸ grows)
          apply sound_post entering.fit _ (.locked (fun _ mem => absurd mem List.not_mem_nil))
            posting.owned
          · rintro _ ⟨⟩
            rw [posting.accounts, locking.view s]
            exact at_account a rfl
          · exact fun _ same => nomatch same
          · intro firm mid t₂ company _ _ posted
            simp only [sound_done]
            have unopened : ∀ side ∈ [Side.account a.1], (t₁.writes s).standingOpenings side = [] := by
              intro side mem
              rw [List.mem_singleton.mp mem]
              exact empty
            apply after
            apply posting.served_one posted (fun _ => on_sided) rfl (fun _ => unopened)
              a.2.currency rfl (money_pos money)
            · have same := company a rfl
              subst same
              rfl
            · intro side same
              rw [opening side same]
              exact ⟨empty, starts⟩
          · apply FitsIn.locked
            intro k mem
            rw [List.mem_singleton.mp mem]
            exact entering.later.locked lockedA
  | none =>
      cases cashAccount with
      | none => trivial
      | some c =>
          simp only [recordOpening, Prog.bind_eq, Prog.pure_eq, sound_bind, sound_checkDirection,
            sound_checkAmount]
          intro d _ money
          apply sound_lockSides fit (below.fits (fun _ => rfl) _) (below'.fits (fun _ => rfl) _)
          intro t₁ locking fit₁ _ locked _
          have lockedC : t₁.Locked (Row.cashAccount c.1) := locked c.1 List.mem_cons_self
          apply sound_checkOpening (.cash c.1) lockedC
          intro empty starts
          simp only [sound_fresh, sound_write]
          intro id unused above
          have opening : ∀ side, (⟨c.2.company, .cashOpening c.1 d, amount.cents?.getD 0, date,
              none⟩ : Document).openingSide? = some side -> side = .cash c.1 :=
            fun side same => (Option.some.inj same).symm
          rcases Entering.insert fit₁ (fun side same => opening side same ▸ lockedC) unused above
            with ⟨respects, confined, entering⟩
          refine ⟨respects, confined, ?_⟩
          have posting := Posting.start entering (locking.view s ▸ grows)
          apply sound_post entering.fit (.locked (fun _ mem => absurd mem List.not_mem_nil)) _
            posting.owned
          · exact fun _ same => nomatch same
          · rintro _ ⟨⟩
            rw [posting.cashAccounts, locking.view s]
            exact at_till c rfl
          · intro firm mid t₂ _ company _ posted
            simp only [sound_done]
            have unopened : ∀ side ∈ [Side.cash c.1], (t₁.writes s).standingOpenings side = [] := by
              intro side mem
              rw [List.mem_singleton.mp mem]
              exact empty
            apply after
            apply posting.served_one posted (fun _ => on_sided) rfl (fun _ => unopened)
              c.2.currency rfl (money_pos money)
            · have same := company c rfl
              subst same
              rfl
            · intro side same
              rw [opening side same]
              exact ⟨empty, starts⟩
          · apply FitsIn.locked
            intro k mem
            rw [List.mem_singleton.mp mem]
            exact entering.later.locked lockedC

/-! ## Collections -/

/-- Applications checked by `_apply` are those `Applicable` asks for. -/
theorem AppliedAll.applicable {t' : Trail Books Row Note} {collection account : Id} {row : Account}
    {rows : Rows CollectionApplication} (applied : AppliedAll s t t' collection row rows)
    {u v : Books} (view : t.writes s = u) {d : Document} {cashAccount number : Id}
    {method : PaymentMethod} (found : v.documents.get? collection = some d)
    (standing : d.standing = true) (body : d.body = .collection account cashAccount number method)
    (at_account : v.accounts.get? account = some row)
    (limit : v.allocated collection + Rows.total rows (fun _ a => a.amount) ≤ d.amount)
    (positive : ∀ r ∈ rows, 0 < r.2.amount)
    (once : (rows.map (fun r => r.2.invoice)).Nodup) (invoices : v.invoices = u.invoices)
    (remaining : ∀ id draft, v.invoiceRemaining id draft = u.invoiceRemaining id draft) :
    Applicable v collection rows where
  source := by
    refine ⟨d, account, row, cashAccount, number, method, found, standing, body, at_account, limit,
      ?_⟩
    intro r mem
    rcases applied.checked r mem with ⟨same, payable⟩
    rcases payable.draft with ⟨draft, at_draft, issued, party, currency, covered⟩
    rw [view] at at_draft covered
    refine ⟨same, positive r mem, draft, ?_, issued, party, currency, ?_⟩
    · rw [invoices]
      exact at_draft
    · rw [remaining]
      exact covered
  once := once

/-- A document just entered has allocated nothing. -/
theorem Enterable.allocated {v : Books} {id : Id} {d : Document} {rows : Rows Movement}
    (enterable : Enterable v id d rows) : (v.enter id d rows).allocated id = 0 := by
  have unapplied : (v.enter id d rows).applicationsOf id = [] := enterable.unapplied
  unfold Books.allocated
  rw [unapplied]
  rfl

theorem Posting.apply {u : Books} {id : Id} {d : Document} {rows : Rows Movement}
    (posting : Posting s u t id d [] rows) {t' : Trail Books Row Note} {account : Account}
    {applied : Rows CollectionApplication} (all : AppliedAll s t t' id account applied) :
    Posting s u t' id d applied rows where
  fit := all.fit
  mine := all.later.ids _ posting.mine
  unused := posting.unused
  unusedBefore := posting.unusedBefore
  grows := posting.grows
  view := by
    rw [all.view, posting.view]
    unfold Books.addApplications
    rw [List.append_nil]
  entries := posting.entries
  drawn r mem := all.later.ids _ (posting.drawn r mem)
  keys := posting.keys
  noted r mem := all.later.seen _ (posting.noted r mem)
  locked r mem row listed side := all.later.locked (posting.locked r mem row listed side)

theorem sound_recordCollection {account : Id × Account} {cashAccount : Id × CashAccount}
    {amount : Decimal} {method : Option PaymentMethod} {date : Date} {applies : List (Id × Decimal)}
    {post : Books -> Rows Movement -> Trail Books Row Note -> Prop} (fit : Fit s t)
    (grows : Grows s (t.writes s)) (below : Below t 4)
    (fits : FitsIn t Row.invoice (applies.map (·.1)))
    (at_account : (t.writes s).accounts.get? account.1 = some account.2)
    (at_till : (t.writes s).cashAccounts.get? cashAccount.1 = some cashAccount.2)
    (after : ∀ written t', Served s t' written -> post s written t') :
    Sound convention (recordCollection account cashAccount amount method date applies) s t post := by
  unfold recordCollection
  simp only [Prog.bind_eq, Prog.pure_eq, sound_bind, sound_require, sound_checkMethod,
    sound_checkAmount]
  intro _ method' _ money
  apply sound_lockInvoices fit fits
  intro t₁ locking fit₁ locked bound₁
  have below₁ : Below t₁ 4 := below.locking bound₁ (by decide)
  apply sound_nextNumber fit₁ below₁
  intro number t₂ later₂ fit₂ view₂ _ bound₂
  simp only [sound_fresh, sound_write]
  intro id unused above
  rcases Entering.insert (d := ⟨account.2.company, .collection account.1 cashAccount.1 number method',
    amount.cents?.getD 0, date, none⟩) fit₂ (fun _ opening => nomatch opening) unused above with
    ⟨respects, confined, entering⟩
  refine ⟨respects, confined, ?_⟩
  have grown : Grows s (t₂.writes s) := by
    rw [view₂, locking.view s]
    exact grows.trans (grows_setCounter _ _ _ _)
  have posting := Posting.start entering grown
  have held : ∀ invoice ∈ applies.map (·.1), ((t₂.draw id).write _).Locked (.invoice invoice) :=
    fun invoice mem => entering.later.locked (later₂.locked (locked invoice mem))
  apply sound_applyTo entering.fit held (Or.inr ⟨entering.mine, entering.unused⟩)
  intro rows t₃ applied once positive within
  have posting₁ := posting.apply applied
  have below₃ : Below t₃ 6 :=
    ((below₁.of_bound bound₂ (by decide)).same entering.held).same applied.held
  have accounts : (t₃.writes s).accounts = (t.writes s).accounts := by
    rw [posting₁.accounts, view₂, locking.view s]
    rfl
  have tills : (t₃.writes s).cashAccounts = (t.writes s).cashAccounts := by
    rw [posting₁.cashAccounts, view₂, locking.view s]
    rfl
  apply sound_post applied.fit (below₃.fits (fun _ => rfl) _)
    ((below₃.mono (Nat.le_succ 6)).fits (fun _ => rfl) _) posting₁.owned
  · rintro _ ⟨⟩
    rw [accounts]
    exact at_account
  · rintro _ ⟨⟩
    rw [tills]
    exact at_till
  intro firm mid t₄ company _ _ posted
  have posting₂ := posting₁.post posted (fun _ => on_sided) rfl (fun opening => nomatch opening)
  have enterable := posting₂.enterable account.2.currency rfl (money_pos money)
    (by
      have same := company account rfl
      subst same
      rfl)
    (fun _ opening => nomatch opening)
  apply sound_syncInvoices posted.fit
    (fun invoice mem => posted.later.locked (applied.later.locked (held invoice mem)))
  intro t₅ settling
  simp only [sound_done]
  apply after
  refine
    { step := ?_, fit := settling.fit
      noted := fun r mem => settling.later.seen _ (posting₂.noted r mem)
      keys := .locked (fun r mem row listed side =>
        settling.later.locked (posting₂.locked r mem row listed side)) }
  have syncs := settling.syncs
  rw [posting₂.view] at syncs
  apply LedgerStep.recorded grown enterable _ _ syncs
  · right
    apply applied.applicable entering.view enterable.found rfl rfl
    · exact (congrArg (fun rows => Rows.get? rows account.1) (posting₁.accounts.symm.trans accounts)).trans
        at_account
    · rw [enterable.allocated, zero_add]
      exact within
    · exact positive
    · rw [once]
      exact nodup_sortedKeys _
    · rfl
    · exact fun _ _ => rfl
  · intro r mem
    rw [← mem_sortedKeys, ← once]
    exact List.mem_map_of_mem (f := fun r => r.2.invoice) mem

theorem sound_applyCollection {collection : Id} {applies : List (Id × Decimal)}
    {post : Books -> Rows Movement -> Trail Books Row Note -> Prop} (fit : Fit s t)
    (untouched : t.writes s = s) (start : Below t 0)
    (after : ∀ written t', Served s t' written -> post s written t') :
    Sound convention (applyCollection collection applies) s t post := by
  unfold applyCollection
  simp only [Prog.bind_eq, Prog.pure_eq, sound_bind, sound_require]
  intro _
  apply sound_lockInvoices fit (start.fits (fun _ => rfl) _)
  intro t₁ locking fit₁ locked bound
  have view : t₁.writes s = s := (locking.view s).trans untouched
  have below₁ : Below t₁ 1 := start.of_bound bound (by decide)
  apply sound_lockDocument (Below.order below₁ fit₁ rfl)
  intro d found type standing
  rw [view] at found
  have fit₂ : Fit s (t₁.hold .update (.document collection)) := fit₁.hold _ rfl
  simp only [sound_observe, Trail.hold_writes, view]
  have keptDocument : ∀ v, convention.Rely (t₁.hold .update (.document collection)) s v ->
      SameDocument collection d s v := fun v rely => rely.rows _ List.mem_cons_self d found
  refine ⟨?_, ?_⟩
  · intro v rely
    unfold Books.allocated
    rw [(keptDocument v rely).applications]
  · cases body : d.body with
    | collection account cashAccount number method =>
        simp only [sound_bind, sound_fetch, Trail.hold_writes, view]
        intro row at_account
        refine ⟨fun v rely => rely.always.accounts _ _ at_account, ?_⟩
        have held : ∀ invoice ∈ applies.map (·.1),
            (t₁.hold .update (.document collection)).Locked (.invoice invoice) :=
          fun invoice mem => List.mem_cons_of_mem _ (locked invoice mem)
        apply sound_applyTo fit₂ held
        · refine Or.inl ⟨List.mem_cons_self, d, ?_⟩
          rw [Trail.hold_writes, view]
          exact found
        intro rows t₂ applied once positive within
        apply sound_syncInvoices applied.fit
          (fun invoice mem => applied.later.locked (held invoice mem))
        intro t₃ settling
        simp only [sound_done]
        apply after
        refine ⟨?_, settling.fit, fun _ mem => absurd mem List.not_mem_nil,
          .locked (fun _ mem => absurd mem List.not_mem_nil)⟩
        have syncs := settling.syncs
        have viewed : (t₁.hold .update (.document collection)).writes s = s := view
        rw [applied.view, viewed] at syncs
        refine @LedgerStep.applied s _ _ collection rows _ ?_ ?_ syncs rfl
        · apply applied.applicable viewed found standing body at_account
          · exact Int.add_le_of_le_sub_left within
          · exact positive
          · rw [once]
            exact nodup_sortedKeys _
          · rfl
          · exact fun _ _ => rfl
        · intro r mem
          rw [← mem_sortedKeys, ← once]
          exact List.mem_map_of_mem (f := fun r => r.2.invoice) mem
    | _ => trivial

end Ledger
end Shiftlush
