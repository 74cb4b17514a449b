import Shiftlush.Ledger.Writes

namespace Shiftlush
namespace Ledger

open Transactions

/-!
# Posting follows the convention

The rules of the programs of `Posting`, one for each.  A rule says what has to
hold where the program starts and what holds wherever it ends; programs that
call it use the rule and never look inside.

`Fit` is what every rule keeps: the session has changed nothing it does not
protect, the firms' settings are as committed, and it holds no firm's row.
-/

structure Fit (s : Books) (t : Trail Books Row Note) : Prop where
  confined : convention.Confined t s (t.writes s)
  companies : (t.writes s).companies = s.companies
  keys : (t.writes s).movements.Distinct
  sides : (t.writes s).accounts.Distinct ∧ (t.writes s).cashAccounts.Distinct
  settings : ∀ h ∈ t.held, h.2.isCompany = false

/-- A later point of the same attempt. -/
structure Later (t t' : Trail Books Row Note) : Prop where
  held : ∀ h ∈ t.held, h ∈ t'.held
  ids : ∀ id ∈ t.ids, id ∈ t'.ids
  seen : ∀ note ∈ t.seen, note ∈ t'.seen
  retries : t'.retries = t.retries

namespace Later

theorem refl (t : Trail Books Row Note) : Later t t :=
  ⟨fun _ mem => mem, fun _ mem => mem, fun _ mem => mem, rfl⟩

theorem trans {t u w : Trail Books Row Note} (first : Later t u) (second : Later u w) :
    Later t w where
  held h mem := second.held h (first.held h mem)
  ids id mem := second.ids id (first.ids id mem)
  seen note mem := second.seen note (first.seen note mem)
  retries := second.retries.trans first.retries

theorem see (t : Trail Books Row Note) (notes : List Note) : Later t (t.see notes) :=
  ⟨fun _ mem => mem, fun _ mem => mem, fun _ mem => List.mem_append_right _ mem, rfl⟩

theorem locked {t t' : Trail Books Row Note} (later : Later t t') {row : Row}
    (locked : t.Locked row) : t'.Locked row :=
  later.held _ locked

end Later

theorem Owned.later {s v : Books} {t t' : Trail Books Row Note} {ref : DocumentRef}
    (owned : Owned t s v ref) (later : Later t t') : Owned t' s v ref := by
  cases owned with
  | invoice same at_row => exact .invoice same (later.locked at_row)
  | document same at_row found => exact .document same (later.locked at_row) found
  | own same mine unused => exact .own same (later.ids _ mine) unused

/-- Nothing but locks between two points. -/
structure Locking (t t' : Trail Books Row Note) : Prop where
  held : ∀ h ∈ t.held, h ∈ t'.held
  ids : t'.ids = t.ids
  writes : t'.writes = t.writes
  seen : t'.seen = t.seen
  retries : t'.retries = t.retries

namespace Locking

variable {t t' : Trail Books Row Note} {s : Books}

theorem later (locking : Locking t t') : Later t t' :=
  ⟨locking.held, fun _ mem => locking.ids ▸ mem, fun _ mem => locking.seen ▸ mem,
    locking.retries⟩

theorem view (locking : Locking t t') (s : Books) : t'.writes s = t.writes s := by
  rw [locking.writes]

theorem fit (locking : Locking t t') (fit : Fit s t)
    (settings : ∀ h ∈ t'.held, h.2.isCompany = false) : Fit s t' where
  confined := by
    rw [locking.writes]
    exact fit.confined.weaken (fun _ locked => locking.held _ locked)
      (fun _ mem => locking.ids ▸ mem)
  companies := by
    rw [locking.writes]
    exact fit.companies
  keys := by
    rw [locking.writes]
    exact fit.keys
  sides := by
    rw [locking.writes]
    exact fit.sides
  settings := settings

end Locking

theorem Fit.no_company {s : Books} {t : Trail Books Row Note} (fit : Fit s t) (company : Id) :
    (LockMode.update, Row.company company) ∉ t.held := by
  intro mem
  have absurd := fit.settings _ mem
  cases absurd

theorem Fit.see {s : Books} {t : Trail Books Row Note} (fit : Fit s t) (notes : List Note) :
    Fit s (t.see notes) :=
  ⟨fit.confined.weaken (fun _ locked => locked) (fun _ mem => mem), fit.companies, fit.keys,
    fit.sides, fit.settings⟩

theorem Fit.draw {s : Books} {t : Trail Books Row Note} (fit : Fit s t) (id : Id) :
    Fit s (t.draw id) :=
  ⟨fit.confined.weaken (fun _ locked => locked) mem_draw, fit.companies, fit.keys, fit.sides,
    fit.settings⟩

theorem Fit.write {s : Books} {t : Trail Books Row Note} (fit : Fit s t) {f : Books -> Books}
    (confined : convention.Confined t s (f (t.writes s)))
    (companies : (f (t.writes s)).companies = (t.writes s).companies)
    (keys : (f (t.writes s)).movements.Distinct)
    (sides : (f (t.writes s)).accounts.Distinct ∧ (f (t.writes s)).cashAccounts.Distinct) :
    Fit s (t.write f) :=
  ⟨confined.weaken (fun _ locked => locked) (fun _ mem => mem), companies.trans fit.companies,
    keys, sides, fit.settings⟩

/-- A key just drawn is in no row the session sees. -/
theorem Fit.fresh {s : Books} {t : Trail Books Row Note} (fit : Fit s t) {id : Id}
    (unused : Unused id s) (later : ∀ earlier ∈ t.ids, earlier < id) : Unused id (t.writes s) :=
  fit.confined.ids id (fun mem => Nat.lt_irrefl id (later id mem)) unused

variable {s : Books} {t : Trail Books Row Note} {β : Type}

/-! ## Locks -/

/-- Locking rows one after the other. -/
theorem sound_lockEach {mode : LockMode} (rowOf : β -> Row) {items : List β}
    {post : Books -> List Unit -> Trail Books Row Note -> Prop}
    (order : ∀ before item rest t', items = before ++ item :: rest -> Locking t t' ->
      (∀ earlier ∈ before, (mode, rowOf earlier) ∈ t'.held) ->
      (∀ h ∈ t'.held, h ∈ t.held ∨ ∃ earlier ∈ before, h = (mode, rowOf earlier)) ->
      Order s t'.held t'.retries mode (rowOf item))
    (after : ∀ answers t', Locking t t' -> (∀ item ∈ items, (mode, rowOf item) ∈ t'.held) ->
      (∀ h ∈ t'.held, h ∈ t.held ∨ ∃ item ∈ items, h = (mode, rowOf item)) ->
      post s answers t') :
    Sound convention (forEach items (fun item => lock mode (rowOf item)) :
      LedgerProg (List Unit)) s t post := by
  refine Sound.forEach (fun done _ s' t' => s' = s ∧ Locking t t' ∧
    (∀ item ∈ done, (mode, rowOf item) ∈ t'.held) ∧
    (∀ h ∈ t'.held, h ∈ t.held ∨ ∃ item ∈ done, h = (mode, rowOf item))) ?_ ?_ ?_
  · refine ⟨rfl, ⟨fun _ mem => mem, rfl, rfl, rfl, rfl⟩, ?_, fun _ mem => Or.inl mem⟩
    exact fun _ mem => absurd mem List.not_mem_nil
  · rintro before item rest answers s' t' split ⟨same, locking, locked, bound⟩
    rw [same, sound_lock]
    refine ⟨order before item rest t' split locking locked bound, rfl, ?_, ?_, ?_⟩
    · exact ⟨fun h mem => List.mem_cons_of_mem _ (locking.held h mem), locking.ids,
        locking.writes, locking.seen, locking.retries⟩
    · intro item' mem
      rcases List.mem_append.mp mem with old | new
      · exact List.mem_cons_of_mem _ (locked item' old)
      · rw [List.mem_singleton.mp new]
        exact List.mem_cons_self
    · intro h mem
      rcases List.mem_cons.mp mem with new | old
      · exact Or.inr ⟨item, List.mem_append_right _ (List.mem_singleton.mpr rfl), new⟩
      · rcases bound h old with there | ⟨item', mem', here⟩
        · exact Or.inl there
        · exact Or.inr ⟨item', List.mem_append_left _ mem', here⟩
  · rintro answers s' t' ⟨same, locking, locked, bound⟩
    rw [same]
    exact after answers t' locking locked bound

/-- Why rows of one kind may be asked for in the order of their keys: they come
after everything held, or all of them are held already. -/
inductive FitsIn (t : Trail Books Row Note) (rowOf : Id -> Row) (ids : List Id) : Prop where
  | above : (∀ h ∈ t.held, ∀ id ∈ ids, h.2.before (rowOf id)) -> FitsIn t rowOf ids
  | locked : (∀ id ∈ ids, t.Locked (rowOf id)) -> FitsIn t rowOf ids
  | late : t.retries + 1 = cancelAttempts -> FitsIn t rowOf ids

theorem sound_lockKeys {rowOf : Id -> Row} {kind : Nat} {ids : List Id}
    {post : Books -> List Unit -> Trail Books Row Note -> Prop}
    (kinds : ∀ id, (rowOf id).kind = kind ∧ (rowOf id).key = id ∧ (rowOf id).isCompany = false)
    (fit : Fit s t) (fits : FitsIn t rowOf ids)
    (after : ∀ answers t', Locking t t' -> Fit s t' -> (∀ id ∈ ids, t'.Locked (rowOf id)) ->
      (∀ h ∈ t'.held, h ∈ t.held ∨ h.2.kind = kind) -> post s answers t') :
    Sound convention (forEach (sortedKeys ids) (fun id => lock .update (rowOf id)) :
      LedgerProg (List Unit)) s t post := by
  apply sound_lockEach
  · intro before id rest t' split locking _ bound
    have mem : id ∈ ids := by
      rw [← mem_sortedKeys, split]
      exact List.mem_append_right _ List.mem_cons_self
    refine ⟨?_, ?_⟩
    · intro company holds
      rcases bound _ holds with old | ⟨earlier, _, here⟩
      · exact fit.no_company company old
      · have other := (kinds earlier).2.2
        rw [← (Prod.mk.inj here).2] at other
        cases other
    · rcases fits with above | locked | last
      · apply Placed.next (kinds id).2.2
        intro h holds
        right
        rcases bound h holds with old | ⟨earlier, early, here⟩
        · exact above h old id mem
        · have increasing := sortedKeys_increasing ids
          rw [split, List.pairwise_append] at increasing
          have lt := increasing.2.2 earlier early id List.mem_cons_self
          rw [here]
          right
          rw [(kinds earlier).1, (kinds id).1, (kinds earlier).2.1, (kinds id).2.1]
          exact ⟨rfl, lt⟩
      · exact Placed.again (locking.held _ (locked id mem)) (Or.inl rfl)
      · exact Placed.late (locking.retries ▸ last)
  · intro answers t' locking locked bound
    have kindBound : ∀ h ∈ t'.held, h ∈ t.held ∨ h.2.kind = kind := by
      intro h holds
      rcases bound h holds with old | ⟨id, _, here⟩
      · exact Or.inl old
      · rw [here]
        exact Or.inr (kinds id).1
    refine after answers t' locking (locking.fit fit ?_) ?_ kindBound
    · intro h holds
      rcases bound h holds with old | ⟨id, _, here⟩
      · exact fit.settings h old
      · rw [here]
        exact (kinds id).2.2
    · exact fun id mem => locked id (mem_sortedKeys.mpr mem)

/-- All rows held are of kinds before `kind`. -/
def Below (t : Trail Books Row Note) (kind : Nat) : Prop := ∀ h ∈ t.held, h.2.kind < kind

theorem Below.fits {kind : Nat} (below : Below t kind) {rowOf : Id -> Row}
    (kinds : ∀ id, (rowOf id).kind = kind) (ids : List Id) : FitsIn t rowOf ids := by
  apply FitsIn.above
  intro h holds id _
  left
  rw [kinds]
  exact below h holds

theorem Below.mono {low high : Nat} (below : Below t low) (le : low ≤ high) : Below t high :=
  fun h holds => Nat.lt_of_lt_of_le (below h holds) le

/-! ## Dates and openings -/

theorem sound_checkDate {company : Id} {day : Date}
    {post : Books -> Unit -> Trail Books Row Note -> Prop} (fit : Fit s t)
    (after : post s () (t.see [.dateOpen company day])) :
    Sound convention (checkDate company day) s t post := by
  unfold checkDate
  simp only [Prog.bind_eq, sound_bind, sound_peekLogged]
  constructor
  · intro note listed
    rw [fit.companies] at listed
    split at listed
    · rename_i opens
      rw [List.mem_singleton.mp listed]
      cases found : s.companies.get? company with
      | none =>
          rw [found] at opens
          cases opens
      | some row =>
          rw [found] at opens
          exact ⟨row, found, opens⟩
    · cases listed
  · intro row
    cases row with
    | none => trivial
    | some row =>
        simp only [sound_bind, sound_peek, sound_require, Option.any_some]
        intro today _ opens
        rw [if_pos opens]
        exact after

theorem hasLaterOpening_eq_false {v : Books} {side : Side} {day : Date} :
    v.hasLaterOpening side day = false ↔ ∀ o ∈ v.standingOpenings side, o.2.date ≤ day := by
  unfold Books.hasLaterOpening
  rw [List.any_eq_false]
  apply forall₂_congr
  intro o _
  rw [decide_eq_true_eq]
  exact Int.not_lt

theorem NoLater.opening {side : Side} {v v' : Books} (later : NoLater side v v') {day : Date}
    (none : v.hasLaterOpening side day = false) : v'.hasLaterOpening side day = false := by
  rw [hasLaterOpening_eq_false] at none ⊢
  exact fun o mem => none o (later.openings o mem)

theorem kept_side {side : Side} {v v' : Books} (kept : side.row.kept v v') : NoLater side v v' := by
  cases side with
  | account id => exact kept
  | cash id => exact kept

/-- The sides of a posting. -/
def sidesOf (account cashAccount : Option Id) : List Side :=
  (account.map Side.account).toList ++ (cashAccount.map Side.cash).toList

theorem sound_checkAfterOpening {account cashAccount : Option Id} {day : Date}
    {post : Books -> Unit -> Trail Books Row Note -> Prop}
    (locked : ∀ side ∈ sidesOf account cashAccount, t.Locked side.row)
    (after : (∀ side ∈ sidesOf account cashAccount, ∀ o ∈ (t.writes s).standingOpenings side,
      o.2.date ≤ day) -> post s () t) :
    Sound convention (checkAfterOpening account cashAccount day) s t post := by
  unfold checkAfterOpening
  simp only [Prog.bind_eq, sound_bind]
  refine Sound.forEach (fun done _ s' t' => s' = s ∧ t' = t ∧
    ∀ side ∈ done, (t.writes s).hasLaterOpening side day = false) ?_ ?_ ?_
  · exact ⟨rfl, rfl, fun _ mem => absurd mem List.not_mem_nil⟩
  · rintro before side rest answers s' t' split ⟨rfl, rfl, clear⟩
    rw [sound_ensure]
    intro passes
    have passes : (t'.writes s').hasLaterOpening side day = false := by
      simpa only [Bool.not_eq_true'] using passes
    refine ⟨?_, rfl, rfl, ?_⟩
    · intro v rely
      have listed : side ∈ sidesOf account cashAccount := by
        unfold sidesOf
        rw [split]
        exact List.mem_append_right _ List.mem_cons_self
      have kept : side.row.kept (t'.writes s') v := rely.rows _ (locked side listed)
      rw [(kept_side kept).opening passes]
      rfl
    · intro side' mem
      rcases List.mem_append.mp mem with old | new
      · exact clear side' old
      · rw [List.mem_singleton.mp new]
        exact passes
  · rintro answers s' t' ⟨rfl, rfl, clear⟩
    exact after (fun side mem => hasLaterOpening_eq_false.mp (clear side mem))

/-! ## post -/

theorem kinds_account (id : Id) : (Row.account id).kind = 6 ∧ (Row.account id).key = id ∧
    (Row.account id).isCompany = false := ⟨rfl, rfl, rfl⟩

theorem kinds_cashAccount (id : Id) : (Row.cashAccount id).kind = 7 ∧
    (Row.cashAccount id).key = id ∧ (Row.cashAccount id).isCompany = false := ⟨rfl, rfl, rfl⟩

theorem FitsIn.same {t t' : Trail Books Row Note} {rowOf : Id -> Row} {ids : List Id}
    (fits : FitsIn t rowOf ids) (held : t'.held = t.held) (retries : t'.retries = t.retries) :
    FitsIn t' rowOf ids := by
  cases fits with
  | above above => exact .above (held ▸ above)
  | locked locked =>
      apply FitsIn.locked
      intro id mem
      unfold Trail.Locked
      rw [held]
      exact locked id mem
  | late last => exact .late (retries ▸ last)

theorem FitsIn.locking {t t' : Trail Books Row Note} {rowOf : Id -> Row} {ids : List Id} {kind : Nat}
    (fits : FitsIn t rowOf ids) (locking : Locking t t') (later : ∀ id, kind < (rowOf id).kind)
    (bound : ∀ h ∈ t'.held, h ∈ t.held ∨ h.2.kind = kind) : FitsIn t' rowOf ids := by
  rcases fits with above | locked | last
  · apply FitsIn.above
    intro h holds id mem
    rcases bound h holds with old | new
    · exact above h old id mem
    · left
      rw [new]
      exact later id
  · exact .locked (fun id mem => locking.held _ (locked id mem))
  · exact .late (locking.retries ▸ last)

/-- `lock_sides` -/
theorem sound_lockSides {accounts cashAccounts : List Id}
    {post : Books -> Unit -> Trail Books Row Note -> Prop} (fit : Fit s t)
    (fitsAccounts : FitsIn t Row.account accounts)
    (fitsCash : FitsIn t Row.cashAccount cashAccounts)
    (after : ∀ t', Locking t t' -> Fit s t' -> (∀ id ∈ accounts, t'.Locked (.account id)) ->
      (∀ id ∈ cashAccounts, t'.Locked (.cashAccount id)) ->
      (∀ h ∈ t'.held, h ∈ t.held ∨ h.2.kind = 6 ∨ h.2.kind = 7) -> post s () t') :
    Sound convention (lockSides accounts cashAccounts) s t post := by
  unfold lockSides
  simp only [Prog.bind_eq, sound_bind]
  apply sound_lockKeys kinds_account fit fitsAccounts
  intro _ t' locking fit' locked bound
  have fitsCash' : FitsIn t' Row.cashAccount cashAccounts :=
    fitsCash.locking locking (fun _ => Nat.lt_succ_self 6) bound
  apply sound_lockKeys kinds_cashAccount fit' fitsCash'
  intro _ t'' locking' fit'' locked' bound'
  refine after t'' ?_ fit'' (fun id mem => locking'.held _ (locked id mem)) locked' ?_
  · exact ⟨fun h mem => locking'.held h (locking.held h mem), locking'.ids.trans locking.ids,
      locking'.writes.trans locking.writes, locking'.seen.trans locking.seen,
      locking'.retries.trans locking.retries⟩
  · intro h holds
    rcases bound' h holds with old | cash
    · rcases bound h old with before | account
      · exact Or.inl before
      · exact Or.inr (Or.inl account)
    · exact Or.inr (Or.inr cash)

/-- What `post` leaves behind: one movement, and the sides locked. -/
structure Posted (s : Books) (t t' : Trail Books Row Note) (sides : List Side) (id : Id)
    (m : Movement) : Prop where
  later : Later t t'
  fit : Fit s t'
  view : t'.writes s = (t.writes s).addMovement id m
  drawn : id ∈ t'.ids
  above : ∀ earlier ∈ t.ids, earlier < id
  unused : Unused id s
  locked : ∀ side ∈ sides, t'.Locked side.row
  bound : ∀ h ∈ t'.held, h ∈ t.held ∨ h.2.kind = 6 ∨ h.2.kind = 7
  noted : Note.dateOpen m.company m.date ∈ t'.seen
  currency : InOwnCurrency (t.writes s) m
  opening : m.source ≠ .opening -> ∀ side ∈ sides, ∀ o ∈ (t.writes s).standingOpenings side,
    o.2.date ≤ m.date

/-- The movement `post` writes. -/
def postedMovement (company : Id) (account : Option (Id × Account))
    (cashAccount : Option (Id × CashAccount)) (direction : Option Direction)
    (cashDirection : Option CashDirection) (amount : Decimal) (currency : String) (date : Date)
    (source : MovementSource) (document : DocumentRef) : Movement :=
  { company := company, account := sided account direction,
    cashAccount := sided cashAccount cashDirection, date := date, amount := amount.cents?.getD 0,
    currency := currency, source := source, document := document, reverses := none }

theorem on_sided {account : Option (Id × Account)} {cashAccount : Option (Id × CashAccount)}
    {direction : Option Direction} {cashDirection : Option CashDirection} {company : Id}
    {amount : Decimal} {currency : String} {date : Date} {source : MovementSource}
    {document : DocumentRef} {side : Side}
    (on : (postedMovement company account cashAccount direction cashDirection amount currency date
      source document).on side = true) :
    side ∈ sidesOf (account.map (·.1)) (cashAccount.map (·.1)) := by
  unfold sidesOf
  rw [List.mem_append]
  cases side with
  | account id =>
      left
      cases account with
      | none => cases on
      | some a =>
          cases direction with
          | none => cases on
          | some d =>
              have same : a.1 = id := of_decide_eq_true on
              rw [← same]
              exact List.mem_singleton.mpr rfl
  | cash id =>
      right
      cases cashAccount with
      | none => cases on
      | some a =>
          cases cashDirection with
          | none => cases on
          | some d =>
              have same : a.1 = id := of_decide_eq_true on
              rw [← same]
              exact List.mem_singleton.mpr rfl

theorem sided_eq {ρ δ : Type} {side : Option (Id × ρ)} {direction : Option δ} {id : Id} {d : δ}
    (same : sided side direction = some (id, d)) : ∃ row, side = some (id, row) := by
  cases side with
  | none => cases same
  | some pair =>
      cases direction with
      | none => cases same
      | some d' =>
          cases same
          exact ⟨pair.2, rfl⟩

theorem sound_post {account : Option (Id × Account)} {cashAccount : Option (Id × CashAccount)}
    {direction : Option Direction} {cashDirection : Option CashDirection} {amount : Decimal}
    {currency : String} {date : Date} {source : MovementSource} {document : DocumentRef}
    {after : Books -> Id × Movement -> Trail Books Row Note -> Prop} (fit : Fit s t)
    (fitsAccounts : FitsIn t Row.account (account.map (·.1)).toList)
    (fitsCash : FitsIn t Row.cashAccount (cashAccount.map (·.1)).toList)
    (owned : Owned t s (t.writes s) document)
    (accounts : ∀ a, account = some a -> (t.writes s).accounts.get? a.1 = some a.2)
    (tills : ∀ c, cashAccount = some c -> (t.writes s).cashAccounts.get? c.1 = some c.2)
    (ends : ∀ company id t', (∀ a, account = some a -> a.2.company = company) ->
      (∀ c, cashAccount = some c -> c.2.company = company) -> amount.isMoney = true ->
      Posted s t t' (sidesOf (account.map (·.1)) (cashAccount.map (·.1))) id
        (postedMovement company account cashAccount direction cashDirection amount currency date
          source document) ->
      after s (id, postedMovement company account cashAccount direction cashDirection amount
        currency date source document) t') :
    Sound convention (post account cashAccount direction cashDirection amount currency date source
      document) s t after := by
  unfold post
  simp only [Prog.bind_eq, sound_bind, sound_require]
  intro _ _ _ _ money
  split
  · rename_i company companies
    simp only [sound_bind, sound_require]
    intro currencies
    have firm : ∀ a, a ∈ (account.map (·.2.company)).toList ++
        (cashAccount.map (·.2.company)).toList -> a = company := by
      intro a mem
      rw [← List.mem_dedup, companies] at mem
      exact List.mem_singleton.mp mem
    have currencyOf : ∀ c, c ∈ (account.map (·.2.currency)).toList ++
        (cashAccount.map (·.2.currency)).toList -> c = currency := by
      intro c mem
      exact of_decide_eq_true (List.all_eq_true.mp currencies c mem)
    apply sound_checkDate fit
    have fit₁ : Fit s (t.see [.dateOpen company date]) := fit.see _
    apply sound_lockSides fit₁ (fitsAccounts.same rfl rfl) (fitsCash.same rfl rfl)
    intro t₂ locking fit₂ lockedAccounts lockedCash bound
    have view : t₂.writes s = t.writes s := locking.view s
    have locked : ∀ side ∈ sidesOf (account.map (·.1)) (cashAccount.map (·.1)),
        t₂.Locked side.row := by
      intro side mem
      rcases List.mem_append.mp mem with at_account | at_cash
      · rcases Option.mem_toList.mp at_account |> Option.map_eq_some_iff.mp with ⟨id, at_id, rfl⟩
        exact lockedAccounts id (Option.mem_toList.mpr at_id)
      · rcases Option.mem_toList.mp at_cash |> Option.map_eq_some_iff.mp with ⟨id, at_id, rfl⟩
        exact lockedCash id (Option.mem_toList.mpr at_id)
    -- The rest is the same with and without the check against openings.
    have write : ∀ clear : source ≠ .opening ->
        ∀ side ∈ sidesOf (account.map (·.1)) (cashAccount.map (·.1)),
        ∀ o ∈ (t.writes s).standingOpenings side, o.2.date ≤ date,
        Sound convention (do
          let id ← fresh
          let movement : Movement := postedMovement company account cashAccount direction
            cashDirection amount currency date source document
          write (Books.addMovement id movement)
          return (id, movement) : LedgerProg (Id × Movement)) s t₂ after := by
      intro clear
      simp only [Prog.bind_eq, sound_bind, sound_fresh, sound_write, Prog.pure_eq, sound_done]
      intro id unused above
      have fit₃ : Fit s (t₂.draw id) := fit₂.draw id
      have unusedHere : Unused id (t₂.writes s) := fit₂.fresh unused above
      have later : Later t (t₂.draw id) := by
        refine ⟨fun h mem => locking.held h mem, ?_, ?_, locking.retries⟩
        · exact fun k mem => List.mem_cons_of_mem _ (locking.later.ids k mem)
        · exact fun note mem => locking.later.seen note (List.mem_cons_of_mem _ mem)
      have postable : Postable (t₂.draw id) s (t₂.writes s) id (postedMovement company account
          cashAccount direction cashDirection amount currency date source document) := by
        refine ⟨List.mem_cons_self, ?_, ?_, (fun k reverses => nomatch reverses), fit₂.keys⟩
        · rw [view]
          exact owned.later later
        · exact fun _ side on => locked side (on_sided on)
      refine ⟨respects_addMovement List.mem_cons_self, postable.confined, ?_⟩
      apply ends company id
      · intro a same
        apply firm
        rw [same]
        exact List.mem_append_left _ (List.mem_singleton.mpr rfl)
      · intro c same
        apply firm
        rw [same]
        exact List.mem_append_right _ (List.mem_singleton.mpr rfl)
      · exact money
      · refine
          { later := ⟨later.held, later.ids, later.seen, later.retries⟩
            fit := fit₃.write (postable.confined fit₃.confined) rfl
              (fit₂.keys.insert unusedHere.movement) fit₂.sides
            view := congrArg (Books.addMovement id _) view
            drawn := List.mem_cons_self
            above := fun earlier mem => above earlier (locking.ids.symm ▸ mem)
            unused := unused, locked := locked, bound := bound
            noted := locking.seen.symm ▸ List.mem_cons_self
            currency := ?_, opening := clear }
        · refine ⟨?_, ?_⟩
          · intro k d side
            rcases sided_eq side with ⟨row, same⟩
            refine ⟨row, accounts (k, row) same, currencyOf _ ?_⟩
            rw [same]
            exact List.mem_append_left _ (List.mem_singleton.mpr rfl)
          · intro k d side
            rcases sided_eq side with ⟨row, same⟩
            refine ⟨row, tills (k, row) same, currencyOf _ ?_⟩
            rw [same]
            exact List.mem_append_right _ (List.mem_singleton.mpr rfl)
    by_cases opening : source = .opening
    · rw [if_pos opening]
      exact write (fun other => absurd opening other)
    · rw [if_neg opening]
      apply sound_bind.mpr
      apply sound_checkAfterOpening locked
      intro clear
      rw [view] at clear
      exact write (fun _ => clear)
  · trivial

/-! ## reverse_document -/

theorem SameEntries.unreversedOriginals {ref : DocumentRef} {v v' : Books}
    (same : SameEntries ref v v') :
    v'.unreversedOriginals ref = v.unreversedOriginals ref := by
  unfold Books.unreversedOriginals
  rw [same.movements]
  apply congrArg (List.insertionSort Books.earlier)
  apply List.filter_congr
  intro r mem
  rw [same.reversed r mem]

namespace Books

def addMovements (rows : Rows Movement) (v : Books) : Books :=
  { v with movements := v.movements ++ rows }

end Books

/-- What `reverse_document` leaves behind: a mirror of each movement of the
document, which had none. -/
structure Reversed (s : Books) (t t' : Trail Books Row Note) (ref : DocumentRef)
    (rows : Rows Movement) : Prop where
  later : Later t t'
  fit : Fit s t'
  view : t'.writes s = s.addMovements rows
  mirrors : Mirrors (s.movementsOf ref) rows
  keys : Rows.Distinct rows
  fresh : ∀ r ∈ rows, s.movements.get? r.1 = none
  noted : ∀ r ∈ rows, Note.dateOpen r.2.company r.2.date ∈ t'.seen
  bound : ∀ h ∈ t'.held, h ∈ t.held ∨ h.2.kind = 5

/-- The loop that posts the mirrors. -/
theorem sound_mirrors (ref : DocumentRef) {originals : Rows Movement} {day : Date}
    {source : MovementSource} {post : Books -> Rows Movement -> Trail Books Row Note -> Prop}
    (fit : Fit s t) (untouched : t.writes s = s) (owned : Owned t s s ref)
    (rows : s.movementsOf ref = originals)
    (noted : ∀ o ∈ originals, Note.dateOpen o.2.company day ∈ t.seen)
    (after : ∀ answers t', Reversed s t t' ref answers -> post s answers t') :
    Sound convention (forEach originals (fun original => do
      let id ← fresh
      let mirror := original.2.mirror original.1 day source
      write (Books.addMovement id mirror)
      return (id, mirror)) : LedgerProg (Rows Movement)) s t post := by
  refine Sound.forEach (fun done answers s' t' => s' = s ∧ Later t t' ∧ Fit s t' ∧
    t'.held = t.held ∧ t'.writes s = s.addMovements answers ∧
    answers.map (·.2) = done.map (fun o => o.2.mirror o.1 day source) ∧
    ∀ r ∈ answers, s.movements.get? r.1 = none) ?_ ?_ ?_
  · refine ⟨rfl, .refl t, fit, rfl, ?_, rfl, fun _ mem => absurd mem List.not_mem_nil⟩
    rw [untouched]
    unfold Books.addMovements
    rw [List.append_nil]
  · rintro done original rest answers s' t' split ⟨same, later, fit', held, view, swapped, fresh⟩
    have listed : original ∈ s.movementsOf ref := by
      rw [rows, split]
      exact List.mem_append_right _ List.mem_cons_self
    simp only [same, Prog.bind_eq, sound_bind, sound_fresh, sound_write, Prog.pure_eq, sound_done]
    intro id unused above
    have mirrorDocument : (original.2.mirror original.1 day source).document = ref :=
      of_decide_eq_true (List.mem_filter.mp listed).2
    have postable : Postable (t'.draw id) s (t'.writes s) id
        (original.2.mirror original.1 day source) := by
      refine ⟨List.mem_cons_self, ?_, (fun original => nomatch original), ?_, fit'.keys⟩
      · rw [mirrorDocument, view]
        cases owned.later later with
        | invoice same at_row => exact .invoice same at_row
        | document same at_row found => exact .document same at_row found
        | own same mine unused => exact .own same (List.mem_cons_of_mem _ mine) unused
      · intro k reverses
        refine ⟨original, ?_, Option.some.inj reverses, rfl⟩
        rw [view]
        exact List.mem_append_left _ (List.mem_of_mem_filter listed)
    have unusedHere : Unused id (t'.writes s) := fit'.fresh unused above
    have fit₁ : Fit s (t'.draw id) := fit'.draw id
    refine ⟨respects_addMovement List.mem_cons_self, postable.confined, trivial, ?_, ?_, held, ?_,
      ?_, ?_⟩
    · exact ⟨later.held, fun k mem => List.mem_cons_of_mem _ (later.ids k mem), later.seen,
        later.retries⟩
    · exact fit₁.write (postable.confined fit₁.confined) rfl
        (fit'.keys.insert unusedHere.movement) fit'.sides
    · rw [Trail.write_writes, Trail.draw_writes, view]
      unfold Books.addMovement Books.addMovements Rows.insert
      rw [List.append_assoc]
    · rw [List.map_append, List.map_append, swapped]
      rfl
    · intro r mem
      rcases List.mem_append.mp mem with old | new
      · exact fresh r old
      · rw [List.mem_singleton.mp new]
        exact unused.movement
  · rintro answers s' t' ⟨same, later, fit', held, view, swapped, fresh⟩
    rw [same]
    refine after answers t' ⟨later, fit', view, ?_, ?_, fresh, ?_, ?_⟩
    · rw [rows]
      exact ⟨day, source, swapped⟩
    · have keys := fit'.keys
      rw [view] at keys
      unfold Rows.Distinct Books.addMovements at keys
      rw [List.map_append] at keys
      exact keys.of_append_right
    · intro r mem
      have listed : r.2 ∈ answers.map (·.2) := List.mem_map_of_mem mem
      rw [swapped] at listed
      rcases List.mem_map.mp listed with ⟨o, at_o, mirror⟩
      rw [← mirror]
      exact later.seen _ (noted o at_o)
    · intro h mem
      rw [held] at mem
      exact Or.inl mem

theorem sound_reverseDocument {w : Voucher} {cancelled : Bool} {day : Date}
    {source : MovementSource} {post : Books -> Rows Movement -> Trail Books Row Note -> Prop}
    (fit : Fit s t) (sound : SoundBooks s) (untouched : t.writes s = s)
    (entered : Entered s w cancelled) (owned : Owned t s s w.document)
    (stays : ∀ v, convention.Rely t s v -> SameEntries w.document s v) (below : Below t 5)
    (after : ∀ rows t', Reversed s t t' w.document rows -> cancelled = false -> post s rows t') :
    Sound convention (reverseDocument w.document day source) s t post := by
  unfold reverseDocument
  simp only [Prog.bind_eq, sound_bind, sound_require, sound_observe]
  intro _
  refine ⟨fun v rely => ?_, ?_⟩
  · rw [untouched] at rely ⊢
    exact (stays v rely).unreversedOriginals
  · rw [untouched]
    cases entered with
    | cancelled originals mirrors rows =>
        rw [Entered.unreversed_cancelled mirrors rows]
        exact Sound.forEach (fun _ _ _ _ => True) trivial (fun _ _ _ _ _ _ split => by simp at split)
          (fun _ _ _ _ => trivial)
    | @standing originals are rows =>
        rw [Entered.unreversed_standing sound are rows]
        apply sound_lockEach (fun original : Id × Movement => Row.movement original.1)
        · intro before original rest t' split locking _ bound
          have increasing := are.keys
          refine ⟨?_, Placed.next rfl ?_⟩
          · intro company holds
            rcases bound _ holds with old | ⟨_, _, here⟩
            · exact fit.no_company company old
            · cases here
          · intro h holds
            right
            rcases bound h holds with old | ⟨earlier, early, here⟩
            · exact Or.inl (below h old)
            · rw [split, List.map_append, List.map_cons, List.pairwise_append] at increasing
              have lt := increasing.2.2 earlier.1 (List.mem_map_of_mem early) original.1
                List.mem_cons_self
              rw [here]
              exact Or.inr ⟨rfl, lt⟩
        · intro _ t₁ locking _ bound
          have fit₁ : Fit s t₁ := by
            apply locking.fit fit
            intro h holds
            rcases bound h holds with old | ⟨_, _, here⟩
            · exact fit.settings h old
            · rw [here]
              rfl
          cases head : originals.head? with
          | none => trivial
          | some first =>
              simp only [sound_bind]
              apply sound_checkDate fit₁
              have company : ∀ o ∈ originals, o.2.company = first.2.company := by
                rcases are.company with ⟨firm, same⟩
                intro o mem
                rw [same o mem, same first (List.mem_of_mem_head? head)]
              apply sound_mirrors w.document (fit₁.see _) _ _ rows
              · intro o mem
                rw [company o mem]
                exact List.mem_cons_self
              · intro answers t' reversed
                refine after answers t' ?_ rfl
                refine
                  { later := ?_, fit := reversed.fit, view := reversed.view
                    mirrors := reversed.mirrors, keys := reversed.keys, fresh := reversed.fresh
                    noted := reversed.noted, bound := ?_ }
                · refine ⟨fun h mem => reversed.later.held h (locking.held h mem), ?_, ?_, ?_⟩
                  · exact fun k mem => reversed.later.ids k (locking.later.ids k mem)
                  · intro note mem
                    exact reversed.later.seen note
                      (List.mem_cons_of_mem _ (locking.later.seen note mem))
                  · exact reversed.later.retries.trans locking.retries
                · intro h mem
                  rcases reversed.bound h mem with old | kind
                  · rcases bound h old with before | ⟨_, _, here⟩
                    · exact Or.inl before
                    · rw [here]
                      exact Or.inr rfl
                  · exact Or.inr kind
              · exact (locking.view s).trans untouched
              · exact (owned.later locking.later).later (.see t₁ _)

/-! ## Foreign keys -/

/-- Why the rows the written movements refer to may be asked for at the end:
the sides are locked already, or in order after everything held. -/
inductive KeysFit (s : Books) (t : Trail Books Row Note) (written : Rows Movement) : Prop where
  | locked : (∀ r ∈ written, ∀ row ∈ r.2.references, row.isCompany = false -> t.Locked row) ->
      KeysFit s t written
  | sorted : Below t 6 -> (written.flatMap (fun r => r.2.references)).Pairwise (fun a b =>
      a.isCompany = true ∨ b.isCompany = true ∨ a = b ∨ a.before b) -> KeysFit s t written
  | late : t.retries + 1 = cancelAttempts -> KeysFit s t written
  | crosswise : Crosswise s t.held -> KeysFit s t written

theorem KeysFit.same {t' : Trail Books Row Note} {written : Rows Movement}
    (fits : KeysFit s t written) (held : t'.held = t.held) (retries : t'.retries = t.retries) :
    KeysFit s t' written := by
  cases fits with
  | locked all =>
      apply KeysFit.locked
      intro r mem row listed side
      unfold Trail.Locked
      rw [held]
      exact all r mem row listed side
  | sorted below sorted =>
      apply KeysFit.sorted _ sorted
      intro h mem
      rw [held] at mem
      exact below h mem
  | late last => exact .late (retries ▸ last)
  | crosswise crosswise => exact .crosswise (held ▸ crosswise)

theorem Movement.references_kind (m : Movement) {row : Row} (mem : row ∈ m.references) :
    row.isCompany = true ∨ 6 ≤ row.kind := by
  unfold Movement.references at mem
  rcases List.mem_cons.mp mem with company | side
  · rw [company]
    exact Or.inl rfl
  · right
    rcases List.mem_append.mp side with account | cash
    · rcases Option.map_eq_some_iff.mp (Option.mem_toList.mp account) with ⟨_, _, same⟩
      rw [← same]
      exact Nat.le_refl 6
    · rcases Option.map_eq_some_iff.mp (Option.mem_toList.mp cash) with ⟨_, _, same⟩
      rw [← same]
      exact Nat.le_succ 6

theorem sound_checkForeignKeys {written : Rows Movement}
    {post : Books -> Unit -> Trail Books Row Note -> Prop}
    (settings : ∀ company, (LockMode.update, Row.company company) ∉ t.held)
    (fits : KeysFit s t written) (after : ∀ t', Locking t t' -> post s () t') :
    Sound convention (checkForeignKeys written) s t post := by
  unfold checkForeignKeys
  simp only [Prog.bind_eq, sound_bind]
  apply sound_lockEach (fun row : Row => row)
  · intro before row rest t' split locking locked bound
    refine ⟨?_, ?_⟩
    · intro company holds
      rcases bound _ holds with old | ⟨_, _, here⟩
      · exact settings company old
      · cases here
    · cases company : row.isCompany with
      | true => exact Placed.shared company rfl
      | false =>
          have listed : row ∈ written.flatMap (fun r => r.2.references) := by
            rw [split]
            exact List.mem_append_right _ List.mem_cons_self
          cases fits with
          | late last => exact Placed.late (locking.retries ▸ last)
          | crosswise crosswise =>
              rcases crosswise with ⟨id, d, holds, found, wrong⟩
              exact Placed.crosswise ⟨id, d, locking.held _ holds, found, wrong⟩
          | locked all =>
              rcases List.mem_flatMap.mp listed with ⟨r, mem, at_r⟩
              exact Placed.again (locking.held _ (all r mem row at_r company)) (Or.inl rfl)
          | sorted below sorted =>
              by_cases again : row ∈ before
              · exact Placed.again (locked row again) (Or.inr rfl)
              · apply Placed.next company
                intro h holds
                rcases bound h holds with old | ⟨earlier, early, here⟩
                · right
                  left
                  rcases List.mem_flatMap.mp listed with ⟨r, _, at_r⟩
                  rcases r.2.references_kind at_r with same | kind
                  · rw [company] at same
                    cases same
                  · exact Nat.lt_of_lt_of_le (below h old) kind
                · rw [here]
                  rw [split, List.pairwise_append] at sorted
                  rcases sorted.2.2 earlier early row List.mem_cons_self with
                    shared | shared | same | lt
                  · exact Or.inl shared
                  · rw [company] at shared
                    cases shared
                  · exact absurd (same ▸ early) again
                  · exact Or.inr lt
  · intro _ t' locking _ _
    exact after t' locking

end Ledger
end Shiftlush
