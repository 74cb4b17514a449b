import Shiftlush.Transactions.Footprint
import Shiftlush.Ledger.Numbers
import Shiftlush.Ledger.Steps
import Shiftlush.Ledger.Tills

namespace Shiftlush
namespace Ledger

open Transactions
open Transitions (run everyStep)

/-!
# Every movement in the currency of its sides

`post` checks the cash account it was given, and an edit checks that no movement
is there yet, each before it holds the row.  The law therefore holds in every
state exactly as long as no posting commits on a cash account whose currency has
changed since it was read, and no edit gives a used one another currency.
-/

/-! ## Where the rows may go -/

/-- Movements stay, accounts stay as they are, and cash accounts stay. -/
structure LaterBooks (v w : Books) : Prop where
  movements : ∀ r ∈ v.movements, r ∈ w.movements
  accounts : ∀ id a, v.accounts.get? id = some a -> w.accounts.get? id = some a
  cashAccounts : ∀ id, (v.cashAccounts.get? id).isSome = true -> (w.cashAccounts.get? id).isSome = true

theorem LaterBooks.refl (v : Books) : LaterBooks v v :=
  ⟨fun _ mem => mem, fun _ _ found => found, fun _ there => there⟩

theorem LaterBooks.trans {u v w : Books} (first : LaterBooks u v) (second : LaterBooks v w) :
    LaterBooks u w where
  movements r mem := second.movements r (first.movements r mem)
  accounts id a found := second.accounts id a (first.accounts id a found)
  cashAccounts id there := second.cashAccounts id (first.cashAccounts id there)

/-- Every movement is in the currency of each side it is on. -/
def InOwnCurrencies (v : Books) : Prop := ∀ r ∈ v.movements, InOwnCurrency v r.2

/-- The rows a form has read are there, and an account is as it was read. -/
structure FormSound (form : Form) (v : Books) : Prop where
  accounts : ∀ id a, form.accounts.get? id = some a -> v.accounts.get? id = some a
  cashAccounts : ∀ id, (form.cashAccounts.get? id).isSome = true -> (v.cashAccounts.get? id).isSome = true

theorem FormSound.later {form : Form} {v w : Books} (after : LaterBooks v w) (sound : FormSound form v) :
    FormSound form w where
  accounts id a found := after.accounts id a (sound.accounts id a found)
  cashAccounts id there := after.cashAccounts id (sound.cashAccounts id there)

def tillCourse : Course Books where
  law := InOwnCurrencies
  later := LaterBooks
  refl := .refl
  trans _ _ _ := .trans

/-! ## What a session writes -/

/-- The movements of a document, one for each leg, in the currency of the rows that were read. -/
structure Postings (form : Form) (currency : String) (legs : List Leg) (rows : Rows Movement) : Prop where
  sides : rows.map (fun r => (r.2.account, r.2.cashAccount, r.2.currency)) =
    legs.map (fun leg => (leg.account, leg.cashAccount, currency))
  accounts : ∀ leg ∈ legs, ∀ id direction, leg.account = some (id, direction) ->
    ∃ row, form.accounts.get? id = some row ∧ row.currency = currency
  cashAccounts : ∀ leg ∈ legs, ∀ id direction, leg.cashAccount = some (id, direction) ->
    ∃ row, form.cashAccounts.get? id = some row ∧ row.currency = currency

/-- A movement on the sides of another, in its currency. -/
structure SameSides (m m' : Movement) : Prop where
  account : m'.account.map Prod.fst = m.account.map Prod.fst
  cashAccount : m'.cashAccount.map Prod.fst = m.cashAccount.map Prod.fst
  currency : m'.currency = m.currency

/-- What the commit of a request makes of the books. -/
def Submission.Commits (q : Submission) (v w : Books) : Prop :=
  match q.draft with
  | .document legs _ currency _ _ _ => ∃ rows, w = { v with movements := v.movements ++ rows } ∧
      Postings q.form currency legs rows
  | .reversal _ _ _ => ∃ rows, w = { v with movements := v.movements ++ rows } ∧
      ∀ r ∈ rows, ∃ o ∈ v.movements, SameSides o.2 r.2
  | .createCashAccount _ _ => ∃ id till, w = v.addCashAccount id till
  | .editCashAccount id changes => ∃ till, q.form.cashAccounts.get? id = some till ∧
      w = v.saveCashAccount id (changes.apply till)
  | .createAccount account => ∃ id, w = v.addAccount id account

section Programs

variable {C : Course Books} {s : Books} {t : Trail Books Row Note}

/-- The trail has appended these movements, whatever the rows. -/
def Appends (t : Trail Books Row Note) (rows : Rows Movement) : Prop :=
  ∀ v, t.writes v = { v with movements := v.movements ++ rows }

theorem Appends.start (n : Nat) : Appends (.start n) [] := by
  intro v
  rw [List.append_nil]
  rfl

theorem Appends.write {rows : Rows Movement} (appends : Appends t rows) (id : Id) (movement : Movement) :
    Appends (t.write (Books.addMovement id movement)) (rows ++ [(id, movement)]) := by
  intro v
  rw [Trail.write_writes, appends v]
  unfold Books.addMovement Rows.insert
  rw [List.append_assoc]

theorem Appends.congr {rows : Rows Movement} (appends : Appends t rows) {t' : Trail Books Row Note}
    (same : t'.writes = t.writes) : Appends t' rows := by
  intro v
  rw [same]
  exact appends v

theorem anytime_given {ρ : Type} {rows : Rows ρ} {id : Option Id} :
    Anytime C (given rows id) s t (fun _ row t' => t' = t ∧ row.map Prod.fst = id ∧
      ∀ r, row = some r -> rows.get? r.1 = some r.2) := by
  cases id with
  | none =>
      refine fun _ _ _ => ⟨rfl, rfl, ?_⟩
      intro r impossible
      cases impossible
  | some id =>
      unfold given
      dsimp only
      split
      · rename_i row found
        refine fun _ _ _ => ⟨rfl, rfl, ?_⟩
        rintro r ⟨⟩
        exact found
      · trivial

theorem sided_map {ρ δ : Type} {side : Option (Id × ρ)} {leg : Option (Id × δ)}
    (same : side.map Prod.fst = leg.map Prod.fst) : sided side (leg.map Prod.snd) = leg := by
  cases side with
  | none =>
      cases leg with
      | none => rfl
      | some pair => cases same
  | some pair =>
      cases leg with
      | none => cases same
      | some pair' =>
          have here : pair.1 = pair'.1 := Option.some.inj same
          unfold sided
          dsimp only [Option.map_some]
          rw [here]

/-- What `post` has written, and what it has checked of the rows it was given. -/
theorem anytime_post {account : Option (Id × Account)} {cashAccount : Option (Id × CashAccount)}
    {direction : Option Direction} {cashDirection : Option CashDirection} {amount : Decimal}
    {currency : String} {date : Date} {source : MovementSource} {document : DocumentRef} :
    Anytime C (post account cashAccount direction cashDirection amount currency date source document) s t
      (fun _ r t' => (t'.writes = fun v => Books.addMovement r.1 r.2 (t.writes v)) ∧
        r.2.account = sided account direction ∧ r.2.cashAccount = sided cashAccount cashDirection ∧
        r.2.currency = currency ∧ (∀ side, account = some side -> side.2.currency = currency) ∧
        ∀ side, cashAccount = some side -> side.2.currency = currency) := by
  unfold post
  refine Anytime.bind anytime_require ?_
  rintro s _ t' _ ⟨_, rfl⟩
  refine Anytime.bind anytime_require ?_
  rintro s _ t'' _ ⟨_, rfl⟩
  refine Anytime.bind anytime_require ?_
  rintro s _ t' _ ⟨_, rfl⟩
  refine Anytime.bind anytime_require ?_
  rintro s _ t'' _ ⟨_, rfl⟩
  refine Anytime.bind anytime_require ?_
  rintro s _ t' _ ⟨_, rfl⟩
  dsimp only
  split
  · rename_i company _
    refine Anytime.bind anytime_require ?_
    rintro s _ t'' _ ⟨currencies, rfl⟩
    have own : (∀ side, account = some side -> side.2.currency = currency) ∧
        ∀ side, cashAccount = some side -> side.2.currency = currency := by
      constructor
      · rintro side rfl
        have listed := List.all_eq_true.mp currencies side.2.currency (by simp)
        exact of_decide_eq_true listed
      · rintro side rfl
        have listed := List.all_eq_true.mp currencies side.2.currency (by simp)
        exact of_decide_eq_true listed
    refine Anytime.bind (writes_checkDate _ _).reads ?_
    intro s _ t₁ _ same₁
    refine Anytime.bind (writes_lockSides _ _).reads ?_
    intro s _ t₂ _ same₂
    have rest : ∀ (s : Books) (t₃ : Trail Books Row Note), t₃.writes = t''.writes ->
        Anytime C (do
          let id ← fresh
          let movement : Movement :=
            { company := company, account := sided account direction,
              cashAccount := sided cashAccount cashDirection, date := date,
              amount := amount.cents?.getD 0, currency := currency, source := source,
              document := document, reverses := none }
          write (Books.addMovement id movement)
          return (id, movement) : LedgerProg (Id × Movement)) s t₃
          (fun _ r t' => (t'.writes = fun v => Books.addMovement r.1 r.2 (t''.writes v)) ∧
            r.2.account = sided account direction ∧ r.2.cashAccount = sided cashAccount cashDirection ∧
            r.2.currency = currency ∧ (∀ side, account = some side -> side.2.currency = currency) ∧
            ∀ side, cashAccount = some side -> side.2.currency = currency) := by
      intro s t₃ same id s' _ _
      refine ⟨?_, rfl, rfl, rfl, own⟩
      rw [← same]
      rfl
    split
    · exact rest s t₂ (same₂.trans same₁)
    · refine Anytime.bind (writes_checkAfterOpening _ _ _).reads ?_
      intro s _ t₃ _ same₃
      exact rest s t₃ (same₃.trans (same₂.trans same₁))
  · trivial

theorem anytime_postLeg {form : Form} {leg : Leg} {amount : Decimal} {currency : String} {date : Date}
    {source : MovementSource} {document : DocumentRef} :
    Anytime C (postLeg form leg amount currency date source document) s t
      (fun _ r t' => (t'.writes = fun v => Books.addMovement r.1 r.2 (t.writes v)) ∧
        Postings form currency [leg] [r]) := by
  refine Anytime.bind anytime_given ?_
  rintro s account t' _ ⟨rfl, named, found⟩
  refine Anytime.bind anytime_given ?_
  rintro s cashAccount t'' _ ⟨rfl, named', found'⟩
  refine anytime_post.mono ?_
  rintro s r t₁ _ ⟨writes, side, side', currency', own, own'⟩
  refine ⟨writes, ?_, ?_, ?_⟩
  · rw [List.map_singleton, List.map_singleton, side, side', currency', sided_map named, sided_map named']
  · intro leg' mem id direction here
    rw [List.mem_singleton.mp mem] at here
    rw [here] at named
    rcases Option.map_eq_some_iff.mp named with ⟨row, given, rfl⟩
    exact ⟨row.2, found row given, own row given⟩
  · intro leg' mem id direction here
    rw [List.mem_singleton.mp mem] at here
    rw [here] at named'
    rcases Option.map_eq_some_iff.mp named' with ⟨row, given, rfl⟩
    exact ⟨row.2, found' row given, own' row given⟩

theorem Postings.nothing (form : Form) (currency : String) : Postings form currency [] [] := by
  refine ⟨rfl, ?_, ?_⟩
  · intro leg mem
    cases mem
  · intro leg mem
    cases mem

theorem Postings.append {form : Form} {currency : String} {legs legs' : List Leg}
    {rows rows' : Rows Movement} (first : Postings form currency legs rows)
    (second : Postings form currency legs' rows') :
    Postings form currency (legs ++ legs') (rows ++ rows') where
  sides := by rw [List.map_append, List.map_append, first.sides, second.sides]
  accounts leg mem := (List.mem_append.mp mem).elim (first.accounts leg) (second.accounts leg)
  cashAccounts leg mem := (List.mem_append.mp mem).elim (first.cashAccounts leg) (second.cashAccounts leg)

theorem anytime_legs {form : Form} {legs : List Leg} {amount : Decimal} {currency : String} {date : Date}
    {source : MovementSource} {document : DocumentRef} :
    Anytime C (forEach legs (fun leg => postLeg form leg amount currency date source document)) s (.start 0)
      (fun _ rows t' => Appends t' rows ∧ Postings form currency legs rows) := by
  refine Anytime.forEach (J := fun legs rows t => Appends t rows ∧ Postings form currency legs rows)
    ⟨.start 0, .nothing form currency⟩ ?_
  rintro done leg rest rows s t _ ⟨appends, postings⟩
  refine anytime_postLeg.mono ?_
  rintro s r t' _ ⟨writes, posting⟩
  refine ⟨?_, postings.append posting⟩
  exact (appends.write r.1 r.2).congr writes

theorem sameSides_mirror (m : Movement) (id : Id) (date : Date) (source : MovementSource) :
    SameSides m (m.mirror id date source) := by
  refine ⟨?_, ?_, rfl⟩
  · unfold Movement.mirror
    rw [Option.map_map]
    rfl
  · unfold Movement.mirror
    rw [Option.map_map]
    rfl

theorem unreversedOriginals_subset {v : Books} {ref : DocumentRef} {r : Id × Movement}
    (mem : r ∈ v.unreversedOriginals ref) : r ∈ v.movements := by
  unfold Books.unreversedOriginals Books.movementsOf at mem
  rw [List.mem_insertionSort] at mem
  exact List.mem_of_mem_filter (List.mem_of_mem_filter mem)

/-- The mirrors are of movements that were there, and are there still. -/
theorem anytime_reversal {document : DocumentRef} {date : Date} {source : MovementSource} :
    Anytime tillCourse (reverseDocument document date source) s (.start 0)
      (fun s' rows t' => Appends t' rows ∧ ∀ r ∈ rows, ∃ o ∈ s'.movements, SameSides o.2 r.2) := by
  refine Anytime.bind anytime_require ?_
  rintro s _ t _ ⟨_, rfl⟩
  have read : Anytime tillCourse
      (observe (fun v => v.unreversedOriginals document) .integrityError : LedgerProg (Rows Movement)) s (.start 0)
      (fun s' originals t' => t' = .start 0 ∧ ∀ o ∈ originals, o ∈ s'.movements) := by
    intro s₁ _ _
    refine ⟨?_, trivial⟩
    rintro originals ⟨⟩ s₂ later _
    exact ⟨rfl, fun o mem => later.movements o (unreversedOriginals_subset mem)⟩
  refine Anytime.bind read ?_
  rintro s originals _ _ ⟨rfl, there⟩
  have stays : ∀ v w, LaterBooks v w -> (∀ o ∈ originals, o ∈ v.movements) ->
      ∀ o ∈ originals, o ∈ w.movements :=
    fun v w after before o mem => after.movements o (before o mem)
  refine Anytime.bind (Anytime.keep (Prog.Writes.reads (.forEach (fun _ => .lock))) stays there) ?_
  rintro s _ t _ ⟨same, there⟩
  split
  · trivial
  · refine Anytime.bind (Anytime.keep (writes_checkDate _ _).reads stays there) ?_
    rintro s _ t' _ ⟨same', there⟩
    have loop : Anytime tillCourse (forEach originals (fun original => (do
        let id ← fresh
        let mirror := original.2.mirror original.1 date source
        write (Books.addMovement id mirror)
        return (id, mirror) : LedgerProg (Id × Movement)))) s t' (fun _ rows t => Appends t rows ∧
          ∀ r ∈ rows, ∃ o ∈ originals, SameSides o.2 r.2) := by
      refine Anytime.forEach (J := fun (done : Rows Movement) rows t => Appends t rows ∧
          ∀ r ∈ rows, ∃ o ∈ done, SameSides o.2 r.2)
        ⟨(Appends.start 0).congr (same'.trans same), fun _ mem => absurd mem List.not_mem_nil⟩ ?_
      rintro done original rest rows s t _ ⟨appends, mirrors⟩ id s' _ _
      refine ⟨appends.write _ _, ?_⟩
      intro r mem
      rcases List.mem_append.mp mem with earlier | last
      · rcases mirrors r earlier with ⟨o, listed, sides⟩
        exact ⟨o, List.mem_append_left _ listed, sides⟩
      · rw [List.mem_singleton.mp last]
        exact ⟨original, List.mem_append_right _ List.mem_cons_self, sameSides_mirror _ _ _ _⟩
    refine (loop.keep stays there).mono ?_
    rintro s rows t _ ⟨⟨appends, mirrors⟩, there⟩
    refine ⟨appends, ?_⟩
    intro r mem
    rcases mirrors r mem with ⟨o, listed, sides⟩
    exact ⟨o, there o listed, sides⟩

theorem anytime_editCashAccount {id : Id} {till : CashAccount} {changes : CashAccountChanges} :
    Anytime C (editCashAccount id till changes) s (.start 0)
      (fun _ _ t' => ∀ v, t'.writes v = v.saveCashAccount id (changes.apply till)) := by
  have checked : (validateCurrency id till changes.currency).Writes (fun _ => False) False := by
    cases changes.currency with
    | none => trivial
    | some currency =>
        refine .bind .require (fun _ => ?_)
        split
        · trivial
        · exact .bind .peek (fun _ => .require)
  refine Anytime.bind checked.reads ?_
  intro s _ t _ same
  refine Anytime.bind anytime_require ?_
  rintro s _ t' _ ⟨_, rfl⟩ s' _ _ v
  rw [Trail.write_writes, Trail.hold_writes, same]
  rfl

theorem anytime_serve (q : Submission) (sound : FormSound q.form s) :
    Anytime tillCourse q.serve s (.start 0)
      (fun s' _ t' => q.Commits s' (t'.writes s') ∧ FormSound q.form s') := by
  refine Anytime.keep ?_ (fun _ _ after before => before.later after) sound
  rcases q with ⟨form, draft⟩
  cases draft with
  | document legs amount currency date source document =>
      refine Anytime.bind anytime_legs ?_
      rintro s rows t _ ⟨appends, postings⟩ s' _ _
      exact ⟨rows, appends s', postings⟩
  | reversal document date source =>
      refine Anytime.bind anytime_reversal ?_
      rintro s rows t _ ⟨appends, mirrors⟩ s' after _
      refine ⟨rows, appends s', ?_⟩
      intro r mem
      rcases mirrors r mem with ⟨o, there, sides⟩
      exact ⟨o, after.movements o there, sides⟩
  | createCashAccount company currency =>
      refine Anytime.bind anytime_require ?_
      rintro s _ t _ ⟨_, rfl⟩ id s' _ _
      exact ⟨id, _, rfl⟩
  | editCashAccount id changes =>
      unfold Submission.serve
      dsimp only
      split
      · rename_i till found
        refine anytime_editCashAccount.mono ?_
        intro s' _ t _ writes
        exact ⟨till, found, writes s'⟩
      · trivial
  | createAccount account =>
      intro id s' _ _
      exact ⟨id, rfl⟩

end Programs

/-! ## Which commits keep the law -/

namespace Books

def tillCurrency (v : Books) (id : Id) : Option String := (v.cashAccounts.get? id).map CashAccount.currency

end Books

/-- The cash accounts posted on are still in the currency they were read in; a
used one is saved in the currency it has. -/
def Draft.fits (form : Form) (v : Books) : Draft -> Bool
  | .document legs _ _ _ _ _ => legs.all (fun leg => leg.cashAccount.all (fun side =>
      decide (v.tillCurrency side.1 = (form.cashAccounts.get? side.1).map CashAccount.currency)))
  | .editCashAccount id changes => !v.isUsed id ||
      decide (v.tillCurrency id = (form.cashAccounts.get? id).map (fun till => (changes.apply till).currency))
  | _ => true

theorem on_cash_iff {m : Movement} {id : Id} :
    m.on (.cash id) = true ↔ ∃ direction, m.cashAccount = some (id, direction) := by
  unfold Movement.on
  dsimp only
  rw [Option.any_eq_true]
  constructor
  · rintro ⟨side, found, same⟩
    exact ⟨side.2, by rw [found, ← of_decide_eq_true same]⟩
  · rintro ⟨direction, found⟩
    exact ⟨(id, direction), found, decide_eq_true rfl⟩

section Commits

variable {q : Submission} {v w : Books}

theorem Submission.Commits.later (commits : q.Commits v w) : LaterBooks v w := by
  rcases q with ⟨form, draft⟩
  cases draft with
  | document legs amount currency date source document =>
      rcases commits with ⟨rows, rfl, _⟩
      exact ⟨fun _ mem => List.mem_append_left _ mem, fun _ _ found => found, fun _ there => there⟩
  | reversal document date source =>
      rcases commits with ⟨rows, rfl, _⟩
      exact ⟨fun _ mem => List.mem_append_left _ mem, fun _ _ found => found, fun _ there => there⟩
  | createCashAccount company currency =>
      rcases commits with ⟨id, till, rfl⟩
      refine ⟨fun _ mem => mem, fun _ _ found => found, ?_⟩
      intro id' there
      rcases Option.isSome_iff_exists.mp there with ⟨row, found⟩
      exact Option.isSome_iff_exists.mpr ⟨row, Rows.get?_insert_of_some found⟩
  | editCashAccount id changes =>
      rcases commits with ⟨till, _, rfl⟩
      refine ⟨fun _ mem => mem, fun _ _ found => found, ?_⟩
      intro id' there
      unfold Books.saveCashAccount
      rwa [Rows.isSome_get?_update]
  | createAccount account =>
      rcases commits with ⟨id, rfl⟩
      exact ⟨fun _ mem => mem, fun _ _ found => Rows.get?_insert_of_some found, fun _ there => there⟩

/-- A posting keeps the law if and only if its cash accounts kept their currencies. -/
theorem own_document {form : Form} {legs : List Leg} {currency : String} {rows : Rows Movement}
    (sound : FormSound form v) (own : InOwnCurrencies v) (postings : Postings form currency legs rows) :
    InOwnCurrencies { v with movements := v.movements ++ rows } ↔
      ∀ leg ∈ legs, ∀ id direction, leg.cashAccount = some (id, direction) ->
        v.tillCurrency id = (form.cashAccounts.get? id).map CashAccount.currency := by
  have leg_of : ∀ r ∈ rows, ∃ leg ∈ legs, leg.account = r.2.account ∧ leg.cashAccount = r.2.cashAccount ∧
      currency = r.2.currency := by
    intro r mem
    have listed := List.mem_map_of_mem (f := fun r : Id × Movement =>
      (r.2.account, r.2.cashAccount, r.2.currency)) mem
    rw [postings.sides] at listed
    rcases List.mem_map.mp listed with ⟨leg, at_leg, same⟩
    have parts := Prod.mk.inj same
    exact ⟨leg, at_leg, parts.1, (Prod.mk.inj parts.2).1, (Prod.mk.inj parts.2).2⟩
  have row_of : ∀ leg ∈ legs, ∃ r ∈ rows, leg.account = r.2.account ∧ leg.cashAccount = r.2.cashAccount ∧
      currency = r.2.currency := by
    intro leg mem
    have listed := List.mem_map_of_mem (f := fun leg : Leg => (leg.account, leg.cashAccount, currency)) mem
    rw [← postings.sides] at listed
    rcases List.mem_map.mp listed with ⟨r, at_r, same⟩
    have parts := Prod.mk.inj same.symm
    exact ⟨r, at_r, parts.1, (Prod.mk.inj parts.2).1, (Prod.mk.inj parts.2).2⟩
  constructor
  · intro after leg mem id direction side
    rcases row_of leg mem with ⟨r, at_r, _, cash, same⟩
    rcases (after r (List.mem_append_right _ at_r)).cashAccount id direction (by rw [← cash, side]) with
      ⟨row, found, currency'⟩
    rcases postings.cashAccounts leg mem id direction side with ⟨till, read, currency''⟩
    have found' : v.cashAccounts.get? id = some row := found
    unfold Books.tillCurrency
    rw [found', read, Option.map_some, Option.map_some, currency', currency'', same]
  · intro kept r mem
    rcases List.mem_append.mp mem with old | new
    · exact (own r old).mono (fun _ _ found => found) (fun _ _ found => found)
    · rcases leg_of r new with ⟨leg, at_leg, account, cash, same⟩
      refine ⟨?_, ?_⟩
      · intro id direction side
        rcases postings.accounts leg at_leg id direction (by rw [account, side]) with ⟨row, read, currency'⟩
        exact ⟨row, sound.accounts id row read, currency'.trans same⟩
      · intro id direction side
        rcases postings.cashAccounts leg at_leg id direction (by rw [cash, side]) with ⟨till, read, currency'⟩
        have here := kept leg at_leg id direction (by rw [cash, side])
        unfold Books.tillCurrency at here
        rw [read, Option.map_some] at here
        rcases Option.map_eq_some_iff.mp here with ⟨row, found, currency''⟩
        exact ⟨row, found, currency''.trans (currency'.trans same)⟩

/-- An edit keeps the law if and only if the cash account is unused or keeps its currency. -/
theorem own_edit {id : Id} {till : CashAccount} (own : InOwnCurrencies v) :
    InOwnCurrencies (v.saveCashAccount id till) ↔
      (v.isUsed id = true -> v.tillCurrency id = some till.currency) := by
  have used_iff : v.isUsed id = true ↔ ∃ r ∈ v.movements, ∃ direction, r.2.cashAccount = some (id, direction) := by
    unfold Books.isUsed
    rw [List.any_eq_true]
    exact exists_congr fun r => and_congr Iff.rfl on_cash_iff
  constructor
  · intro after used
    rcases used_iff.mp used with ⟨r, mem, direction, side⟩
    rcases (own r mem).cashAccount id direction side with ⟨row, found, currency⟩
    rcases (after r mem).cashAccount id direction side with ⟨row', found', currency'⟩
    unfold Books.saveCashAccount at found'
    rw [Rows.get?_update_self, found] at found'
    cases found'
    unfold Books.tillCurrency
    rw [found, Option.map_some, currency, currency']
  · intro kept r mem
    refine ⟨(own r mem).account, ?_⟩
    intro id' direction side
    rcases (own r mem).cashAccount id' direction side with ⟨row, found, currency⟩
    unfold Books.saveCashAccount
    by_cases same : id' = id
    · subst same
      have here := kept (used_iff.mpr ⟨r, mem, direction, side⟩)
      unfold Books.tillCurrency at here
      rw [found, Option.map_some] at here
      dsimp only
      rw [Rows.get?_update_self, found]
      exact ⟨till, rfl, (Option.some.inj here).symm.trans currency⟩
    · dsimp only
      rw [Rows.get?_update_of_ne same]
      exact ⟨row, found, currency⟩

theorem Submission.Commits.own_iff (commits : q.Commits v w) (sound : FormSound q.form v)
    (own : InOwnCurrencies v) : InOwnCurrencies w ↔ q.draft.fits q.form v = true := by
  rcases q with ⟨form, draft⟩
  cases draft with
  | document legs amount currency date source document =>
      rcases commits with ⟨rows, rfl, postings⟩
      rw [own_document sound own postings]
      unfold Draft.fits
      dsimp only
      rw [List.all_eq_true]
      refine forall_congr' fun leg => imp_congr Iff.rfl ?_
      cases leg.cashAccount with
      | none => simp
      | some side =>
          rw [Option.all_some, decide_eq_true_eq]
          constructor
          · intro kept
            exact kept side.1 side.2 rfl
          · rintro kept id direction ⟨⟩
            exact kept
  | reversal document date source =>
      rcases commits with ⟨rows, rfl, mirrors⟩
      refine iff_of_true ?_ rfl
      intro r mem
      rcases List.mem_append.mp mem with old | new
      · exact (own r old).mono (fun _ _ found => found) (fun _ _ found => found)
      · rcases mirrors r new with ⟨o, there, sides⟩
        refine ⟨?_, ?_⟩
        · intro id direction side
          have account := sides.account
          rw [side] at account
          rcases Option.map_eq_some_iff.mp account.symm with ⟨side', here, rfl⟩
          rcases (own o there).account side'.1 side'.2 here with ⟨row, found, currency⟩
          exact ⟨row, found, currency.trans sides.currency.symm⟩
        · intro id direction side
          have cash := sides.cashAccount
          rw [side] at cash
          rcases Option.map_eq_some_iff.mp cash.symm with ⟨side', here, rfl⟩
          rcases (own o there).cashAccount side'.1 side'.2 here with ⟨row, found, currency⟩
          exact ⟨row, found, currency.trans sides.currency.symm⟩
  | createCashAccount company currency =>
      rcases commits with ⟨id, till, rfl⟩
      refine iff_of_true ?_ rfl
      intro r mem
      exact (own r mem).mono (fun _ _ found => found) (fun _ _ found => Rows.get?_insert_of_some found)
  | editCashAccount id changes =>
      rcases commits with ⟨till, read, rfl⟩
      rw [own_edit own]
      unfold Draft.fits
      dsimp only at read ⊢
      rw [read, Option.map_some]
      cases v.isUsed id with
      | true => simp
      | false => simp
  | createAccount account =>
      rcases commits with ⟨id, rfl⟩
      refine iff_of_true ?_ rfl
      intro r mem
      exact (own r mem).mono (fun _ _ found => Rows.get?_insert_of_some found) (fun _ _ found => found)

end Commits

/-! ## Runs -/

namespace Desk

variable {d : Desk}

structure Sound (d : Desk) : Prop where
  forms : ∀ form ∈ d.forms, FormSound form d.books
  attended : Machine.Attended tillCourse
    (fun q s _ t => q.Commits s (t.writes s) ∧ FormSound q.form s) d.machine

/-- The commit a step is, if it is one. -/
def committing (d : Desk) : DeskEvent -> Option (Session Books Row Note LedgerError Submission Unit)
  | .advance i => d.machine.committing (.advance i)
  | _ => none

/-- Every commit fits the books it finds. -/
def keepsCurrency (d : Desk) (event : DeskEvent) : Bool :=
  (d.committing event).all (fun session => session.request.draft.fits session.request.form d.books)

theorem books_step (event : DeskEvent) : (d.step event).books =
    ((d.committing event).map (fun session => session.trail.writes d.books)).getD d.books := by
  cases event with
  | «open» => rfl
  | readAccount i id =>
      unfold Desk.step
      dsimp only
      split
      · rfl
      · rfl
  | readCashAccount i id =>
      unfold Desk.step
      dsimp only
      split
      · rfl
      · rfl
  | submit i draft =>
      unfold Desk.step
      dsimp only
      split
      · rfl
      · rfl
  | advance i => exact Machine.step_committed Submission.serve d.machine (.advance i)
  | lose i => exact Machine.step_committed Submission.serve d.machine (.lose i)

theorem committing_commits (sound : d.Sound) (own : InOwnCurrencies d.books) {event : DeskEvent}
    {session : Session Books Row Note LedgerError Submission Unit} (commits : d.committing event = some session) :
    session.request.Commits d.books (session.trail.writes d.books) ∧
      FormSound session.request.form d.books := by
  cases event with
  | advance i =>
      have here : d.machine.committing (.advance i) = some session := commits
      rcases Machine.committing_spec here with ⟨j, _, running, answer, rest⟩
      exact sound.attended.commits own running rest
  | _ => cases commits

theorem later_step (sound : d.Sound) (own : InOwnCurrencies d.books) (event : DeskEvent) :
    LaterBooks d.books (d.step event).books := by
  rw [books_step]
  cases commits : d.committing event with
  | none => exact .refl _
  | some session => exact (committing_commits sound own commits).1.later

theorem own_step (sound : d.Sound) (own : InOwnCurrencies d.books) (event : DeskEvent) :
    InOwnCurrencies (d.step event).books ↔ d.keepsCurrency event = true := by
  unfold keepsCurrency
  rw [books_step]
  cases commits : d.committing event with
  | none => exact iff_of_true own rfl
  | some session =>
      rcases committing_commits sound own commits with ⟨committed, form⟩
      exact committed.own_iff form own

theorem Sound.machine (sound : d.Sound) (own : InOwnCurrencies d.books) {event : Event Submission}
    (after : LaterBooks d.books (d.machine.step Submission.serve event).committed)
    (arrives : ∀ q, event = .arrive q -> FormSound q.form d.books) :
    Sound { d with machine := d.machine.step Submission.serve event } where
  forms form mem := (sound.forms form mem).later after
  attended := by
    refine sound.attended.step own after ?_
    intro q arrived
    exact anytime_serve q (arrives q arrived)

theorem Sound.step (sound : d.Sound) (own : InOwnCurrencies d.books) (event : DeskEvent) :
    (d.step event).Sound := by
  have after := later_step sound own event
  cases event with
  | «open» =>
      refine ⟨?_, sound.attended⟩
      intro form mem
      rcases List.mem_append.mp mem with old | new
      · exact sound.forms form old
      · rw [List.mem_singleton.mp new]
        refine ⟨?_, ?_⟩
        · intro id a found
          cases found
        · intro id there
          cases there
  | readAccount i id =>
      unfold Desk.step
      dsimp only
      split
      · rename_i form row at_form found
        refine ⟨?_, sound.attended⟩
        intro form' mem
        rcases List.mem_or_eq_of_mem_set mem with old | rfl
        · exact sound.forms form' old
        · have before := sound.forms form (List.mem_of_getElem? at_form)
          refine ⟨?_, before.cashAccounts⟩
          intro id' a read
          unfold Rows.get? at read
          rw [List.find?_cons] at read
          split at read
          · rename_i same
            cases read
            rw [← of_decide_eq_true same]
            exact found
          · exact before.accounts id' a read
      · exact sound
  | readCashAccount i id =>
      unfold Desk.step
      dsimp only
      split
      · rename_i form row at_form found
        refine ⟨?_, sound.attended⟩
        intro form' mem
        rcases List.mem_or_eq_of_mem_set mem with old | rfl
        · exact sound.forms form' old
        · have before := sound.forms form (List.mem_of_getElem? at_form)
          refine ⟨before.accounts, ?_⟩
          intro id' there
          unfold Rows.get? at there
          rw [List.find?_cons] at there
          split at there
          · rename_i same
            rw [← of_decide_eq_true same]
            exact Option.isSome_iff_exists.mpr ⟨row, found⟩
          · exact before.cashAccounts id' there
      · exact sound
  | submit i draft =>
      unfold Desk.step at after ⊢
      dsimp only at after ⊢
      split
      · rename_i form at_form
        apply sound.machine own (.refl _)
        rintro q ⟨⟩
        exact sound.forms form (List.mem_of_getElem? at_form)
      · exact sound
  | advance i =>
      apply sound.machine own after
      intro q impossible
      cases impossible
  | lose i =>
      apply sound.machine own after
      intro q impossible
      cases impossible

theorem sound_start (s : Books) (nextId : Nat) : (start s nextId).Sound where
  forms form mem := by cases mem
  attended := Machine.attended_init s nextId

end Desk

/-- The movements are in the currencies of their sides, and those of one cash
account all in one. -/
structure Currencies (v : Books) : Prop where
  own : ∀ r ∈ v.movements, InOwnCurrency v r.2
  single : ∀ r ∈ v.movements, ∀ r' ∈ v.movements, ∀ id direction direction',
    r.2.cashAccount = some (id, direction) -> r'.2.cashAccount = some (id, direction') ->
      r.2.currency = r'.2.currency

theorem currencies_iff {v : Books} : Currencies v ↔ InOwnCurrencies v := by
  constructor
  · exact Currencies.own
  · intro own
    refine ⟨own, ?_⟩
    intro r mem r' mem' id direction direction' side side'
    rcases (own r mem).cashAccount id direction side with ⟨row, found, currency⟩
    rcases (own r' mem').cashAccount id direction' side' with ⟨row', found', currency'⟩
    rw [found] at found'
    cases found'
    exact currency.symm.trans currency'

/-- The currencies agree in every state of a run, exactly when every posting
commits on cash accounts that are in the currency it has read, and every edit
leaves a used cash account its currency. -/
theorem currencies_agree {s : Books} (agreed : Currencies s) (nextId : Nat) (events : List DeskEvent) :
    (∀ before, before <+: events -> Currencies (run Desk.step (.start s nextId) before).books) ↔
      everyStep Desk.step Desk.keepsCurrency (.start s nextId) events = true := by
  let J : Desk -> Prop := fun d => d.Sound ∧ InOwnCurrencies d.books
  have start : J (.start s nextId) := ⟨Desk.sound_start s nextId, currencies_iff.mp agreed⟩
  have keeps : ∀ d event, Desk.keepsCurrency d event = true -> J d -> J (d.step event) := by
    rintro d event kept ⟨sound, own⟩
    exact ⟨sound.step own event, (Desk.own_step sound own event).mpr kept⟩
  constructor
  · intro within
    refine Transitions.everyStep_of_law (J := J) (L := fun d => InOwnCurrencies d.books) keeps ?_ start ?_
    · rintro d event ⟨sound, own⟩ after
      exact (Desk.own_step sound own event).mp after
    · intro before earlier
      exact currencies_iff.mp (within before earlier)
  · rintro kept before ⟨after, rfl⟩
    have first := (Transitions.everyStep_append.mp kept).1
    exact currencies_iff.mpr (Transitions.run_invariant_of_everyStep (J := J) keeps first start).2

/-- The till is read by a payment, then given another currency, and then paid into. -/
def paidAcross : List DeskEvent :=
  [.open, .readAccount 0 1, .readCashAccount 0 2, .open, .readCashAccount 1 2,
   .submit 1 (.editCashAccount 2 ⟨some "EUR", none⟩)] ++ List.replicate 4 (.advance 0) ++
  [.submit 0 (.document [⟨some (1, .credit), some (2, .in)⟩] (.ofCents 500) "TRY" 95 .collection
    ⟨.collection, 50⟩)] ++ List.replicate 10 (.advance 1)

theorem smallFirm_currencies : Currencies smallFirm :=
  currencies_iff.mpr (fun _ mem => nomatch mem)

theorem currencies_disagree : ¬ ∀ before, before <+: paidAcross ->
    Currencies (run Desk.step (.start smallFirm 100) before).books := by
  rw [currencies_agree smallFirm_currencies]
  decide +kernel

/-- The payment first, and the edit refused. -/
def paidBefore : List DeskEvent :=
  [.open, .readAccount 0 1, .readCashAccount 0 2, .open, .readCashAccount 1 2,
   .submit 0 (.document [⟨some (1, .credit), some (2, .in)⟩] (.ofCents 500) "TRY" 95 .collection
    ⟨.collection, 50⟩)] ++ List.replicate 10 (.advance 0) ++
  [.submit 1 (.editCashAccount 2 ⟨some "EUR", none⟩)] ++ List.replicate 4 (.advance 1)

theorem currencies_agree_paidBefore :
    (run Desk.step (.start smallFirm 100) paidBefore).books.movements.length = 1 ∧
      ∀ before, before <+: paidBefore -> Currencies (run Desk.step (.start smallFirm 100) before).books :=
  ⟨by decide +kernel, (currencies_agree smallFirm_currencies 100 paidBefore).mpr (by decide +kernel)⟩

end Ledger
end Shiftlush
