import Shiftlush.Billing.LineEditsSound

namespace Shiftlush
namespace Billing

open Calendar (Date)
open Transactions
open Transitions (run everyStep)

/-!
# Edits one after another

Under the lock of its draft every request sees what the others have committed,
but for the line an edit has loaded before.  A line that is removed meanwhile is
not saved, and so stays removed.  A schedule is serial as long as no edit saves a
line that another request has changed since: what was changed is lost when one does.
-/

abbrev BillMachine := Machine Bills Row Loaded Failure Request Unit

/-- What an edit saves as it was loaded: neither given nor computed. -/
def LineChanges.untouched (changes : LineChanges) (line : InvoiceLine) : InvoiceLine :=
  { line with
    description := if changes.description.isSome then .typed "" else line.description
    quantity := if changes.quantity.isSome then 0 else line.quantity
    proration := if changes.quantity.isSome then none else line.proration
    unitPrice := if changes.unitPrice.isSome then none else line.unitPrice
    needsPrice := false
    amount := 0 }

/-- Whether a line is as the edit has loaded it, in what the edit leaves alone. -/
def Request.isCurrent (v : Bills) (seen : List Loaded) : Request -> Bool
  | .editLine _ changes => seen.all (fun loaded => (v.lines.get? loaded.1).any (fun line =>
      decide (changes.untouched loaded.2 = changes.untouched line)))
  | _ => true

/-- No edit commits a line that has been changed since it was loaded. -/
def current (m : BillMachine) (event : Transactions.Event Request) : Bool :=
  (m.committing event).all (fun session => session.request.isCurrent m.committed session.trail.seen)

/-- What a step keeps of lines that are removed, and of drafts that are none any
more. -/
structure Bills.Settled (v v' : Bills) : Prop where
  removed : ∀ id line, v.lines.get? id = some line -> line.isLive = false ->
    ∃ line', v'.lines.get? id = some line' ∧ line'.isLive = false
  frozen : ∀ id draft, v.drafts.get? id = some draft -> draft.status ≠ .draft ->
    v'.drafts.get? id = some draft ∧ v'.linesOf id = v.linesOf id

variable {s s' : Bills} {q : Request} {seen : List Loaded}

/-! ## What an edit makes of equal lines -/

theorem LineChanges.apply_of_untouched {changes : LineChanges} {line line' : InvoiceLine}
    (same : changes.untouched line = changes.untouched line') : changes.apply line = changes.apply line' := by
  have columns := InvoiceLine.mk.inj same
  rcases columns with ⟨draft, kind, description, elevator, fault, released, quantity, proration, unitPrice,
    _, _, position, deleted⟩
  have description' : (changes.description.map Description.typed).getD line.description =
      (changes.description.map Description.typed).getD line'.description := by
    cases given : changes.description with
    | some text => rfl
    | none =>
        rw [given] at description
        exact description
  have quantity' : changes.quantity.getD line.quantity = changes.quantity.getD line'.quantity := by
    cases given : changes.quantity with
    | some n => rfl
    | none =>
        rw [given] at quantity
        exact quantity
  have unitPrice' : changes.unitPrice.or line.unitPrice = changes.unitPrice.or line'.unitPrice := by
    cases given : changes.unitPrice with
    | some price => rfl
    | none =>
        rw [given] at unitPrice
        exact unitPrice
  unfold LineChanges.apply
  simp only [draft, kind, description', elevator, fault, released, quantity', proration, unitPrice',
    position, deleted, InvoiceLine.lineAmount]

/-! ## One commit -/

/-- A recount and a rewritten line leave every draft but the line's. -/
theorem frozen_updateLine {f : InvoiceLine -> InvoiceLine} {line draft : Nat} {row : InvoiceDraft}
    (tallied : s.Tallied) (stays : ∀ line, (f line).draft = line.draft)
    (on : s.draftOf line = some draft) (found : s.drafts.get? draft = some row)
    (open_ : row.status = .draft) : ∀ id other, s.drafts.get? id = some other -> other.status ≠ .draft ->
      ((s.updateLine line f).recompute draft).drafts.get? id = some other ∧
        ((s.updateLine line f).recompute draft).linesOf id = s.linesOf id := by
  intro id other listed closed
  have different : id ≠ draft := by
    rintro rfl
    rw [found] at listed
    cases listed
    exact closed open_
  refine ⟨?_, ?_⟩
  · rw [get?_recompute, if_neg different]
    exact listed
  · rw [linesOf_recompute, linesOf_updateLine_other tallied.lines stays on different]

/-- A write of a line that lives keeps those that are removed. -/
theorem removed_updateLine {f : InvoiceLine -> InvoiceLine} {edited draft : Nat} {row : InvoiceLine}
    (live : s.line edited = .ok row) : ∀ id line, s.lines.get? id = some line -> line.isLive = false ->
      ∃ line', ((s.updateLine edited f).recompute draft).lines.get? id = some line' ∧ line'.isLive = false := by
  intro id line listed gone
  rcases line_ok.mp live with ⟨found, here⟩
  have other : id ≠ edited := by
    rintro rfl
    have same : row = line := Option.some.inj (found.symm.trans listed)
    rw [same, gone] at here
    cases here
  refine ⟨line, ?_, gone⟩
  rw [lines_recompute]
  exact (Rows.get?_update_of_ne other).trans listed

theorem Change.settled (change : Change q s s' seen) (tallied : s.Tallied) : s.Settled s' := by
  cases change with
  | @adds draft new key _ _ unused done =>
      rcases addLine_ok done with ⟨row, found, open_, rfl⟩
      refine ⟨?_, ?_⟩
      · intro id line listed gone
        refine ⟨line, ?_, gone⟩
        rw [lines_recompute]
        exact Rows.get?_insert_of_some listed
      · intro id other listed closed
        have different : id ≠ draft := by
          rintro rfl
          rw [found] at listed
          cases listed
          exact closed open_
        refine ⟨?_, ?_⟩
        · rw [get?_recompute, if_neg different]
          exact listed
        · rw [linesOf_recompute, linesOf_insertLine]
          exact if_neg (Ne.symm different)
  | @edits edited changes draftId draft loaded row _ _ on live editable _ after =>
      rcases editable_ok.mp editable with ⟨found, open_⟩
      rw [after]
      exact ⟨removed_updateLine live, frozen_updateLine tallied (fun _ => rfl) on found open_⟩
  | @removes removed draftId draft loaded row _ _ on live editable after =>
      rcases editable_ok.mp editable with ⟨found, open_⟩
      rw [after]
      exact ⟨removed_updateLine live, frozen_updateLine tallied (fun _ => rfl) on found open_⟩
  | @issues draft number date posts _ _ done =>
      rcases issue_ok done with ⟨row, found, open_, _, rfl⟩
      refine ⟨?_, ?_⟩
      · intro id line listed gone
        refine ⟨line, ?_, gone⟩
        unfold Bills.updateDraft
        dsimp only
        rw [lines_recompute]
        exact listed
      · intro id other listed closed
        have different : id ≠ draft := by
          rintro rfl
          rw [found] at listed
          cases listed
          exact closed open_
        refine ⟨?_, linesOf_recompute s draft id⟩
        unfold Bills.updateDraft
        dsimp only
        rw [Rows.get?_update_of_ne different, get?_recompute, if_neg different]
        exact listed

theorem act_of_attempt {key : Nat} (done : q.attempt s key = .ok s') : q.act s key = s' := by
  unfold Request.act
  rw [done]

/-- Each commit leaves what its request alone would have. -/
theorem Change.act (change : Change q s s' seen) (now : q.isCurrent s seen = true)
    {spare : Nat} (unused : Bills.Unused spare s) : ∃ key, Bills.Unused key s ∧ s' = q.act s key := by
  cases change with
  | @adds draft new key _ _ free done => exact
      ⟨key, free, (act_of_attempt (q := .addLine draft new) done).symm⟩
  | @issues draft number date posts _ _ done => exact
      ⟨spare, unused, (act_of_attempt (q := .issue draft number date posts) done).symm⟩
  | @edits edited changes draftId draft loaded row _ _ on live editable valid after =>
      refine ⟨spare, unused, ?_⟩
      rcases line_ok.mp live with ⟨listed, _⟩
      have at_draft : row.draft = draftId := by
        unfold Bills.draftOf at on
        rw [listed] at on
        exact Option.some.inj on
      simp only [Request.isCurrent, List.all_cons, List.all_nil, listed, Option.any_some, Bool.and_true,
        decide_eq_true_eq] at now
      have same := LineChanges.apply_of_untouched now
      have done : s.editLine edited changes = .ok s' := by
        unfold Bills.editLine
        rw [live, ok_bind, if_pos valid, at_draft, editable, ok_bind, ← same, after]
      exact (act_of_attempt (q := .editLine edited changes) done).symm
  | @removes removed draftId draft loaded row _ _ on live editable after =>
      refine ⟨spare, unused, ?_⟩
      rcases line_ok.mp live with ⟨listed, _⟩
      have at_draft : row.draft = draftId := by
        unfold Bills.draftOf at on
        rw [listed] at on
        exact Option.some.inj on
      have done : s.removeLine removed = .ok s' := by
        unfold Bills.removeLine
        rw [live, ok_bind, at_draft, editable, ok_bind, after]
      exact (act_of_attempt (q := .removeLine removed) done).symm

/-! ## Runs -/

/-- What the office starts from: totals that are right, and keys not drawn yet. -/
structure Opening where
  bills : Bills
  nextId : Nat
  tallied : bills.Tallied
  below : ∀ id, nextId ≤ id -> bills.Unused id

def Opening.machine (start : Opening) : BillMachine := .init start.bills start.nextId

abbrev Orderly (m : BillMachine) : Prop := Consistent convention Change m

theorem Opening.orderly (start : Opening) : Orderly start.machine :=
  .init convention Change start.tallied start.below

section Step

variable {m : BillMachine} {event : Transactions.Event Request}

theorem change_of_committing (orderly : Orderly m)
    {session : Session Bills Row Loaded Failure Request Unit}
    (commits : m.committing event = some session) :
    Change session.request m.committed (m.step serve event).committed session.trail.seen := by
  rcases Machine.committing_spec commits with ⟨i, _, running, answer, rest⟩
  rw [Machine.step_committed, commits]
  exact (orderly.commit ⟨running, answer, rest⟩).1

theorem isCurrent_of_current {session : Session Bills Row Loaded Failure Request Unit}
    (now : current m event = true) (commits : m.committing event = some session) :
    session.request.isCurrent m.committed session.trail.seen = true := by
  unfold current at now
  rw [commits, Option.all_some] at now
  exact now

theorem settled_step (orderly : Orderly m) :
    m.committed.Settled (m.step serve event).committed := by
  cases commits : m.committing event with
  | none =>
      have still : (m.step serve event).committed = m.committed := by
        rw [Machine.step_committed, commits]
        rfl
      rw [still]
      exact ⟨fun _ line listed gone => ⟨line, listed, gone⟩, fun _ _ listed _ => ⟨listed, rfl⟩⟩
  | some session =>
      exact (change_of_committing orderly commits).settled orderly.inv

theorem served_step (orderly : Orderly m) (now : current m event = true)
    {session : Session Bills Row Loaded Failure Request Unit} (commits : m.committing event = some session) :
    ∃ keys, Drawable Bills.Unused keys m.committed ∧
      (m.step serve event).committed = served serve session.request keys m.committed := by
  rcases (change_of_committing orderly commits).act (isCurrent_of_current now commits)
    (orderly.fresh _ (Nat.le_refl _)) with ⟨key, unused, after⟩
  rcases exists_drawable unused orderly.fresh with ⟨keys, drawable, first⟩
  refine ⟨keys, drawable, ?_⟩
  rw [served_eq, first]
  exact after

end Step

theorem orderly_run (start : Opening) (events : List (Transactions.Event Request)) :
    Orderly (run (Machine.step serve) start.machine events) :=
  Transitions.run_invariant (J := Orderly) (fun _ event orderly => orderly.step disciplined event) events start.orderly

/-- One draft with one line, of a hundred for each of three. -/
def oneLineBills : Bills :=
  ⟨[(0, {
      contract := 0, customer := 0, periodStart := .first 24312, periodEnd := (Date.first 24313).previous
      status := .draft, currency := "TRY", vatRate := 2000, subtotal := 30000, vatAmount := 6000
      total := 36000, invoiceNumber := "", invoiceDate := none, paidOn := none, cancelReason := "", notes := "" })],
    [(0, {
      draft := 0, kind := .manual, description := .typed "keys", elevator := none, fault := none
      faultReleased := false, quantity := 30000, proration := none, unitPrice := some 10000
      amount := 30000, needsPrice := false, position := 1, isDeleted := false })]⟩

theorem tallied_oneLine : oneLineBills.Tallied := by
  refine ⟨by decide, by decide, ?_⟩
  intro id draft found _
  have mem := List.mem_singleton.mp (Rows.mem_of_get? found)
  cases mem
  rfl

theorem unused_oneLine {id : Nat} (beyond : 1 ≤ id) : Bills.Unused id oneLineBills := by
  refine Rows.get?_eq_none.mpr ?_
  intro row mem
  have same := congrArg Prod.fst (List.mem_singleton.mp mem)
  dsimp only at same
  omega

def oneLine : Opening := ⟨oneLineBills, 1, tallied_oneLine, fun _ => unused_oneLine⟩

/-- An edit of the price. -/
def priceAt (price : Cents) : Request := .editLine 0 ⟨none, none, some price⟩

/-- An edit of the text. -/
def textAs (text : String) : Request := .editLine 0 ⟨some text, none, none⟩

/-- Both edits load the line, the one sets the price, and the other saves it as it was. -/
def editOverEdit : List (Transactions.Event Request) :=
  [.arrive (priceAt 20000), .arrive (textAs "locks"), .advance 1, .advance 1] ++
    List.replicate 10 (.advance 0) ++ List.replicate 8 (.advance 1)

/-- The price is lost, which no order of the two requests comes to. -/
theorem edit_lost : ¬ oneLine.machine.Serializable serve Bills.Unused editOverEdit := by
  rintro ⟨order, perm, serial⟩
  have both : oneLine.machine.succeeded serve editOverEdit = [priceAt 20000, textAs "locks"] := by
    decide +kernel
  have lost : (run (Machine.step serve) oneLine.machine editOverEdit).committed.lines.map
      (fun r => r.2.unitPrice) = [some 10000] := by decide +kernel
  rw [both] at perm
  have kept : ∀ key key',
      ((textAs "locks").act ((priceAt 20000).act oneLine.bills key) key').lines.map
        (fun r => r.2.unitPrice) = [some 20000] ∧
      ((priceAt 20000).act ((textAs "locks").act oneLine.bills key) key').lines.map
        (fun r => r.2.unitPrice) = [some 20000] := fun _ _ => ⟨rfl, rfl⟩
  rcases orders_of_pair perm with rfl | rfl
  · rcases serial.pair with ⟨keys, keys', final⟩
    rw [final, served_eq, served_eq] at lost
    cases lost.symm.trans (kept (keys 0) (keys' 0)).1
  · rcases serial.pair with ⟨keys, keys', final⟩
    rw [final, served_eq, served_eq] at lost
    cases lost.symm.trans (kept (keys 0) (keys' 0)).2

/-- Whatever the schedule, what is removed stays removed and what is issued stays as it
is; and if no edit commits a line that has been changed since it was loaded, the requests
that succeed come to what they would one after another. -/
theorem edits_serializable (start : Opening) (events : List (Transactions.Event Request)) :
    (∀ before event, before ++ [event] <+: events ->
      (run (Machine.step serve) start.machine before).committed.Settled
        ((run (Machine.step serve) start.machine before).step serve event).committed) ∧
      (everyStep (Machine.step serve) current start.machine events = true ->
        start.machine.Serializable serve Bills.Unused events) := by
  constructor
  · intro before event _
    exact settled_step (orderly_run start before)
  · intro now
    refine ⟨_, List.Perm.refl _, ?_⟩
    exact Machine.serial_run (J := Orderly) (fun _ event _ orderly => orderly.step disciplined event)
      (fun _ _ _ now orderly commits => served_step orderly now commits) start.orderly now

/-- The price is set, the line removed and the draft issued, all at once. -/
def inTurn : List (Transactions.Event Request) :=
  [.arrive (priceAt 20000), .arrive (.removeLine 0), .arrive (.issue 0 "A1" (.first 24313) true), .advance 1,
    .advance 2] ++ List.replicate 8 (.advance 0) ++ List.replicate 8 (.advance 1) ++
    List.replicate 10 (.advance 2)

theorem serial_in_turn : oneLine.machine.Serializable serve Bills.Unused inTurn :=
  (edits_serializable oneLine inTurn).2 (by decide +kernel)

end Billing
end Shiftlush
