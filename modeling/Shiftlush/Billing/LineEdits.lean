import Shiftlush.Saves
import Shiftlush.Transactions.Serial
import Shiftlush.Billing.Moves

namespace Shiftlush
namespace Billing

open Calendar (Date)
open Transactions

/-!
# Editing a draft, statement by statement

The four requests that write a draft's lines or freeze them.  Each locks the
draft before it checks its status.  A line, though, is loaded by the view before
that, and `edit_line` saves every column of what was loaded, as long as the line
still lives.
-/

/-- The draft's row, and an invoice number's entry in
`uq_invoice_number_per_company`, which the `UPDATE` that issues it makes. -/
inductive Row where
  | draft (id : Nat)
  | number (number : String)
  deriving DecidableEq, Repr

/-- A line as it was loaded. -/
abbrev Loaded := Nat × InvoiceLine

abbrev BillProg (α : Type) := Prog Bills Row Loaded Failure α

/-- `get_object` of the line view, with the draft it selects along.  The line
stays on that draft, so reading it is a statement of its own here. -/
def loadLine (id : Nat) : BillProg (Nat × InvoiceLine) := do
  let draft ← fetch (fun v : Bills => (v.lines.get? id).map InvoiceLine.draft) .notFound
  let found ← peekLogged (fun v : Bills => (v.lines.get? id).filter InvoiceLine.isLive)
    (fun found => found.toList.map (fun line => (id, line)))
  match found with
  | some line => return (draft, line)
  | none => .raise .notFound

/-- `get_object` of the draft view. -/
def loadDraft (id : Nat) : BillProg InvoiceDraft := do
  let found ← peek (fun v : Bills => v.drafts.get? id)
  match found with
  | some draft => return draft
  | none => .raise .notFound

/-- `_editable` -/
def editable (id : Nat) : BillProg InvoiceDraft := do
  lock .update (.draft id)
  let draft ← fetch (fun v : Bills => v.drafts.get? id) .notFound
  if draft.status = .draft then return draft else .raise .invoiceTransitionNotAllowed

/-- `recompute` of the draft that has been locked. -/
def recompute (id : Nat) (draft : InvoiceDraft) : BillProg InvoiceDraft :=
  if draft.status = .draft then do
    let amounts ← observe (fun v : Bills => v.amounts id) .integrityError
    let draft := draft.withSums (totals amounts draft.vatRate)
    write (Bills.updateDraft id (InvoiceDraft.withSums draft.sums))
    return draft
  else return draft

/-- `add_line` -/
def addLine (id : Nat) (new : NewLine) : BillProg Unit := do
  let _ ← loadDraft id
  require new.isValid .validationError
  let draft ← editable id
  let position ← observe (fun v : Bills => v.lastPosition id) .integrityError
  let key ← fresh
  write (Bills.insertLine key (new.row id (position + 1)))
  let _ ← recompute id draft
  return ()

/-- `save` of a line that was loaded, through the base manager.  No line leaves its
table, so none is inserted. -/
def saveLine (kind : Saves.Kind) (id : Nat) (f : InvoiceLine -> InvoiceLine) : BillProg Unit := do
  let saved ← observe (fun v : Bills => Saves.write InvoiceLine.isLive kind (v.lines.get? id)) .integrityError
  match saved with
  | .error .integrityError => .raise .integrityError
  | .error .notUpdated => .raise .notUpdated
  | .ok _ => write (Bills.updateLine id f)

/-- `edit_line` -/
def editLine (id : Nat) (changes : LineChanges) : BillProg Unit := do
  let (draftId, line) ← loadLine id
  require changes.isValid .validationError
  let draft ← editable draftId
  saveLine .whole id (InvoiceLine.savedOver (changes.apply line))
  let _ ← recompute draftId draft
  return ()

/-- `remove_line` -/
def removeLine (id : Nat) : BillProg Unit := do
  let (draftId, _) ← loadLine id
  let draft ← editable draftId
  saveLine .named id InvoiceLine.deleted
  let _ ← recompute draftId draft
  return ()

/-- `issue`.  The status is saved before the ledger is asked, and the settlement
after; nobody sees the draft in between. -/
def issue (id : Nat) (number : String) (date : Date) (posts : Bool) : BillProg Unit := do
  let _ ← loadDraft id
  let draft ← editable id
  let unpriced ← observe (fun v : Bills => v.needsPrice id) .integrityError
  if unpriced then .raise .invoiceLinesNeedPrice
  else do
    let taken ← peek (fun v : Bills => v.numberTaken id number)
    if taken then .raise .duplicateInvoiceNumber
    else do
      let draft ← recompute id draft
      lock .update (.number number)
      ensure (fun v : Bills => !v.numberTaken id number) .integrityError
      if draft.isPosted posts then
        write (Bills.updateDraft id (fun draft => (draft.issued number date).settled))
      else .raise .ledgerRefused

inductive Request where
  | addLine (draft : Nat) (new : NewLine)
  | editLine (line : Nat) (changes : LineChanges)
  | removeLine (line : Nat)
  /-- `posts` if the ledger takes the debit. -/
  | issue (draft : Nat) (number : String) (date : Date) (posts : Bool)
  deriving DecidableEq

def serve : Request -> BillProg Unit
  | .addLine draft new => addLine draft new
  | .editLine line changes => editLine line changes
  | .removeLine line => removeLine line
  | .issue draft number date posts => issue draft number date posts

/-! ## A request with no other about -/

/-- The service a request is for. -/
def Request.attempt (v : Bills) (key : Nat) : Request -> Except Failure Bills
  | .addLine draft new => v.addLine draft new key
  | .editLine line changes => v.editLine line changes
  | .removeLine line => v.removeLine line
  | .issue draft number date posts => v.issue draft number date posts

/-- The keys a request does not draw. -/
def Request.undrawn (keys : Nat -> Nat) : Request -> Nat -> Nat
  | .addLine _ _, k => keys (k + 1)
  | _, k => keys k

/-- A refused request leaves the tables as they are. -/
def Request.act (v : Bills) (key : Nat) (q : Request) : Bills :=
  match q.attempt v key with
  | .ok v' => v'
  | .error _ => v

section Alone

variable {v view : Bills} {keys : Nat -> Nat}

theorem alone_loadDraft (id : Nat) : (loadDraft id).alone v view keys =
    (view.draft id).map (fun draft => (draft, view, keys)) := by
  unfold loadDraft Bills.draft
  simp only [Prog.bind_eq, Prog.alone_bind, alone_peek, ok_bind]
  cases view.drafts.get? id with
  | none => rfl
  | some draft => rfl

theorem alone_loadLine (id : Nat) : (loadLine id).alone v view keys =
    (view.line id).map (fun line => ((line.draft, line), view, keys)) := by
  unfold loadLine Bills.line
  simp only [Prog.bind_eq, Prog.alone_bind, alone_fetch, alone_peekLogged]
  cases found : view.lines.get? id with
  | none => rfl
  | some line =>
      simp only [Option.map_some, ok_bind, found, Option.filter_some]
      cases line.isLive with
      | true => rfl
      | false => rfl

theorem alone_editable (id : Nat) : (editable id).alone v view keys =
    (view.editable id).map (fun draft => (draft, view, keys)) := by
  unfold editable Bills.editable Bills.draft
  simp only [Prog.bind_eq, Prog.alone_bind, alone_lock, alone_fetch, ok_bind]
  cases view.drafts.get? id with
  | none => rfl
  | some draft =>
      simp only [ok_bind]
      split
      · rfl
      · rfl

/-- A line that lives is saved. -/
theorem alone_saveLine {kind : Saves.Kind} {id : Nat} {line : InvoiceLine} {f : InvoiceLine -> InvoiceLine}
    (read : kind ≠ .new) (found : view.line id = .ok line) :
    (saveLine kind id f).alone v view keys = .ok ((), view.updateLine id f, keys) := by
  rcases line_ok.mp found with ⟨listed, live⟩
  unfold saveLine
  simp only [Prog.bind_eq, Prog.alone_bind, alone_observe, ok_bind, listed, Saves.write_of_shows read live]
  rfl

theorem alone_recompute {id : Nat} {draft : InvoiceDraft} (found : view.drafts.get? id = some draft)
    (open_ : draft.status = .draft) :
    (recompute id draft).alone v view keys =
      .ok (draft.withSums (totals (view.amounts id) draft.vatRate), view.recompute id, keys) := by
  unfold recompute Bills.recompute
  rw [if_pos open_, found]
  dsimp only
  rw [if_pos open_]
  rfl

/-- The statements of a request come to its service. -/
theorem alone_serve (q : Request) : (serve q).alone v v keys =
    (q.attempt v (keys 0)).map (fun v' => ((), v', q.undrawn keys)) := by
  cases q with
  | addLine id new =>
      unfold serve addLine Request.attempt Bills.addLine
      simp only [Prog.bind_eq, Prog.alone_bind, alone_loadDraft, alone_require, alone_editable,
        alone_observe, alone_fresh, alone_write]
      cases v.draft id with
      | error failure => rfl
      | ok row =>
          simp only [map_ok, ok_bind]
          cases new.isValid with
          | false => rfl
          | true =>
              simp only [if_true, ok_bind]
              cases found : v.editable id with
              | error failure => rfl
              | ok draft =>
                  rcases editable_ok.mp found with ⟨listed, open_⟩
                  simp only [map_ok, ok_bind]
                  have same : (v.insertLine (keys 0) (new.row id (v.lastPosition id + 1))).drafts.get? id =
                      some draft := listed
                  rw [alone_recompute same open_]
                  rfl
  | editLine id changes =>
      unfold serve editLine Request.attempt Bills.editLine
      simp only [Prog.bind_eq, Prog.alone_bind, alone_loadLine, alone_require, alone_editable]
      cases loaded : v.line id with
      | error failure => rfl
      | ok line =>
          simp only [map_ok, ok_bind]
          cases changes.isValid with
          | false => rfl
          | true =>
              simp only [if_true, ok_bind]
              cases found : v.editable line.draft with
              | error failure => rfl
              | ok draft =>
                  rcases editable_ok.mp found with ⟨listed, open_⟩
                  have saved : (saveLine .whole id (InvoiceLine.savedOver (changes.apply line))).alone v v keys = _ :=
                    alone_saveLine (by decide) loaded
                  simp only [map_ok, ok_bind, saved]
                  have same : (v.updateLine id (InvoiceLine.savedOver (changes.apply line))).drafts.get? line.draft =
                      some draft := listed
                  rw [alone_recompute same open_]
                  rfl
  | removeLine id =>
      unfold serve removeLine Request.attempt Bills.removeLine
      simp only [Prog.bind_eq, Prog.alone_bind, alone_loadLine, alone_editable]
      cases loaded : v.line id with
      | error failure => rfl
      | ok line =>
          simp only [map_ok, ok_bind]
          cases found : v.editable line.draft with
          | error failure => rfl
          | ok draft =>
              rcases editable_ok.mp found with ⟨listed, open_⟩
              have saved : (saveLine .named id InvoiceLine.deleted).alone v v keys = _ :=
                alone_saveLine (by decide) loaded
              simp only [map_ok, ok_bind, saved]
              have same : (v.updateLine id InvoiceLine.deleted).drafts.get? line.draft = some draft := listed
              rw [alone_recompute same open_]
              rfl
  | issue id number date posts =>
      unfold serve issue Request.attempt Bills.issue
      simp only [Prog.bind_eq, Prog.alone_bind, alone_loadDraft, alone_editable, alone_observe]
      cases loaded : v.draft id with
      | error failure =>
          have missing : v.editable id = .error failure := by
            unfold Bills.editable
            rw [loaded, error_bind]
          rw [missing]
          rfl
      | ok row =>
          simp only [map_ok, ok_bind]
          cases found : v.editable id with
          | error failure => rfl
          | ok draft =>
              rcases editable_ok.mp found with ⟨listed, open_⟩
              simp only [map_ok, ok_bind]
              cases v.needsPrice id with
              | true => rfl
              | false =>
                  simp only [Bool.false_eq_true, if_false, Prog.alone_bind, alone_peek, ok_bind]
                  cases taken : v.numberTaken id number with
                  | true => rfl
                  | false =>
                      have free : (v.recompute id).numberTaken id number = false := by
                        rw [numberTaken_recompute, taken]
                      simp only [Bool.false_eq_true, if_false, Prog.alone_bind,
                        alone_recompute listed open_, alone_lock, alone_ensure, free, Bool.not_false,
                        if_true, ok_bind]
                      split
                      · rfl
                      · rfl

end Alone

theorem served_eq (q : Request) (keys : Nat -> Nat) (v : Bills) :
    served serve q keys v = q.act v (keys 0) := by
  unfold served Request.act
  rw [alone_serve]
  cases q.attempt v (keys 0) with
  | error failure => rfl
  | ok v' => rfl

end Billing
end Shiftlush
