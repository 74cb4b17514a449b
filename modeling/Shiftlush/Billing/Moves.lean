import Shiftlush.Outcomes
import Shiftlush.Billing.Services

namespace Shiftlush
namespace Billing

open Calendar (Date)

/-!
# What a call does to the tables

Each service, when it does not refuse, as the tables it leaves, and what the
queries say of them then.
-/

variable {v v' : Bills} {id : Nat}

/-! ## Looking up -/

theorem draft_ok {id : Nat} {draft : InvoiceDraft} :
    v.draft id = .ok draft ↔ v.drafts.get? id = some draft := by
  unfold Bills.draft
  cases v.drafts.get? id with
  | none => simp only [reduceCtorEq]
  | some row => simp only [Except.ok.injEq, Option.some.injEq]

theorem editable_ok {id : Nat} {draft : InvoiceDraft} :
    v.editable id = .ok draft ↔ v.drafts.get? id = some draft ∧ draft.status = .draft := by
  unfold Bills.editable
  rw [← draft_ok]
  cases v.draft id with
  | error failure => simp only [error_bind, reduceCtorEq, false_and]
  | ok row =>
      rw [ok_bind, Except.ok.injEq]
      by_cases open_ : row.status = .draft
      · rw [if_pos open_, Except.ok.injEq]
        constructor
        · rintro rfl
          exact ⟨rfl, open_⟩
        · exact And.left
      · rw [if_neg open_]
        constructor
        · intro impossible
          cases impossible
        · rintro ⟨rfl, other⟩
          exact absurd other open_

theorem line_ok {line : InvoiceLine} :
    v.line id = .ok line ↔ v.lines.get? id = some line ∧ line.isLive = true := by
  unfold Bills.line
  rw [← Option.filter_eq_some_iff]
  cases (v.lines.get? id).filter InvoiceLine.isLive with
  | none => simp only [reduceCtorEq]
  | some row => simp only [Except.ok.injEq, Option.some.injEq]

/-! ## Lines and drafts after a write -/

section Writes

variable {f : InvoiceLine -> InvoiceLine}

theorem get?_linesOf {key : Nat} {line : InvoiceLine} (found : v.lines.get? key = some line) :
    (v.linesOf line.draft).get? key = some line :=
  Rows.get?_filter_of_get? found (decide_eq_true rfl)

theorem linesOf_updateLine (stays : ∀ line, (f line).draft = line.draft) (draft : Nat) :
    (v.updateLine id f).linesOf draft = (v.linesOf draft).update id f := by
  unfold Bills.linesOf Bills.updateLine Rows.update
  rw [List.filter_map]
  congr 1
  apply List.filter_congr
  intro r _
  rw [Function.comp_apply]
  split
  · rw [stays]
  · rfl

/-- The lines of other drafts. -/
theorem linesOf_updateLine_other (distinct : v.lines.Distinct)
    (stays : ∀ line, (f line).draft = line.draft) {draft draft' : Nat}
    (on : (v.lines.get? id).map InvoiceLine.draft = some draft) (other : draft' ≠ draft) :
    (v.updateLine id f).linesOf draft' = v.linesOf draft' := by
  rw [linesOf_updateLine stays, Rows.update_absent_self]
  intro line mem
  rcases List.mem_filter.mp mem with ⟨listed, here⟩
  rw [Rows.get?_of_mem distinct listed, Option.map_some] at on
  have there : line.draft = draft' := of_decide_eq_true here
  exact other (there.symm.trans (Option.some.inj on))

theorem linesOf_insertLine {key : Nat} {line : InvoiceLine} (draft : Nat) :
    (v.insertLine key line).linesOf draft =
      if line.draft = draft then (v.linesOf draft).insert key line else v.linesOf draft := by
  unfold Bills.linesOf Bills.insertLine Rows.insert
  rw [List.filter_append, List.filter_singleton]
  split
  · rename_i here
    rw [decide_eq_true here, cond_true]
  · rename_i other
    rw [decide_eq_false other, cond_false, List.append_nil]

theorem amounts_of_linesOf (same : v'.linesOf id = v.linesOf id) : v'.amounts id = v.amounts id := by
  unfold Bills.amounts Bills.liveLines
  rw [same]

theorem numberTaken_updateDraft (v : Bills) (id : Nat) (f : InvoiceDraft -> InvoiceDraft)
    (number : String) : (v.updateDraft id f).numberTaken id number = v.numberTaken id number := by
  unfold Bills.numberTaken Bills.updateDraft Rows.update
  rw [List.any_map]
  congr 1
  funext r
  by_cases here : r.1 = id
  · simp [here]
  · simp only [Function.comp_apply, if_neg here]

end Writes

/-! ## Recounting -/

theorem recompute_of_draft {draft : InvoiceDraft} (found : v.drafts.get? id = some draft)
    (open_ : draft.status = .draft) : v.recompute id =
      v.updateDraft id (InvoiceDraft.withSums (totals (v.amounts id) draft.vatRate)) := by
  unfold Bills.recompute
  rw [found]
  dsimp only
  rw [if_pos open_]

theorem lines_recompute (v : Bills) (id : Nat) : (v.recompute id).lines = v.lines := by
  unfold Bills.recompute
  split
  · split
    · rfl
    · rfl
  · rfl

theorem keys_recompute (v : Bills) (id : Nat) :
    (v.recompute id).drafts.map Prod.fst = v.drafts.map Prod.fst := by
  unfold Bills.recompute
  split
  · split
    · exact Rows.keys_update _ _ _
    · rfl
  · rfl

theorem linesOf_recompute (v : Bills) (id draft : Nat) : (v.recompute id).linesOf draft = v.linesOf draft := by
  unfold Bills.linesOf
  rw [lines_recompute]

theorem numberTaken_recompute (v : Bills) (id : Nat) (number : String) :
    (v.recompute id).numberTaken id number = v.numberTaken id number := by
  unfold Bills.recompute
  split
  · split
    · exact numberTaken_updateDraft v id _ number
    · rfl
  · rfl

/-- A draft with the totals of the amounts, while it is one. -/
def InvoiceDraft.recounted (amounts : List Cents) (draft : InvoiceDraft) : InvoiceDraft :=
  if draft.status = .draft then draft.withSums (totals amounts draft.vatRate) else draft

theorem status_recounted (amounts : List Cents) (draft : InvoiceDraft) :
    (draft.recounted amounts).status = draft.status := by
  unfold InvoiceDraft.recounted
  split
  · rfl
  · rfl

theorem sums_recounted {amounts : List Cents} {draft : InvoiceDraft} (open_ : draft.status = .draft) :
    (draft.recounted amounts).sums = totals amounts (draft.recounted amounts).vatRate := by
  unfold InvoiceDraft.recounted
  rw [if_pos open_]
  rfl

theorem get?_recompute (v : Bills) (id key : Nat) : (v.recompute id).drafts.get? key =
    if key = id then (v.drafts.get? id).map (InvoiceDraft.recounted (v.amounts id))
    else v.drafts.get? key := by
  unfold Bills.recompute InvoiceDraft.recounted
  cases found : v.drafts.get? id with
  | none =>
      dsimp only
      split
      · rename_i here
        rw [here]
        exact found
      · rfl
  | some draft =>
      rw [Option.map_some]
      dsimp only
      by_cases open_ : draft.status = .draft
      · rw [if_pos open_, if_pos open_]
        unfold Bills.updateDraft
        dsimp only
        rw [Rows.get?_update]
        split
        · rename_i here
          rw [here, found, Option.map_some]
        · rfl
      · rw [if_neg open_, if_neg open_]
        split
        · rename_i here
          rw [here]
          exact found
        · rfl

theorem status_settled (number : String) (date : Date) (draft : InvoiceDraft) :
    ((draft.issued number date).settled).status.payable = true := by
  unfold InvoiceDraft.settled
  split
  · rfl
  · rfl

theorem invoiceNumber_settled (draft : InvoiceDraft) : draft.settled.invoiceNumber = draft.invoiceNumber := by
  unfold InvoiceDraft.settled
  split
  · rfl
  · rfl

/-! ## Totals that are right -/

namespace Bills

/-- The totals of every open draft are those of its lines. -/
structure Tallied (v : Bills) : Prop where
  drafts : v.drafts.Distinct
  lines : v.lines.Distinct
  sums : ∀ id draft, v.drafts.get? id = some draft -> draft.status = .draft ->
    draft.sums = totals (v.amounts id) draft.vatRate

/-- Tallied, but for one draft. -/
structure TalliedBut (id : Nat) (v : Bills) : Prop where
  drafts : v.drafts.Distinct
  lines : v.lines.Distinct
  sums : ∀ key draft, key ≠ id -> v.drafts.get? key = some draft -> draft.status = .draft ->
    draft.sums = totals (v.amounts key) draft.vatRate

end Bills

/-- A recount makes the totals of a draft right. -/
theorem Bills.TalliedBut.recompute (but : v.TalliedBut id) : (v.recompute id).Tallied := by
  refine ⟨?_, ?_, ?_⟩
  · unfold Rows.Distinct
    rw [keys_recompute]
    exact but.drafts
  · rw [lines_recompute]
    exact but.lines
  · intro key draft found open_
    rw [get?_recompute] at found
    rw [amounts_of_linesOf (linesOf_recompute v id key)]
    split at found
    · rename_i here
      rcases Option.map_eq_some_iff.mp found with ⟨row, _, rfl⟩
      rw [status_recounted] at open_
      rw [here]
      exact sums_recounted open_
    · rename_i other
      exact but.sums key draft other found open_

namespace Bills.Tallied

variable (tallied : v.Tallied)

include tallied

theorem but (id : Nat) : v.TalliedBut id :=
  ⟨tallied.drafts, tallied.lines, fun key draft _ => tallied.sums key draft⟩

/-- A recount of what is right leaves it. -/
theorem recompute_eq (id : Nat) : v.recompute id = v := by
  unfold Bills.recompute
  cases found : v.drafts.get? id with
  | none => rfl
  | some draft =>
      dsimp only
      split
      · rename_i open_
        have right := tallied.sums id draft found open_
        unfold Bills.updateDraft
        rw [← right, Rows.update_same_self tallied.drafts found rfl]
      · rfl

/-- Other drafts do not count a line that is rewritten. -/
theorem updateLine {f : InvoiceLine -> InvoiceLine} {line draft : Nat}
    (stays : ∀ line, (f line).draft = line.draft)
    (on : (v.lines.get? line).map InvoiceLine.draft = some draft) :
    (v.updateLine line f).TalliedBut draft := by
  refine ⟨tallied.drafts, tallied.lines.update line f, ?_⟩
  intro key row other found open_
  rw [tallied.sums key row found open_, amounts_of_linesOf]
  exact (linesOf_updateLine_other tallied.lines stays on other).symm

theorem insertLine {key : Nat} {line : InvoiceLine} (unused : v.lines.get? key = none) :
    (v.insertLine key line).TalliedBut line.draft := by
  refine ⟨tallied.drafts, tallied.lines.insert unused, ?_⟩
  intro id row other found open_
  rw [tallied.sums id row found open_, amounts_of_linesOf]
  rw [linesOf_insertLine, if_neg (Ne.symm other)]

/-- A draft that is one no more is not counted. -/
theorem updateDraft {f : InvoiceDraft -> InvoiceDraft}
    (closes : ∀ draft, v.drafts.get? id = some draft -> (f draft).status ≠ .draft) :
    (v.updateDraft id f).Tallied := by
  refine ⟨tallied.drafts.update id f, tallied.lines, ?_⟩
  intro key row found open_
  unfold Bills.updateDraft at found
  dsimp only at found
  rw [Rows.get?_update] at found
  split at found
  · rename_i here
    subst here
    rcases Option.map_eq_some_iff.mp found with ⟨before, listed, rfl⟩
    exact absurd open_ (closes before listed)
  · exact tallied.sums key row found open_

end Bills.Tallied

/-! ## What the services do -/

theorem addLine_ok {new : NewLine} {key : Nat} (done : v.addLine id new key = .ok v') :
    ∃ draft, v.drafts.get? id = some draft ∧ draft.status = .draft ∧
      v' = (v.insertLine key (new.row id (v.lastPosition id + 1))).recompute id := by
  unfold Bills.addLine at done
  rcases bind_ok.mp done with ⟨_, _, rest⟩
  split at rest
  · rcases bind_ok.mp rest with ⟨draft, found, last⟩
    rcases editable_ok.mp found with ⟨listed, open_⟩
    exact ⟨draft, listed, open_, (Except.ok.inj last).symm⟩
  · cases rest

theorem editLine_ok {changes : LineChanges} (done : v.editLine id changes = .ok v') :
    ∃ line draft, v.lines.get? id = some line ∧ line.isLive = true ∧
      v.drafts.get? line.draft = some draft ∧ draft.status = .draft ∧
      v' = (v.updateLine id (InvoiceLine.savedOver (changes.apply line))).recompute line.draft := by
  unfold Bills.editLine at done
  rcases bind_ok.mp done with ⟨line, loaded, rest⟩
  rcases line_ok.mp loaded with ⟨listed, live⟩
  split at rest
  · rcases bind_ok.mp rest with ⟨draft, found, last⟩
    rcases editable_ok.mp found with ⟨at_draft, open_⟩
    exact ⟨line, draft, listed, live, at_draft, open_, (Except.ok.inj last).symm⟩
  · cases rest

theorem removeLine_ok (done : v.removeLine id = .ok v') :
    ∃ line draft, v.lines.get? id = some line ∧ line.isLive = true ∧
      v.drafts.get? line.draft = some draft ∧ draft.status = .draft ∧
      v' = (v.updateLine id InvoiceLine.deleted).recompute line.draft := by
  unfold Bills.removeLine at done
  rcases bind_ok.mp done with ⟨line, loaded, rest⟩
  rcases line_ok.mp loaded with ⟨listed, live⟩
  rcases bind_ok.mp rest with ⟨draft, found, last⟩
  rcases editable_ok.mp found with ⟨at_draft, open_⟩
  exact ⟨line, draft, listed, live, at_draft, open_, (Except.ok.inj last).symm⟩

theorem issue_ok {number : String} {date : Date} {posts : Bool}
    (done : v.issue id number date posts = .ok v') :
    ∃ draft, v.drafts.get? id = some draft ∧ draft.status = .draft ∧ v.needsPrice id = false ∧
      v' = (v.recompute id).updateDraft id (fun draft => (draft.issued number date).settled) := by
  unfold Bills.issue at done
  rcases bind_ok.mp done with ⟨draft, found, rest⟩
  rcases editable_ok.mp found with ⟨listed, open_⟩
  refine ⟨draft, listed, open_, ?_⟩
  split at rest
  · cases rest
  · rename_i priced
    split at rest
    · cases rest
    · dsimp only at rest
      split at rest
      · exact ⟨Bool.eq_false_iff.mpr priced, (Except.ok.inj rest).symm⟩
      · cases rest

theorem markPaid_ok {settles : Option Date} (done : v.markPaid id settles = .ok v') :
    ∃ draft, v.drafts.get? id = some draft ∧ draft.status = .issued ∧
      v' = v.updateDraft id (InvoiceDraft.paid settles) := by
  unfold Bills.markPaid at done
  rcases bind_ok.mp done with ⟨draft, found, rest⟩
  refine ⟨draft, draft_ok.mp found, ?_⟩
  split at rest
  · cases rest
  · rename_i issued
    rw [not_not] at issued
    refine ⟨issued, ?_⟩
    split at rest
    · exact (Except.ok.inj rest).symm
    · cases rest

theorem cancel_ok {reason : String} {reverses : Bool} (done : v.cancel id reason reverses = .ok v') :
    ∃ draft, v.drafts.get? id = some draft ∧ draft.status ≠ .cancelled ∧
      v' = (v.updateDraft id (InvoiceDraft.cancelled reason)).releaseFaults id := by
  unfold Bills.cancel at done
  rcases bind_ok.mp done with ⟨draft, found, rest⟩
  refine ⟨draft, draft_ok.mp found, ?_⟩
  split at rest
  · cases rest
  · rename_i uncancelled
    split at rest
    · cases rest
    · exact ⟨uncancelled, (Except.ok.inj rest).symm⟩

end Billing
end Shiftlush
