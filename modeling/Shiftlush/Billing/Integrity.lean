import Shiftlush.Billing.Moves
import Shiftlush.Billing.Office

namespace Shiftlush
namespace Billing

open Calendar (Date)
open Fleet (Contract Firm Fault)
open Transitions (run)

/-!
# Totals anybody can trust

"Its totals are always recomputed from its lines while it is a draft, and
nothing about it moves once it has been issued", in every state the office
reaches.
-/

variable {v v' : Bills} {id : Nat}

/-! ## Lines worth what they say -/

/-- The amount is what quantity, price and fraction give, and the flag tells
whether a price is missing. -/
structure InvoiceLine.Priced (line : InvoiceLine) : Prop where
  amount : line.amount = line.lineAmount
  needsPrice : line.needsPrice = line.unitPrice.isNone

theorem LineChanges.priced_apply (changes : LineChanges) (line : InvoiceLine) : (changes.apply line).Priced :=
  ⟨rfl, rfl⟩

theorem NewLine.priced_row (new : NewLine) (draft position : Nat) : (new.row draft position).Priced :=
  ⟨rfl, rfl⟩

theorem InvoiceLine.Priced.savedOver {line : InvoiceLine} (priced : line.Priced) (current : InvoiceLine) :
    (line.savedOver current).Priced := ⟨priced.amount, priced.needsPrice⟩

theorem InvoiceLine.Priced.deleted {line : InvoiceLine} (priced : line.Priced) : line.deleted.Priced :=
  ⟨priced.amount, priced.needsPrice⟩

theorem InvoiceLine.Priced.released {line : InvoiceLine} (priced : line.Priced) : line.released.Priced :=
  ⟨priced.amount, priced.needsPrice⟩

theorem priced_feeLines {s : Firm} {contract : Contract} {period : Period} {line : InvoiceLine}
    (mem : line ∈ feeLines s id contract period) : line.Priced := by
  unfold feeLines at mem
  split at mem
  · rw [List.mem_singleton.mp mem]
    exact ⟨rfl, rfl⟩
  · rcases List.mem_map.mp mem with ⟨r, _, rfl⟩
    exact ⟨rfl, rfl⟩

theorem priced_faultLine (r : Nat × Fault) : (faultLine r).Priced := ⟨rfl, rfl⟩

/-- All the lines are priced. -/
def Bills.Priced (v : Bills) : Prop := ∀ r ∈ v.lines, r.2.Priced

namespace Bills.Priced

variable (priced : v.Priced)

include priced

theorem recompute (id : Nat) : (v.recompute id).Priced := by
  unfold Bills.Priced
  rw [lines_recompute]
  exact priced

theorem updateDraft (id : Nat) (f : InvoiceDraft -> InvoiceDraft) : (v.updateDraft id f).Priced := priced

theorem updateLine {f : InvoiceLine -> InvoiceLine} (keeps : ∀ line, line.Priced -> (f line).Priced) :
    (v.updateLine id f).Priced := by
  intro r mem
  rcases Rows.mem_update.mp mem with ⟨before, _⟩ | ⟨row, before, rfl⟩
  · exact priced r before
  · exact keeps row (priced _ before)

theorem insertLine {key : Nat} {line : InvoiceLine} (new : line.Priced) : (v.insertLine key line).Priced := by
  intro r mem
  rcases List.mem_append.mp mem with before | last
  · exact priced r before
  · rw [List.mem_singleton.mp last]
    exact new

theorem releaseFaults (id : Nat) : (v.releaseFaults id).Priced := by
  intro r mem
  rcases List.mem_map.mp mem with ⟨r', before, rfl⟩
  split
  · exact (priced r' before).released
  · exact priced r' before

end Bills.Priced

/-! ## Lines on a new draft -/

section Placed

variable {draft : Nat} {lines : List InvoiceLine}

theorem mem_placed {r : Nat × InvoiceLine} (mem : r ∈ placed draft lines) :
    ∃ k line, line ∈ lines ∧ k < lines.length ∧
      r = (draft + 1 + k, { line with draft := draft, position := k }) := by
  unfold placed at mem
  rcases List.mem_mapIdx.mp mem with ⟨k, within, rfl⟩
  exact ⟨k, lines[k], List.getElem_mem within, within, rfl⟩

theorem keys_placed : (placed draft lines).map Prod.fst =
    (List.range lines.length).map (fun k => draft + 1 + k) := by
  apply List.ext_getElem
  · simp [placed]
  · intro k _ _
    simp [placed]

theorem distinct_placed : (placed draft lines).Distinct := by
  unfold Rows.Distinct
  rw [keys_placed]
  apply List.nodup_range.map
  intro k k' same
  dsimp only at same
  omega

theorem priced_placed (priced : ∀ line ∈ lines, line.Priced) : ∀ r ∈ placed draft lines, r.2.Priced := by
  intro r mem
  rcases mem_placed mem with ⟨k, line, listed, _, rfl⟩
  exact ⟨(priced line listed).amount, (priced line listed).needsPrice⟩

end Placed

/-! ## What the office may do to a draft -/

/-- What `cancel` makes of a line of its draft. -/
def giveBack (r : Nat × InvoiceLine) : Nat × InvoiceLine :=
  if r.2.isLive && r.2.fault.isSome then (r.1, r.2.released) else r

/-- A draft that is one no more keeps its totals and its lines, but for the
faults a cancellation gives back. -/
def Kept (id : Nat) (v v' : Bills) : Prop :=
  ∀ draft, v.drafts.get? id = some draft -> draft.status ≠ .draft ->
    ∃ draft', v'.drafts.get? id = some draft' ∧ draft'.status ≠ .draft ∧ draft'.sums = draft.sums ∧
      (draft'.isLive = true -> draft.isLive = true) ∧
      v'.linesOf id = if draft.isLive && !draft'.isLive then (v.linesOf id).map giveBack else v.linesOf id

theorem Kept.of_same (drafts : v'.drafts.get? id = v.drafts.get? id) (lines : v'.linesOf id = v.linesOf id) :
    Kept id v v' := by
  intro draft found closed
  refine ⟨draft, ?_, closed, rfl, fun live => live, ?_⟩
  · rw [drafts]
    exact found
  · rw [Bool.and_not_self, if_neg Bool.false_ne_true]
    exact lines

theorem Kept.trans {v'' : Bills} (first : Kept id v v') (second : Kept id v' v'') : Kept id v v'' := by
  intro draft found closed
  rcases first draft found closed with ⟨draft', found', closed', sums', live', lines'⟩
  rcases second draft' found' closed' with ⟨draft'', found'', closed'', sums'', live'', lines''⟩
  refine ⟨draft'', found'', closed'', sums''.trans sums', fun live => live' (live'' live), ?_⟩
  rw [lines'', lines']
  cases now : draft''.isLive with
  | true =>
      rw [live'' now, live' (live'' now)]
      rfl
  | false =>
      cases between : draft'.isLive with
      | true =>
          rw [live' between]
          rfl
      | false => rfl

/-- Some lines of one open draft, or of a new one, were written. -/
structure Edited (target : Nat) (v v' : Bills) : Prop where
  before : ∀ draft, v.drafts.get? target = some draft -> draft.status = .draft
  after : ∀ draft, v'.drafts.get? target = some draft -> draft.status = .draft
  drafts : ∀ id, id ≠ target -> v'.drafts.get? id = v.drafts.get? id
  lines : ∀ id, id ≠ target -> v'.linesOf id = v.linesOf id

theorem Edited.kept {target : Nat} (edited : Edited target v v') (id : Nat) : Kept id v v' := by
  by_cases here : id = target
  · subst here
    intro draft found closed
    exact absurd (edited.before draft found) closed
  · exact Kept.of_same (edited.drafts id here) (edited.lines id here)

/-- Lines written by a change that leaves the others, and the draft recounted. -/
theorem Edited.of_recompute {target : Nat} {w : Bills} {draft : InvoiceDraft}
    (found : v.drafts.get? target = some draft) (open_ : draft.status = .draft)
    (drafts : w.drafts = v.drafts) (lines : ∀ id, id ≠ target -> w.linesOf id = v.linesOf id) :
    Edited target v (w.recompute target) := by
  refine ⟨?_, ?_, ?_, ?_⟩
  · intro row listed
    rw [found] at listed
    rw [← Option.some.inj listed]
    exact open_
  · intro row listed
    rw [get?_recompute, if_pos rfl, drafts, found] at listed
    rcases Option.map_eq_some_iff.mp listed with ⟨before, same, rfl⟩
    rw [status_recounted, ← Option.some.inj same]
    exact open_
  · intro id other
    rw [get?_recompute, if_neg other, drafts]
  · intro id other
    rw [linesOf_recompute]
    exact lines id other

/-! ## A sound office -/

theorem needsPrice_of_linesOf (same : v'.linesOf id = v.linesOf id) : v'.needsPrice id = v.needsPrice id := by
  unfold Bills.needsPrice Bills.liveLines
  rw [same]

/-- Nothing that was issued waits for a price. -/
def Bills.Complete (v : Bills) : Prop :=
  ∀ id draft, v.drafts.get? id = some draft -> draft.status.payable = true -> v.needsPrice id = false

theorem Edited.complete {target : Nat} (edited : Edited target v v') (complete : v.Complete) : v'.Complete := by
  intro id draft found payable
  by_cases here : id = target
  · subst here
    rw [edited.after draft found] at payable
    cases payable
  · rw [needsPrice_of_linesOf (edited.lines id here)]
    rw [edited.drafts id here] at found
    exact complete id draft found payable

theorem Bills.Complete.updateDraft {f : InvoiceDraft -> InvoiceDraft} (complete : v.Complete)
    (priced : ∀ draft, v.drafts.get? id = some draft -> (f draft).status.payable = true ->
      v.needsPrice id = false) : (v.updateDraft id f).Complete := by
  intro key draft found payable
  unfold Bills.updateDraft at found
  dsimp only at found
  rw [Rows.get?_update] at found
  split at found
  · rename_i here
    subst here
    rcases Option.map_eq_some_iff.mp found with ⟨before, listed, rfl⟩
    exact priced before listed payable
  · exact complete key draft found payable

/-- What holds of the two tables whatever the office does, with the keys drawn
so far. -/
structure Bills.Sound (v : Bills) (bound : Nat) : Prop where
  tallied : v.Tallied
  priced : v.Priced
  complete : v.Complete
  drafts : v.drafts.Below bound
  lines : v.lines.Below bound

def Office.Sound (o : Office) : Prop := o.bills.Sound o.nextId

theorem Office.sound_start (firm : Firm) : (Office.start firm).Sound := by
  refine ⟨⟨List.nodup_nil, List.nodup_nil, ?_⟩, ?_, ?_, ?_, ?_⟩
  · intro id draft found
    cases found
  · intro r mem
    cases mem
  · intro id draft found
    cases found
  · intro id here
    cases here
  · intro id here
    cases here

/-! ## A new draft -/

section Drafting

variable {o : Office} {contract : Contract} {vatRate : Int} {period : Period}

namespace Office

/-- The lines a new draft gets. -/
def newLines (o : Office) (id : Nat) (contract : Contract) (period : Period) : List InvoiceLine :=
  feeLines o.firm id contract period ++ (billableFaults o.firm o.bills id period).map faultLine

/-- The two tables with the new rows, before the totals are counted. -/
def written (o : Office) (id : Nat) (contract : Contract) (vatRate : Int) (period : Period) : Bills where
  drafts := o.bills.drafts.insert o.nextId (newDraft id contract vatRate period)
  lines := o.bills.lines ++ placed o.nextId (o.newLines id contract period)

/-- `draft_for`, when no live draft starts on the day. -/
theorem draftFor_of_free (free : o.bills.periodTaken id period.start = false) :
    o.draftFor id contract vatRate period =
      { o with
        bills := (o.written id contract vatRate period).recompute o.nextId
        nextId := o.nextId + 1 + (o.newLines id contract period).length } := by
  unfold draftFor
  rw [free, if_neg Bool.false_ne_true]
  rfl

theorem draftFor_of_taken (taken : o.bills.periodTaken id period.start = true) :
    o.draftFor id contract vatRate period = o := by
  unfold draftFor
  rw [taken, if_pos rfl]

end Office

theorem priced_newLines {line : InvoiceLine} (mem : line ∈ o.newLines id contract period) : line.Priced := by
  rcases List.mem_append.mp mem with fee | fault
  · exact priced_feeLines fee
  · rcases List.mem_map.mp fault with ⟨r, _, rfl⟩
    exact priced_faultLine r

theorem linesOf_written {key : Nat} (other : key ≠ o.nextId) :
    (o.written id contract vatRate period).linesOf key = o.bills.linesOf key := by
  have elsewhere : List.filter (fun r => decide (r.2.draft = key))
      (placed o.nextId (o.newLines id contract period)) = [] := by
    rw [List.filter_eq_nil_iff]
    intro r mem here
    rcases mem_placed mem with ⟨k, line, _, _, rfl⟩
    exact other (of_decide_eq_true here).symm
  unfold Office.written Bills.linesOf
  dsimp only
  rw [List.filter_append, elsewhere, List.append_nil]

variable (sound : o.Sound)

include sound

theorem edited_written : Edited o.nextId o.bills
    ((o.written id contract vatRate period).recompute o.nextId) := by
  have absent : o.bills.drafts.get? o.nextId = none := sound.drafts.absent (Nat.le_refl _)
  refine ⟨?_, ?_, ?_, ?_⟩
  · intro draft found
    rw [absent] at found
    cases found
  · intro draft found
    rw [get?_recompute, if_pos rfl] at found
    rcases Option.map_eq_some_iff.mp found with ⟨row, listed, rfl⟩
    have new : (o.written id contract vatRate period).drafts.get? o.nextId =
        some (newDraft id contract vatRate period) := Rows.get?_insert_self absent
    rw [new] at listed
    rw [status_recounted, ← Option.some.inj listed]
    rfl
  · intro key other
    rw [get?_recompute, if_neg other]
    exact Rows.get?_insert_of_ne (Ne.symm other)
  · intro key other
    rw [linesOf_recompute]
    exact linesOf_written other

/-- A new draft leaves the others, and its totals are right. -/
theorem Office.Sound.draftFor : (o.draftFor id contract vatRate period).Sound := by
  cases free : o.bills.periodTaken id period.start with
  | true =>
      rw [Office.draftFor_of_taken free]
      exact sound
  | false =>
      rw [Office.draftFor_of_free free]
      have absent : o.bills.drafts.get? o.nextId = none := sound.drafts.absent (Nat.le_refl _)
      have counted : (o.written id contract vatRate period).TalliedBut o.nextId := by
        refine ⟨sound.tallied.drafts.insert absent, ?_, ?_⟩
        · apply sound.tallied.lines.append distinct_placed
          intro r mem
          rcases mem_placed mem with ⟨k, line, _, _, rfl⟩
          apply sound.lines.absent
          omega
        · intro key draft other found open_
          rw [amounts_of_linesOf (linesOf_written other)]
          exact sound.tallied.sums key draft ((Rows.get?_insert_of_ne (Ne.symm other)).symm.trans found) open_
      have priced : (o.written id contract vatRate period).Priced := by
        intro r mem
        rcases List.mem_append.mp mem with before | new
        · exact sound.priced r before
        · exact priced_placed (fun line => priced_newLines) r new
      refine ⟨counted.recompute, priced.recompute _, (edited_written sound).complete sound.complete, ?_, ?_⟩
      · have below := (sound.drafts.insert (newDraft id contract vatRate period)).mono
          (Nat.le_add_right _ (o.newLines id contract period).length)
        apply below.of_isSome
        intro key
        rw [get?_recompute]
        split
        · rename_i here
          rw [here, Option.isSome_map]
          rfl
        · rfl
      · dsimp only
        rw [lines_recompute]
        apply sound.lines.append (by omega)
        intro r mem
        rcases mem_placed mem with ⟨k, line, _, within, rfl⟩
        dsimp only
        omega

theorem kept_draftFor (key : Nat) : Kept key o.bills (o.draftFor id contract vatRate period).bills := by
  cases free : o.bills.periodTaken id period.start with
  | true =>
      rw [Office.draftFor_of_taken free]
      exact Kept.of_same rfl rfl
  | false =>
      rw [Office.draftFor_of_free free]
      exact (edited_written sound).kept key

end Drafting

theorem Office.Sound.generate {o : Office} (sound : o.Sound) (today : Date) : (o.generate today).Sound :=
  Office.generate_invariant_of_draftFor (fun _ _ _ _ _ sound => sound.draftFor) sound

theorem kept_generate {o : Office} (sound : o.Sound) (today : Date) (key : Nat) :
    Kept key o.bills (o.generate today).bills := by
  have both : (o.generate today).Sound ∧ Kept key o.bills (o.generate today).bills := by
    apply Office.generate_invariant_of_draftFor (J := fun o' => o'.Sound ∧ Kept key o.bills o'.bills)
    · rintro o' id contract vatRate period ⟨sound', kept⟩
      exact ⟨sound'.draftFor, kept.trans (kept_draftFor sound' key)⟩
    · exact ⟨sound, Kept.of_same rfl rfl⟩
  exact both.2

/-! ## A call -/

section Calling

variable {bound : Nat}

/-- The lines of one open draft are written, and it is recounted. -/
theorem Bills.Sound.edit (sound : v.Sound bound) {w : Bills} {target : Nat} {draft : InvoiceDraft}
    (found : v.drafts.get? target = some draft) (open_ : draft.status = .draft)
    (drafts : w.drafts = v.drafts) (lines : ∀ id, id ≠ target -> w.linesOf id = v.linesOf id)
    (counted : w.TalliedBut target) (priced : w.Priced) (below : w.lines.Below (bound + 1)) :
    (w.recompute target).Sound (bound + 1) ∧ ∀ id, Kept id v (w.recompute target) := by
  have edited := Edited.of_recompute found open_ drafts lines
  refine ⟨⟨counted.recompute, priced.recompute _, edited.complete sound.complete, ?_, ?_⟩, edited.kept⟩
  · apply (sound.drafts.mono (Nat.le_succ bound)).of_isSome
    intro key
    rw [get?_recompute, drafts]
    split
    · rename_i here
      rw [here, Option.isSome_map]
    · rfl
  · rw [lines_recompute]
    exact below

/-- A draft moves on, and its lines are as they were. -/
theorem Bills.Sound.move (sound : v.Sound bound) {f : InvoiceDraft -> InvoiceDraft} {draft : InvoiceDraft}
    (found : v.drafts.get? id = some draft) (closes : (f draft).status ≠ .draft)
    (stays : draft.status ≠ .draft -> (f draft).sums = draft.sums ∧ (f draft).isLive = draft.isLive)
    (priced : (f draft).status.payable = true -> v.needsPrice id = false) :
    (v.updateDraft id f).Sound (bound + 1) ∧ ∀ key, Kept key v (v.updateDraft id f) := by
  have only : ∀ row, v.drafts.get? id = some row -> row = draft := by
    intro row listed
    rw [found] at listed
    exact (Option.some.inj listed).symm
  refine ⟨⟨?_, sound.priced.updateDraft id f, ?_, ?_, sound.lines.mono (Nat.le_succ bound)⟩, ?_⟩
  · apply sound.tallied.updateDraft
    intro row listed
    rw [only row listed]
    exact closes
  · apply sound.complete.updateDraft
    intro row listed payable
    rw [only row listed] at payable
    exact priced payable
  · exact (sound.drafts.mono (Nat.le_succ bound)).of_isSome (fun key => Rows.isSome_get?_update _ _ key _)
  · intro key
    by_cases here : key = id
    · subst here
      intro row listed closed
      rw [only row listed] at closed ⊢
      rcases stays closed with ⟨sums, live⟩
      refine ⟨f draft, ?_, closes, sums, fun now => live.symm.trans now, ?_⟩
      · unfold Bills.updateDraft
        dsimp only
        rw [Rows.get?_update_self, found, Option.map_some]
      · rw [live, Bool.and_not_self, if_neg Bool.false_ne_true]
        rfl
    · exact Kept.of_same (Rows.get?_update_of_ne here) rfl

/-! ### A cancellation -/

/-- What does not look at the release reads the same of a line that gives its fault back. -/
theorem read_giveBack {β : Type} (read : Nat × InvoiceLine -> β) (blind : ∀ id (line : InvoiceLine) released,
    read (id, { line with faultReleased := released }) = read (id, line)) (r : Nat × InvoiceLine) :
    read (giveBack r) = read r := by
  unfold giveBack
  split
  · exact blind r.1 r.2 true
  · rfl

theorem draft_giveBack (r : Nat × InvoiceLine) : (giveBack r).2.draft = r.2.draft :=
  read_giveBack (fun r => r.2.draft) (fun _ _ _ => rfl) r

theorem isLive_giveBack (r : Nat × InvoiceLine) : (giveBack r).2.isLive = r.2.isLive :=
  read_giveBack (fun r => r.2.isLive) (fun _ _ _ => rfl) r

theorem amount_giveBack (r : Nat × InvoiceLine) : (giveBack r).2.amount = r.2.amount :=
  read_giveBack (fun r => r.2.amount) (fun _ _ _ => rfl) r

theorem needsPrice_giveBack (r : Nat × InvoiceLine) : (giveBack r).2.needsPrice = r.2.needsPrice :=
  read_giveBack (fun r => r.2.needsPrice) (fun _ _ _ => rfl) r

theorem key_giveBack (r : Nat × InvoiceLine) : (giveBack r).1 = r.1 :=
  read_giveBack Prod.fst (fun _ _ _ => rfl) r

/-- The lines of the draft give their faults back. -/
theorem releaseFaults_lines (v : Bills) (id : Nat) : (v.releaseFaults id).lines =
    v.lines.map (fun r => if r.2.draft = id then giveBack r else r) := by
  unfold Bills.releaseFaults giveBack
  dsimp only
  apply List.map_congr_left
  intro r _
  by_cases here : r.2.draft = id
  · rw [if_pos here, decide_eq_true here, Bool.true_and]
  · rw [if_neg here, decide_eq_false here, Bool.false_and, Bool.false_and, if_neg Bool.false_ne_true]

theorem linesOf_releaseFaults (v : Bills) (id key : Nat) : (v.releaseFaults id).linesOf key =
    if key = id then (v.linesOf id).map giveBack else v.linesOf key := by
  unfold Bills.linesOf
  rw [releaseFaults_lines, List.filter_map]
  have same : (fun r => decide (r.2.draft = key)) ∘ (fun r => if r.2.draft = id then giveBack r else r) =
      fun (r : Nat × InvoiceLine) => decide (r.2.draft = key) := by
    funext r
    rw [Function.comp_apply]
    split
    · rw [draft_giveBack]
    · rfl
  rw [same]
  split
  · rename_i here
    subst here
    apply List.map_congr_left
    intro r mem
    rw [if_pos (of_decide_eq_true (List.mem_filter.mp mem).2)]
  · rename_i other
    refine (List.map_congr_left ?_).trans (List.map_id _)
    intro r mem
    have there := of_decide_eq_true (List.mem_filter.mp mem).2
    rw [if_neg (fun here => other (there.symm.trans here))]
    rfl

theorem liveLines_giveBack {key : Nat} (lines : v'.linesOf key = (v.linesOf key).map giveBack) :
    v'.liveLines key = (v.liveLines key).map giveBack := by
  unfold Bills.liveLines
  rw [lines, List.filter_map]
  congr 2
  funext r
  exact isLive_giveBack r

theorem amounts_giveBack {key : Nat} (lines : v'.linesOf key = (v.linesOf key).map giveBack) :
    v'.amounts key = v.amounts key := by
  unfold Bills.amounts
  rw [liveLines_giveBack lines, List.map_map]
  exact List.map_congr_left (fun r _ => amount_giveBack r)

theorem needsPrice_of_giveBack {key : Nat} (lines : v'.linesOf key = (v.linesOf key).map giveBack) :
    v'.needsPrice key = v.needsPrice key := by
  unfold Bills.needsPrice
  rw [liveLines_giveBack lines, List.any_map]
  congr 1
  funext r
  exact needsPrice_giveBack r

theorem amounts_releaseFaults (v : Bills) (id key : Nat) : (v.releaseFaults id).amounts key = v.amounts key := by
  have lines := linesOf_releaseFaults v id key
  split at lines
  · rename_i here
    subst here
    exact amounts_giveBack lines
  · exact amounts_of_linesOf lines

theorem needsPrice_releaseFaults (v : Bills) (id key : Nat) :
    (v.releaseFaults id).needsPrice key = v.needsPrice key := by
  have lines := linesOf_releaseFaults v id key
  split at lines
  · rename_i here
    subst here
    exact needsPrice_of_giveBack lines
  · exact needsPrice_of_linesOf lines

theorem get?_releaseFaults_isSome (v : Bills) (id key : Nat) :
    ((v.releaseFaults id).lines.get? key).isSome = (v.lines.get? key).isSome := by
  rw [releaseFaults_lines, Rows.get?_map, Option.isSome_map]
  intro r
  split
  · exact key_giveBack r
  · rfl

theorem distinct_releaseFaults (distinct : v.lines.Distinct) : (v.releaseFaults id).lines.Distinct := by
  unfold Rows.Distinct
  rw [releaseFaults_lines, List.map_map]
  have same : Prod.fst ∘ (fun r => if r.2.draft = id then giveBack r else r) =
      (Prod.fst : Nat × InvoiceLine -> Nat) := by
    funext r
    rw [Function.comp_apply]
    split
    · exact key_giveBack r
    · rfl
  rw [same]
  exact distinct

/-- A cancellation leaves the other drafts, and the totals of this one. -/
theorem Bills.Sound.cancel (sound : v.Sound bound) {reason : String} {draft : InvoiceDraft}
    (found : v.drafts.get? id = some draft) (uncancelled : draft.status ≠ .cancelled) :
    ((v.updateDraft id (InvoiceDraft.cancelled reason)).releaseFaults id).Sound (bound + 1) ∧
      ∀ key, Kept key v ((v.updateDraft id (InvoiceDraft.cancelled reason)).releaseFaults id) := by
  have uncounted : (v.updateDraft id (InvoiceDraft.cancelled reason)).Tallied := by
    apply sound.tallied.updateDraft
    intro row _ impossible
    cases impossible
  have complete : (v.updateDraft id (InvoiceDraft.cancelled reason)).Complete := by
    apply sound.complete.updateDraft
    intro row _ impossible
    cases impossible
  refine ⟨⟨⟨uncounted.drafts, distinct_releaseFaults uncounted.lines, ?_⟩, ?_, ?_, ?_, ?_⟩, ?_⟩
  · intro key row listed open_
    rw [amounts_releaseFaults]
    exact uncounted.sums key row listed open_
  · exact (sound.priced.updateDraft id _).releaseFaults id
  · intro key row listed payable
    rw [needsPrice_releaseFaults]
    exact complete key row listed payable
  · exact (sound.drafts.mono (Nat.le_succ bound)).of_isSome (fun key => Rows.isSome_get?_update _ _ key _)
  · exact (sound.lines.mono (Nat.le_succ bound)).of_isSome (fun key => get?_releaseFaults_isSome _ id key)
  · intro key
    have lines := linesOf_releaseFaults (v.updateDraft id (InvoiceDraft.cancelled reason)) id key
    by_cases here : key = id
    · subst here
      rw [if_pos rfl] at lines
      intro row listed closed
      rw [found] at listed
      have same := Option.some.inj listed
      subst same
      refine ⟨draft.cancelled reason, ?_, ?_, rfl, ?_, ?_⟩
      · unfold Bills.releaseFaults Bills.updateDraft
        dsimp only
        rw [Rows.get?_update_self, found, Option.map_some]
      · intro impossible
        cases impossible
      · intro impossible
        cases impossible
      · have live : draft.isLive = true := decide_eq_true uncancelled
        rw [lines, live]
        rfl
    · rw [if_neg here] at lines
      exact Kept.of_same (Rows.get?_update_of_ne here) lines

/-! ### Every call -/

/-- A line of an open draft is written, and the draft recounted. -/
theorem Bills.Sound.editLine (sound : v.Sound bound) {f : InvoiceLine -> InvoiceLine} {line : InvoiceLine}
    {draft : InvoiceDraft} (listed : v.lines.get? id = some line)
    (found : v.drafts.get? line.draft = some draft) (open_ : draft.status = .draft)
    (stays : ∀ line, (f line).draft = line.draft) (priced : ∀ line, line.Priced -> (f line).Priced) :
    ((v.updateLine id f).recompute line.draft).Sound (bound + 1) ∧
      ∀ key, Kept key v ((v.updateLine id f).recompute line.draft) := by
  have on : (v.lines.get? id).map InvoiceLine.draft = some line.draft := by
    rw [listed, Option.map_some]
  apply sound.edit (w := v.updateLine id f) found open_ rfl
  · intro key other
    exact linesOf_updateLine_other sound.tallied.lines stays on other
  · exact sound.tallied.updateLine stays on
  · exact sound.priced.updateLine priced
  · exact (sound.lines.mono (Nat.le_succ bound)).of_isSome (fun key => Rows.isSome_get?_update _ _ key _)

theorem status_of_payable {draft : InvoiceDraft} (payable : draft.status.payable = true) :
    draft.status ≠ .draft ∧ draft.isLive = true := by
  unfold InvoiceDraft.isLive
  cases known : draft.status with
  | draft =>
      rw [known] at payable
      cases payable
  | issued => decide
  | paid => decide
  | cancelled =>
      rw [known] at payable
      cases payable

theorem synced_of_payable (covered : Option Date) {draft : InvoiceDraft}
    (payable : draft.status.payable = true) : (draft.synced covered).status.payable = true ∧
      (draft.synced covered).sums = draft.sums := by
  unfold InvoiceDraft.synced
  rw [payable, if_pos rfl]
  split
  · exact ⟨rfl, rfl⟩
  · split
    · exact ⟨rfl, rfl⟩
    · exact ⟨rfl, rfl⟩

/-- The ledger moves an invoice between issued and paid, and nothing else. -/
theorem Bills.Sound.sync (sound : v.Sound bound) (covered : Option Date) :
    (v.updateDraft id (InvoiceDraft.synced covered)).Sound (bound + 1) ∧
      ∀ key, Kept key v (v.updateDraft id (InvoiceDraft.synced covered)) := by
  have later : v.Sound (bound + 1) := ⟨sound.tallied, sound.priced, sound.complete,
    sound.drafts.mono (Nat.le_succ bound), sound.lines.mono (Nat.le_succ bound)⟩
  have untouched : v.drafts.update id (InvoiceDraft.synced covered) = v.drafts ->
      (v.updateDraft id (InvoiceDraft.synced covered)).Sound (bound + 1) ∧
        ∀ key, Kept key v (v.updateDraft id (InvoiceDraft.synced covered)) := by
    intro same
    unfold Bills.updateDraft
    rw [same]
    exact ⟨later, fun key => Kept.of_same rfl rfl⟩
  cases found : v.drafts.get? id with
  | none =>
      apply untouched
      exact Rows.update_absent_self (Rows.get?_eq_none.mp found)
  | some draft =>
      cases payable : draft.status.payable with
      | false =>
          apply untouched
          apply Rows.update_same_self sound.tallied.drafts found
          unfold InvoiceDraft.synced
          rw [payable, if_neg Bool.false_ne_true]
      | true =>
          rcases synced_of_payable covered payable with ⟨payable', sums⟩
          rcases status_of_payable payable with ⟨_, live⟩
          rcases status_of_payable payable' with ⟨closed', live'⟩
          apply sound.move found closed'
          · intro _
            exact ⟨sums, live'.trans live.symm⟩
          · intro _
            exact sound.complete id draft found payable

/-- No call breaks what holds of the tables, or a draft that is one no more. -/
theorem Bills.Sound.call (sound : v.Sound bound) {call : Call} (done : call.attempt v bound = .ok v') :
    v'.Sound (bound + 1) ∧ ∀ key, Kept key v v' := by
  cases call with
  | addLine draft new =>
      rcases addLine_ok done with ⟨row, found, open_, rfl⟩
      have unused : v.lines.get? bound = none := sound.lines.absent (Nat.le_refl _)
      let line := new.row draft (v.lastPosition draft + 1)
      have counted : (v.insertLine bound line).TalliedBut line.draft := sound.tallied.insertLine unused
      apply sound.edit (w := v.insertLine bound line) found open_ rfl
      · intro key other
        rw [linesOf_insertLine]
        exact if_neg (Ne.symm other)
      · exact counted
      · exact sound.priced.insertLine (new.priced_row _ _)
      · exact sound.lines.insert _
  | editLine id changes =>
      rcases editLine_ok done with ⟨line, draft, listed, _, found, open_, rfl⟩
      exact sound.editLine listed found open_ (fun _ => rfl)
        (fun current _ => (changes.priced_apply line).savedOver current)
  | removeLine id =>
      rcases removeLine_ok done with ⟨line, draft, listed, _, found, open_, rfl⟩
      exact sound.editLine listed found open_ (fun _ => rfl) (fun _ priced => priced.deleted)
  | issue id number date posts =>
      rcases issue_ok done with ⟨draft, found, open_, priced, rfl⟩
      rw [sound.tallied.recompute_eq id]
      apply sound.move found (status_of_payable (status_settled number date draft)).1
      · intro closed
        exact absurd open_ closed
      · intro _
        exact priced
  | markPaid id settles =>
      rcases markPaid_ok done with ⟨draft, found, issued, rfl⟩
      have payable : draft.status.payable = true := by
        rw [issued]
        rfl
      apply sound.move found (f := InvoiceDraft.paid settles)
      · intro impossible
        cases impossible
      · intro _
        exact ⟨rfl, (status_of_payable payable).2.symm⟩
      · intro _
        exact sound.complete id draft found payable
  | cancel id reason reverses =>
      rcases cancel_ok done with ⟨draft, found, uncancelled, rfl⟩
      exact sound.cancel found uncancelled
  | sync id covered =>
      cases done
      exact sound.sync covered

end Calling

/-! ## Runs -/

theorem Office.Sound.step {o : Office} (sound : o.Sound) (event : Event) :
    (o.step event).Sound ∧ ∀ key, Kept key o.bills (o.step event).bills := by
  cases event with
  | firm event => exact ⟨sound, fun key => Kept.of_same rfl rfl⟩
  | generate today => exact ⟨sound.generate today, kept_generate sound today⟩
  | call call =>
      have stepped : o.step (.call call) = o.called call := rfl
      rw [stepped]
      cases done : call.commit o.bills o.nextId with
      | error failure =>
          rw [Office.called_of_error done]
          exact ⟨sound, fun key => Kept.of_same rfl rfl⟩
      | ok bills =>
          rw [Office.called_of_ok done]
          replace done := (commit_ok.mp done).1
          exact Bills.Sound.call sound done

theorem Office.Sound.run {o : Office} (sound : o.Sound) (events : List Event) :
    (Transitions.run Office.step o events).Sound ∧
      ∀ key, Kept key o.bills (Transitions.run Office.step o events).bills := by
  apply Transitions.run_invariant (J := fun (o' : Office) => o'.Sound ∧ ∀ key, Kept key o.bills o'.bills)
  · rintro o' event ⟨sound', kept⟩
    have next := sound'.step event
    exact ⟨next.1, fun key => (kept key).trans (next.2 key)⟩
  · exact ⟨sound, fun key => Kept.of_same rfl rfl⟩

/-- The state after a run of a firm that had billed nothing. -/
def reached (firm : Firm) (events : List Event) : Office := run Office.step (Office.start firm) events

theorem sound_reached (firm : Firm) (events : List Event) : (reached firm events).Sound :=
  ((Office.sound_start firm).run events).1

/-- In every state an open draft shows the totals of its live lines, each line
the amount it stands for, and an issued one waits for no price; from then on, whatever
happens, totals and lines are the same, but for the faults a cancellation gives
back. -/
theorem draft_integrity (firm : Firm) (before after : List Event) :
    let o := reached firm before
    let o' := reached firm (before ++ after)
    (∀ id draft, o.bills.drafts.get? id = some draft -> draft.status = .draft ->
      draft.subtotal = (o.bills.amounts id).sum ∧
        draft.vatAmount = roundHalfUp (draft.subtotal * draft.vatRate) 10000 ∧
        draft.total = draft.subtotal + draft.vatAmount) ∧
      (∀ id line, o.bills.lines.get? id = some line -> line.amount = line.lineAmount) ∧
      ∀ id draft, o.bills.drafts.get? id = some draft -> draft.status.payable = true ->
        o.bills.needsPrice id = false ∧ o'.bills.needsPrice id = false ∧
          ∃ draft', o'.bills.drafts.get? id = some draft' ∧ draft'.sums = draft.sums ∧
            o'.bills.linesOf id =
              if draft'.isLive then o.bills.linesOf id else (o.bills.linesOf id).map giveBack := by
  intro o o'
  have sound : o.Sound := sound_reached firm before
  have onward : o' = run Office.step o after := Transitions.run_append _ _ _
  refine ⟨?_, ?_, ?_⟩
  · intro id draft found open_
    have sums := sound.tallied.sums id draft found open_
    unfold InvoiceDraft.sums totals at sums
    simp only [Prod.mk.injEq] at sums
    rcases sums with ⟨subtotal, vatAmount, total⟩
    rw [← subtotal] at vatAmount total
    rw [← vatAmount] at total
    exact ⟨subtotal, vatAmount, total⟩
  · intro id line found
    exact (sound.priced _ (Rows.mem_of_get? found)).amount
  · intro id draft found payable
    rcases status_of_payable payable with ⟨closed, live⟩
    have priced := sound.complete id draft found payable
    rcases (sound.run after).2 id draft found closed with ⟨draft', found', _, sums, _, lines⟩
    rw [← onward] at found' lines
    rw [live, Bool.true_and] at lines
    cases live' : draft'.isLive with
    | true =>
        rw [live', Bool.not_true, if_neg Bool.false_ne_true] at lines
        refine ⟨priced, ?_, draft', found', sums, ?_⟩
        · rw [needsPrice_of_linesOf lines]
          exact priced
        · rw [live', if_pos rfl]
          exact lines
    | false =>
        rw [live', Bool.not_false, if_pos rfl] at lines
        refine ⟨priced, ?_, draft', found', sums, ?_⟩
        · rw [needsPrice_of_giveBack lines]
          exact priced
        · rw [live', if_neg Bool.false_ne_true]
          exact lines

/-- A contract from January 2026 on, and a repair of its lift to bill. -/
def repaired : Firm where
  contracts := [(0, {
    customer := 0, status := .active, scope := .maintenanceOnly, startDate := .first 24312
    endDate := (Date.first 24324).previous, pricingType := .flat, monthlyFee := some 100000
    currency := "TRY", vatRate := some 2000, billingPeriod := .monthly, autoRenew := false
    renewalNoticeDays := 60, previousContract := none, terminatedAt := none, terminationReason := ""
    notes := "" })]
  lines := [(0, ⟨0, 0, none, .first 24312, none⟩)]
  elevators := [(0, ⟨.active, none, .none, none, "", ""⟩)]
  inspections := []
  faults := [(0, {
    elevator := 0, channel := .staff, priority := .normal, status := .closed, technician := none
    reportedOn := .first 24312, reportedAt := 0, closedOn := some (.first 24312), closedAt := some 0
    stoppedElevator := false, partsUsed := "", billable := some true, billableOverridden := false })]
  nextId := 1

/-- January is drafted, its repair priced, and the invoice issued. -/
def issuedJanuary : List Event :=
  [.generate (.first 24313), .call (.editLine 2 ⟨none, none, some 50000⟩),
    .call (.issue 0 "A1" (.first 24313) true)]

/-- A cancellation is a change of the lines that bill a fault. -/
theorem cancelled_lines_change : ¬ ∀ (firm : Firm) (before after : List Event) (id : Nat)
    (draft : InvoiceDraft), (reached firm before).bills.drafts.get? id = some draft ->
      draft.status.payable = true ->
        (reached firm (before ++ after)).bills.linesOf id = (reached firm before).bills.linesOf id := by
  intro never
  have issued : ((reached repaired issuedJanuary).bills.drafts.get? 0).any (fun draft =>
      draft.status.payable) = true := by decide +kernel
  rcases (Option.any_eq_true _ _).mp issued with ⟨draft, found, payable⟩
  have same := never repaired issuedJanuary [.call (.cancel 0 "" true)] 0 draft found payable
  revert same
  decide +kernel

/-- The invoice of January, and what is left of it when it is cancelled. -/
theorem draft_integrity_cancelled : ∃ draft,
    (reached repaired issuedJanuary).bills.drafts.get? 0 = some draft ∧ draft.total = 180000 ∧
      ∃ draft', (reached repaired (issuedJanuary ++ [.call (.cancel 0 "" true)])).bills.drafts.get? 0 =
        some draft' ∧ draft'.sums = draft.sums := by
  have issued : ((reached repaired issuedJanuary).bills.drafts.get? 0).any (fun draft =>
      draft.status.payable && decide (draft.total = 180000)) = true := by decide +kernel
  rcases (Option.any_eq_true _ _).mp issued with ⟨draft, found, both⟩
  rw [Bool.and_eq_true, decide_eq_true_eq] at both
  rcases (draft_integrity repaired issuedJanuary [.call (.cancel 0 "" true)]).2.2 0 draft found both.1 with
    ⟨_, _, draft', found', sums, _⟩
  exact ⟨draft, found, both.2, draft', found', sums⟩

end Billing
end Shiftlush
