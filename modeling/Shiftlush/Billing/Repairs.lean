import Shiftlush.Billing.ChargedOnce

namespace Shiftlush
namespace Billing

open Calendar (Date)
open Fleet (Contract Fault Firm)
open Transitions (run)

/-!
# Repairs are billed once

"Closed within the period, billable, on a lift this contract covered on the day the
fault was reported, and on no live draft already": the question is asked when a period
is drafted, and not again.  What is found then stays on one line until the office takes
it off, whatever happens to the contract; what is not, no later draft looks for.
-/

/-! ## Lines that bill a fault -/

namespace Bills

/-- A draft that is not cancelled. -/
def stands (v : Bills) (draft : Nat) : Bool := (v.drafts.get? draft).any InvoiceDraft.isLive

/-- A fault is on one live line at the most, and the line on a live draft. -/
structure Held (v : Bills) : Prop where
  once : ∀ r ∈ v.lines, ∀ r' ∈ v.lines, ∀ fault, r.2.bills fault = true -> r'.2.bills fault = true -> r = r'
  standing : ∀ r ∈ v.lines, ∀ fault, r.2.bills fault = true -> v.stands r.2.draft = true

/-- The fault is on exactly one live line, of a live draft. -/
def BilledOnce (v : Bills) (fault : Nat) : Prop :=
  ∃ r ∈ v.lines, r.2.bills fault = true ∧ v.stands r.2.draft = true ∧
    ∀ r' ∈ v.lines, r'.2.bills fault = true -> r' = r

end Bills

/-- The office takes the line off: it removes it, or cancels its draft. -/
def Call.takesOff (r : Nat × InvoiceLine) : Call -> Bool
  | .removeLine line => decide (line = r.1)
  | .cancel draft _ _ => decide (draft = r.2.draft)
  | _ => false

/-- A line before and after a call. -/
structure Call.Leaves (call : Call) (r r' : Nat × InvoiceLine) : Prop where
  key : r'.1 = r.1
  draft : r'.2.draft = r.2.draft
  bills : ∀ fault, r'.2.bills fault = (r.2.bills fault && !call.takesOff r)

section Calls

variable {v v' : Bills} {bound : Nat} {call : Call}

theorem isBilled_iff {fault : Nat} : v.isBilled fault = true ↔ ∃ r ∈ v.lines, r.2.bills fault = true :=
  List.any_eq_true

theorem Bills.Held.billedOnce (held : v.Held) {fault : Nat} (billed : v.isBilled fault = true) : v.BilledOnce fault := by
  rcases isBilled_iff.mp billed with ⟨r, mem, bills⟩
  exact ⟨r, mem, bills, held.standing r mem fault bills, fun r' mem' bills' => held.once r' mem' r mem fault bills' bills⟩

/-- A call that does not take the line off, and leaves it as it is. -/
theorem Call.Leaves.refl {r : Nat × InvoiceLine} (stays : call.takesOff r = false) : call.Leaves r r := by
  refine ⟨rfl, rfl, fun fault => ?_⟩
  rw [stays, Bool.not_false, Bool.and_true]

theorem bills_deleted (line : InvoiceLine) (fault : Nat) : line.deleted.bills fault = false := Bool.and_false _

theorem bills_released (line : InvoiceLine) (fault : Nat) : line.released.bills fault = false := by
  unfold InvoiceLine.bills InvoiceLine.released
  rw [Bool.not_true, Bool.and_false, Bool.false_and]

/-- What a call does to the lines that bill a fault, and no new line bills one. -/
theorem lines_of_call (sound : v.Sound bound) (done : call.attempt v bound = .ok v') : ∃ g fresh,
    v'.lines = v.lines.map g ++ fresh ∧ (∀ r ∈ v.lines, call.Leaves r (g r)) ∧
      ∀ r ∈ fresh, ∀ fault, r.2.bills fault = false := by
  have kept (lines : v'.lines = v.lines) (stays : ∀ r ∈ v.lines, call.takesOff r = false) : ∃ g fresh,
      v'.lines = v.lines.map g ++ fresh ∧ (∀ r ∈ v.lines, call.Leaves r (g r)) ∧
        ∀ r ∈ fresh, ∀ fault, r.2.bills fault = false := by
    refine ⟨id, [], ?_, fun r mem => .refl (stays r mem), fun r mem => absurd mem List.not_mem_nil⟩
    rw [List.map_id, List.append_nil]
    exact lines
  have mapped (g : Nat × InvoiceLine -> Nat × InvoiceLine) (lines : v'.lines = v.lines.map g)
      (leaves : ∀ r ∈ v.lines, call.Leaves r (g r)) : ∃ g fresh,
      v'.lines = v.lines.map g ++ fresh ∧ (∀ r ∈ v.lines, call.Leaves r (g r)) ∧
        ∀ r ∈ fresh, ∀ fault, r.2.bills fault = false := by
    refine ⟨g, [], ?_, leaves, fun r mem => absurd mem List.not_mem_nil⟩
    rw [List.append_nil]
    exact lines
  cases call with
  | addLine draft new =>
      rcases addLine_ok done with ⟨_, _, _, rfl⟩
      refine ⟨id, [(bound, new.row draft (v.lastPosition draft + 1))], ?_, fun r _ => .refl rfl, ?_⟩
      · rw [lines_recompute, List.map_id]
        rfl
      · intro r mem fault
        rw [List.mem_singleton.mp mem]
        rfl
  | editLine id changes =>
      rcases editLine_ok done with ⟨line, _, listed, _, _, _, rfl⟩
      refine mapped _ (lines_recompute _ _) ?_
      intro r mem
      split
      · rename_i here
        subst here
        have same : r.2 = line := Option.some.inj ((Rows.get?_of_mem sound.tallied.lines mem).symm.trans listed)
        refine ⟨rfl, rfl, fun fault => ?_⟩
        rw [← same]
        exact (Bool.and_true _).symm
      · exact .refl rfl
  | removeLine id =>
      rcases removeLine_ok done with ⟨line, _, _, _, _, _, rfl⟩
      refine mapped _ (lines_recompute _ _) ?_
      intro r _
      split
      · rename_i here
        refine ⟨rfl, rfl, fun fault => ?_⟩
        have takes : (Call.removeLine id).takesOff r = true := decide_eq_true here.symm
        rw [takes, Bool.not_true, Bool.and_false]
        exact bills_deleted r.2 fault
      · rename_i other
        exact .refl (decide_eq_false (Ne.symm other))
  | issue id number date posts =>
      rcases issue_ok done with ⟨_, _, _, _, rfl⟩
      exact kept (lines_recompute v id) (fun _ _ => rfl)
  | markPaid id settles =>
      rcases markPaid_ok done with ⟨_, _, _, rfl⟩
      exact kept rfl (fun _ _ => rfl)
  | cancel id reason reverses =>
      rcases cancel_ok done with ⟨_, _, _, rfl⟩
      refine mapped _ rfl ?_
      intro r _
      have takes : (Call.cancel id reason reverses).takesOff r = decide (r.2.draft = id) := by
        unfold Call.takesOff
        exact decide_eq_decide.mpr eq_comm
      split
      · rename_i holds
        refine ⟨rfl, rfl, fun fault => ?_⟩
        rw [Bool.and_eq_true, Bool.and_eq_true] at holds
        rw [takes, holds.1.1, Bool.not_true, Bool.and_false]
        exact bills_released r.2 fault
      · rename_i spared
        refine ⟨rfl, rfl, fun fault => ?_⟩
        rw [takes]
        cases bills : r.2.bills fault with
        | false => rfl
        | true =>
            unfold InvoiceLine.bills at bills
            rw [Bool.and_eq_true, Bool.and_eq_true, decide_eq_true_eq] at bills
            rw [bills.2, bills.1.1, Bool.and_true, Option.isSome_some, Bool.and_true, Bool.not_eq_true] at spared
            rw [spared]
            rfl
  | sync id covered =>
      cases done
      exact kept rfl (fun _ _ => rfl)

/-! ### Drafts that stand -/

theorem stands_updateDraft {id draft : Nat} {f : InvoiceDraft -> InvoiceDraft}
    (keeps : draft = id -> ∀ row, row.isLive = true -> (f row).isLive = true) (stands : v.stands draft = true) :
    (v.updateDraft id f).stands draft = true := by
  unfold Bills.stands Bills.updateDraft at *
  dsimp only
  rw [Rows.get?_update]
  split
  · rename_i here
    subst here
    rw [Option.any_map]
    rcases (Option.any_eq_true _ _).mp stands with ⟨row, found, live⟩
    exact (Option.any_eq_true _ _).mpr ⟨row, found, keeps rfl row live⟩
  · exact stands

theorem stands_recompute {draft : Nat} (id : Nat) (stands : v.stands draft = true) :
    (v.recompute id).stands draft = true := by
  unfold Bills.recompute
  split
  · split
    · exact stands_updateDraft (fun _ _ live => live) stands
    · exact stands
  · exact stands

/-- Only its cancellation takes a draft away. -/
theorem stands_of_call {draft : Nat} (stays : ∀ reason reverses, call ≠ .cancel draft reason reverses)
    (done : call.attempt v bound = .ok v') (stands : v.stands draft = true) : v'.stands draft = true := by
  cases call with
  | addLine id new =>
      rcases addLine_ok done with ⟨_, _, _, rfl⟩
      exact stands_recompute id (v := v.insertLine bound _) stands
  | editLine id changes =>
      rcases editLine_ok done with ⟨line, _, _, _, _, _, rfl⟩
      exact stands_recompute line.draft (v := v.updateLine id _) stands
  | removeLine id =>
      rcases removeLine_ok done with ⟨line, _, _, _, _, _, rfl⟩
      exact stands_recompute line.draft (v := v.updateLine id _) stands
  | issue id number date posts =>
      rcases issue_ok done with ⟨_, _, _, _, rfl⟩
      refine stands_updateDraft (fun _ row _ => ?_) (stands_recompute id stands)
      unfold InvoiceDraft.settled
      split
      · rfl
      · rfl
  | markPaid id settles =>
      rcases markPaid_ok done with ⟨_, _, _, rfl⟩
      exact stands_updateDraft (fun _ _ _ => rfl) stands
  | cancel id reason reverses =>
      rcases cancel_ok done with ⟨_, _, _, rfl⟩
      exact stands_updateDraft (fun same => absurd (congrArg (Call.cancel · reason reverses) same.symm) (stays reason reverses))
        stands
  | sync id covered =>
      cases done
      refine stands_updateDraft (fun _ row live => ?_) stands
      unfold InvoiceDraft.synced
      split
      · split
        · rfl
        · split
          · rfl
          · rfl
      · exact live

/-- Where a line that bills a fault after a call comes from. -/
theorem billing_of_call (sound : v.Sound bound) (done : call.attempt v bound = .ok v') {r' : Nat × InvoiceLine}
    {fault : Nat} (mem : r' ∈ v'.lines) (bills : r'.2.bills fault = true) :
    ∃ r ∈ v.lines, call.Leaves r r' ∧ r.2.bills fault = true ∧ call.takesOff r = false := by
  rcases lines_of_call sound done with ⟨g, fresh, lines, leaves, idle⟩
  rw [lines] at mem
  rcases List.mem_append.mp mem with old | new
  · rcases List.mem_map.mp old with ⟨r, listed, rfl⟩
    have before := bills
    rw [(leaves r listed).bills, Bool.and_eq_true, Bool.not_eq_true'] at before
    exact ⟨r, listed, leaves r listed, before.1, before.2⟩
  · rw [idle r' new fault] at bills
    cases bills

/-- A line that is not taken off goes on billing. -/
theorem billing_after_call (sound : v.Sound bound) (done : call.attempt v bound = .ok v') {r : Nat × InvoiceLine}
    {fault : Nat} (mem : r ∈ v.lines) (bills : r.2.bills fault = true) (stays : call.takesOff r = false) :
    v'.isBilled fault = true := by
  rcases lines_of_call sound done with ⟨g, fresh, lines, leaves, _⟩
  refine isBilled_iff.mpr ⟨g r, ?_, ?_⟩
  · rw [lines]
    exact List.mem_append_left _ (List.mem_map_of_mem mem)
  · rw [(leaves r mem).bills, bills, stays]
    rfl

theorem held_call (held : v.Held) (sound : v.Sound bound) (done : call.attempt v bound = .ok v') : v'.Held := by
  refine ⟨?_, ?_⟩
  · intro r' mem' s' smem' fault bills' sbills'
    rcases billing_of_call sound done mem' bills' with ⟨r, mem, row, bills, _⟩
    rcases billing_of_call sound done smem' sbills' with ⟨s, smem, srow, sbills, _⟩
    have same := held.once r mem s smem fault bills sbills
    apply Rows.unique (sound.call done).1.tallied.lines mem' smem'
    rw [row.key, srow.key, same]
  · intro r' mem' fault bills'
    rcases billing_of_call sound done mem' bills' with ⟨r, mem, row, bills, stays⟩
    rw [row.draft]
    refine stands_of_call (fun reason reverses cancelled => ?_) done (held.standing r mem fault bills)
    subst cancelled
    exact of_decide_eq_false stays rfl

/-- A draft that is cancelled gives its faults back. -/
theorem free_of_cancel (held : v.Held) (sound : v.Sound bound) {draft : Nat} {reason : String} {reverses : Bool}
    (done : v.cancel draft reason reverses = .ok v') {r : Nat × InvoiceLine} (mem : r ∈ v.lines)
    (on : r.2.draft = draft) {fault : Nat} (bills : r.2.bills fault = true) : v'.isBilled fault = false := by
  have call : Call.attempt v bound (.cancel draft reason reverses) = .ok v' := done
  by_contra billed
  rcases isBilled_iff.mp ((Bool.not_eq_false _).mp billed) with ⟨r', mem', bills'⟩
  rcases billing_of_call sound call mem' bills' with ⟨s, smem, _, sbills, stays⟩
  rw [held.once s smem r mem fault sbills bills] at stays
  exact of_decide_eq_false stays on.symm

end Calls

/-! ## What a draft takes -/

/-- What a draft is to bill of the firm's repairs. -/
def Owed (s : Firm) (draft : InvoiceDraft) (fault : Fault) : Prop :=
  (fault.status = .closed ∧ fault.billable = some true) ∧ (∃ day, fault.closedOn = some day ∧ draft.covers day) ∧
    ∃ l ∈ s.lines, (l.2.contract = draft.contract ∧ l.2.elevator = fault.elevator) ∧
      coversOn fault.reportedOn l.2 = true

section Drafting

variable {o : Office} {id : Nat} {contract : Contract} {vatRate : Int} {period : Period}

theorem mem_billableFaults {s : Firm} {v : Bills} {t : Nat × Fault} : t ∈ billableFaults s v id period ↔
    t ∈ s.faults ∧ ((((t.2.status = .closed ∧ t.2.billable = some true) ∧ closedIn period t.2 = true) ∧
      v.isBilled t.1 = false) ∧ ∃ l ∈ s.lines, (l.2.contract = id ∧ l.2.elevator = t.2.elevator) ∧
        coversOn t.2.reportedOn l.2 = true) := by
  unfold billableFaults
  rw [List.mem_insertionSort, List.mem_filter]
  simp only [Bool.and_eq_true, decide_eq_true_eq, Bool.not_eq_true', List.any_eq_true]

/-- Fee lines bill no fault. -/
theorem fault_feeLines {s : Firm} {line : InvoiceLine} (mem : line ∈ feeLines s id contract period) :
    line.fault = none := by
  unfold feeLines at mem
  split at mem
  · rw [List.mem_singleton.mp mem]
    rfl
  · rcases List.mem_map.mp mem with ⟨r, _, rfl⟩
    rfl

/-- A new line that bills a fault bills one that no line did. -/
theorem unbilled_of_newLines {line : InvoiceLine} (mem : line ∈ o.newLines id contract period) {fault : Nat}
    (bills : line.fault = some fault) : o.bills.isBilled fault = false := by
  rcases List.mem_append.mp mem with fee | repair
  · rw [fault_feeLines fee] at bills
    cases bills
  · rcases List.mem_map.mp repair with ⟨t, chosen, rfl⟩
    rw [← Option.some.inj bills]
    exact (mem_billableFaults.mp chosen).2.1.2

/-- No two lines are of one fault. -/
def Apart (line line' : InvoiceLine) : Prop := ∀ fault, line.fault = some fault -> line'.fault ≠ some fault

theorem pairwise_newLines (distinct : o.firm.faults.Distinct) : (o.newLines id contract period).Pairwise Apart := by
  have chosen : ((billableFaults o.firm o.bills id period).map Prod.fst).Nodup := by
    unfold billableFaults
    rw [((List.perm_insertionSort _ _).map Prod.fst).nodup_iff]
    exact distinct.filter _
  refine List.pairwise_append.mpr ⟨?_, ?_, ?_⟩
  · refine List.pairwise_of_forall_mem_list (fun line mem _ _ fault bills => ?_)
    rw [fault_feeLines mem] at bills
    cases bills
  · refine List.pairwise_map.mpr ((List.pairwise_map.mp chosen).imp ?_)
    intro t t' other fault bills bills'
    exact other ((Option.some.inj bills).trans (Option.some.inj bills').symm)
  · intro line mem _ _ fault bills
    rw [fault_feeLines mem] at bills
    cases bills

/-- Lines of different faults stay so on their draft. -/
theorem unique_placed {draft : Nat} {lines : List InvoiceLine} (apart : lines.Pairwise Apart)
    {r r' : Nat × InvoiceLine} (mem : r ∈ placed draft lines) (mem' : r' ∈ placed draft lines) {fault : Nat}
    (bills : r.2.fault = some fault) (bills' : r'.2.fault = some fault) : r = r' := by
  rcases List.mem_mapIdx.mp mem with ⟨k, within, rfl⟩
  rcases List.mem_mapIdx.mp mem' with ⟨k', within', rfl⟩
  have ordered := List.pairwise_iff_getElem.mp apart
  rcases Nat.lt_trichotomy k k' with before | rfl | after
  · exact absurd bills' (ordered k k' within within' before fault bills)
  · rfl
  · exact absurd bills (ordered k' k within' within after fault bills')

theorem fault_of_bills {line : InvoiceLine} {fault : Nat} (bills : line.bills fault = true) :
    line.fault = some fault := by
  unfold InvoiceLine.bills at bills
  rw [Bool.and_eq_true, Bool.and_eq_true, decide_eq_true_eq] at bills
  exact bills.1.1

theorem stands_of_mem {v : Bills} (distinct : v.drafts.Distinct) {r : Nat × InvoiceDraft} (mem : r ∈ v.drafts)
    (live : r.2.isLive = true) : v.stands r.1 = true := by
  unfold Bills.stands
  rw [Rows.get?_of_mem distinct mem]
  exact live

theorem mem_of_stands {v : Bills} {draft : Nat} (stands : v.stands draft = true) :
    ∃ row, (draft, row) ∈ v.drafts ∧ row.isLive = true := by
  rcases (Option.any_eq_true _ _).mp stands with ⟨row, found, live⟩
  exact ⟨row, Rows.mem_of_get? found, live⟩

theorem stands_draftFor (sound : o.Sound) {draft : Nat} (stands : o.bills.stands draft = true) :
    (o.draftFor id contract vatRate period).bills.stands draft = true := by
  rcases mem_of_stands stands with ⟨row, mem, live⟩
  exact stands_of_mem sound.draftFor.tallied.drafts (drafts_kept sound (draft, row) mem) live

theorem held_draftFor (sound : o.Sound) (distinct : o.firm.faults.Distinct) (held : o.bills.Held) :
    (o.draftFor id contract vatRate period).bills.Held := by
  cases free : o.bills.periodTaken id period.start with
  | true =>
      rw [Office.draftFor_of_taken free]
      exact held
  | false =>
      have lines := lines_draftFor_eq contract vatRate free
      -- a fault that a new line bills is on no line there was
      have apart (r s : Nat × InvoiceLine) (old : r ∈ o.bills.lines)
          (new : s ∈ placed o.nextId (o.newLines id contract period)) (fault : Nat) (bills : r.2.bills fault = true)
          (sbills : s.2.bills fault = true) : False := by
        rcases mem_placed new with ⟨k, line, listed, _, rfl⟩
        have unbilled := unbilled_of_newLines listed (fault_of_bills sbills)
        rw [isBilled_iff.mpr ⟨r, old, bills⟩] at unbilled
        cases unbilled
      refine ⟨?_, ?_⟩
      · intro r mem s smem fault bills sbills
        rw [lines] at mem smem
        rcases List.mem_append.mp mem with old | new
        · rcases List.mem_append.mp smem with sold | snew
          · exact held.once r old s sold fault bills sbills
          · exact (apart r s old snew fault bills sbills).elim
        · rcases List.mem_append.mp smem with sold | snew
          · exact (apart s r sold new fault sbills bills).elim
          · exact unique_placed (pairwise_newLines distinct) new snew (fault_of_bills bills) (fault_of_bills sbills)
      · intro r mem fault bills
        rw [lines] at mem
        rcases List.mem_append.mp mem with old | new
        · exact stands_draftFor sound (held.standing r old fault bills)
        · rcases mem_placed new with ⟨k, line, _, _, rfl⟩
          rcases drafts_draftFor contract vatRate sound free with ⟨draft, drafted, drafts⟩
          have mem' : (o.nextId, draft) ∈ (o.draftFor id contract vatRate period).bills.drafts := by
            rw [drafts]
            exact List.mem_append_right _ (List.mem_singleton_self _)
          exact stands_of_mem sound.draftFor.tallied.drafts mem' drafted.live

theorem lines_kept {r : Nat × InvoiceLine} (mem : r ∈ o.bills.lines) :
    r ∈ (o.draftFor id contract vatRate period).bills.lines := by
  rcases lines_draftFor o id contract vatRate period with ⟨lines, same, _⟩
  rw [same]
  exact List.mem_append_left _ mem

theorem isBilled_draftFor {fault : Nat} (billed : o.bills.isBilled fault = true) :
    (o.draftFor id contract vatRate period).bills.isBilled fault = true := by
  rcases isBilled_iff.mp billed with ⟨r, mem, bills⟩
  exact isBilled_iff.mpr ⟨r, lines_kept mem, bills⟩

/-- A draft that is made leaves nothing that it is to bill. -/
theorem billed_draftFor {draft : InvoiceDraft} (free : o.bills.periodTaken id period.start = false)
    (drafted : draft.For id period) {t : Nat × Fault} (mem : t ∈ o.firm.faults) (owed : Owed o.firm draft t.2) :
    (o.draftFor id contract vatRate period).bills.isBilled t.1 = true := by
  cases unbilled : o.bills.isBilled t.1 with
  | true => exact isBilled_draftFor unbilled
  | false =>
      rcases owed with ⟨work, ⟨day, closed, covered⟩, l, listed, ⟨on, lift⟩, covers⟩
      have within : closedIn period t.2 = true := by
        unfold closedIn
        rw [closed]
        exact decide_eq_true ((drafted.covers day).mp covered)
      have chosen : t ∈ billableFaults o.firm o.bills id period :=
        mem_billableFaults.mpr ⟨mem, ⟨⟨work, within⟩, unbilled⟩, l, listed, ⟨on.trans drafted.contract, lift⟩, covers⟩
      have new : faultLine t ∈ o.newLines id contract period :=
        List.mem_append_right _ (List.mem_map_of_mem chosen)
      rcases List.getElem_of_mem new with ⟨k, within', same⟩
      refine isBilled_iff.mpr ⟨(o.nextId + 1 + k, { faultLine t with draft := o.nextId, position := k }), ?_, ?_⟩
      · rw [lines_draftFor_eq contract vatRate free, ← same]
        exact List.mem_append_right _ (List.mem_mapIdx.mpr ⟨k, within', rfl⟩)
      · unfold InvoiceLine.bills faultLine
        rw [decide_eq_true rfl]
        rfl

end Drafting

/-! ## Runs -/

/-- An establishment whose faults have keys of their own. -/
structure Workshop extends Establishment where
  numbered : firm.Numbered

/-- What holds of the faults and the lines of an office whatever it does. -/
structure Office.Tended (o : Office) : Prop where
  sound : o.Sound
  numbered : o.firm.Numbered
  held : o.bills.Held

theorem Workshop.tended (start : Workshop) : (Office.start start.firm).Tended :=
  ⟨Office.sound_start start.firm, start.numbered,
    fun _ mem => absurd mem List.not_mem_nil, fun _ mem => absurd mem List.not_mem_nil⟩

/-- An office in the course of a run of the generator. -/
structure Taking (o o' : Office) : Prop where
  tended : o'.Tended
  firm : o'.firm = o.firm
  lines : ∀ r ∈ o.bills.lines, r ∈ o'.bills.lines
  billed : ∀ d ∈ o'.bills.drafts, d ∈ o.bills.drafts ∨
    ∀ t ∈ o.firm.faults, Owed o.firm d.2 t.2 -> o'.bills.isBilled t.1 = true

/-- A call that is not refused comes for a line that bills the fault. -/
def Call.Takes (call : Call) (o : Office) (fault : Nat) : Prop :=
  (∃ bills, call.commit o.bills o.nextId = .ok bills) ∧
    ∃ r ∈ o.bills.lines, r.2.bills fault = true ∧ call.takesOff r = true

/-- In the course of the events the office takes the fault off its line. -/
def Office.TakesOff (o : Office) (events : List Event) (fault : Nat) : Prop :=
  ∃ before call, before ++ [.call call] <+: events ∧ call.Takes (run Office.step o before) fault

section Runs

variable {o o' : Office}

theorem Taking.draftFor (taking : Taking o o') {id : Nat} {contract : Contract} {vatRate : Int} {period : Period} :
    Taking o (o'.draftFor id contract vatRate period) := by
  have sound := taking.tended.sound
  refine ⟨⟨sound.draftFor, ?_, held_draftFor sound taking.tended.numbered.distinct taking.tended.held⟩, ?_, ?_, ?_⟩
  · rw [Office.firm_draftFor]
    exact taking.tended.numbered
  · rw [Office.firm_draftFor]
    exact taking.firm
  · exact fun r mem => lines_kept (taking.lines r mem)
  · intro d mem
    rcases mem_draftFor sound mem with old | ⟨free, drafted⟩
    · rcases taking.billed d old with before | billed
      · exact Or.inl before
      · exact Or.inr (fun t listed owed => isBilled_draftFor (billed t listed owed))
    · right
      intro t listed owed
      rw [← taking.firm] at listed owed
      exact billed_draftFor free drafted listed owed

theorem taking_generate (tended : o.Tended) (today : Date) : Taking o (o.generate today) :=
  Office.generate_invariant_of_draftFor (fun _ _ _ _ _ taking => taking.draftFor)
    ⟨tended, rfl, fun _ mem => mem, fun _ mem => Or.inl mem⟩

theorem Office.Tended.step (tended : o.Tended) (event : Event) : (o.step event).Tended := by
  cases event with
  | firm request => exact ⟨tended.sound, tended.numbered.step request, tended.held⟩
  | generate today => exact (taking_generate tended today).tended
  | call call =>
      have stepped : o.step (.call call) = o.called call := rfl
      rw [stepped]
      cases done : call.commit o.bills o.nextId with
      | error failure =>
          rw [Office.called_of_error done]
          exact tended
      | ok bills =>
          rw [Office.called_of_ok done]
          replace done := (commit_ok.mp done).1
          have sound : o.bills.Sound o.nextId := tended.sound
          exact ⟨(sound.call done).1, tended.numbered, held_call tended.held sound done⟩

theorem Office.Tended.run (tended : o.Tended) (events : List Event) : (run Office.step o events).Tended :=
  Transitions.run_invariant (fun _ event now => now.step event) events tended

/-- One step leaves a fault on its line, or is the office's call for the line. -/
theorem billed_step (tended : o.Tended) {fault : Nat} (billed : o.bills.isBilled fault = true) (event : Event) :
    (o.step event).bills.isBilled fault = true ∨ ∃ call, event = .call call ∧ call.Takes o fault := by
  rcases isBilled_iff.mp billed with ⟨r, mem, bills⟩
  cases event with
  | firm request => exact Or.inl billed
  | generate today =>
      left
      exact isBilled_iff.mpr ⟨r, (taking_generate tended today).lines r mem, bills⟩
  | call call =>
      have stepped : o.step (.call call) = o.called call := rfl
      rw [stepped]
      cases done : call.commit o.bills o.nextId with
      | error failure =>
          rw [Office.called_of_error done]
          exact Or.inl billed
      | ok after =>
          rw [Office.called_of_ok done]
          have sound : o.bills.Sound o.nextId := tended.sound
          cases takes : call.takesOff r with
          | true => exact Or.inr ⟨call, rfl, ⟨after, done⟩, r, mem, bills, takes⟩
          | false => exact Or.inl (billing_after_call sound (commit_ok.mp done).1 mem bills takes)

/-- A fault that is billed is so until the office takes its line off. -/
theorem billed_run (tended : o.Tended) {fault : Nat} (billed : o.bills.isBilled fault = true) (events : List Event) :
    (run Office.step o events).bills.isBilled fault = true ∨ o.TakesOff events fault := by
  induction events generalizing o with
  | nil => exact Or.inl billed
  | cons event events ih =>
      rcases billed_step tended billed event with still | ⟨call, rfl, taken⟩
      · rcases ih (tended.step event) still with last | ⟨before, call, earlier, taken⟩
        · exact Or.inl last
        · exact Or.inr ⟨event :: before, call, List.cons_prefix_cons.mpr ⟨rfl, earlier⟩, taken⟩
      · exact Or.inr ⟨[], call, List.cons_prefix_cons.mpr ⟨rfl, List.nil_prefix⟩, taken⟩

end Runs

/-- When a period is drafted, each fault closed within it, billable, on a lift that the contract covered on the day of
the report, is on exactly one live line, and stays so until the office takes that line off; no fault is ever on two;
and a draft that is cancelled gives its faults back. -/
theorem repairs_billed_once (start : Workshop) (before after : List Event) (today : Date) :
    let o := run Office.step (Office.start start.firm) before
    let drafted := o.generate today
    let now := run Office.step drafted after
    now.bills.Held ∧
      (∀ d ∈ drafted.bills.drafts, d ∉ o.bills.drafts -> ∀ t ∈ o.firm.faults, Owed o.firm d.2 t.2 ->
        drafted.bills.BilledOnce t.1 ∧ (now.bills.BilledOnce t.1 ∨ drafted.TakesOff after t.1)) ∧
      ∀ draft reason reverses bills, now.bills.cancel draft reason reverses = .ok bills ->
        ∀ r ∈ now.bills.lines, r.2.draft = draft -> ∀ fault, r.2.bills fault = true -> bills.isBilled fault = false := by
  intro o drafted now
  have tended : o.Tended := start.tended.run before
  have taking : Taking o drafted := taking_generate tended today
  have tended' : now.Tended := taking.tended.run after
  refine ⟨tended'.held, ?_, ?_⟩
  · intro d mem new t listed owed
    rcases taking.billed d mem with old | billed
    · exact absurd old new
    · have here := billed t listed owed
      refine ⟨taking.tended.held.billedOnce here, ?_⟩
      exact (billed_run taking.tended here after).imp_left tended'.held.billedOnce
  · intro draft reason reverses bills done r mem on fault billing
    exact free_of_cancel tended'.held tended'.sound done mem on billing

instance (draft : InvoiceDraft) (day : Date) : Decidable (draft.covers day) := inferInstanceAs (Decidable (_ ∧ _))

/-- A fault of a lift on the first of three contracts is reported and mended. -/
def mended : List Event :=
  [.firm (.createElevator none), .firm (.addElevators 0 [3] (some 50000) (.first 24312)),
   .firm (.reportByStaff 3 .normal (some 7) false false ⟨0, .first 24312⟩), .firm (.arrive 5),
   .firm (.resolve 5 "" false)]

def workshop : Workshop where
  toEstablishment := threeContracts
  numbered := ⟨by decide, by decide⟩

/-- It is closed on 20 January. -/
def closedInTime : List Event :=
  mended ++ nightly (.first 24312) 20 ++ [.firm (.close 5 ⟨0, (Date.first 24312).addDays 19⟩)] ++
    nightly ((Date.first 24312).addDays 20) 11

/-- The run of 1 February bills it. -/
theorem repairs_billed_once_closedInTime :
    ((run Office.step (Office.start workshop.firm) closedInTime).generate (.first 24313)).bills.BilledOnce 5 := by
  rcases repairs_billed_once workshop closedInTime [] (.first 24313) with ⟨_, billed, _⟩
  have drafts : (((run Office.step (Office.start workshop.firm) closedInTime).generate (.first 24313)).bills.drafts.any
      (fun d => decide (d.2.contract = 0 ∧ d.2.covers ((Date.first 24312).addDays 19)))) = true := by decide +kernel
  have undrafted : (run Office.step (Office.start workshop.firm) closedInTime).bills.drafts = [] := by decide +kernel
  have faults : ((run Office.step (Office.start workshop.firm) closedInTime).firm.faults.any (fun t =>
      decide (t.1 = 5 ∧ (t.2.status = .closed ∧ t.2.billable = some true) ∧
        t.2.closedOn = some ((Date.first 24312).addDays 19) ∧ t.2.elevator = 3 ∧ t.2.reportedOn = .first 24312))) =
          true := by decide +kernel
  have lines : ((run Office.step (Office.start workshop.firm) closedInTime).firm.lines.any (fun l =>
      decide (l.2.contract = 0 ∧ l.2.elevator = 3) && coversOn (.first 24312) l.2)) = true := by decide +kernel
  generalize run Office.step (Office.start workshop.firm) closedInTime = o at *
  rcases List.any_eq_true.mp drafts with ⟨d, mem, drafted⟩
  rcases List.any_eq_true.mp faults with ⟨t, listed, known⟩
  rcases List.any_eq_true.mp lines with ⟨l, open_, covers⟩
  rw [Bool.and_eq_true, decide_eq_true_eq] at covers
  rcases of_decide_eq_true drafted with ⟨on, day⟩
  rcases of_decide_eq_true known with ⟨key, work, closed, lift, reported⟩
  have new : d ∉ o.bills.drafts := by
    rw [undrafted]
    exact List.not_mem_nil
  have owed : Owed o.firm d.2 t.2 := by
    refine ⟨work, ⟨_, closed, day⟩, l, open_, ⟨covers.1.1.trans on.symm, covers.1.2.trans lift.symm⟩, ?_⟩
    rw [reported]
    exact covers.2
  rw [← key]
  exact (billed d mem new t listed owed).1

/-! ## Repairs that are never billed -/

/-- The office says first that the fault is not to be billed, and on 1 February that it is. -/
def markedLate : List Event :=
  mended ++ [.firm (.editFault 5 none (some false))] ++ nightly (.first 24312) 20 ++
    [.firm (.close 5 ⟨0, (Date.first 24312).addDays 19⟩)] ++ nightly ((Date.first 24312).addDays 20) 12 ++
    [.firm (.editFault 5 none (some true))] ++ nightly (Date.first 24313).next 28

/-- Its contract is terminated on 15 January and the lift put on the next; it is closed on 20 January. -/
def closedLate : List Event :=
  mended ++ nightly (.first 24312) 15 ++
    [.firm (.terminate 0 ((Date.first 24312).addDays 14) "sold"),
     .firm (.addElevators 1 [3] (some 50000) ((Date.first 24312).addDays 15))] ++
    nightly ((Date.first 24312).addDays 15) 5 ++ [.firm (.close 5 ⟨0, (Date.first 24312).addDays 19⟩)] ++
    nightly ((Date.first 24312).addDays 20) 12

def Event.isCall : Event -> Bool
  | .call _ => true
  | _ => false

/-- A fault that is closed and billable, of a lift that a contract with a VAT rate covered on the day of the report; on
each day from its closing on, for so many, a live draft of a contract with the lift; and no line. -/
def Office.overlooks (o : Office) (id days : Nat) : Bool :=
  (o.firm.faults.get? id).any (fun fault =>
    decide (fault.status = .closed ∧ fault.billable = some true) &&
    o.firm.lines.any (fun l => decide (l.2.elevator = fault.elevator) && coversOn fault.reportedOn l.2 &&
      (o.firm.contracts.get? l.2.contract).any (fun contract =>
        decide (contract.status ≠ .draft) && contract.vatRate.isSome)) &&
    fault.closedOn.any (fun closed => (List.range days).all (fun k => o.bills.drafts.any (fun d =>
      d.2.isLive && decide (d.2.covers (closed.addDays k)) &&
        o.firm.lines.any (fun l => decide (l.2.contract = d.2.contract ∧ l.2.elevator = fault.elevator)))))) &&
  o.bills.lines.all (fun r => decide (r.2.fault ≠ some id))

/-- Nobody asks the office for anything, every day up to the last run is drafted, and the fault is on no line. -/
theorem repair_never_billed :
    (markedLate.any Event.isCall = false ∧
      (run Office.step (Office.start workshop.firm) markedLate).overlooks 5 40 = true) ∧
    closedLate.any Event.isCall = false ∧
      (run Office.step (Office.start workshop.firm) closedLate).overlooks 5 12 = true := by
  refine ⟨⟨?_, ?_⟩, ?_, ?_⟩
  · decide +kernel
  · decide +kernel
  · decide +kernel
  · decide +kernel

end Billing
end Shiftlush
