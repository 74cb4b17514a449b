import Shiftlush.Billing.Integrity

namespace Shiftlush
namespace Billing

/-!
# Amounts and their columns

The serializers bound a quantity and a price each by its own column.  Their product
and the totals of a draft have columns too, which nothing checks before the database
does.
-/

/-! ## Columns and serializers -/

/-- `amount` of a movement on a customer's account. -/
def ledgerHolds (amount : Cents) : Bool := decide (amount.natAbs < 10 ^ 14)

/-- `max_digits` of the two fields. -/
def NewLine.admitted (new : NewLine) : Bool :=
  decide (new.quantity.natAbs < 10 ^ 12) && decide (new.unitPrice.natAbs < 10 ^ 12)

def LineChanges.admitted (changes : LineChanges) : Bool :=
  changes.quantity.all (fun quantity => decide (quantity.natAbs < 10 ^ 12)) &&
    changes.unitPrice.all (fun unitPrice => decide (unitPrice.natAbs < 10 ^ 12))

def Call.admitted : Call -> Bool
  | .addLine _ new => new.admitted
  | .editLine _ changes => changes.admitted
  | _ => true

/-! ## The desk -/

inductive Answer where
  | done (bills : Bills)
  | refused (failure : Failure)
  | databaseError

/-- What becomes of a request: the database refuses what does not fit its columns. -/
def Call.answer (v : Bills) (key : Nat) (call : Call) : Answer :=
  if call.admitted then
    match call.attempt v key with
    | .ok v' => if v'.inColumns then .done v' else .databaseError
    | .error failure => .refused failure
  else .refused .validationError

/-- The drafts of an office, as they are stored. -/
structure Desk where
  bills : Bills
  nextId : Nat
  sound : bills.Sound nextId
  stored : bills.inColumns = true
  /-- The rate is a contract's, and that is a percentage. -/
  rates : ∀ r ∈ bills.drafts, 0 ≤ r.2.vatRate

/-! ## What fits -/

/-- The exact product is below the column by half a cent. -/
def productFits (numerator : Int) (denominator : Nat) : Bool :=
  decide (2 * numerator.natAbs + denominator < 2 * denominator * 10 ^ 14)

/-- The net with its VAT is. -/
def grossFits (net vatRate : Int) : Bool := productFits (net * (10000 + vatRate)) 10000

/-- The exact value of a line fits: the fraction of its price, or the quantity times it. -/
def InvoiceLine.valueFits (line : InvoiceLine) : Bool :=
  match line.unitPrice with
  | none => true
  | some unitPrice =>
      match line.proration with
      | some p => productFits (unitPrice * p.months * p.coveredDays) p.periodDays
      | none => productFits (line.quantity * unitPrice) quantityStep

/-- The line a request writes, the draft it is on, and the net of the draft with it. -/
def Call.written (v : Bills) : Call -> Option (InvoiceLine × InvoiceDraft × Cents)
  | .addLine id new => (v.drafts.get? id).map (fun draft =>
      let line := new.row id (v.lastPosition id + 1)
      (line, draft, (v.amounts id).sum + line.amount))
  | .editLine id changes => (v.lines.get? id).bind (fun line => (v.drafts.get? line.draft).map (fun draft =>
      (changes.apply line, draft, (v.amounts line.draft).sum - line.amount + (changes.apply line).amount)))
  | .removeLine id => (v.lines.get? id).bind (fun line => (v.drafts.get? line.draft).map (fun draft =>
      (line, draft, (v.amounts line.draft).sum - line.amount)))
  | _ => none

/-- The serializers and the service have nothing against the request. -/
def Call.isAccepted (v : Bills) (key : Nat) (call : Call) : Bool :=
  call.admitted && (call.attempt v key).toOption.isSome

/-- If it writes a line, its exact value, its position and the gross of its draft have room. -/
def Call.hasRoom (v : Bills) (call : Call) : Bool := (call.written v).all (fun w =>
  w.1.valueFits && decide (w.1.position < 2 ^ 15) && grossFits w.2.2 w.2.1.vatRate)

/-! ## Rounding and bounds -/

theorem natAbs_roundHalfUp (numerator : Int) (denominator : Nat) :
    (roundHalfUp numerator denominator).natAbs = (2 * numerator.natAbs + denominator) / (2 * denominator) := by
  unfold roundHalfUp
  dsimp only
  split_ifs
  · rw [Int.natAbs_natCast]
  · rw [Int.natAbs_neg, Int.natAbs_natCast]

theorem productFits_iff {numerator : Int} {denominator : Nat} (positive : 0 < denominator) :
    productFits numerator denominator = true ↔ (roundHalfUp numerator denominator).natAbs < 10 ^ 14 := by
  unfold productFits
  rw [decide_eq_true_iff, natAbs_roundHalfUp, Nat.div_lt_iff_lt_mul (by omega), Nat.mul_comm (10 ^ 14)]

/-- The VAT has the sign of the net. -/
theorem natAbs_total (net : Int) {vatRate : Int} (rate : 0 ≤ vatRate) :
    (net + roundHalfUp (net * vatRate) 10000).natAbs = net.natAbs + (roundHalfUp (net * vatRate) 10000).natAbs := by
  have size := natAbs_roundHalfUp (net * vatRate) 10000
  unfold roundHalfUp at size ⊢
  dsimp only at size ⊢
  rcases le_or_gt 0 net with above | below
  · have product : 0 ≤ net * vatRate := mul_nonneg above rate
    rw [if_pos product]
    omega
  · have product : net * vatRate ≤ 0 := mul_nonpos_of_nonpos_of_nonneg below.le rate
    split_ifs
    · have zero : net * vatRate = 0 := by omega
      rw [zero]
      omega
    · omega

/-- A gross that fits is a total that does, and the net and the VAT with it. -/
theorem grossFits_iff (net : Int) {vatRate : Int} (rate : 0 ≤ vatRate) : grossFits net vatRate = true ↔
    (net.natAbs < 10 ^ 14 ∧ (roundHalfUp (net * vatRate) 10000).natAbs < 10 ^ 14) ∧
      (net + roundHalfUp (net * vatRate) 10000).natAbs < 10 ^ 14 := by
  have size := natAbs_roundHalfUp (net * vatRate) 10000
  have gross : (net * (10000 + vatRate)).natAbs = net.natAbs * 10000 + (net * vatRate).natAbs := by
    have positive : (10000 + vatRate).natAbs = 10000 + vatRate.natAbs := by omega
    rw [Int.natAbs_mul, Int.natAbs_mul, positive, Nat.mul_add]
  unfold grossFits
  rw [productFits_iff (by decide), natAbs_roundHalfUp, natAbs_total net rate, gross]
  omega

/-! ## What a request writes -/

section Writing

variable {v w : Bills} {id : Nat} {draft : InvoiceDraft}

theorem inColumns_iff : v.inColumns = true ↔
    (∀ r ∈ v.lines, r.2.inColumns = true) ∧ ∀ r ∈ v.drafts, r.2.inColumns = true := by
  unfold Bills.inColumns
  rw [Bool.and_eq_true, List.all_eq_true, List.all_eq_true]

/-- One row of a table is written. -/
theorem forall_update_iff {ρ : Type} {rows : Rows ρ} (distinct : rows.Distinct) {row : ρ} {f : ρ -> ρ} {P : ρ -> Prop}
    (found : rows.get? id = some row) (held : ∀ r ∈ rows, P r.2) : (∀ r ∈ rows.update id f, P r.2) ↔ P (f row) := by
  constructor
  · intro all
    exact all (id, f row) (Rows.mem_update.mpr (Or.inr ⟨row, Rows.mem_of_get? found, rfl⟩))
  · intro new r mem
    rcases Rows.mem_update.mp mem with ⟨before, _⟩ | ⟨row', before, rfl⟩
    · exact held r before
    · have same := Rows.get?_of_mem distinct before
      rw [found] at same
      rw [← Option.some.inj same]
      exact new

theorem inColumns_withSums {net vatRate : Int} (rate : 0 ≤ vatRate) (draft : InvoiceDraft) (amounts : List Cents)
    (sum : amounts.sum = net) :
    (draft.withSums (totals amounts vatRate)).inColumns = true ↔ grossFits net vatRate = true := by
  rw [grossFits_iff net rate, ← sum]
  unfold InvoiceDraft.inColumns InvoiceDraft.withSums totals
  simp only [Bool.and_eq_true, decide_eq_true_iff]

/-- The lines of an open draft are written, and it is recounted. -/
theorem inColumns_recompute {net : Int} (distinct : v.drafts.Distinct) (stored : v.inColumns = true)
    (found : v.drafts.get? id = some draft) (open_ : draft.status = .draft) (rate : 0 ≤ draft.vatRate)
    (drafts : w.drafts = v.drafts) (sum : (w.amounts id).sum = net) : (w.recompute id).inColumns = true ↔
      (∀ r ∈ w.lines, r.2.inColumns = true) ∧ grossFits net draft.vatRate = true := by
  have found' : w.drafts.get? id = some draft := by
    rw [drafts]
    exact found
  rw [inColumns_iff, lines_recompute, recompute_of_draft found' open_, ← inColumns_withSums rate draft _ sum]
  apply and_congr_right
  intro _
  unfold Bills.updateDraft
  dsimp only
  rw [drafts]
  exact forall_update_iff distinct found (P := fun draft => draft.inColumns = true) (inColumns_iff.mp stored).2

/-! ### The net -/

theorem sum_amounts (v : Bills) (id : Nat) : (v.amounts id).sum =
    (v.linesOf id).total (fun _ line => if line.isLive = true then line.amount else 0) :=
  Rows.total_filter (v.linesOf id) (fun r => r.2.isLive) (fun _ line => line.amount)

theorem sum_amounts_insertLine {key : Nat} {line : InvoiceLine} (on : line.draft = id) (live : line.isLive = true) :
    ((v.insertLine key line).amounts id).sum = (v.amounts id).sum + line.amount := by
  rw [sum_amounts, sum_amounts, linesOf_insertLine, if_pos on, Rows.total_insert, if_pos live]

theorem distinct_linesOf (distinct : v.lines.Distinct) (id : Nat) : (v.linesOf id).Distinct := distinct.filter _

theorem sum_amounts_updateLine {key : Nat} {line : InvoiceLine} {f : InvoiceLine -> InvoiceLine}
    (distinct : v.lines.Distinct) (found : v.lines.get? key = some line) (live : line.isLive = true)
    (stays : ∀ line, (f line).draft = line.draft) :
    ((v.updateLine key f).amounts line.draft).sum =
      (v.amounts line.draft).sum - line.amount + if (f line).isLive = true then (f line).amount else 0 := by
  have changed := Rows.total_update (distinct_linesOf distinct line.draft) (get?_linesOf found) f
    (fun _ line => if line.isLive = true then line.amount else 0)
  rw [if_pos live] at changed
  rw [sum_amounts, sum_amounts, linesOf_updateLine stays, sub_add_eq_add_sub, ← changed, add_sub_cancel_right]

/-! ### The line -/

theorem inColumns_newLine {new : NewLine} (admitted : new.admitted = true) {position : Nat} :
    (new.row id position).inColumns = true ↔
      (new.row id position).valueFits = true ∧ position < 2 ^ 15 := by
  unfold NewLine.admitted at admitted
  rw [Bool.and_eq_true] at admitted
  unfold InvoiceLine.inColumns InvoiceLine.valueFits NewLine.row lineAmount
  rw [productFits_iff (by decide), Option.all_some, admitted.1, admitted.2, Bool.true_and, Bool.true_and,
    Bool.and_eq_true, decide_eq_true_iff, decide_eq_true_iff]

theorem valueFits_iff {line : InvoiceLine} : line.valueFits = true ↔ line.lineAmount.natAbs < 10 ^ 14 := by
  unfold InvoiceLine.valueFits InvoiceLine.lineAmount proratedAmount lineAmount
  cases line.unitPrice with
  | none =>
      have zero : (0 : Int).natAbs < 10 ^ 14 := by decide
      cases line.proration with
      | none => exact iff_of_true rfl zero
      | some p => exact iff_of_true rfl zero
  | some unitPrice =>
      cases line.proration with
      | none => exact productFits_iff (by decide)
      | some p => exact productFits_iff p.positive

/-- Of an edit that is admitted, only the amount can be too wide. -/
theorem inColumns_apply {changes : LineChanges} (admitted : changes.admitted = true) {line : InvoiceLine}
    (stored : line.inColumns = true) :
    (changes.apply line).inColumns = true ↔ (changes.apply line).valueFits = true := by
  unfold LineChanges.admitted at admitted
  rw [Bool.and_eq_true] at admitted
  unfold InvoiceLine.inColumns at stored ⊢
  simp only [Bool.and_eq_true, decide_eq_true_iff] at stored ⊢
  rcases stored with ⟨⟨⟨quantity, price⟩, _⟩, position⟩
  have quantity' : (changes.apply line).quantity.natAbs < 10 ^ 12 := by
    show (changes.quantity.getD line.quantity).natAbs < 10 ^ 12
    cases given : changes.quantity with
    | none => exact quantity
    | some q =>
        rw [given] at admitted
        exact of_decide_eq_true admitted.1
  have price' : (changes.apply line).unitPrice.all (fun unitPrice => decide (unitPrice.natAbs < 10 ^ 12)) = true := by
    show (changes.unitPrice.or line.unitPrice).all _ = true
    cases given : changes.unitPrice with
    | none => exact price
    | some p =>
        rw [given] at admitted
        exact admitted.2
  rw [valueFits_iff]
  exact ⟨fun all => all.1.2, fun amount => ⟨⟨⟨quantity', price'⟩, amount⟩, position⟩⟩

end Writing

/-! ## Every request -/

section Answering

variable {v v' : Bills} {bound : Nat}

theorem forall_insert_iff {ρ : Type} {rows : Rows ρ} {key : Nat} {row : ρ} {P : ρ -> Prop} (held : ∀ r ∈ rows, P r.2) :
    (∀ r ∈ rows.insert key row, P r.2) ↔ P row := by
  constructor
  · intro all
    exact all (key, row) (List.mem_append_right _ (List.mem_singleton_self _))
  · intro new r mem
    rcases List.mem_append.mp mem with before | last
    · exact held r before
    · rw [List.mem_singleton.mp last]
      exact new

/-- A draft keeps its totals. -/
theorem inColumns_updateDraft {id : Nat} {f : InvoiceDraft -> InvoiceDraft} (stored : v.inColumns = true)
    (sums : ∀ draft, (f draft).sums = draft.sums) : (v.updateDraft id f).inColumns = true := by
  rcases inColumns_iff.mp stored with ⟨lines, drafts⟩
  refine inColumns_iff.mpr ⟨lines, ?_⟩
  intro r mem
  rcases Rows.mem_update.mp mem with ⟨before, _⟩ | ⟨row, before, rfl⟩
  · exact drafts r before
  · have same := sums row
    unfold InvoiceDraft.sums at same
    simp only [Prod.mk.injEq] at same
    have held := drafts _ before
    unfold InvoiceDraft.inColumns at held ⊢
    rw [same.1, same.2.1, same.2.2]
    exact held

theorem sums_settled (number : String) (date : Calendar.Date) (draft : InvoiceDraft) :
    ((draft.issued number date).settled).sums = draft.sums := by
  unfold InvoiceDraft.settled
  split
  · rfl
  · rfl

theorem sums_synced (covered : Option Calendar.Date) (draft : InvoiceDraft) : (draft.synced covered).sums = draft.sums := by
  unfold InvoiceDraft.synced
  split_ifs <;> rfl

theorem inColumns_releaseFaults {id : Nat} (stored : v.inColumns = true) : (v.releaseFaults id).inColumns = true := by
  rcases inColumns_iff.mp stored with ⟨lines, drafts⟩
  refine inColumns_iff.mpr ⟨?_, drafts⟩
  intro r mem
  rcases List.mem_map.mp mem with ⟨r', before, rfl⟩
  split
  · exact lines r' before
  · exact lines r' before

/-- A request that is carried out fits the columns exactly if what it writes has room. -/
theorem inColumns_call (sound : v.Sound bound) (stored : v.inColumns = true) (rates : ∀ r ∈ v.drafts, 0 ≤ r.2.vatRate)
    {call : Call} (admitted : call.admitted = true) (done : call.attempt v bound = .ok v') :
    v'.inColumns = true ↔ call.hasRoom v = true := by
  rcases inColumns_iff.mp stored with ⟨lines, drafts⟩
  have distinct := sound.tallied.drafts
  unfold Call.hasRoom Call.written
  cases call with
  | addLine id new =>
      rcases addLine_ok done with ⟨draft, found, open_, rfl⟩
      have rate := rates _ (Rows.mem_of_get? found)
      have line : (∀ r ∈ (v.insertLine bound (new.row id (v.lastPosition id + 1))).lines, r.2.inColumns = true) ↔
          (new.row id (v.lastPosition id + 1)).inColumns = true :=
        forall_insert_iff (P := fun line : InvoiceLine => line.inColumns = true) lines
      have sum := @sum_amounts_insertLine v id bound (new.row id (v.lastPosition id + 1)) rfl rfl
      rw [inColumns_recompute (w := v.insertLine bound (new.row id (v.lastPosition id + 1))) distinct stored found open_
        rate rfl sum, line, inColumns_newLine admitted]
      dsimp only
      rw [found, Option.map_some, Option.all_some, Bool.and_eq_true, Bool.and_eq_true, decide_eq_true_iff]
      rfl
  | editLine id changes =>
      rcases editLine_ok done with ⟨line, draft, listed, live, found, open_, rfl⟩
      have rate := rates _ (Rows.mem_of_get? found)
      have held := lines _ (Rows.mem_of_get? listed)
      have live' : (changes.apply line).isLive = true := live
      have sum := sum_amounts_updateLine (f := InvoiceLine.savedOver (changes.apply line)) sound.tallied.lines listed live
        (fun _ => rfl)
      have same : ((changes.apply line).savedOver line).isLive = true := live
      rw [if_pos same] at sum
      have written : (∀ r ∈ (v.updateLine id (InvoiceLine.savedOver (changes.apply line))).lines, r.2.inColumns = true) ↔
          ((changes.apply line).savedOver line).inColumns = true :=
        forall_update_iff sound.tallied.lines listed (f := InvoiceLine.savedOver (changes.apply line)) (P := fun line : InvoiceLine => line.inColumns = true) lines
      have position : (changes.apply line).position < 2 ^ 15 := by
        unfold InvoiceLine.inColumns at held
        rw [Bool.and_eq_true, decide_eq_true_iff] at held
        exact held.2
      rw [inColumns_recompute (w := v.updateLine id (InvoiceLine.savedOver (changes.apply line))) distinct stored found
        open_ rate rfl sum, written, show ((changes.apply line).savedOver line).inColumns = (changes.apply line).inColumns
        from rfl, inColumns_apply admitted held]
      dsimp only
      rw [listed, Option.bind_some, found, Option.map_some, Option.all_some, Bool.and_eq_true, Bool.and_eq_true,
        decide_eq_true_iff, and_iff_left position]
      rfl
  | removeLine id =>
      rcases removeLine_ok done with ⟨line, draft, listed, live, found, open_, rfl⟩
      have rate := rates _ (Rows.mem_of_get? found)
      have held := lines _ (Rows.mem_of_get? listed)
      have sum := sum_amounts_updateLine (f := InvoiceLine.deleted) sound.tallied.lines listed live (fun _ => rfl)
      have gone : ¬ line.deleted.isLive = true := Bool.false_ne_true
      rw [if_neg gone, add_zero] at sum
      have written : (∀ r ∈ (v.updateLine id InvoiceLine.deleted).lines, r.2.inColumns = true) ↔
          line.inColumns = true :=
        forall_update_iff sound.tallied.lines listed (f := InvoiceLine.deleted) (P := fun line : InvoiceLine => line.inColumns = true) lines
      have room : line.valueFits = true ∧ line.position < 2 ^ 15 := by
        have amount := (sound.priced _ (Rows.mem_of_get? listed)).amount
        unfold InvoiceLine.inColumns at held
        simp only [Bool.and_eq_true, decide_eq_true_iff] at held
        rw [valueFits_iff, ← amount]
        exact ⟨held.1.2, held.2⟩
      rw [inColumns_recompute (w := v.updateLine id InvoiceLine.deleted) distinct stored found open_ rate rfl sum, written]
      dsimp only
      rw [listed, Option.bind_some, found, Option.map_some, Option.all_some, Bool.and_eq_true, Bool.and_eq_true,
        decide_eq_true_iff, and_iff_right room, and_iff_right held]
  | issue id number date posts =>
      rcases issue_ok done with ⟨_, _, _, _, rfl⟩
      rw [sound.tallied.recompute_eq id]
      exact iff_of_true (inColumns_updateDraft stored (sums_settled number date)) rfl
  | markPaid id settles =>
      rcases markPaid_ok done with ⟨_, _, _, rfl⟩
      exact iff_of_true (inColumns_updateDraft stored (fun _ => rfl)) rfl
  | cancel id reason reverses =>
      rcases cancel_ok done with ⟨_, _, _, rfl⟩
      exact iff_of_true (inColumns_releaseFaults (inColumns_updateDraft stored (fun _ => rfl))) rfl
  | sync id covered =>
      cases done
      exact iff_of_true (inColumns_updateDraft stored (sums_synced covered)) rfl

/-- No call changes the rate of a draft. -/
theorem vatRate_call {call : Call} (done : call.attempt v bound = .ok v') :
    ∀ r ∈ v'.drafts, ∃ r' ∈ v.drafts, r.2.vatRate = r'.2.vatRate := by
  have updated : ∀ {w : Bills} {id : Nat} {f : InvoiceDraft -> InvoiceDraft}, w.drafts = v.drafts ->
      (∀ draft, (f draft).vatRate = draft.vatRate) -> ∀ r ∈ (w.updateDraft id f).drafts,
        ∃ r' ∈ v.drafts, r.2.vatRate = r'.2.vatRate := by
    intro w id f drafts keeps r mem
    rw [← drafts]
    rcases Rows.mem_update.mp mem with ⟨before, _⟩ | ⟨row, before, rfl⟩
    · exact ⟨r, before, rfl⟩
    · exact ⟨_, before, keeps row⟩
  have recounted : ∀ {w : Bills} {id : Nat}, w.drafts = v.drafts -> ∀ r ∈ (w.recompute id).drafts,
      ∃ r' ∈ v.drafts, r.2.vatRate = r'.2.vatRate := by
    intro w id drafts r mem
    unfold Bills.recompute at mem
    split at mem
    · split at mem
      · refine updated drafts ?_ r mem
        intro _
        rfl
      · exact ⟨r, drafts ▸ mem, rfl⟩
    · exact ⟨r, drafts ▸ mem, rfl⟩
  cases call with
  | addLine id new =>
      rcases addLine_ok done with ⟨_, _, _, rfl⟩
      exact recounted rfl
  | editLine id changes =>
      rcases editLine_ok done with ⟨line, _, _, _, _, _, rfl⟩
      exact recounted rfl
  | removeLine id =>
      rcases removeLine_ok done with ⟨line, _, _, _, _, _, rfl⟩
      exact recounted rfl
  | issue id number date posts =>
      rcases issue_ok done with ⟨_, _, _, _, rfl⟩
      intro r mem
      have written : r ∈ Rows.update (v.recompute id).drafts id (fun draft => (draft.issued number date).settled) := mem
      rcases Rows.mem_update.mp written with ⟨before, _⟩ | ⟨row, before, rfl⟩
      · exact recounted rfl r before
      · rcases recounted rfl _ before with ⟨r', listed, same⟩
        refine ⟨r', listed, ?_⟩
        rw [← same]
        unfold InvoiceDraft.settled
        split
        · rfl
        · rfl
  | markPaid id settles =>
      rcases markPaid_ok done with ⟨_, _, _, rfl⟩
      exact updated rfl (fun _ => rfl)
  | cancel id reason reverses =>
      rcases cancel_ok done with ⟨_, _, _, rfl⟩
      exact updated rfl (fun _ => rfl)
  | sync id covered =>
      cases done
      apply updated rfl
      intro draft
      unfold InvoiceDraft.synced
      split_ifs <;> rfl

end Answering

/-! ## Runs -/

namespace Desk

variable {s : Desk} {call : Call}

theorem answer_eq_done {v v' : Bills} {key : Nat} : call.answer v key = .done v' ↔
    call.admitted = true ∧ call.attempt v key = .ok v' ∧ v'.inColumns = true := by
  unfold Call.answer
  split_ifs with admitted
  · cases call.attempt v key with
    | error failure => exact iff_of_false (fun impossible => by cases impossible) (fun all => by cases all.2.1)
    | ok w =>
        dsimp only
        split_ifs with stored
        · constructor
          · intro same
            cases same
            exact ⟨admitted, rfl, stored⟩
          · rintro ⟨_, same, _⟩
            cases same
            rfl
        · refine iff_of_false (fun impossible => by cases impossible) ?_
          rintro ⟨_, same, stored'⟩
          cases same
          exact stored stored'
  · exact iff_of_false (fun impossible => by cases impossible) (fun all => admitted all.1)

/-- A request that is refused, or that the database fails, leaves everything as it is. -/
def step (s : Desk) (call : Call) : Desk :=
  match answered : call.answer s.bills s.nextId with
  | .done v =>
      have parts := answer_eq_done.mp answered
      { bills := v
        nextId := s.nextId + 1
        sound := (s.sound.call parts.2.1).1
        stored := parts.2.2
        rates := by
          intro r mem
          rcases vatRate_call parts.2.1 r mem with ⟨r', listed, same⟩
          rw [same]
          exact s.rates r' listed }
  | .refused _ => s
  | .databaseError => s

/-- A request that is accepted does not fail in the database, and the total of an invoice
that is issued is one the ledger can hold. -/
structure Served (s : Desk) (call : Call) : Prop where
  answered : call.answer s.bills s.nextId ≠ .databaseError
  posted : ∀ id number date v, call = .issue id number date true -> call.answer s.bills s.nextId = .done v ->
    ∀ draft, v.drafts.get? id = some draft -> ledgerHolds draft.total = true

/-- A request that is accepted has room. -/
def permits (s : Desk) (call : Call) : Bool := !call.isAccepted s.bills s.nextId || call.hasRoom s.bills

theorem served_iff (s : Desk) (call : Call) : s.Served call ↔ s.permits call = true := by
  have answered : call.answer s.bills s.nextId ≠ .databaseError ↔ s.permits call = true := by
    unfold Call.answer permits Call.isAccepted
    cases admitted : call.admitted with
    | false => exact iff_of_true (fun impossible => by cases impossible) rfl
    | true =>
        rw [if_pos rfl, Bool.true_and]
        cases done : call.attempt s.bills s.nextId with
        | error failure => exact iff_of_true (fun impossible => by cases impossible) rfl
        | ok v =>
            dsimp only
            rw [show (Except.ok v : Except Failure Bills).toOption.isSome = true from rfl, Bool.not_true, Bool.false_or,
              ← inColumns_call s.sound s.stored s.rates admitted done]
            split_ifs with stored
            · exact iff_of_true (fun impossible => by cases impossible) stored
            · exact iff_of_false (fun never => never rfl) stored
  rw [← answered]
  refine ⟨fun served => served.answered, fun fine => ⟨fine, ?_⟩⟩
  intro id number date v _ done draft found
  have stored := (answer_eq_done.mp done).2.2
  have held := (inColumns_iff.mp stored).2 _ (Rows.mem_of_get? found)
  unfold InvoiceDraft.inColumns at held
  exact (Bool.and_eq_true_iff.mp held).2

/-- **Amounts fit their columns** in every state of a run, without a failure of the
database, exactly if every accepted request of the run finds room. -/
theorem amounts_fit_columns (start : Desk) (calls : List Call) :
    (∀ before call, before ++ [call] <+: calls -> (Transitions.run step start before).Served call) ↔
      Transitions.everyStep step permits start calls = true := by
  rw [Transitions.everyStep_iff]
  constructor
  · intro served before call earlier
    exact (served_iff _ call).mp (served before call earlier)
  · intro permitted before call earlier
    exact (served_iff _ call).mpr (permitted before call earlier)

/-- A draft without lines. -/
def blank : Desk where
  bills := ⟨[(0, ⟨0, 0, .first 24312, .first 24312, .draft, "TRY", 2000, 0, 0, 0, "", none, none, "", ""⟩)], []⟩
  nextId := 1
  sound := {
    tallied := {
      drafts := by decide
      lines := List.nodup_nil
      sums := by
        intro id draft found _
        rcases List.mem_singleton.mp (Rows.mem_of_get? found) with ⟨rfl, rfl⟩
        rfl }
    priced := by
      intro r mem
      cases mem
    complete := by
      intro id draft found payable
      rcases List.mem_singleton.mp (Rows.mem_of_get? found) with ⟨rfl, rfl⟩
      cases payable
    drafts := by
      intro id here
      rcases Option.isSome_iff_exists.mp here with ⟨row, found⟩
      rcases List.mem_singleton.mp (Rows.mem_of_get? found) with ⟨rfl, rfl⟩
      decide
    lines := by
      intro id here
      cases here }
  stored := by decide
  rates := by decide

/-- A thousand pieces at the highest price: ten trillion. -/
theorem amount_overflows : ¬ ∀ (start : Desk) (calls : List Call) before call, before ++ [call] <+: calls ->
    (Transitions.run step start before).Served call := by
  intro served
  have here := (served blank [.addLine 0 ⟨"parts", 10000000, 999999999999⟩] [] _ List.prefix_rfl)
  have permitted := (served_iff blank _).mp here
  revert permitted
  decide +kernel

end Desk

end Billing
end Shiftlush
