import Shiftlush.Fleet.Keys

namespace Shiftlush
namespace Fleet

open Calendar (Date)

/-!
# A contract whose terms nobody edits

What the requests to a firm make of one contract while no `PATCH` touches its
terms: it stays as it is, expires, is renewed into a successor or terminated.
-/

/-- The dates and the billing of a contract. -/
structure Contract.SameTerms (before after : Contract) : Prop where
  startDate : after.startDate = before.startDate
  endDate : after.endDate = before.endDate
  billingPeriod : after.billingPeriod = before.billingPeriod
  vatRate : after.vatRate = before.vatRate

/-- Where a contract may be left by one request. -/
inductive Contract.Moves (before after : Contract) : Prop where
  | stays : after.status = before.status -> after.terminatedAt = before.terminatedAt -> Moves before after
  | ends : before.status.isClosed = false -> after.status = .expired ∨ after.status = .renewed ->
      after.terminatedAt = before.terminatedAt -> Moves before after
  | terminates (day : Date) : before.status.isClosed = false -> after.status = .terminated ->
      after.terminatedAt = some day -> Moves before after

/-- The terms are as they were, and the status moved as a request moves it. -/
structure Contract.Continues (before after : Contract) : Prop extends before.SameTerms after where
  moves : before.Moves after

theorem Contract.SameTerms.refl (contract : Contract) : contract.SameTerms contract := ⟨rfl, rfl, rfl, rfl⟩

theorem Contract.Continues.refl (contract : Contract) : contract.Continues contract :=
  ⟨.refl contract, .stays rfl rfl⟩

namespace Firm

variable {s s' : Firm} {id : Nat} {contract : Contract}

/-- The request does not edit the contract's terms or its status. -/
def keepsTerms (s : Firm) (id : Nat) : Event -> Bool
  | .editContract target changes => decide (target ≠ id) || (s.contracts.get? id).all (fun contract =>
      decide ((changes.apply contract).status = contract.status) &&
        decide ((changes.apply contract).startDate = contract.startDate) &&
        decide ((changes.apply contract).endDate = contract.endDate) &&
        decide ((changes.apply contract).billingPeriod = contract.billingPeriod) &&
        decide ((changes.apply contract).vatRate = contract.vatRate))
  | _ => true

/-- One contract of the firm is rewritten, and not this one or as it may be. -/
theorem continues_setContract (found : s.contracts.get? id = some contract) {target : Nat} {f : Contract -> Contract}
    (own : target = id -> contract.Continues (f contract)) :
    ∃ contract', (s.setContract target f).contracts.get? id = some contract' ∧ contract.Continues contract' := by
  unfold setContract
  dsimp only
  rw [Rows.get?_update, found]
  by_cases here : id = target
  · rw [if_pos here]
    exact ⟨f contract, rfl, own here.symm⟩
  · rw [if_neg here]
    exact ⟨contract, rfl, .refl contract⟩

theorem continues_renew (keyed : s.Keyed) (found : s.contracts.get? id = some contract) {target successor : Nat}
    {startDate endDate : Date} {carryElevators copyTerms : Bool}
    (done : s.renew target startDate endDate carryElevators copyTerms = .ok (s', successor)) :
    ∃ contract', s'.contracts.get? id = some contract' ∧ contract.Continues contract' := by
  rcases renew_ok done with ⟨old, found', open_, _, rfl⟩
  have below : id ≠ s.nextId := by
    intro same
    rw [same, keyed.contracts.absent (Nat.le_refl _)] at found
    cases found
  have kept : ((s.withSuccessor old target startDate endDate copyTerms).handOver target s.nextId startDate
      carryElevators copyTerms).contracts.get? id = some contract := by
    have inserted : (s.withSuccessor old target startDate endDate copyTerms).contracts.get? id = some contract :=
      (Rows.get?_insert_of_ne (Ne.symm below)).trans found
    unfold handOver
    split
    · exact inserted
    · exact inserted
  apply continues_setContract kept
  intro here
  rw [here, found] at found'
  cases found'
  exact ⟨⟨rfl, rfl, rfl, rfl⟩, .ends open_ (Or.inr rfl) rfl⟩

/-- A request that leaves the terms alone moves a contract on. -/
theorem continues_attempt (keyed : s.Keyed) {event : Event} (found : s.contracts.get? id = some contract)
    (kept : s.keepsTerms id event = true) (done : s.attempt event = .ok s') :
    ∃ contract', s'.contracts.get? id = some contract' ∧ contract.Continues contract' := by
  have same (contracts : s'.contracts = s.contracts) :
      ∃ contract', s'.contracts.get? id = some contract' ∧ contract.Continues contract' := by
    rw [contracts]
    exact ⟨contract, found, .refl contract⟩
  cases event with
  | createContract new =>
      rw [createContract_ok done]
      exact ⟨contract, Rows.get?_insert_of_some found, .refl contract⟩
  | editContract target changes =>
      rcases editContract_ok.mp done with ⟨_, _, _, rfl⟩
      apply continues_setContract found
      intro here
      unfold keepsTerms at kept
      dsimp only at kept
      rw [found, Option.all_some] at kept
      simp only [here, ne_eq, not_true_eq_false, decide_false, Bool.false_or, Bool.and_eq_true,
        decide_eq_true_eq] at kept
      rcases kept with ⟨⟨⟨⟨status, start⟩, finish⟩, billing⟩, rate⟩
      exact ⟨⟨start, finish, billing, rate⟩, .stays status rfl⟩
  | addElevators target elevators unitPrice today =>
      rcases bind_ok.mp done with ⟨_, _, rest⟩
      apply same
      refine addElevators_rule (P := fun s'' => s''.contracts = s.contracts) ?_ rfl rest
      intro s₁ s₂ elevator before turn
      rcases addElevator_ok turn with ⟨lift, _, _, rfl⟩
      dsimp only
      split
      · exact before
      · exact before
  | removeElevator target elevator today =>
      rcases bind_ok.mp done with ⟨_, _, rest⟩
      rcases removeElevator_ok rest with ⟨line, _, _, _, _, rfl⟩
      exact same rfl
  | terminate target day reason =>
      rcases terminate_ok done with ⟨old, found', open_, rfl⟩
      have kept' : (s.release target day).contracts.get? id = some contract := found
      apply continues_setContract kept'
      intro here
      rw [here, found] at found'
      cases found'
      exact ⟨⟨rfl, rfl, rfl, rfl⟩, .terminates day open_ rfl rfl⟩
  | renew target startDate endDate carryElevators copyTerms =>
      rcases bind_ok.mp done with ⟨⟨renewed, successor⟩, first, rest⟩
      cases rest
      exact continues_renew keyed found first
  | expire target today =>
      rcases expire_ok done with rfl | ⟨old, found', active, rfl | ⟨renewed, _, _, first, rfl | rfl⟩⟩
      · exact same rfl
      · have kept' : (s.release target old.endDate.next).contracts.get? id = some contract := found
        apply continues_setContract kept'
        intro here
        rw [here, found] at found'
        cases found'
        refine ⟨⟨rfl, rfl, rfl, rfl⟩, .ends ?_ (Or.inl rfl) rfl⟩
        rw [active]
        rfl
      · exact continues_renew keyed found first
      · -- the successor is activated, and this contract is an older one
        rcases continues_renew keyed found first with ⟨contract', found'', continues⟩
        refine ⟨contract', ?_, continues⟩
        have below : id ≠ s.nextId := by
          intro here
          rw [here, keyed.contracts.absent (Nat.le_refl _)] at found
          cases found
        unfold setContract
        dsimp only
        rw [Rows.get?_update_of_ne below]
        exact found''
  | createElevator status =>
      rcases bind_ok.mp done with ⟨_, _, rest⟩
      cases rest
      exact same rfl
  | editElevator target status =>
      unfold Firm.attempt editElevator at done
      dsimp only at done
      split at done
      · cases done
      · rcases bind_ok.mp done with ⟨_, _, rest⟩
        cases rest
        exact same rfl
  | _ => exact same (attempt_served (by rfl) done).contracts

theorem continues_step (keyed : s.Keyed) {event : Event} (found : s.contracts.get? id = some contract)
    (kept : s.keepsTerms id event = true) :
    ∃ contract', (s.step event).contracts.get? id = some contract' ∧ contract.Continues contract' := by
  unfold Firm.step
  cases done : s.attempt event with
  | error failure => exact ⟨contract, found, .refl contract⟩
  | ok next => exact continues_attempt keyed found kept done

end Firm
end Fleet
end Shiftlush
