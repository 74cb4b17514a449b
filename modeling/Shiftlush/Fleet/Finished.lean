import Shiftlush.Fleet.Keys

namespace Shiftlush
namespace Fleet
namespace Firm

open Calendar (Date)
open Transitions (run everyStep)

/-!
# A finished contract holds no lift

`terminate`, `renew` and `expire` close a contract's lines before they finish
it.  Two requests do not respect the rule: `add_elevators` does not look at the
status of the contract it opens lines on, and an edit may select `expired` and
leave the lines open.
-/

variable {s s' : Firm}

/-- The rule, with what it is for: a lift is held by one contract at a time, and
only an unfinished one keeps it from another. -/
structure ContractsLaw (s : Firm) : Prop where
  released : ∀ id contract, s.contracts.get? id = some contract -> contract.status.isFinished = true ->
    ∀ r ∈ s.lines, r.2.contract = id -> r.2.isOpen = false
  heldOnce : ∀ r ∈ s.lines, ∀ r' ∈ s.lines, r.2.isOpen = true -> r'.2.isOpen = true ->
    r.2.elevator = r'.2.elevator -> r.2.contract = r'.2.contract
  unblocked : ∀ id unitPrice today elevator,
    s.addElevator id unitPrice today elevator = .error .elevatorAlreadyContracted ->
      ∃ r ∈ s.lines, r.2.elevator = elevator ∧ r.2.isOpen = true ∧
        ∃ contract, s.contracts.get? r.2.contract = some contract ∧ contract.status.isFinished = false

def isFinished (s : Firm) (id : Nat) : Bool :=
  (s.contracts.get? id).any (fun contract => contract.status.isFinished)

theorem isFinished_iff {id : Nat} : s.isFinished id = true ↔
    ∃ contract, s.contracts.get? id = some contract ∧ contract.status.isFinished = true := by
  unfold isFinished
  rw [Option.any_eq_true]

/-- An open line is one of an unfinished contract. -/
def Standing (s : Firm) : Prop :=
  ∀ r ∈ s.lines, r.2.isOpen = true ->
    ∃ contract, s.contracts.get? r.2.contract = some contract ∧ contract.status.isFinished = false

theorem isHeld_of_refused {id elevator : Nat} {unitPrice : Option Cents} {today : Date}
    (refused : s.addElevator id unitPrice today elevator = .error .elevatorAlreadyContracted) :
    s.isHeld elevator = true := by
  unfold addElevator at refused
  split at refused
  · cases refused
  · split at refused
    · assumption
    · cases refused

theorem contractsLaw_iff (keyed : s.Keyed) : s.ContractsLaw ↔ s.Standing := by
  constructor
  · intro law r mem isOpen
    rcases Option.isSome_iff_exists.mp (keyed.covered r mem) with ⟨contract, found⟩
    refine ⟨contract, found, ?_⟩
    cases finished : contract.status.isFinished with
    | false => rfl
    | true =>
        have shut := law.released _ contract found finished r mem rfl
        rw [isOpen] at shut
        cases shut
  · intro standing
    refine ⟨?_, ?_, ?_⟩
    · intro id contract found finished r mem here
      cases isOpen : r.2.isOpen with
      | false => rfl
      | true =>
          rcases standing r mem isOpen with ⟨contract', found', unfinished⟩
          rw [here, found] at found'
          cases found'
          rw [finished] at unfinished
          cases unfinished
    · intro r mem r' mem' isOpen isOpen' same
      rw [keyed.once r mem r' mem' isOpen isOpen' same]
    · intro id unitPrice today elevator refused
      rcases isHeld_iff.mp (isHeld_of_refused refused) with ⟨r, mem, lift, isOpen⟩
      exact ⟨r, mem, lift, isOpen, standing r mem isOpen⟩

/-- The rule is broken by any finished contract with an open line. -/
theorem not_contractsLaw (id : Nat) (finished : s.isFinished id = true) (holding : s.openLines id ≠ []) :
    ¬ s.ContractsLaw := by
  intro law
  rcases isFinished_iff.mp finished with ⟨contract, found, past⟩
  rcases List.exists_mem_of_ne_nil _ holding with ⟨r, listed⟩
  rcases mem_openLines.mp listed with ⟨mem, here, isOpen⟩
  rw [law.released id contract found past r mem here] at isOpen
  cases isOpen

/-! ## What `add_elevators` accepts -/

/-- Lifts that exist, that nothing holds, each named once. -/
def takes (s : Firm) (elevators : List Nat) : Prop :=
  elevators.Nodup ∧
    ∀ elevator ∈ elevators, (s.elevators.get? elevator).isSome = true ∧ s.isHeld elevator = false

instance (s : Firm) (elevators : List Nat) : Decidable (s.takes elevators) :=
  inferInstanceAs (Decidable (_ ∧ _))

section Taking

variable {id elevator : Nat} {unitPrice : Option Cents} {today : Date}

theorem isHeld_addElevator (done : s.addElevator id unitPrice today elevator = .ok s')
    (elevator' : Nat) : s'.isHeld elevator' = (s.isHeld elevator' || decide (elevator' = elevator)) := by
  have added : s'.lines = s.lines.insert s.nextId ⟨id, elevator, unitPrice, today, none⟩ := by
    rcases addElevator_ok done with ⟨lift, _, _, rfl⟩
    dsimp only
    split
    · rfl
    · rfl
  have isOpen : ContractElevator.isOpen ⟨id, elevator, unitPrice, today, none⟩ = true := rfl
  unfold isHeld
  rw [added]
  unfold Rows.insert
  rw [List.any_append, List.any_cons, List.any_nil, Bool.or_false, isOpen, Bool.and_true]
  simp only [eq_comm]

theorem known_addElevator (done : s.addElevator id unitPrice today elevator = .ok s')
    (elevator' : Nat) :
    (s'.elevators.get? elevator').isSome = (s.elevators.get? elevator').isSome := by
  rcases addElevator_ok done with ⟨lift, _, _, rfl⟩
  dsimp only
  split
  · unfold setStatus
    dsimp only
    rw [Rows.isSome_get?_update]
  · rfl

theorem takes_cons (done : s.addElevator id unitPrice today elevator = .ok s')
    (elevators : List Nat) : s.takes (elevator :: elevators) ↔ s'.takes elevators := by
  rcases addElevator_ok done with ⟨lift, found, free, _⟩
  unfold takes
  rw [List.nodup_cons]
  constructor
  · rintro ⟨⟨absent, distinct⟩, each⟩
    refine ⟨distinct, ?_⟩
    intro elevator' mem
    have other : elevator' ≠ elevator := by
      intro same
      rw [same] at mem
      exact absent mem
    rw [known_addElevator done, isHeld_addElevator done, decide_eq_false other, Bool.or_false]
    exact each elevator' (List.mem_cons_of_mem _ mem)
  · rintro ⟨distinct, each⟩
    have apart : ∀ elevator' ∈ elevators, elevator' ≠ elevator := by
      intro elevator' mem same
      have free' := (each elevator' mem).2
      rw [isHeld_addElevator done, decide_eq_true same, Bool.or_true] at free'
      cases free'
    refine ⟨⟨fun mem => apart elevator mem rfl, distinct⟩, ?_⟩
    intro elevator' mem
    rcases List.mem_cons.mp mem with rfl | later
    · rw [found]
      exact ⟨rfl, free⟩
    · have other := apart elevator' later
      have here := each elevator' later
      rw [known_addElevator done, isHeld_addElevator done, decide_eq_false other,
        Bool.or_false] at here
      exact here

theorem addElevators_accepts {elevators : List Nat} :
    (∃ s', addElevators id unitPrice today elevators s = .ok s') ↔ s.takes elevators := by
  induction elevators generalizing s with
  | nil =>
      constructor
      · intro _
        refine ⟨List.nodup_nil, ?_⟩
        intro elevator mem
        cases mem
      · intro _
        exact ⟨s, rfl⟩
  | cons elevator elevators ih =>
      constructor
      · rintro ⟨s', done⟩
        rcases bind_ok.mp done with ⟨next, first, rest⟩
        exact (takes_cons first elevators).mpr (ih.mp ⟨s', rest⟩)
      · intro accepted
        have here := accepted.2 elevator List.mem_cons_self
        rcases Option.isSome_iff_exists.mp here.1 with ⟨lift, found⟩
        have first : ∃ next, s.addElevator id unitPrice today elevator = .ok next := by
          unfold addElevator
          rw [found]
          dsimp only
          rw [if_neg (Bool.eq_false_iff.mp here.2)]
          exact ⟨_, rfl⟩
        rcases first with ⟨next, first⟩
        rcases ih.mpr ((takes_cons first elevators).mp accepted) with ⟨s', rest⟩
        exact ⟨s', bind_ok.mpr ⟨next, first, rest⟩⟩

/-- Every line it opens is one of the contract, and every other is left as it is. -/
theorem lines_addElevators {elevators : List Nat}
    (done : addElevators id unitPrice today elevators s = .ok s') :
    s'.contracts = s.contracts ∧ (∀ r ∈ s.lines, r ∈ s'.lines) ∧
      ∀ r ∈ s'.lines, r ∈ s.lines ∨ r.2.contract = id := by
  refine addElevators_rule (P := fun next => next.contracts = s.contracts ∧
    (∀ r ∈ s.lines, r ∈ next.lines) ∧ ∀ r ∈ next.lines, r ∈ s.lines ∨ r.2.contract = id) ?_
      ⟨rfl, fun r mem => mem, fun r mem => Or.inl mem⟩ done
  rintro next next' elevator ⟨contracts, kept, origin⟩ turn
  have added : next'.contracts = next.contracts ∧
      next'.lines = next.lines.insert next.nextId ⟨id, elevator, unitPrice, today, none⟩ := by
    rcases addElevator_ok turn with ⟨lift, _, _, rfl⟩
    dsimp only
    split
    · exact ⟨rfl, rfl⟩
    · exact ⟨rfl, rfl⟩
  refine ⟨added.1.trans contracts, ?_, ?_⟩
  · intro r mem
    rw [added.2]
    exact List.mem_append_left _ (kept r mem)
  · intro r mem
    rw [added.2] at mem
    rcases List.mem_append.mp mem with old | fresh
    · exact origin r old
    · rw [List.mem_singleton.mp fresh]
      exact Or.inr rfl

theorem isHeld_addElevators {elevators : List Nat}
    (done : addElevators id unitPrice today elevators s = .ok s') (elevator : Nat) :
    s'.isHeld elevator = true ↔ s.isHeld elevator = true ∨ elevator ∈ elevators := by
  induction elevators generalizing s with
  | nil =>
      cases done
      simp
  | cons first rest ih =>
      rcases bind_ok.mp done with ⟨next, turn, later⟩
      rw [ih later, isHeld_addElevator turn, Bool.or_eq_true, decide_eq_true_eq, List.mem_cons,
        or_assoc]

end Taking

/-! ## Which requests keep the rule -/

/-- No lift is put under a finished contract, and no contract is marked expired
while it holds one. -/
def keepsReleased (s : Firm) : Event -> Bool
  | .addElevators id elevators _ _ =>
      !(s.isFinished id && decide (elevators ≠ [] ∧ s.takes elevators))
  | .editContract id changes =>
      !(decide (changes.status = some .expired ∧ s.openLines id ≠ []) &&
        (s.contracts.get? id).any (fun contract =>
          decide ((changes.apply contract).startDate < (changes.apply contract).endDate)))
  | _ => true

theorem checkContract_ok {status : Option ContractStatus} {contract : Contract} :
    checkContract status contract = .ok () ↔
      status.any ContractStatus.isClosed = false ∧ contract.startDate < contract.endDate := by
  unfold checkContract
  by_cases closed : status.any ContractStatus.isClosed = true
  · rw [if_pos closed, closed]
    simp only [reduceCtorEq, false_and]
  · rw [if_neg closed, Bool.eq_false_iff.mpr closed]
    by_cases ends : contract.endDate ≤ contract.startDate
    · rw [if_pos ends]
      simp only [reduceCtorEq, true_and, false_iff, not_lt]
      exact ends
    · rw [if_neg ends]
      simp only [true_and, true_iff]
      exact not_le.mp ends

namespace Standing

/-- A contract with no open line may be finished; another keeps what it is. -/
theorem setContract (standing : s.Standing) {id : Nat} {f : Contract -> Contract}
    (kept : s.openLines id = [] ∨ ∀ contract, s.contracts.get? id = some contract ->
      contract.status.isFinished = false -> (f contract).status.isFinished = false) :
    (s.setContract id f).Standing := by
  intro r mem isOpen
  rcases standing r mem isOpen with ⟨contract, found, unfinished⟩
  unfold Firm.setContract
  dsimp only
  rw [Rows.get?_update]
  by_cases here : r.2.contract = id
  · rw [if_pos here, found]
    rcases kept with shut | kept
    · have listed : r ∈ s.openLines id := mem_openLines.mpr ⟨mem, here, isOpen⟩
      rw [shut] at listed
      cases listed
    · rw [here] at found
      exact ⟨f contract, rfl, kept contract found unfinished⟩
  · rw [if_neg here]
    exact ⟨contract, found, unfinished⟩

theorem insertContract (standing : s.Standing) (contract : Contract) :
    { s with contracts := s.contracts.insert s.nextId contract, nextId := s.nextId + 1 }.Standing := by
  intro r mem isOpen
  rcases standing r mem isOpen with ⟨contract', found, unfinished⟩
  exact ⟨contract', Rows.get?_insert_of_some found, unfinished⟩

/-- Closing lines leaves fewer of them open. -/
theorem of_lines (standing : s.Standing) (contracts : s'.contracts = s.contracts)
    (fewer : ∀ r ∈ s'.lines, r.2.isOpen = true -> r ∈ s.lines) : s'.Standing := by
  intro r mem isOpen
  rw [contracts]
  exact standing r (fewer r mem isOpen) isOpen

theorem release (standing : s.Standing) (id : Nat) (day : Date) : (s.release id day).Standing :=
  standing.of_lines rfl (fun _ mem isOpen => ((mem_closeLines_open isOpen).mp mem).1)

end Standing

theorem openLines_closeLines (s : Firm) (id : Nat) (day : Date) :
    (s.closeLines id day).openLines id = [] := by
  apply List.eq_nil_iff_forall_not_mem.mpr
  intro r listed
  rcases mem_openLines.mp listed with ⟨mem, here, isOpen⟩
  exact ((mem_closeLines_open isOpen).mp mem).2 here

theorem openLines_release (s : Firm) (id : Nat) (day : Date) :
    (s.release id day).openLines id = [] := openLines_closeLines s id day

theorem openLines_carry {id successor : Nat} {startDate : Date} {copyTerms : Bool}
    (other : successor ≠ id) : (s.carry id successor startDate copyTerms).openLines id = [] := by
  apply List.eq_nil_iff_forall_not_mem.mpr
  intro r listed
  rcases mem_openLines.mp listed with ⟨mem, here, isOpen⟩
  rcases List.mem_append.mp mem with old | new
  · exact ((mem_closeLines_open isOpen).mp old).2 here
  · rw [(carried_from new).1] at here
    exact other here

theorem openLines_handOver {id successor : Nat} {startDate : Date} {carryElevators copyTerms : Bool}
    (other : successor ≠ id) :
    (s.handOver id successor startDate carryElevators copyTerms).openLines id = [] := by
  unfold handOver
  split
  · exact openLines_carry other
  · exact openLines_release s id startDate

theorem Standing.handOver (standing : s.Standing) {id successor : Nat} {startDate : Date}
    {carryElevators copyTerms : Bool}
    (unfinished : ∃ contract, s.contracts.get? successor = some contract ∧
      contract.status.isFinished = false) :
    (s.handOver id successor startDate carryElevators copyTerms).Standing := by
  unfold Firm.handOver
  split
  · intro r mem isOpen
    rcases List.mem_append.mp mem with old | new
    · exact standing r ((mem_closeLines_open isOpen).mp old).1 isOpen
    · rw [(carried_from new).1]
      exact unfinished
  · exact standing.release id startDate

theorem Standing.renew (standing : s.Standing) (keyed : s.Keyed) {id successor : Nat}
    {startDate endDate : Date} {carryElevators copyTerms : Bool}
    (done : s.renew id startDate endDate carryElevators copyTerms = .ok (s', successor)) :
    s'.Standing := by
  rcases renew_ok done with ⟨contract, found, _, _, rfl⟩
  have fresh : s.contracts.get? s.nextId = none := keyed.contracts.absent (Nat.le_refl _)
  have other : s.nextId ≠ id := by
    intro same
    rw [same, found] at fresh
    cases fresh
  have opened : (s.withSuccessor contract id startDate endDate copyTerms).Standing :=
    standing.insertContract _
  apply Standing.setContract
  · apply opened.handOver
    exact ⟨_, Rows.get?_insert_self fresh, rfl⟩
  · exact Or.inl (openLines_handOver other)

/-- The rule after a request that keeps it. -/
theorem Standing.attempt (standing : s.Standing) (keyed : s.Keyed) {event : Event}
    (kept : s.keepsReleased event = true) (done : s.attempt event = .ok s') : s'.Standing := by
  cases event with
  | createContract new =>
      rw [createContract_ok done]
      exact standing.insertContract new.row
  | editContract id changes =>
      rcases editContract_ok.mp done with ⟨contract, found, checked, rfl⟩
      rcases checkContract_ok.mp checked with ⟨selectable, dates⟩
      apply standing.setContract
      by_cases shut : s.openLines id = []
      · exact Or.inl shut
      · refine Or.inr ?_
        intro contract' found' unfinished
        unfold ContractChanges.apply
        dsimp only
        cases selected : changes.status with
        | none => exact unfinished
        | some status =>
            cases status with
            | expired =>
                unfold keepsReleased at kept
                simp only [selected, shut, found, dates, ne_eq, not_false_eq_true, and_self,
                  decide_true, Option.any_some, Bool.and_self, Bool.not_true] at kept
                cases kept
            | terminated =>
                rw [selected] at selectable
                cases selectable
            | renewed =>
                rw [selected] at selectable
                cases selectable
            | _ => rfl
  | addElevators id elevators unitPrice today =>
      rcases bind_ok.mp done with ⟨contract, found, rest⟩
      have accepted : s.takes elevators := addElevators_accepts.mp ⟨s', rest⟩
      cases elevators with
      | nil =>
          cases rest
          exact standing
      | cons first later =>
          have unfinished : contract.status.isFinished = false := by
            unfold keepsReleased isFinished at kept
            dsimp only at kept
            rw [contract_ok.mp found] at kept
            simpa [accepted] using kept
          rcases lines_addElevators rest with ⟨contracts, _, origin⟩
          intro r mem isOpen
          rw [contracts]
          rcases origin r mem with old | new
          · exact standing r old isOpen
          · rw [new]
            exact ⟨contract, contract_ok.mp found, unfinished⟩
  | removeElevator id elevator today =>
      rcases bind_ok.mp done with ⟨_, _, rest⟩
      rcases removeElevator_ok rest with ⟨line, _, _, _, _, rfl⟩
      apply standing.of_lines (by rfl)
      intro r mem isOpen
      unfold setStatus at mem
      dsimp only at mem
      rcases Rows.mem_update.mp mem with ⟨old, _⟩ | ⟨row, _, rfl⟩
      · exact old
      · cases isOpen
  | terminate id day reason =>
      rcases terminate_ok done with ⟨_, _, _, rfl⟩
      exact (standing.release id day).setContract (Or.inl (openLines_release s id day))
  | renew id startDate endDate carryElevators copyTerms =>
      rcases bind_ok.mp done with ⟨⟨renewed, successor⟩, first, rest⟩
      cases rest
      exact standing.renew keyed first
  | expire id today =>
      rcases expire_ok done with rfl | ⟨contract, _, _, rfl | ⟨renewed, _, _, first, rfl | rfl⟩⟩
      · exact standing
      · exact (standing.release id _).setContract (Or.inl (openLines_release s id _))
      · exact standing.renew keyed first
      · exact (standing.renew keyed first).setContract (Or.inr (fun _ _ _ => rfl))
  | createElevator status =>
      rcases bind_ok.mp done with ⟨_, _, rest⟩
      cases rest
      exact standing
  | editElevator id status =>
      unfold Firm.attempt editElevator at done
      dsimp only at done
      split at done
      · cases done
      · rcases bind_ok.mp done with ⟨_, _, rest⟩
        cases rest
        exact standing
  | _ =>
      have served := attempt_served (by rfl) done
      apply standing.of_lines served.contracts
      intro r mem _
      rw [served.lines] at mem
      exact mem

theorem step_of_ok {event : Event} (done : s.attempt event = .ok s') : s.step event = s' := by
  unfold step
  rw [done]

/-- A request that breaks the rule breaks it at once. -/
theorem keepsReleased_of_standing {event : Event} (after : (s.step event).Standing) :
    s.keepsReleased event = true := by
  by_contra broken
  cases event with
  | addElevators id elevators unitPrice today =>
      unfold keepsReleased at broken
      simp only [Bool.not_eq_true', Bool.not_eq_false, Bool.and_eq_true, decide_eq_true_eq] at broken
      rcases broken with ⟨finished, nonempty, accepted⟩
      rcases isFinished_iff.mp finished with ⟨contract, found, past⟩
      rcases addElevators_accepts.mpr accepted with ⟨s', rest⟩
      have done : s.attempt (.addElevators id elevators unitPrice today) = .ok s' :=
        bind_ok.mpr ⟨contract, contract_ok.mpr found, rest⟩
      rw [step_of_ok done] at after
      rcases List.exists_mem_of_ne_nil elevators nonempty with ⟨elevator, listed⟩
      have held := (isHeld_addElevators rest elevator).mpr (Or.inr listed)
      rcases isHeld_iff.mp held with ⟨r, mem, lift, isOpen⟩
      rcases lines_addElevators rest with ⟨contracts, _, origin⟩
      rcases origin r mem with old | new
      · have already : s.isHeld elevator = true := isHeld_iff.mpr ⟨r, old, lift, isOpen⟩
        rw [(accepted.2 elevator listed).2] at already
        cases already
      · rcases after r mem isOpen with ⟨contract', found', unfinished⟩
        rw [new, contracts, found] at found'
        cases found'
        rw [past] at unfinished
        cases unfinished
  | editContract id changes =>
      unfold keepsReleased at broken
      simp only [Bool.not_eq_true', Bool.not_eq_false, Bool.and_eq_true, decide_eq_true_eq,
        Option.any_eq_true] at broken
      rcases broken with ⟨⟨expires, holding⟩, contract, found, dates⟩
      have done : s.attempt (.editContract id changes) = .ok (s.setContract id changes.apply) := by
        refine editContract_ok.mpr ⟨contract, found, checkContract_ok.mpr ⟨?_, dates⟩, rfl⟩
        rw [expires]
        rfl
      rw [step_of_ok done] at after
      rcases List.exists_mem_of_ne_nil _ holding with ⟨r, listed⟩
      rcases mem_openLines.mp listed with ⟨mem, here, isOpen⟩
      rcases after r mem isOpen with ⟨contract', found', unfinished⟩
      unfold Firm.setContract at found'
      rw [here, Rows.get?_update_self, found] at found'
      cases found'
      unfold ContractChanges.apply at unfinished
      rw [expires] at unfinished
      cases unfinished
  | _ => exact broken rfl

theorem standing_step {event : Event} (kept : s.keepsReleased event = true)
    (now : s.Keyed ∧ s.Standing) : (s.step event).Keyed ∧ (s.step event).Standing := by
  refine ⟨now.1.step event, ?_⟩
  unfold step
  cases done : s.attempt event with
  | error failure => exact now.2
  | ok s' => exact now.2.attempt now.1 kept done

theorem standing_empty : empty.Standing := by
  intro r mem
  cases mem

/-- A maintenance contract of one year. -/
def yearly (status : ContractStatus) : NewContract where
  customer := 0
  status := some status
  scope := .maintenanceOnly
  startDate := .first 24312
  endDate := (Date.first 24324).previous
  pricingType := .perElevator
  monthlyFee := some 100000
  currency := none
  vatRate := 2000
  billingPeriod := none
  autoRenew := none
  renewalNoticeDays := none
  notes := none

/-- A lift put under a contract that has been terminated. -/
theorem terminated_contract_takes_lift : ¬ (run step empty
    [.createElevator none, .createContract (yearly .active), .terminate 1 (.first 24313) "moved away",
      .addElevators 1 [0] none (.first 24314)]).ContractsLaw := by
  apply not_contractsLaw 1
  · decide +kernel
  · decide +kernel

/-- A firm keeps the rule as long as no lift is added to a finished contract and
no contract that holds one is marked expired by hand, and no longer. -/
theorem finished_holds_none (events : List Event) :
    (∀ before, before <+: events -> (run step empty before).ContractsLaw) ↔
      everyStep step keepsReleased empty events = true := by
  constructor
  · intro within
    refine Transitions.everyStep_of_law (J := fun s => s.Keyed ∧ s.Standing) (L := Standing)
      (fun _ _ kept now => standing_step kept now) (fun _ _ _ after => keepsReleased_of_standing after)
      ⟨keyed_empty, standing_empty⟩ ?_
    intro before earlier
    exact (contractsLaw_iff (keyed_run before)).mp (within before earlier)
  · rintro kept before ⟨after, rfl⟩
    have sofar := (Transitions.everyStep_append.mp kept).1
    have now := Transitions.run_invariant_of_everyStep (J := fun s => s.Keyed ∧ s.Standing)
      (fun _ _ kept now => standing_step kept now) sofar ⟨keyed_empty, standing_empty⟩
    exact (contractsLaw_iff now.1).mpr now.2

end Firm
end Fleet
end Shiftlush
