import Mathlib.Data.List.TakeWhile
import Shiftlush.Fleet.Terms
import Shiftlush.Billing.PeriodsTile

namespace Shiftlush
namespace Billing

open Calendar (Date)
open Fleet (Contract Firm)
open Transitions (run everyStep)

/-!
# Every period is billed

The generator comes at least once in every lookback, to a contract that is
active with a VAT rate from its first period on and whose terms stay.  A period
that has ended since the last run is then recent enough to be drafted, and so is
the contract.  A termination alone can end a period in the past; and a draft that
its columns cannot hold rolls the run back, with every other draft of it.
-/

/-- The periods of a contract, as the generator steps through them. -/
def contractPeriods (contract : Contract) : List Period :=
  periods contract.startDate (lastBilledDay contract) contract.billingPeriod

namespace Bills

/-- The drafts of a contract for the period that starts on the day, cancelled or not. -/
def draftsOf (v : Bills) (id : Nat) (day : Date) : Rows InvoiceDraft :=
  v.drafts.filter (fun r => decide (r.2.contract = id ∧ r.2.periodStart = day))

/-- No two live drafts of a contract start on one day. -/
def OneLive (v : Bills) : Prop :=
  ∀ r ∈ v.drafts, ∀ r' ∈ v.drafts, r.2.isLive = true -> r'.2.isLive = true ->
    r.2.contract = r'.2.contract -> r.2.periodStart = r'.2.periodStart -> r = r'

/-- The drafts are still there, with their contract and their first day. -/
def Persists (v v' : Bills) : Prop :=
  ∀ r ∈ v.drafts, ∃ r' ∈ v'.drafts, r'.2.contract = r.2.contract ∧ r'.2.periodStart = r.2.periodStart

end Bills

/-! ## The drafts of a period -/

section Drafts

variable {v v' : Bills} {id : Nat} {day : Date}

theorem draftsOf_ne_nil : v.draftsOf id day ≠ [] ↔
    ∃ r ∈ v.drafts, r.2.contract = id ∧ r.2.periodStart = day := by
  unfold Bills.draftsOf
  rw [ne_eq, List.filter_eq_nil_iff]
  simp only [decide_eq_true_eq, not_forall, not_not, exists_prop]

theorem Bills.Persists.draftsOf (persists : v.Persists v') (drafted : v.draftsOf id day ≠ []) :
    v'.draftsOf id day ≠ [] := by
  rcases draftsOf_ne_nil.mp drafted with ⟨r, mem, on, start⟩
  rcases persists r mem with ⟨r', mem', on', start'⟩
  exact draftsOf_ne_nil.mpr ⟨r', mem', on'.trans on, start'.trans start⟩

theorem draftsOf_of_taken (taken : v.periodTaken id day = true) : v.draftsOf id day ≠ [] := by
  rcases periodTaken_iff.mp taken with ⟨r, mem, on, start, _⟩
  exact draftsOf_ne_nil.mpr ⟨r, mem, on, start⟩

theorem Bills.OneLive.length_le (one : v.OneLive) (distinct : v.drafts.Distinct) (id : Nat) (day : Date) :
    ((v.draftsOf id day).filter (fun r => r.2.isLive)).length ≤ 1 := by
  have nodup : ((v.draftsOf id day).filter (fun r => r.2.isLive)).Nodup := by
    apply List.Nodup.filter
    apply List.Nodup.filter
    exact List.Nodup.of_map Prod.fst distinct
  cases listed : (v.draftsOf id day).filter (fun r => r.2.isLive) with
  | nil => exact Nat.zero_le 1
  | cons first rest =>
      cases rest with
      | nil => exact Nat.le_refl 1
      | cons second rest =>
          have member (r : Nat × InvoiceDraft) (mem : r ∈ first :: second :: rest) :
              r ∈ v.drafts ∧ (r.2.contract = id ∧ r.2.periodStart = day) ∧ r.2.isLive = true := by
            rw [← listed] at mem
            rcases List.mem_filter.mp mem with ⟨drafted, live⟩
            rcases List.mem_filter.mp drafted with ⟨there, own⟩
            exact ⟨there, of_decide_eq_true own, live⟩
          rcases member first List.mem_cons_self with ⟨there, ⟨on, start⟩, live⟩
          rcases member second (List.mem_cons_of_mem first List.mem_cons_self) with ⟨there', ⟨on', start'⟩, live'⟩
          have same := one first there second there' live live' (on.trans on'.symm) (start.trans start'.symm)
          rw [listed, same] at nodup
          exact absurd List.mem_cons_self (List.nodup_cons.mp nodup).1

end Drafts

/-! ## Calls -/

section Calls

variable {v v' : Bills}

/-- No call makes or deletes a draft. -/
theorem keys_call {bound : Nat} {call : Call} (done : call.attempt v bound = .ok v') :
    v'.drafts.map Prod.fst = v.drafts.map Prod.fst := by
  cases call with
  | addLine draft new =>
      rcases addLine_ok done with ⟨_, _, _, rfl⟩
      exact keys_recompute _ draft
  | editLine id changes =>
      rcases editLine_ok done with ⟨line, _, _, _, _, _, rfl⟩
      exact keys_recompute _ line.draft
  | removeLine id =>
      rcases removeLine_ok done with ⟨line, _, _, _, _, _, rfl⟩
      exact keys_recompute _ line.draft
  | issue id number date posts =>
      rcases issue_ok done with ⟨draft, _, _, _, rfl⟩
      unfold Bills.updateDraft
      dsimp only
      rw [Rows.keys_update, keys_recompute]
  | markPaid id settles =>
      rcases markPaid_ok done with ⟨draft, _, _, rfl⟩
      exact Rows.keys_update v.drafts id _
  | cancel id reason reverses =>
      rcases cancel_ok done with ⟨draft, _, _, rfl⟩
      exact Rows.keys_update v.drafts id _
  | sync id covered =>
      cases done
      exact Rows.keys_update v.drafts id _

theorem persists_call {bound : Nat} (sound : v.Sound bound) {call : Call}
    (done : call.attempt v bound = .ok v') : v.Persists v' := by
  intro r mem
  have key : r.1 ∈ v'.drafts.map Prod.fst := by
    rw [keys_call done]
    exact List.mem_map_of_mem mem
  rcases List.mem_map.mp key with ⟨r', mem', same⟩
  rcases follows_call sound done r' mem' with ⟨r'', mem'', same', follows⟩
  have here : r'' = r := Rows.unique sound.tallied.drafts mem'' mem (same'.trans same)
  rw [here] at follows
  exact ⟨r', mem', follows.contract, follows.start⟩

theorem Bills.Follows.oneLive (follows : v.Follows v') (distinct : v'.drafts.Distinct) (one : v.OneLive) :
    v'.OneLive := by
  intro r' mem' s' smem' live live' contract start
  rcases follows r' mem' with ⟨r, mem, key, row⟩
  rcases follows s' smem' with ⟨s, smem, skey, srow⟩
  rw [row.contract, srow.contract] at contract
  rw [row.start, srow.start] at start
  have same := one r mem s smem (row.live live) (srow.live live') contract start
  apply Rows.unique distinct mem' smem'
  rw [← key, ← skey, same]

end Calls

/-! ## A run of the generator -/

section Generating

variable {o : Office} {today : Date}

theorem oneLive_draftFor {id : Nat} {contract : Contract} {vatRate : Int} {period : Period} (sound : o.Sound)
    (one : o.bills.OneLive) : (o.draftFor id contract vatRate period).bills.OneLive := by
  cases free : o.bills.periodTaken id period.start with
  | true =>
      rw [Office.draftFor_of_taken free]
      exact one
  | false =>
      rcases drafts_draftFor contract vatRate sound free with ⟨draft, drafted, drafts⟩
      have untaken (r : Nat × InvoiceDraft) (mem : r ∈ o.bills.drafts) (live : r.2.isLive = true)
          (on : r.2.contract = id) (start : r.2.periodStart = period.start) : False := by
        have taken := periodTaken_iff.mpr ⟨r, mem, on, start, live⟩
        rw [free] at taken
        cases taken
      intro r mem r' mem' live live' contract start
      rw [drafts] at mem mem'
      rcases List.mem_append.mp mem with old | new
      · rcases List.mem_append.mp mem' with old' | new'
        · exact one r old r' old' live live' contract start
        · rw [List.mem_singleton.mp new'] at contract start
          exact (untaken r old live (contract.trans drafted.contract) (start.trans drafted.start)).elim
      · rcases List.mem_append.mp mem' with old' | new'
        · rw [List.mem_singleton.mp new] at contract start
          exact (untaken r' old' live' (contract.symm.trans drafted.contract) (start.symm.trans drafted.start)).elim
        · rw [List.mem_singleton.mp new, List.mem_singleton.mp new']

theorem oneLive_generate (sound : o.Sound) (one : o.bills.OneLive) : (o.generate today).bills.OneLive :=
  (Office.generate_invariant_of_draftFor (J := fun o' => o'.Sound ∧ o'.bills.OneLive)
    (fun _ _ _ _ _ now => ⟨now.1.draftFor, oneLive_draftFor now.1 now.2⟩) ⟨sound, one⟩).2

theorem persists_generate (sound : o.Sound) : o.bills.Persists (o.generate today).bills :=
  fun r mem => ⟨r, drafts_generate sound r mem, rfl, rfl⟩

variable {contract : Contract} {p : Period}

theorem finish_le_lastBilledDay (mem : p ∈ contractPeriods contract) : p.finish ≤ lastBilledDay contract := by
  rcases mem_periods.mp mem with ⟨k, _, rfl⟩
  exact min_le_right _ _

theorem startDate_le_start (mem : p ∈ contractPeriods contract) : contract.startDate ≤ p.start := by
  rcases mem_periods.mp mem with ⟨k, _, rfl⟩
  have first := (periodStart_strictMono contract.startDate contract.billingPeriod).monotone (Nat.zero_le k)
  unfold periodStart at first
  rw [Nat.zero_mul, Date.addMonths_zero] at first
  exact first

theorem startDate_le_lastBilledDay (mem : p ∈ contractPeriods contract) :
    contract.startDate ≤ lastBilledDay contract :=
  ((startDate_le_start mem).trans (start_le_finish mem)).trans (finish_le_lastBilledDay mem)

/-- A member that passes, of a list where what comes before one that passes does too. -/
theorem mem_takeWhile_of_pairwise {α : Type} {l : List α} {test : α -> Bool} {a : α}
    (sorted : l.Pairwise (fun x y => test y = true -> test x = true)) (mem : a ∈ l) (passes : test a = true) :
    a ∈ l.takeWhile test := by
  induction l with
  | nil => cases mem
  | cons b l ih =>
      rcases List.pairwise_cons.mp sorted with ⟨head, tail⟩
      have first : test b = true := by
        rcases List.mem_cons.mp mem with rfl | later
        · exact passes
        · exact head a later passes
      rw [List.takeWhile_cons, if_pos first]
      rcases List.mem_cons.mp mem with rfl | later
      · exact List.mem_cons_self
      · exact List.mem_cons_of_mem b (ih tail later)

/-- A period that has ended and is not too old is due. -/
theorem mem_duePeriods (mem : p ∈ contractPeriods contract) (ended : p.finish < today)
    (recent : today.ordinal - lookback ≤ p.finish.ordinal) : p ∈ Office.duePeriods contract today := by
  have apart := periods_apart (startDate_le_lastBilledDay mem) contract.billingPeriod
  apply List.mem_filter.mpr
  refine ⟨mem_takeWhile_of_pairwise ?_ mem (decide_eq_true ended), decide_eq_true recent⟩
  refine apart.imp_of_mem ?_
  intro q q' _ mem' before passes
  have later := start_le_finish mem'
  exact decide_eq_true ((before.trans_le later).trans (of_decide_eq_true passes))

end Generating

/-! ## Watching one contract -/

/-- An office, and the day of the generator's last run. -/
structure Watch where
  office : Office
  since : Date

def Event.day? : Event -> Option Date
  | .generate today => some today
  | _ => none

namespace Watch

def step (w : Watch) (event : Event) : Watch := ⟨w.office.step event, event.day?.getD w.since⟩

/-- The runs go forward, no lookback apart, and nobody edits the contract's terms. -/
def permits (id : Nat) (w : Watch) : Event -> Bool
  | .firm event => w.office.firm.keepsTerms id event
  | .generate today => decide (w.since ≤ today ∧ today.ordinal - lookback ≤ w.since.ordinal)
  | .call _ => true

end Watch

/-- The contract is active with a VAT rate, and no period of it has ended or been
drafted yet. -/
structure Watch.Fresh (w : Watch) (id : Nat) : Prop where
  orderly : w.office.Orderly
  undrafted : ∀ r ∈ w.office.bills.drafts, r.2.contract ≠ id
  oneLive : w.office.bills.OneLive
  contract : ∃ contract, w.office.firm.contracts.get? id = some contract ∧ contract.status = .active ∧
    contract.vatRate ≠ none ∧ ∀ p ∈ contractPeriods contract, w.since ≤ p.finish

/-- What one step does for the periods of a contract. -/
structure Office.BillsPeriods (o : Office) (id : Nat) (event : Event) : Prop where
  /-- After a run, each period that has ended has a draft, and one that is not
  cancelled at the most. -/
  every : ∀ today contract, event = .generate today -> o.firm.contracts.get? id = some contract ->
    ∀ p ∈ contractPeriods contract, p.finish < today -> (o.step event).bills.draftsOf id p.start ≠ []
  one : ∀ day, (((o.step event).bills.draftsOf id day).filter (fun r => r.2.isLive)).length ≤ 1
  /-- A draft that is made is of a period that has ended, up to the last billed day. -/
  ended : ∀ r' ∈ (o.step event).bills.drafts, r'.2.contract = id ->
    (∃ r ∈ o.bills.drafts, r.1 = r'.1 ∧ r.2.Follows r'.2) ∨
      ∃ today contract p, event = .generate today ∧ o.firm.contracts.get? id = some contract ∧
        p ∈ contractPeriods contract ∧ r'.2.For id p ∧ p.finish < today ∧ p.finish ≤ lastBilledDay contract

/-- Every period of the contract that has ended has its draft. -/
def Office.isDrafted (o : Office) (id : Nat) (contract : Contract) (today : Date) : Bool :=
  (contractPeriods contract).all (fun p => !decide (p.finish < today) || !(o.bills.draftsOf id p.start).isEmpty)

/-- A run does not come to a contract terminated before the lookback, unless the
period that the termination ended has its draft, and it has room for its drafts, unless
the contract's are all there. -/
def Office.timely (id : Nat) (o : Office) : Event -> Bool
  | .generate today => (o.firm.contracts.get? id).all (fun contract =>
      if o.overflows today then o.isDrafted id contract today
      else
        decide (contract.status ≠ .terminated) ||
          contract.terminatedAt.any (fun day => decide (today.ordinal - lookback ≤ day.ordinal)) ||
          (contractPeriods contract).getLast?.all (fun p => !(o.bills.draftsOf id p.start).isEmpty))
  | _ => true

/-- What is known of the contract and its periods at any moment. -/
structure Watch.Keeps (w : Watch) (id : Nat) (contract : Contract) : Prop where
  found : w.office.firm.contracts.get? id = some contract
  billed : contract.status ≠ .draft
  rated : contract.vatRate ≠ none
  stamped : contract.status = .terminated -> contract.terminatedAt ≠ none
  /-- A period that ended before the last run has its draft, unless the contract
  has just been terminated back then. -/
  drafted : ∀ p ∈ contractPeriods contract, p.finish < w.since -> w.office.bills.draftsOf id p.start ≠ [] ∨
    (contract.status = .terminated ∧ contract.terminatedAt = some p.finish)

/-- The invariant of the watch. -/
structure Watch.Sound (w : Watch) (id : Nat) : Prop where
  orderly : w.office.Orderly
  oneLive : w.office.bills.OneLive
  keeps : ∃ contract, w.Keeps id contract

/-! ### One step -/

section Steps

variable {w : Watch} {id : Nat} {contract contract' : Contract} {today : Date}

theorem lastBilledDay_of_open (open_ : contract.status ≠ .terminated) : lastBilledDay contract = contract.endDate := by
  unfold lastBilledDay
  cases contract.terminatedAt with
  | none => rfl
  | some day => exact if_neg open_

/-- The periods of a terminated contract are those it had, but for the one cut. -/
theorem mem_periods_of_terminated {day : Date} (terms : contract.SameTerms contract')
    (before : contract.status ≠ .terminated) (status : contract'.status = .terminated)
    (stamp : contract'.terminatedAt = some day) {p : Period} (mem : p ∈ contractPeriods contract') :
    p.finish = day ∨ ∃ q ∈ contractPeriods contract, q.start = p.start ∧ q.finish = p.finish := by
  have last : lastBilledDay contract' = min contract.endDate day := by
    unfold lastBilledDay
    rw [stamp, ← terms.endDate]
    exact if_pos status
  rcases mem_periods.mp mem with ⟨k, within, rfl⟩
  rw [last, terms.startDate, terms.billingPeriod] at *
  by_cases cut : (periodAt contract.startDate (min contract.endDate day) contract.billingPeriod k).finish = day
  · exact Or.inl cut
  · right
    refine ⟨periodAt contract.startDate contract.endDate contract.billingPeriod k, ?_, rfl, ?_⟩
    · apply mem_periods.mpr
      rw [lastBilledDay_of_open before]
      exact ⟨k, within.trans (min_le_left _ _), rfl⟩
    · unfold periodAt at cut ⊢
      dsimp only at cut ⊢
      rw [← min_assoc] at cut ⊢
      have sooner := min_choice (min (periodStart contract.startDate contract.billingPeriod (k + 1)).previous
        contract.endDate) day
      rcases sooner with same | same
      · exact same.symm
      · exact absurd same cut

/-- A firm's request leaves what is known of the contract. -/
theorem Watch.Keeps.moves (keeps : w.Keeps id contract) (continues : contract.Continues contract')
    {o : Office} (found : o.firm.contracts.get? id = some contract') (bills : o.bills = w.office.bills) :
    Watch.Keeps ⟨o, w.since⟩ id contract' := by
  have terms := continues.toSameTerms
  have rated : contract'.vatRate ≠ none := by
    rw [terms.vatRate]
    exact keeps.rated
  have same (lastDay : lastBilledDay contract' = lastBilledDay contract)
      (stamp : contract.status = .terminated -> contract'.status = .terminated ∧
        contract'.terminatedAt = contract.terminatedAt) (p : Period) (mem : p ∈ contractPeriods contract')
      (ended : p.finish < w.since) : o.bills.draftsOf id p.start ≠ [] ∨
        (contract'.status = .terminated ∧ contract'.terminatedAt = some p.finish) := by
    unfold contractPeriods at mem
    rw [lastDay, terms.startDate, terms.billingPeriod] at mem
    rw [bills]
    rcases keeps.drafted p mem ended with drafted | ⟨status, stamped⟩
    · exact Or.inl drafted
    · exact Or.inr ⟨(stamp status).1, (stamp status).2.trans stamped⟩
  cases continues.moves with
  | stays status stamp =>
      refine ⟨found, ?_, rated, ?_, same ?_ ?_⟩
      · rw [status]
        exact keeps.billed
      · rw [status, stamp]
        exact keeps.stamped
      · unfold lastBilledDay
        rw [stamp, status, terms.endDate]
      · intro terminated
        exact ⟨status.trans terminated, stamp⟩
  | ends open_ status stamp =>
      have before : contract.status ≠ .terminated := by
        intro terminated
        rw [terminated] at open_
        cases open_
      have after : contract'.status ≠ .terminated ∧ contract'.status ≠ .draft := by
        rcases status with now | now
        · rw [now]
          decide
        · rw [now]
          decide
      refine ⟨found, after.2, rated, fun terminated => absurd terminated after.1, same ?_ ?_⟩
      · rw [lastBilledDay_of_open before, lastBilledDay_of_open after.1, terms.endDate]
      · intro terminated
        exact absurd terminated before
  | terminates day open_ status stamp =>
      have before : contract.status ≠ .terminated := by
        intro terminated
        rw [terminated] at open_
        cases open_
      refine ⟨found, ?_, rated, ?_, ?_⟩
      · rw [status]
        decide
      · intro _
        rw [stamp]
        exact Option.some_ne_none day
      · intro p mem ended
        rcases mem_periods_of_terminated terms before status stamp mem with cut | ⟨q, mem', start, finish⟩
        · right
          rw [cut]
          exact ⟨status, stamp⟩
        · left
          rw [bills, ← start]
          have ended' : q.finish < w.since := by
            rw [finish]
            exact ended
          rcases keeps.drafted q mem' ended' with drafted | ⟨terminated, _⟩
          · exact drafted
          · exact absurd terminated before

/-- A contract with a period that ended within the lookback is billed. -/
theorem isBilled_of_recent {p : Period} (billed : contract.status ≠ .draft)
    (stamped : contract.status = .terminated -> contract.terminatedAt ≠ none) (mem : p ∈ contractPeriods contract)
    (recent : today.ordinal - lookback ≤ p.finish.ordinal) : Office.isBilled today contract = true := by
  have last := finish_le_lastBilledDay mem
  rw [Date.le_iff] at last
  have until_end (open_ : contract.status ≠ .terminated) : today.ordinal - lookback ≤ contract.endDate.ordinal := by
    rw [lastBilledDay_of_open open_] at last
    exact recent.trans last
  unfold Office.isBilled
  cases status : contract.status with
  | draft => exact absurd status billed
  | active => rfl
  | expired => exact decide_eq_true (until_end (by rw [status]; decide))
  | renewed => exact decide_eq_true (until_end (by rw [status]; decide))
  | terminated =>
      rcases Option.ne_none_iff_exists'.mp (stamped status) with ⟨day, stamp⟩
      have cut : lastBilledDay contract ≤ day := by
        unfold lastBilledDay
        rw [stamp]
        dsimp only
        rw [if_pos status]
        exact min_le_right _ _
      rw [Date.le_iff] at cut
      dsimp only
      rw [stamp]
      exact decide_eq_true ((recent.trans last).trans cut)

/-- What an event does to the drafts of the office. -/
theorem draftsOf_step {o : Office} (orderly : o.Orderly) (event : Event) :
    o.bills.Persists (o.step event).bills ∧ (o.bills.OneLive -> (o.step event).bills.OneLive) := by
  cases event with
  | firm request => exact ⟨fun r mem => ⟨r, mem, rfl, rfl⟩, fun one => one⟩
  | generate today => exact ⟨persists_generate orderly.sound, oneLive_generate orderly.sound⟩
  | call call =>
      have stepped : o.step (.call call) = o.called call := rfl
      rw [stepped]
      cases done : call.commit o.bills o.nextId with
      | error failure =>
          rw [Office.called_of_error done]
          exact ⟨fun r mem => ⟨r, mem, rfl, rfl⟩, fun one => one⟩
      | ok bills =>
          rw [Office.called_of_ok done]
          replace done := (commit_ok.mp done).1
          have sound : o.bills.Sound o.nextId := orderly.sound
          exact ⟨persists_call sound done, (follows_call sound done).oneLive (sound.call done).1.tallied.drafts⟩

theorem isDrafted_iff {o : Office} : o.isDrafted id contract today = true ↔
    ∀ p ∈ contractPeriods contract, p.finish < today -> o.bills.draftsOf id p.start ≠ [] := by
  unfold Office.isDrafted
  rw [List.all_eq_true]
  refine forall₂_congr (fun p _ => ?_)
  rw [Bool.or_eq_true, Bool.not_eq_true', Bool.not_eq_true', decide_eq_false_iff_not, List.isEmpty_eq_false_iff]
  constructor
  · intro either ended
    exact either.resolve_left (fun never => never ended)
  · intro drafted
    by_cases ended : p.finish < today
    · exact Or.inr (drafted ended)
    · exact Or.inl ended

/-- A run that is rolled back finds every period that has ended drafted. -/
theorem Watch.Keeps.drafted_of_overflows (keeps : w.Keeps id contract) (overflows : w.office.overflows today = true)
    (inTime : w.office.timely id (.generate today) = true) {p : Period} (mem : p ∈ contractPeriods contract)
    (ended : p.finish < today) : w.office.bills.draftsOf id p.start ≠ [] := by
  unfold Office.timely at inTime
  dsimp only at inTime
  rw [keeps.found, Option.all_some, if_pos overflows] at inTime
  exact isDrafted_iff.mp inTime p mem ended

/-- A run that has room drafts every period that has ended. -/
theorem Watch.Keeps.generate_of_fits (keeps : w.Keeps id contract) (orderly : w.office.Orderly)
    (permitted : w.permits id (.generate today) = true) (fits : w.office.overflows today = false)
    (inTime : w.office.timely id (.generate today) = true)
    {p : Period} (mem : p ∈ contractPeriods contract) (ended : p.finish < today) :
    (w.office.generate today).bills.draftsOf id p.start ≠ [] := by
  have gap : w.since ≤ today ∧ today.ordinal - lookback ≤ w.since.ordinal := of_decide_eq_true permitted
  have recently (recent : today.ordinal - lookback ≤ p.finish.ordinal) :
      (w.office.generate today).bills.draftsOf id p.start ≠ [] := by
    apply draftsOf_of_taken
    have billed : (id, contract) ∈ Office.billedContracts w.office.firm today := by
      unfold Office.billedContracts
      rw [List.mem_insertionSort, List.mem_filter]
      exact ⟨Rows.mem_of_get? keeps.found, isBilled_of_recent keeps.billed keeps.stamped mem recent⟩
    exact taken_generate orderly.sound fits ⟨billed, keeps.rated, mem_duePeriods mem ended recent⟩
  by_cases before : p.finish < w.since
  · rcases keeps.drafted p mem before with drafted | ⟨status, stamp⟩
    · exact (persists_generate orderly.sound).draftsOf drafted
    · -- the period the termination ended
      unfold Office.timely at inTime
      dsimp only at inTime
      rw [keeps.found, Option.all_some, stamp, Option.any_some, fits] at inTime
      simp only [Bool.false_eq_true, if_false, status, ne_eq, not_true_eq_false, decide_false, Bool.false_or,
        Bool.or_eq_true, decide_eq_true_eq] at inTime
      rcases inTime with recent | final
      · exact recently recent
      · have last : p.finish = lastBilledDay contract := by
          apply le_antisymm (finish_le_lastBilledDay mem)
          unfold lastBilledDay
          rw [stamp]
          dsimp only
          rw [if_pos status]
          exact min_le_right _ _
        have listed : (contractPeriods contract).getLast? = some p :=
          getLast?_periods (startDate_le_lastBilledDay mem) mem last
        rw [listed, Option.all_some, Bool.not_eq_true', List.isEmpty_eq_false_iff] at final
        exact (persists_generate orderly.sound).draftsOf final
  · have recent := gap.2.trans (Date.le_iff.mp (not_lt.mp before))
    exact recently recent

/-- A run drafts every period that has ended. -/
theorem Watch.Keeps.generate (keeps : w.Keeps id contract) (orderly : w.office.Orderly)
    (permitted : w.permits id (.generate today) = true) (inTime : w.office.timely id (.generate today) = true)
    {p : Period} (mem : p ∈ contractPeriods contract) (ended : p.finish < today) :
    (w.office.generate today).bills.draftsOf id p.start ≠ [] := by
  cases fits : w.office.overflows today with
  | true => exact (persists_generate orderly.sound).draftsOf (keeps.drafted_of_overflows fits inTime mem ended)
  | false => exact keeps.generate_of_fits orderly permitted fits inTime mem ended

/-- A step the watch permits keeps its invariant, if it is in time. -/
theorem Watch.Sound.step (sound : w.Sound id) {event : Event} (permitted : w.permits id event = true)
    (inTime : w.office.timely id event = true) : (w.step event).Sound id := by
  rcases sound with ⟨orderly, one, contract, keeps⟩
  refine ⟨orderly.step event, (draftsOf_step orderly event).2 one, ?_⟩
  cases event with
  | firm request =>
      rcases Fleet.Firm.continues_step orderly.keyed keeps.found permitted with ⟨contract', found, continues⟩
      exact ⟨contract', keeps.moves continues found rfl⟩
  | generate today =>
      refine ⟨contract, ?_, keeps.billed, keeps.rated, keeps.stamped, ?_⟩
      · exact (congrArg (fun s => s.contracts.get? id) (Office.firm_generate w.office today)).trans keeps.found
      · intro p mem ended
        exact Or.inl (keeps.generate orderly permitted inTime mem ended)
  | call call =>
      have firm : (w.office.step (.call call)).firm = w.office.firm := by
        rcases Office.firm_step w.office (.call call) with same | ⟨_, other, _⟩
        · exact same
        · cases other
      refine ⟨contract, ?_, keeps.billed, keeps.rated, keeps.stamped, ?_⟩
      · exact (congrArg (fun s => s.contracts.get? id) firm).trans keeps.found
      · intro p mem ended
        rcases keeps.drafted p mem ended with drafted | cut
        · exact Or.inl ((draftsOf_step orderly (.call call)).1.draftsOf drafted)
        · exact Or.inr cut

/-- What the step does is right, if it is in time. -/
theorem Watch.Sound.billsPeriods (sound : w.Sound id) {event : Event} (permitted : w.permits id event = true)
    (inTime : w.office.timely id event = true) : w.office.BillsPeriods id event := by
  rcases sound with ⟨orderly, one, contract, keeps⟩
  refine ⟨?_, ?_, ?_⟩
  · rintro today contract' rfl found p mem ended
    rw [keeps.found, Option.some.injEq] at found
    rw [← found] at mem
    exact keeps.generate orderly permitted inTime mem ended
  · intro day
    exact ((draftsOf_step orderly event).2 one).length_le (orderly.step event).sound.tallied.drafts id day
  · intro r' mem on
    cases event with
    | firm request => exact Or.inl ⟨r', mem, rfl, .refl r'.2⟩
    | generate today =>
        rcases mem_generate orderly.sound mem with old | ⟨r, p, due, row⟩
        · exact Or.inl ⟨r', old, rfl, .refl r'.2⟩
        · right
          have here : r.1 = id := row.contract.symm.trans on
          rcases due with ⟨billed, _, listed⟩
          have found : w.office.firm.contracts.get? id = some r.2 := by
            unfold Office.billedContracts at billed
            rw [List.mem_insertionSort, List.mem_filter] at billed
            rw [← here]
            exact Rows.get?_of_mem orderly.distinct billed.1
          have within := mem_periods_of_due listed
          have ended := List.mem_takeWhile_imp (List.mem_filter.mp listed).1
          rw [here] at row
          exact ⟨today, r.2, p, rfl, found, within, row, of_decide_eq_true ended, finish_le_lastBilledDay within⟩
    | call call =>
        left
        have stepped : w.office.step (.call call) = w.office.called call := rfl
        rw [stepped] at mem
        cases done : call.commit w.office.bills w.office.nextId with
        | error failure =>
            rw [Office.called_of_error done] at mem
            exact ⟨r', mem, rfl, .refl r'.2⟩
        | ok bills =>
            rw [Office.called_of_ok done] at mem
            replace done := (commit_ok.mp done).1
            exact follows_call (v := w.office.bills) orderly.sound done r' mem

/-- A step that does right was in time. -/
theorem Watch.Sound.timely (sound : w.Sound id) {event : Event} (right : w.office.BillsPeriods id event) :
    w.office.timely id event = true := by
  rcases sound with ⟨orderly, _, contract, keeps⟩
  cases event with
  | firm request => rfl
  | call call => rfl
  | generate today =>
      unfold Office.timely
      dsimp only
      rw [keeps.found, Option.all_some]
      split
      · rename_i overflows
        apply isDrafted_iff.mpr
        intro p mem ended
        have drafted := right.every today contract rfl keeps.found p mem ended
        have still : w.office.step (.generate today) = w.office := Office.generate_of_overflows overflows
        rw [still] at drafted
        exact drafted
      by_contra late
      simp only [Bool.or_eq_true, not_or, decide_eq_true_eq, not_not] at late
      rcases late with ⟨⟨status, old⟩, missing⟩
      rcases Option.ne_none_iff_exists'.mp (keeps.stamped status) with ⟨day, stamp⟩
      rw [stamp, Option.any_some, decide_eq_true_eq, not_le] at old
      cases final : (contractPeriods contract).getLast? with
      | none =>
          rw [final] at missing
          exact missing rfl
      | some p =>
          rw [final, Option.all_some, Bool.not_eq_true', List.isEmpty_eq_false_iff, not_not] at missing
          have mem := List.mem_of_getLast? final
          have cut : lastBilledDay contract ≤ day := by
            unfold lastBilledDay
            rw [stamp]
            dsimp only
            rw [if_pos status]
            exact min_le_right _ _
          have ended : p.finish < today := by
            have last := Date.le_iff.mp ((finish_le_lastBilledDay mem).trans cut)
            have back : 0 ≤ lookback := by decide
            rw [Date.lt_iff]
            omega
          have drafted := right.every today contract rfl keeps.found p mem ended
          rcases draftsOf_ne_nil.mp drafted with ⟨r', mem', on, start⟩
          rcases mem_generate orderly.sound mem' with before | ⟨r, q, due, row⟩
          · exact absurd (draftsOf_ne_nil.mpr ⟨r', before, on, start⟩) (not_not.mpr missing)
          · -- the run does not come to the contract
            have here : r.1 = id := row.contract.symm.trans on
            have billed := due.1
            unfold Office.billedContracts at billed
            rw [List.mem_insertionSort, List.mem_filter] at billed
            have found := Rows.get?_of_mem orderly.distinct billed.1
            rw [here, keeps.found, Option.some.injEq] at found
            have considered := billed.2
            unfold Office.isBilled at considered
            rw [← found, status] at considered
            dsimp only at considered
            rw [stamp, Option.any_some, decide_eq_true_eq] at considered
            omega

end Steps

/-! ## Runs -/

theorem Watch.Fresh.sound {w : Watch} {id : Nat} (start : w.Fresh id) : w.Sound id := by
  rcases start.contract with ⟨contract, found, active, rated, ahead⟩
  refine ⟨start.orderly, start.oneLive, contract, found, ?_, rated, ?_, ?_⟩
  · rw [active]
    decide
  · intro terminated
    rw [active] at terminated
    cases terminated
  · intro p mem ended
    exact absurd ended (not_lt.mpr (ahead p mem))

/-- In every run of an office over a contract that starts active with a VAT rate
and keeps its terms, the generator coming once in every lookback: each period
gets its one draft once it has ended and none before, up to the last billed day,
exactly if no run comes too late for a termination or is rolled back before a period
is drafted. -/
theorem every_period_billed (start : Watch) (id : Nat) (fresh : start.Fresh id) (events : List Event)
    (permitted : everyStep Watch.step (Watch.permits id) start events = true) :
    (∀ before event, before ++ [event] <+: events ->
      (run Watch.step start before).office.BillsPeriods id event) ↔
      everyStep Watch.step (fun w => w.office.timely id) start events = true := by
  constructor
  · intro law
    have both : everyStep Watch.step (fun w event => w.permits id event && w.office.timely id event) start
        events = true := by
      apply Transitions.everyStep_of_stepLaw (J := fun w => w.Sound id)
        (L := fun w event => w.permits id event = true ∧ w.office.BillsPeriods id event) ?_ ?_ fresh.sound
      · intro before event earlier
        exact ⟨Transitions.everyStep_iff.mp permitted before event earlier, law before event earlier⟩
      · intro w event here sound
        rcases Bool.and_eq_true_iff.mp here with ⟨permits, inTime⟩
        exact sound.step permits inTime
      · rintro w event sound ⟨permits, right⟩
        rw [permits, sound.timely right]
        rfl
    exact (Transitions.everyStep_and.mp both).2
  · rintro inTime before event ⟨after, rfl⟩
    have both := Transitions.everyStep_and.mpr ⟨permitted, inTime⟩
    rcases Transitions.everyStep_append.mp (Transitions.everyStep_append.mp both).1 with ⟨sofar, here⟩
    have sound := Transitions.run_invariant_of_everyStep (J := fun w => w.Sound id)
      (fun w event passes now => now.step (Bool.and_eq_true_iff.mp passes).1 (Bool.and_eq_true_iff.mp passes).2)
      sofar fresh.sound
    rw [Transitions.everyStep_cons, Bool.and_eq_true, Bool.and_eq_true] at here
    exact sound.billsPeriods here.1.1 here.1.2

/-- A contract billed by the year from January 2026 on. -/
def byYear : Watch where
  office := (Office.start byQuarter.firm).step
    (.firm (.editContract 0 ⟨none, none, none, none, none, none, none, none, none, some .annual, none, none, none⟩))
  since := .first 24312

theorem byYear_fresh : byYear.Fresh 0 := by
  have orderly : byYear.office.Orderly := by
    unfold byYear
    dsimp only
    exact byQuarter.orderly.step _
  have bills : byYear.office.bills.drafts = [] := rfl
  have active : (byYear.office.firm.contracts.get? 0).any (fun contract => decide (contract.status = .active) &&
      contract.vatRate.isSome && (contractPeriods contract).all (fun p => decide (byYear.since ≤ p.finish))) = true := by
    decide +kernel
  refine ⟨orderly, ?_, ?_, ?_⟩
  · intro r mem
    rw [bills] at mem
    cases mem
  · intro r mem
    rw [bills] at mem
    cases mem
  · rcases (Option.any_eq_true _ _).mp active with ⟨contract, found, now⟩
    rw [Bool.and_eq_true, Bool.and_eq_true] at now
    rcases now with ⟨⟨status, rated⟩, ahead⟩
    refine ⟨contract, found, of_decide_eq_true status, ?_, ?_⟩
    · exact Option.isSome_iff_ne_none.mp rated
    · intro p mem
      exact of_decide_eq_true (List.all_eq_true.mp ahead p mem)

/-- In July it is terminated as of the first day of July. -/
theorem every_period_billed_july :
    (∀ before event, before ++ [event] <+: [.generate (.first 24315), .generate (.first 24318),
        .firm (.terminate 0 (.first 24318) "moved"), .generate (.first 24319)] ->
      (run Watch.step byYear before).office.BillsPeriods 0 event) ↔
      everyStep Watch.step (fun w => w.office.timely 0) byYear [.generate (.first 24315), .generate (.first 24318),
        .firm (.terminate 0 (.first 24318) "moved"), .generate (.first 24319)] = true :=
  every_period_billed byYear 0 byYear_fresh _ (by decide +kernel)

/-- Nine lifts at the highest price, by the year, are more than the column of a total holds. -/
def nineLifts : Office :=
  let firm := byYear.office.firm
  { byYear.office with
    firm := { firm with
      contracts := firm.contracts.map (fun r => (r.1, { r.2 with pricingType := .perElevator }))
      lines := (List.range 9).map (fun k => (k, ⟨0, k, some 999999999999, .first 24312, none⟩)) } }

example : nineLifts.overflows (.first 24324) = true ∧ (nineLifts.generate (.first 24324)).bills.drafts = [] := by
  decide +kernel

/-- Runs at each quarter, and a termination in July as of the end of March. -/
def terminatedLate : List Event :=
  [.generate (.first 24315), .generate (.first 24318), .firm (.terminate 0 (Date.first 24315).previous "moved")]

/-- January through March are never billed. -/
theorem first_quarter_unbilled :
    ¬ ∀ (start : Watch) (id : Nat), start.Fresh id -> ∀ events,
      everyStep Watch.step (Watch.permits id) start events = true ->
      ∀ before event, before ++ [event] <+: events -> (run Watch.step start before).office.BillsPeriods id event := by
  intro law
  have right := law byYear 0 byYear_fresh (terminatedLate ++ [.generate (Date.first 24318).next]) (by decide +kernel)
    terminatedLate (.generate (Date.first 24318).next) (List.prefix_refl _)
  have ended : ((run Watch.step byYear terminatedLate).office.firm.contracts.get? 0).any (fun contract =>
      (contractPeriods contract).any (fun p =>
        decide (p.start = Date.first 24312 ∧ p.finish < (Date.first 24318).next))) = true := by
    decide +kernel
  have missing : ((run Watch.step byYear terminatedLate).office.step
      (.generate (Date.first 24318).next)).bills.draftsOf 0 (Date.first 24312) = [] := by
    decide +kernel
  rcases (Option.any_eq_true _ _).mp ended with ⟨contract, found, periods⟩
  rcases List.any_eq_true.mp periods with ⟨p, mem, here⟩
  rcases of_decide_eq_true here with ⟨starts, before⟩
  have drafted := right.every _ contract rfl found p mem before
  rw [starts] at drafted
  exact drafted missing

end Billing
end Shiftlush
