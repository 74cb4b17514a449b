import Shiftlush.Ledger.CarryOverSound
import Shiftlush.Transitions

namespace Shiftlush
namespace Ledger

/-!
# Runs of the carry-over

What a run selects is what it has not carried, so a run without a failure leaves
nothing for the next one.
-/

theorem mem_toCarry {v : Books} {id : Id} :
    id ∈ v.toCarry ↔ ∃ draft, (id, draft) ∈ v.invoices ∧ v.needsCarry id draft = true := by
  unfold Books.toCarry
  rw [List.mem_map]
  constructor
  · rintro ⟨r, mem, rfl⟩
    rw [List.mem_insertionSort] at mem
    rcases List.mem_filter.mp mem with ⟨there, needs⟩
    exact ⟨r.2, there, needs⟩
  · rintro ⟨draft, there, needs⟩
    refine ⟨(id, draft), ?_, rfl⟩
    rw [List.mem_insertionSort]
    exact List.mem_filter.mpr ⟨there, needs⟩

/-- A draft of the selection is still ahead. -/
def Ahead (v : Books) (ahead : List Id) : Prop :=
  ∀ id draft, v.invoices.get? id = some draft -> v.needsCarry id draft = true -> id ∈ ahead

theorem ahead_toCarry (v : Books) : Ahead v v.toCarry := by
  intro id draft found needs
  exact mem_toCarry.mpr ⟨draft, Rows.mem_of_get? found, needs⟩

theorem toCarry_eq_nil {v : Books} (distinct : v.invoices.Distinct) (none' : Ahead v []) : v.toCarry = [] := by
  rw [List.eq_nil_iff_forall_not_mem]
  intro id mem
  rcases mem_toCarry.mp mem with ⟨draft, there, needs⟩
  exact List.not_mem_nil (none' id draft (Rows.get?_of_mem distinct there) needs)

/-- Carrying a draft takes it, and only it, off the selection. -/
theorem Ahead.carried {v v' : Books} {id : Id} {ahead : List Id} {draft : InvoiceDraft} {posted collected : Bool}
    (before : Ahead v (id :: ahead)) (carried : Carried v v' id draft posted collected) : Ahead v' ahead := by
  intro id' draft' found needs
  by_cases here : id' = id
  · rcases carried.invoice with ⟨settlement, row, done⟩
    rw [here, row] at found
    cases found
    rw [here, done] at needs
    cases needs
  · rcases carried.others id' here with ⟨row, debits, paid⟩
    rw [row] at found
    rw [Books.needsCarry_congr debits paid] at needs
    rcases List.mem_cons.mp (before id' draft' found needs) with same | later
    · exact absurd same here
    · exact later

/-- Another draft is written. -/
theorem Ahead.updateInvoice {v : Books} {ahead : List Id} (before : Ahead v ahead) {id : Id} (mem : id ∈ ahead)
    (f : InvoiceDraft -> InvoiceDraft) : Ahead (v.updateInvoice id f) ahead := by
  intro id' draft' found needs
  have rows : (v.updateInvoice id f).invoices = v.invoices.update id f := rfl
  by_cases here : id' = id
  · rw [here]
    exact mem
  · rw [rows, Rows.get?_update_of_ne here] at found
    exact before id' draft' found needs

theorem Ready.updateInvoice {v : Books} {next : Nat} (ready : Ready v next) (id : Id)
    (f : InvoiceDraft -> InvoiceDraft) : Ready (v.updateInvoice id f) next where
  distinct := ready.distinct.update id f
  invoices := ready.invoices.of_isSome (fun id' => Rows.isSome_get?_update v.invoices id id' f)
  documents := ready.documents
  applied := ready.applied
  once := ready.once
  debits := ready.debits

theorem Ready.insertInvoice {v : Books} {next : Nat} (ready : Ready v next) (draft : InvoiceDraft) :
    Ready { v with invoices := v.invoices.insert next draft } (next + 1) where
  distinct := ready.distinct.insert (ready.invoices.absent (Nat.le_refl next))
  invoices := ready.invoices.insert draft
  documents := ready.documents.mono (Nat.le_succ next)
  applied := fun r mem => Nat.lt_succ_of_lt (ready.applied r mem)
  once := ready.once
  debits := ready.debits

namespace CarryOver
namespace State

variable {s : State}

structure Sound (s : State) : Prop where
  ready : Ready s.books s.nextId
  ahead : ∀ ahead result, s.run = some ⟨ahead, result⟩ -> result.failed = 0 -> Ahead s.books ahead

theorem carry_of_ok {id : Id} {ahead : List Id} {result : CarriedOver} {posted collected : Bool} {books : Books}
    {keys : Nat -> Nat} (now' : s.run = some ⟨id :: ahead, result⟩)
    (ends : (carryOverDraft id).alone s.books s.books (fun k => s.nextId + k) =
      .ok ((posted, collected), books, keys)) :
    s.carry = ⟨books, keys 0, some ⟨ahead, result.count posted collected⟩⟩ := by
  unfold State.carry
  rw [now']
  dsimp only
  rw [ends]

theorem carry_of_error {id : Id} {ahead : List Id} {result : CarriedOver} {failure : LedgerError}
    (now' : s.run = some ⟨id :: ahead, result⟩)
    (ends : (carryOverDraft id).alone s.books s.books (fun k => s.nextId + k) = .error failure) :
    s.carry = s.failNext := by
  unfold State.carry
  rw [now']
  dsimp only
  rw [ends]

/-- The turn of a draft: it is carried, or left as it was and counted. -/
theorem carry_cases (sound : s.Sound) {id : Id} {ahead : List Id} {result : CarriedOver}
    (now' : s.run = some ⟨id :: ahead, result⟩) :
    s.carry = { s with run := some ⟨ahead, result.fail⟩ } ∨
      ∃ draft posted collected, s.books.invoices.get? id = some draft ∧
        Carried s.books s.carry.books id draft posted collected ∧ Ready s.carry.books s.carry.nextId ∧
          s.carry.run = some ⟨ahead, result.count posted collected⟩ := by
  cases ends : (carryOverDraft id).alone s.books s.books (fun k => s.nextId + k) with
  | error error =>
      left
      rw [carry_of_error now' ends]
      unfold failNext
      rw [now']
  | ok done =>
      rcases done with ⟨⟨posted, collected⟩, books, keys⟩
      right
      have after := carry_of_ok now' ends
      rcases carryOverDraft_carries sound.ready ends with ⟨draft, found, carried, ready⟩
      refine ⟨draft, posted, collected, found, ?_, ?_, ?_⟩
      · rw [after]
        exact carried
      · rw [after]
        exact ready
      · rw [after]

theorem Sound.fail (sound : s.Sound) (ahead : List Id) (result : CarriedOver) :
    State.Sound { s with run := some ⟨ahead, result.fail⟩ } where
  ready := sound.ready
  ahead := by
    intro ahead' result' same failed
    cases same
    cases failed

theorem Sound.failNext (sound : s.Sound) : s.failNext.Sound := by
  unfold State.failNext
  split
  · exact sound.fail _ _
  · exact sound

theorem Sound.carry (sound : s.Sound) : s.carry.Sound := by
  cases now' : s.run with
  | none =>
      unfold State.carry
      rw [now']
      exact sound
  | some current =>
      rcases current with ⟨_ | ⟨id, ahead⟩, result⟩
      · unfold State.carry
        rw [now']
        exact sound
      · rcases carry_cases sound now' with failed | ⟨draft, posted, collected, _, carried, ready, after⟩
        · rw [failed]
          exact sound.fail ahead result
        · refine ⟨ready, ?_⟩
          intro ahead' result' same clean
          rw [after] at same
          cases same
          exact (sound.ahead _ result now' clean).carried carried

theorem ahead_of_mem {id : Id} (mem : id ∈ s.ahead) :
    ∃ ahead result, s.run = some ⟨ahead, result⟩ ∧ id ∈ ahead := by
  unfold State.ahead at mem
  cases now' : s.run with
  | none =>
      rw [now'] at mem
      cases mem
  | some current =>
      rw [now'] at mem
      exact ⟨current.ahead, current.result, rfl, mem⟩

theorem Sound.step (sound : s.Sound) (event : Event) : (s.step event).Sound := by
  cases event with
  | start =>
      unfold State.step
      dsimp only
      split
      · refine ⟨sound.ready, ?_⟩
        intro ahead result same _
        cases same
        exact ahead_toCarry s.books
      · exact sound
  | carry => exact sound.carry
  | fail => exact sound.failNext
  | stop => exact ⟨sound.ready, fun ahead result same => by cases same⟩
  | add draft =>
      unfold State.step
      dsimp only
      split
      · exact ⟨sound.ready.insertInvoice draft, fun ahead result same => by cases same⟩
      · exact sound
  | change id draft =>
      unfold State.step
      dsimp only
      split
      · exact ⟨sound.ready.updateInvoice id _, fun ahead result same => by cases same⟩
      · split
        · rename_i mem
          refine ⟨sound.ready.updateInvoice id _, ?_⟩
          intro ahead result same clean
          rcases ahead_of_mem mem with ⟨ahead', result', now', mem'⟩
          have same' : some (⟨ahead', result'⟩ : Run) = some ⟨ahead, result⟩ := now'.symm.trans same
          cases same'
          exact (sound.ahead ahead result same clean).updateInvoice mem' _
        · exact sound
  | today day =>
      refine ⟨⟨sound.ready.distinct, sound.ready.invoices, sound.ready.documents, sound.ready.applied,
        sound.ready.once, sound.ready.debits⟩, ?_⟩
      exact sound.ahead

/-! ## A run without a failure -/

/-- Nothing is left to carry: each standing draft for an amount has its one debit,
and none that is paid still owes. -/
structure Clean (v : Books) : Prop where
  selection : v.toCarry = []
  debited : ∀ id draft, v.invoices.get? id = some draft -> draft.standing = true -> draft.total ≠ 0 ->
    ∃ key m account, v.invoiceDebits id = [(key, m)] ∧ m.account = some (account, .debit)
  collected : ∀ id draft, v.invoices.get? id = some draft -> draft.standing = true -> draft.status = .paid ->
    0 < draft.total -> v.invoiceRemaining id draft ≤ 0

/-- An invoice has its one debit or none. -/
theorem debits_cases {v : Books} {next : Nat} (ready : Ready v next) (id : Id) :
    v.invoiceDebits id = [] ∨ ∃ key m account, v.invoiceDebits id = [(key, m)] ∧
      m.account = some (account, .debit) := by
  have one := ready.once id
  have sides := ready.debits id
  cases debits : v.invoiceDebits id with
  | nil => exact Or.inl rfl
  | cons r rest =>
      rw [debits] at one sides
      have alone : rest = [] := List.length_eq_zero_iff.mp (by simpa using one)
      rcases sides r List.mem_cons_self with ⟨account, side⟩
      exact Or.inr ⟨r.1, r.2, account, by rw [alone], side⟩

theorem clean_of_ahead {v : Books} {next : Nat} (ready : Ready v next) (none' : Ahead v []) : Clean v where
  selection := toCarry_eq_nil ready.distinct none'
  debited := by
    intro id draft found standing total
    rcases debits_cases ready id with unposted | one
    · have needs : v.needsCarry id draft = true := by
        unfold Books.needsCarry
        rw [standing, Books.invoicePosted_false.mpr unposted]
        simp [total]
      exact absurd (none' id draft found needs) List.not_mem_nil
    · exact one
  collected := by
    intro id draft found standing paid total
    by_contra owes
    have needs : v.needsCarry id draft = true := by
      unfold Books.needsCarry
      rw [standing]
      simp [paid, total, Int.not_le.mp owes]
    exact List.not_mem_nil (none' id draft found needs)

/-- A run that selects nothing does nothing. -/
theorem idle_run {result : CarriedOver} (now' : s.run = some ⟨[], result⟩) (n : Nat) :
    Transitions.run step s (List.replicate n .carry) = s := by
  induction n with
  | zero => rfl
  | succ n ih =>
      have same : s.step .carry = s := by
        unfold State.step State.carry
        dsimp only
        rw [now']
      rw [List.replicate_succ]
      unfold Transitions.run
      rw [same, ih]

theorem second_run {result : CarriedOver} (now' : s.run = some ⟨[], result⟩) (nothing : s.books.toCarry = [])
    (n : Nat) : (Transitions.run step s (.start :: List.replicate n .carry)).books = s.books ∧
      (Transitions.run step s (.start :: List.replicate n .carry)).run = some ⟨[], ⟨0, 0, 0⟩⟩ := by
  have started : s.step .start = { s with run := some ⟨[], ⟨0, 0, 0⟩⟩ } := by
    unfold State.step State.ahead
    dsimp only
    rw [now', nothing]
    rfl
  unfold Transitions.run
  rw [started, idle_run (s := { s with run := some ⟨[], ⟨0, 0, 0⟩⟩ }) rfl n]
  exact ⟨rfl, rfl⟩

/-- What a turn may do: carry the draft, whole, or leave it and count the failure. -/
def TurnLaw (s : State) : Prop :=
  ∀ id ahead result, s.run = some ⟨id :: ahead, result⟩ ->
    s.step .fail = { s with run := some ⟨ahead, result.fail⟩ } ∧
      (s.step .carry = { s with run := some ⟨ahead, result.fail⟩ } ∨
        ∃ draft posted collected, s.books.invoices.get? id = some draft ∧
          Carried s.books (s.step .carry).books id draft posted collected ∧
            (s.step .carry).run = some ⟨ahead, result.count posted collected⟩)

theorem Sound.turnLaw (sound : s.Sound) : s.TurnLaw := by
  intro id ahead result now'
  constructor
  · unfold State.step State.failNext
    dsimp only
    rw [now']
  · rcases carry_cases sound now' with failed | ⟨draft, posted, collected, found, carried, _, after⟩
    · exact Or.inl failed
    · exact Or.inr ⟨draft, posted, collected, found, carried, after⟩

/-- After any runs, and whatever an old container writes between them and before
a draft's turn: no invoice has two debits, a turn carries its draft whole or
leaves it, and a run without a failure leaves nothing to the next one. -/
theorem carry_over_once (sound : s.Sound) (events : List Event) :
    (∀ id, ((Transitions.run step s events).books.invoiceDebits id).length ≤ 1) ∧
      (Transitions.run step s events).TurnLaw ∧
      ∀ result, (Transitions.run step s events).run = some ⟨[], result⟩ -> result.failed = 0 ->
        Clean (Transitions.run step s events).books ∧
          ∀ n, (Transitions.run step (Transitions.run step s events) (.start :: List.replicate n .carry)).books =
            (Transitions.run step s events).books ∧
              (Transitions.run step (Transitions.run step s events) (.start :: List.replicate n .carry)).run =
                some ⟨[], ⟨0, 0, 0⟩⟩ := by
  have reached : (Transitions.run step s events).Sound :=
    Transitions.run_invariant (J := Sound) (fun _ event sound => sound.step event) events sound
  refine ⟨reached.ready.once, reached.turnLaw, ?_⟩
  intro result now' clean
  have nothing := clean_of_ahead reached.ready (reached.ahead [] result now' clean)
  exact ⟨nothing, second_run now' nothing.selection⟩

/-- Before the ledger there are drafts and nothing else. -/
theorem sound_preLedger {books : Books} {next : Nat} (distinct : books.invoices.Distinct)
    (below : ∀ r ∈ books.invoices, r.1 < next) (documents : books.documents = [])
    (applications : books.applications = []) (movements : books.movements = []) :
    State.Sound ⟨books, next, none⟩ where
  ready := {
    distinct := distinct
    invoices := by
      intro id here
      rcases Option.isSome_iff_exists.mp here with ⟨draft, found⟩
      exact below _ (Rows.mem_of_get? found)
    documents := by
      intro id here
      rw [documents] at here
      cases here
    applied := by
      intro r mem
      rw [applications] at mem
      cases mem
    once := by
      intro id
      unfold Books.invoiceDebits
      rw [movements]
      exact Nat.zero_le 1
    debits := by
      intro id r mem
      unfold Books.invoiceDebits at mem
      rw [movements] at mem
      cases mem }
  ahead := fun ahead result same => by cases same

/-! ## A small ledger -/

/-- An issued draft, a paid one, an issued one for nothing, and one that is not issued. -/
def legacyDraft (total : Cents) (status : InvoiceStatus) (invoiceDate paidOn : Option Date) : InvoiceDraft where
  company := 1
  customer := 2
  currency := "TRY"
  vatRate := 20
  lines := []
  subtotal := total
  vatAmount := 0
  total := total
  status := status
  invoiceNumber := ""
  invoiceDate := invoiceDate
  paidOn := paidOn
  cancelledAt := none
  cancelReason := ""

def legacyBooks : Books where
  today := 100
  companies := [(1, ⟨none⟩)]
  accounts := []
  cashAccounts := []
  invoices := [(10, legacyDraft 12000 .issued (some 90) none), (11, legacyDraft 6000 .paid (some 120) (some 95)),
    (12, legacyDraft 0 .issued (some 80) none), (13, legacyDraft 500 .draft none none)]
  documents := []
  applications := []
  movements := []
  counters := fun _ _ => 0

def legacy : State := ⟨legacyBooks, 14, none⟩

theorem sound_legacy : legacy.Sound :=
  sound_preLedger (by decide) (by decide) rfl rfl rfl

/-- The draft that was not issued is issued, the old way, before the run ends. -/
def oneRun : List Event :=
  [.start, .carry, .carry, .carry, .change 13 (legacyDraft 500 .issued (some 99) none), .start, .carry]

theorem carry_over_once_oneRun :
    ∃ result, (Transitions.run step legacy oneRun).run = some ⟨[], result⟩ ∧
      Clean (Transitions.run step legacy oneRun).books := by
  have after : (Transitions.run step legacy oneRun).run = some ⟨[], ⟨1, 0, 0⟩⟩ := by decide +kernel
  have clean := (carry_over_once sound_legacy oneRun).2.2 ⟨1, 0, 0⟩ after rfl
  exact ⟨⟨1, 0, 0⟩, after, clean.1⟩

end State
end CarryOver
end Ledger
end Shiftlush
