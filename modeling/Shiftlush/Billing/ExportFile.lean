import Shiftlush.Exports
import Shiftlush.Billing.Integrity

namespace Shiftlush
namespace Billing

/-!
# The export of the drafts

`documents.export_csv`: a row for each draft the list shows.  The file is read back draft for
draft, and whatever the office did before, each of its rows adds up.
-/

open Calendar (Date)
open Exports
open Fleet (Firm)
open Ledger (InvoiceStatus)

/-! ## Subtotal and VAT make the total -/

def InvoiceDraft.Summed (draft : InvoiceDraft) : Prop := draft.total = draft.subtotal + draft.vatAmount

/-- Of every draft, the closed ones and the cancelled ones too. -/
def Bills.Summed (v : Bills) : Prop := ∀ r ∈ v.drafts, r.2.Summed

namespace Bills.Summed

variable {v : Bills} (summed : v.Summed)

include summed

theorem updateDraft (id : Nat) {f : InvoiceDraft -> InvoiceDraft} (keeps : ∀ draft, draft.Summed -> (f draft).Summed) :
    (v.updateDraft id f).Summed := by
  intro r mem
  rcases Rows.mem_update.mp mem with ⟨listed, _⟩ | ⟨draft, listed, rfl⟩
  · exact summed r listed
  · exact keeps draft (summed _ listed)

theorem recompute (id : Nat) : (v.recompute id).Summed := by
  unfold Bills.recompute
  split
  · split
    · exact summed.updateDraft id (fun _ _ => rfl)
    · exact summed
  · exact summed

omit summed in
theorem of_drafts {w : Bills} (kept : w.Summed) (same : v.drafts = w.drafts) : v.Summed := by
  intro r mem
  rw [same] at mem
  exact kept r mem

end Bills.Summed

theorem summed_synced (covered : Option Date) {draft : InvoiceDraft} (summed : draft.Summed) :
    (draft.synced covered).Summed := by
  unfold InvoiceDraft.synced
  split_ifs <;> exact summed

theorem summed_settled {draft : InvoiceDraft} (summed : draft.Summed) : draft.settled.Summed := by
  unfold InvoiceDraft.settled
  split_ifs <;> exact summed

/-- No call of the office leaves a draft that does not add up. -/
theorem Bills.Summed.call {v v' : Bills} {key : Nat} (summed : v.Summed) {call : Call}
    (done : call.attempt v key = .ok v') : v'.Summed := by
  cases call with
  | addLine draft new =>
      rcases addLine_ok done with ⟨_, _, _, rfl⟩
      have inserted : (v.insertLine key (new.row draft (v.lastPosition draft + 1))).Summed := summed
      exact inserted.recompute draft
  | editLine id changes =>
      rcases editLine_ok done with ⟨line, _, _, _, _, _, rfl⟩
      have edited : (v.updateLine id (InvoiceLine.savedOver (changes.apply line))).Summed := summed
      exact edited.recompute line.draft
  | removeLine id =>
      rcases removeLine_ok done with ⟨line, _, _, _, _, _, rfl⟩
      have removed : (v.updateLine id InvoiceLine.deleted).Summed := summed
      exact removed.recompute line.draft
  | issue id number date posts =>
      rcases issue_ok done with ⟨_, _, _, _, rfl⟩
      exact (summed.recompute id).updateDraft id (fun draft now => summed_settled now)
  | markPaid id settles =>
      rcases markPaid_ok done with ⟨_, _, _, rfl⟩
      exact summed.updateDraft id (fun _ now => now)
  | cancel id reason reverses =>
      rcases cancel_ok done with ⟨_, _, _, rfl⟩
      exact summed.updateDraft id (fun _ now => now)
  | sync id covered =>
      cases done
      exact summed.updateDraft id (fun _ now => summed_synced covered now)

theorem Office.summed_draftFor {o : Office} (summed : o.bills.Summed) (id : Nat) (contract : Fleet.Contract)
    (vatRate : Int) (period : Period) : (o.draftFor id contract vatRate period).bills.Summed := by
  unfold Office.draftFor
  split
  · exact summed
  · apply Bills.Summed.recompute
    intro r mem
    rcases List.mem_append.mp mem with before | new
    · exact summed r before
    · rw [List.mem_singleton.mp new]
      rfl

theorem Office.summed_step {o : Office} (summed : o.bills.Summed) (event : Event) : (o.step event).bills.Summed := by
  cases event with
  | firm event => exact summed
  | generate today =>
      exact Office.generate_invariant_of_draftFor (J := fun o => o.bills.Summed)
        (fun o id contract vatRate period now => Office.summed_draftFor now id contract vatRate period) summed
  | call call =>
      have stepped : o.step (.call call) = o.called call := rfl
      rw [stepped]
      cases done : call.commit o.bills o.nextId with
      | error failure =>
          rw [Office.called_of_error done]
          exact summed
      | ok bills =>
          rw [Office.called_of_ok done]
          replace done := (commit_ok.mp done).1
          exact summed.call done

theorem summed_reached (firm : Firm) (events : List Event) : (reached firm events).bills.Summed := by
  apply Transitions.run_invariant (J := fun o : Office => o.bills.Summed) (fun o event now => o.summed_step now event)
  intro r mem
  cases mem

/-! ## The file -/

/-- `templates/billing/export_header.txt` -/
def exportHeader : List Csv.Field :=
  ["Müşteri".toList, "Sözleşme no".toList, "Dönem başı".toList, "Dönem sonu".toList, "Ara toplam".toList, "KDV".toList,
    "Genel toplam".toList, "Para birimi".toList, "Durum".toList, "Fatura no".toList]

/-- `templates/billing/status_label.txt` -/
def statusLabel : InvoiceStatus -> List Char
  | .draft => "Taslak".toList
  | .issued => "Düzenlendi".toList
  | .paid => "Ödendi".toList
  | .cancelled => "İptal".toList

section Writing

-- `customer.legal_name` and `contract.contract_number`, which people type
variable (legalName contractNumber : Nat -> List Char)

def exportRow (draft : InvoiceDraft) : List Csv.Field :=
  [safeCell (legalName draft.customer), safeCell (contractNumber draft.contract), date (some draft.periodStart),
    date (some draft.periodEnd), decimal draft.subtotal, decimal draft.vatAmount, decimal draft.total,
    draft.currency.toList, statusLabel draft.status, safeCell draft.invoiceNumber.toList]

/-- `export_csv` -/
def exportCsv (drafts : List InvoiceDraft) : List Char :=
  writeFile (exportHeader :: drafts.map (exportRow legalName contractNumber))

end Writing

/-! ## Reading the file -/

structure ExportLine where
  customer : List Char
  contract : List Char
  periodStart : Option Date
  periodEnd : Option Date
  subtotal : Cents
  vatAmount : Cents
  total : Cents
  currency : List Char
  status : List Char
  invoiceNumber : List Char
  deriving DecidableEq

def readExportLine : List Csv.Field -> Option ExportLine
  | [customer, contract, start, finish, subtotal, vatAmount, total, currency, status, number] => do
      let start ← readOptional Numerals.readDate start
      let finish ← readOptional Numerals.readDate finish
      let subtotal ← readDecimal subtotal
      let vatAmount ← readDecimal vatAmount
      let total ← readDecimal total
      return ⟨customer, contract, start, finish, subtotal, vatAmount, total, currency, status, number⟩
  | _ => none

def readExport (file : List Char) : Option (List ExportLine) := do
  let rows ← readFile file
  (rows.drop 1).mapM readExportLine

/-- What a row says of its draft. -/
def exportLine (legalName contractNumber : Nat -> List Char) (draft : InvoiceDraft) : ExportLine where
  customer := safeCell (legalName draft.customer)
  contract := safeCell (contractNumber draft.contract)
  periodStart := some draft.periodStart
  periodEnd := some draft.periodEnd
  subtotal := draft.subtotal
  vatAmount := draft.vatAmount
  total := draft.total
  currency := draft.currency.toList
  status := statusLabel draft.status
  invoiceNumber := safeCell draft.invoiceNumber.toList

/-- The days of a period are dates. -/
def InvoiceDraft.Dated (draft : InvoiceDraft) : Prop :=
  Calendar.firstDate ≤ draft.periodStart ∧ Calendar.firstDate ≤ draft.periodEnd

section Reading

variable {legalName contractNumber : Nat -> List Char}

theorem readExportLine_exportRow {draft : InvoiceDraft} (dated : draft.Dated) :
    readExportLine (exportRow legalName contractNumber draft) = some (exportLine legalName contractNumber draft) := by
  have start : readOptional Numerals.readDate (date (some draft.periodStart)) = some (some draft.periodStart) :=
    readOptional_date (fun d same => (Option.some.inj same) ▸ dated.1)
  have finish : readOptional Numerals.readDate (date (some draft.periodEnd)) = some (some draft.periodEnd) :=
    readOptional_date (fun d same => (Option.some.inj same) ▸ dated.2)
  simp [readExportLine, exportRow, exportLine, start, finish]

theorem mapM_readExportLine {drafts : List InvoiceDraft} (dated : ∀ draft ∈ drafts, draft.Dated) :
    (drafts.map (exportRow legalName contractNumber)).mapM readExportLine =
      some (drafts.map (exportLine legalName contractNumber)) := by
  induction drafts with
  | nil => rfl
  | cons draft drafts ih =>
      have rest := ih (fun draft mem => dated draft (List.mem_cons_of_mem _ mem))
      rw [List.map_cons, List.mapM_cons, readExportLine_exportRow (dated draft List.mem_cons_self), rest]
      rfl

theorem readExport_exportCsv {drafts : List InvoiceDraft} (dated : ∀ draft ∈ drafts, draft.Dated) :
    readExport (exportCsv legalName contractNumber drafts) = some (drafts.map (exportLine legalName contractNumber)) := by
  unfold readExport exportCsv
  rw [readFile_writeFile]
  exact mapM_readExportLine dated

end Reading

/-- What the accountant may rely on in an exported line. -/
structure ExportLine.Sound (line : ExportLine) : Prop where
  adds : line.total = line.subtotal + line.vatAmount
  customer : isFormula line.customer = false
  contract : isFormula line.contract = false
  invoiceNumber : isFormula line.invoiceNumber = false

/-- After any history of the office the export of any of its drafts is read back as those drafts,
line for line, and every line adds up and holds nothing a spreadsheet would run. -/
theorem export_reads_back (legalName contractNumber : Nat -> List Char) (firm : Firm) (events : List Event)
    (drafts : List InvoiceDraft) (selected : ∀ draft ∈ drafts, ∃ id, (id, draft) ∈ (reached firm events).bills.drafts)
    (dated : ∀ draft ∈ drafts, draft.Dated) :
    ∃ lines, readExport (exportCsv legalName contractNumber drafts) = some lines ∧
      lines = drafts.map (exportLine legalName contractNumber) ∧ (∀ line ∈ lines, line.Sound) ∧
      (lines.map (·.total)).sum = (lines.map (·.subtotal)).sum + (lines.map (·.vatAmount)).sum := by
  have sound : ∀ line ∈ drafts.map (exportLine legalName contractNumber), line.Sound := by
    intro line mem
    rcases List.mem_map.mp mem with ⟨draft, listed, rfl⟩
    rcases selected draft listed with ⟨id, stored⟩
    have adds : draft.Summed := summed_reached firm events _ stored
    exact ⟨adds, isFormula_safeCell _, isFormula_safeCell _, isFormula_safeCell _⟩
  refine ⟨_, readExport_exportCsv dated, rfl, sound, ?_⟩
  generalize drafts.map (exportLine legalName contractNumber) = lines at sound
  induction lines with
  | nil => rfl
  | cons line lines ih =>
      have here := (sound line List.mem_cons_self).adds
      have rest := ih (fun line mem => sound line (List.mem_cons_of_mem _ mem))
      simp only [List.map_cons, List.sum_cons, here, rest]
      exact add_add_add_comm _ _ _ _

/-- The invoice of January, exported under a name that a spreadsheet would run. -/
theorem export_reads_back_january : ∃ draft, draft.total = 180000 ∧ ∃ lines,
    readExport (exportCsv (fun _ => "=SUM(A1)".toList) (fun _ => "2026-0001".toList) [draft]) = some lines ∧
      ∀ line ∈ lines, line.Sound := by
  have issued : ((reached repaired issuedJanuary).bills.drafts.head?).any (fun r => decide (r.2.total = 180000) &&
      decide (Calendar.firstDate ≤ r.2.periodStart) && decide (Calendar.firstDate ≤ r.2.periodEnd)) = true := by
    decide +kernel
  rcases (Option.any_eq_true _ _).mp issued with ⟨⟨id, draft⟩, found, facts⟩
  simp only [Bool.and_eq_true, decide_eq_true_eq] at facts
  have stored : ∀ d ∈ [draft], ∃ id, (id, d) ∈ (reached repaired issuedJanuary).bills.drafts := by
    intro d mem
    rw [List.mem_singleton.mp mem]
    exact ⟨id, List.mem_of_mem_head? found⟩
  have dated : ∀ d ∈ [draft], d.Dated := by
    intro d mem
    rw [List.mem_singleton.mp mem]
    exact ⟨facts.1.2, facts.2⟩
  rcases export_reads_back (fun _ => "=SUM(A1)".toList) (fun _ => "2026-0001".toList) repaired issuedJanuary [draft]
    stored dated with ⟨lines, read, _, sound, _⟩
  exact ⟨draft, facts.1.1, lines, read, sound⟩

end Billing
end Shiftlush
