import Shiftlush.Failing
import Shiftlush.Rows

namespace Shiftlush
namespace Reports
namespace Files

open Failing (Failures Session point query change raise catching each)

/-!
# The files of the monthly reports

`apps.reports.services` with a failure at any point.  The object store is outside the
database: a rollback gives back the rows and leaves the objects, which only `_discard`
takes away.
-/

/-- An attachment, as far as its object goes. -/
structure Attachment where
  /-- `none` once the object is purged. -/
  storageKey : Option Nat
  isDeleted : Bool
  deriving DecidableEq

inductive ReportDelivery where
  | pending
  | sent
  | notEnabled
  | noRecipient
  | failed
  deriving DecidableEq, Repr

structure CustomerReport where
  customer : Nat
  period : Int
  file : Option Nat
  delivery : ReportDelivery
  recipients : List String
  /-- The addresses that `error` names. -/
  undelivered : List String
  isDeleted : Bool
  deriving DecidableEq

structure Database where
  attachments : Rows Attachment
  reports : Rows CustomerReport

/-- What no transaction gives back. -/
structure Outside where
  /-- The keys under which there are objects. -/
  objects : List Nat
  /-- The list `stored`, of the keys of the files in it. -/
  stored : List Nat
  /-- The next `uuid7`. -/
  nextId : Nat

/-- A message that waits for the commit. -/
structure Message where
  report : Nat
  address : String

inductive Raised where
  | integrityError
  | conflict
  | other
  deriving DecidableEq, Repr

/-- Where something can fail. -/
inductive Point where
  | reportExists
  | buildReport
  | render
  | put
  | insertAttachment
  | insertReport
  | recipients
  | recipientsAgain
  | liveFile
  | oldFile
  | saveFile
  | deleteOld
  | release
  | liveFileAgain
  | fetch
  | portal
  | saveDelivery
  | complete
  | commit
  | discard
  | prepare (address : String)
  | send (address : String)
  | record (address : String)
  deriving DecidableEq

abbrev World := Session Database Outside Message

abbrev Prog := Failing.Prog Point Raised World

/-- What the record says of a customer when its report is made. -/
structure Request where
  customer : Nat
  period : Int
  /-- `data.lifts` -/
  covered : Bool
  emails : List String
  /-- `monthly_reports_enabled` -/
  enabled : Bool
  send : Bool
  /-- Another run commits the report after this one has looked for it. -/
  raced : Bool

/-- The live reports of a customer and a month. -/
def liveOf (customer : Nat) (period : Int) (r : Nat × CustomerReport) : Bool :=
  decide (r.2.customer = customer ∧ r.2.period = period ∧ r.2.isDeleted = false)

def Database.hasReport (db : Database) (customer : Nat) (period : Int) : Bool := db.reports.any (liveOf customer period)

def setReports (f : Rows CustomerReport -> Rows CustomerReport) : Prog Unit :=
  change (fun w => { w with db := { w.db with reports := f w.db.reports } })

def setAttachments (f : Rows Attachment -> Rows Attachment) : Prog Unit :=
  change (fun w => { w with db := { w.db with attachments := f w.db.attachments } })

def setObjects (f : List Nat -> List Nat) : Prog Unit :=
  change (fun w => { w with outside := { w.outside with objects := f w.outside.objects } })

/-- `uuid7` -/
def fresh : Prog Nat := do
  let id ← query (fun w => w.outside.nextId)
  change (fun w => { w with outside := { w.outside with nextId := w.outside.nextId + 1 } })
  return id

/-- The scope of a `stored: list[Attachment] = []`. -/
def listing {α : Type} (body : Prog α) : Prog α := fun f w =>
  let ended := body f { w with outside := { w.outside with stored := [] } }
  (ended.1, { ended.2 with outside := { ended.2.outside with stored := w.outside.stored } })

/-! ## Storing -/

/-- `save_bytes`: the row's id and the key. -/
def saveBytes : Prog (Nat × Nat) := do
  let key ← fresh
  point .put
  setObjects (fun objects => key :: objects)
  point .insertAttachment
  let id ← fresh
  setAttachments (fun attachments => attachments.insert id { storageKey := some key, isDeleted := false })
  return (id, key)

def storePdf : Prog Nat := do
  point .render
  let file ← saveBytes
  change (fun w => { w with outside := { w.outside with stored := w.outside.stored ++ [file.2] } })
  return file.1

def discard : Prog Unit := do
  let stored ← query (fun w => w.outside.stored)
  each stored (fun key => catching
    (do
      point .discard
      setObjects (fun objects => objects.filter (fun other => decide (other ≠ key))))
    (fun _ => pure ()))

/-- `except Exception: _discard(stored); raise` -/
def discarding {α : Type} (body : Prog α) : Prog α :=
  catching body (fun e => do
    discard
    raise e)

/-! ## Mails -/

/-- The report with an address that did not get the mail. -/
def CustomerReport.missed (report : CustomerReport) (address : String) : CustomerReport :=
  { report with
    delivery := .failed
    undelivered := if address ∈ report.undelivered then report.undelivered else report.undelivered ++ [address] }

def markFailed (message : Message) : Prog Unit :=
  setReports (fun reports => reports.update message.report (fun report => report.missed message.address))

/-- `mail._send`, whose failure `_record_failure` hears of. -/
def sendMessage (message : Message) : Prog Unit := do
  point (.prepare message.address)
  catching (point (.send message.address)) (fun _ =>
    catching
      (do
        point (.record message.address)
        markFailed message)
      (fun _ => pure ()))

def atomic {α : Type} (exit : Point) (body : Prog α) : Prog α := Failing.atomic exit sendMessage body

/-! ## Making reports -/

def create (r : Request) : Prog (Option Nat) := do
  point .reportExists
  let there ← query (fun w => w.db.hasReport r.customer r.period && !r.raced)
  if there then return none
  point .buildReport
  if !r.covered then return none
  let file ← storePdf
  point .insertReport
  -- `uq_customer_report_period`
  let clash ← query (fun w => w.db.hasReport r.customer r.period)
  if clash then raise .integrityError
  let id ← fresh
  setReports (fun reports => reports.insert id
    { customer := r.customer, period := r.period, file := some file, delivery := .pending, recipients := [],
      undelivered := [], isDeleted := false })
  return some id

def generateOne (r : Request) : Prog (Option Nat) := listing (discarding (atomic .commit (create r)))

/-- `live_file`: the row's id and the key. -/
def Database.liveFile (db : Database) (report : Nat) : Option (Nat × Nat) := do
  let report ← db.reports.get? report
  let file ← report.file
  let attachment ← db.attachments.get? file
  let key ← attachment.storageKey
  if attachment.isDeleted then none else some (file, key)

/-- `regenerate`, in its transaction. -/
def rerender (report : Nat) : Prog Unit := do
  point .buildReport
  point .oldFile
  let old ← query (fun w => w.db.liveFile report)
  let file ← listing (discarding storePdf)
  point .saveFile
  setReports (fun reports => reports.update report (fun row => { row with file := some file }))
  match old with
  | none => return ()
  | some old => do
      point .deleteOld
      setAttachments (fun attachments => attachments.update old.1 (fun row => { row with isDeleted := true }))

/-- `regenerate`, whose transaction ends at a point of its own. -/
def regenerate (exit : Point) (report : Nat) : Prog Unit := atomic exit (rerender report)

/-- `report.save(update_fields=["delivery", ...])` -/
def saveDelivery (report : Nat) (f : CustomerReport -> CustomerReport) : Prog Unit := do
  point .saveDelivery
  setReports (fun reports => reports.update report f)

/-- `send_report`, from the file on. -/
def mailReport (report : Nat) (emails : List String) : Prog Unit := do
  let file ← query (fun w => w.db.liveFile report)
  match file with
  | none => raise .other
  | some file => do
      point .fetch
      let there ← query (fun w => decide (file.2 ∈ w.outside.objects))
      if !there then raise .other
      point .portal
      change (fun w => { w with hooks := w.hooks ++ emails.map (fun address => ⟨report, address⟩) })
      saveDelivery report (fun row => { row with delivery := .sent, recipients := emails, undelivered := [] })

/-- `send_report`, in the transaction of its caller. -/
def sendReport (report : Nat) (emails : List String) : Prog Unit := do
  point .recipientsAgain
  if emails = [] then raise .conflict
  point .liveFile
  let file ← query (fun w => w.db.liveFile report)
  if file.isNone then
    regenerate .release report
    point .liveFileAgain
  mailReport report emails

def deliver (r : Request) (report : Nat) : Prog Unit := do
  if !r.send || !r.enabled then
    saveDelivery report (fun row => { row with delivery := .notEnabled })
  else
    point .recipients
    if r.emails = [] then
      saveDelivery report (fun row => { row with delivery := .noRecipient })
    else
      sendReport report r.emails

/-- One customer's turn of `generate`, which logs what it catches. -/
def generateFor (r : Request) : Prog Unit := listing (catching
  (atomic .commit do
    let report ← create r
    match report with
    | none => return ()
    | some report => deliver r report)
  (fun _ => discard))

def getObject (report : Nat) : Prog Unit := do
  let there ← query (fun w => w.db.reports.any (fun r => decide (r.1 = report ∧ r.2.isDeleted = false)))
  if !there then raise .other

/-- The request to send a report, in the transaction that completes its key. -/
def send (report : Nat) (emails : List String) : Prog Unit := do
  getObject report
  atomic .commit do
    sendReport report emails
    point .complete

/-- The request to render a report again. -/
def renderAgain (report : Nat) : Prog Unit := do
  getObject report
  regenerate .commit report

/-! ## Runs -/

inductive Event where
  /-- The customers of a run of the job, each with what fails in its turn. -/
  | generate (turns : List (Request × Failures Point Raised))
  | generateOne (r : Request) (f : Failures Point Raised)
  | send (report : Nat) (emails : List String) (f : Failures Point Raised)
  | renderAgain (report : Nat) (f : Failures Point Raised)
  /-- A file is deleted, elsewhere. -/
  | deleteAttachment (id : Nat)

/-- `generate`: each customer is its own transaction. -/
def generate (w : World) (turns : List (Request × Failures Point Raised)) : World :=
  turns.foldl (fun w turn => (generateFor turn.1 turn.2 w).2) w

def step (w : World) : Event -> World
  | .generate turns => generate w turns
  | .generateOne r f => (generateOne r f w).2
  | .send report emails f => (send report emails f w).2
  | .renderAgain report f => (renderAgain report f w).2
  | .deleteAttachment id => { w with db := { w.db with
      attachments := w.db.attachments.update id (fun row => { row with isDeleted := true }) } }

end Files
end Reports
end Shiftlush
