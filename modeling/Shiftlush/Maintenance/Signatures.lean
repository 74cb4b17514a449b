import Shiftlush.Maintenance.Plan
import Shiftlush.Saves
import Shiftlush.Text
import Shiftlush.Uniqueness

namespace Shiftlush
namespace Maintenance
namespace Signatures

/-!
# The building's signature on a visit

`apps.maintenance.signatures`, and the requests that record a visit, edit it and replace its
checklist.  An edit reads the visit and writes every column of it later, with its checklist, in one
transaction.  `set-checklist` reads it, replaces the checklist in a transaction, and then writes the
mark by itself.  Each may end anywhere.  The rows are those of one company.
-/

inductive SignatureStatus
  | signed
  | notPresent
  | declined
  deriving DecidableEq

inductive SignerRole
  | manager
  | caretaker
  | staff
  | other
  deriving DecidableEq

/-- `SIGNATURE_FIELDS`, where an empty choice is none. -/
structure Signature where
  status : Option SignatureStatus := none
  signerName : String := ""
  signerRole : Option SignerRole := none
  signedAt : Option Int := none
  deriving DecidableEq

inductive SignatureField
  | signatureStatus
  | signerName
  | signerRole
  deriving DecidableEq

inductive ErrorCode
  | required
  | invalid
  deriving DecidableEq

/-- `check_signature_fields` of a visit being created. -/
def checkSignatureFields (now : Int) (status : VisitStatus) (given : Signature) :
    Except (SignatureField × ErrorCode) Signature :=
  let name := strip given.signerName
  match given.status with
  | none =>
      if status = .completed then .error (.signatureStatus, .required)
      else if name ≠ "" then .error (.signerName, .invalid)
      else if given.signerRole.isSome then .error (.signerRole, .invalid)
      else .ok { given with signedAt := none }
  | some .signed =>
      if name = "" then .error (.signerName, .required)
      else if given.signerRole.isNone then .error (.signerRole, .required)
      else
        -- the device's clock, kept unless it is missing or ahead of the server's
        let signedAt := match given.signedAt with
          | some day => if day ≤ now then day else now
          | none => now
        .ok { given with signerName := name, signedAt := some signedAt }
  | some _ =>
      if name ≠ "" then .error (.signerName, .invalid)
      else if given.signerRole.isSome then .error (.signerRole, .invalid)
      else .ok { given with signedAt := none }

/-! ## Rows -/

inductive ChecklistItem
  | brakeSystem
  | hoistingRopes
  | landingDoors
  | carDoorSafetyEdge
  | limitSwitches
  | guideRailLubrication
  | carLighting
  | emergencyLighting
  | emergencyAlarmIntercom
  | controlPanelButtons
  | levelingAccuracy
  | overloadDevice
  | automaticRescueDevice
  | pitCondition
  | machineRoomCondition
  | earthingGrounding
  deriving DecidableEq

inductive ChecklistResult
  | ok
  | attentionNeeded
  | notApplicable
  deriving DecidableEq

structure Entry where
  item : ChecklistItem
  result : ChecklistResult
  note : String
  deriving DecidableEq

/-- `MaintenanceVisitItem` -/
structure Item where
  visit : Nat
  entry : Entry
  isDeleted : Bool
  deriving DecidableEq

/-- What the technician fills in. -/
structure Form where
  visit : Visit
  statusNote : String
  workNotes : String
  partsReplaced : String
  deriving DecidableEq

/-- `MaintenanceVisit` -/
structure Record where
  form : Form
  signature : Signature
  amendedAfterSignature : Bool
  createdAt : Int
  isDeleted : Bool
  deriving DecidableEq

def Record.signed (record : Record) : Bool := decide (record.signature.status = some .signed)

def Record.isLive (record : Record) : Bool := !record.isDeleted

structure FormChanges where
  visit : VisitChanges
  statusNote : Option String
  workNotes : Option String
  partsReplaced : Option String

def FormChanges.apply (changes : FormChanges) (form : Form) : Form where
  visit := changes.visit.apply form.visit
  statusNote := changes.statusNote.getD form.statusNote
  workNotes := changes.workNotes.getD form.workNotes
  partsReplaced := changes.partsReplaced.getD form.partsReplaced

/-! ## The checklist -/

/-- `uq_maintenance_visit_item` -/
def itemKey (row : Item) : Option (Nat × ChecklistItem) :=
  if row.isDeleted then none else some (row.visit, row.entry.item)

/-- `_each_item_once` -/
def eachItemOnce (entries : List Entry) : Bool := decide (entries.map (·.item)).Nodup

def Item.deleted (row : Item) : Item := { row with isDeleted := true }

/-- The rows that `visit.items.all().delete()` takes when it runs. -/
def liveItems (visit : Nat) (items : Rows Item) : List Nat :=
  (items.filter (fun r => decide (r.2.visit = visit) && !r.2.isDeleted)).map Prod.fst

def clearItems (cleared : List Nat) (items : Rows Item) : Rows Item :=
  items.updateWhere (fun id _ => decide (id ∈ cleared)) Item.deleted

/-- One `INSERT`, under the next key. -/
def addItem (visit : Nat) (table : Rows Item × Nat) (entry : Entry) : Option (Rows Item × Nat) :=
  let row : Item := { visit := visit, entry := entry, isDeleted := false }
  if Rows.clashes itemKey table.1 table.2 row then none else some (table.1.insert table.2 row, table.2 + 1)

/-- `services.set_checklist`, which has cleared what it found and commits. -/
def setChecklist (visit : Nat) (cleared : List Nat) (entries : List Entry) (table : Rows Item × Nat) :
    Option (Rows Item × Nat) :=
  entries.foldlM (addItem visit) (clearItems cleared table.1, table.2)

/-- The items of a visit that are not deleted, in the order they came. -/
def checklist (items : Rows Item) (visit : Nat) : List Entry :=
  (items.filter (fun r => decide (r.2.visit = visit) && !r.2.isDeleted)).map (·.2.entry)

/-! ## The logbook -/

/-- A request that has read its visit. -/
inductive Call
  | edit (id : Nat) (record : Record) (changes : FormChanges) (items : Option (List Entry))
  /-- The edit has written the visit, and cleared these of its items, and has not committed. -/
  | editing (id : Nat) (record : Record) (changes : FormChanges) (items : Option (List Entry)) (cleared : List Nat)
  | setChecklist (id : Nat) (record : Record) (entries : List Entry)
  /-- The transaction of `set_checklist` has cleared these items, and has not committed. -/
  | replacing (id : Nat) (record : Record) (entries : List Entry) (cleared : List Nat)
  /-- The checklist is there, and the visit is to get its mark. -/
  | mark (id : Nat) (record : Record)

/-- The request holds the row lock of its visit. -/
def Call.holds : Call -> Nat -> Bool
  | .editing id _ _ _ _, visit => decide (id = visit)
  | _, _ => false

structure Logbook where
  visits : Rows Record
  items : Rows Item
  next : Nat
  calls : List Call

def Logbook.empty : Logbook := ⟨[], [], 1, []⟩

inductive Event
  /-- A visit is recorded; its row is written so much later than the clock was read. -/
  | create (now : Int) (later : Nat) (form : Form) (given : Signature) (items : Option (List Entry))
  | edit (id : Nat) (changes : FormChanges) (items : Option (List Entry)) (namesSignature : Bool)
  | setChecklist (id : Nat) (entries : List Entry)
  /-- A request that has read its visit goes on. -/
  | advance (index : Nat)
  /-- The request ends where it is. -/
  | drop (index : Nat)
  | destroy (id : Nat)

/-- `get_object` -/
def Logbook.find (v : Logbook) (id : Nat) : Option Record := (v.visits.get? id).filter Record.isLive

/-- An edit holds the visit, and who would write it waits. -/
def Logbook.locked (v : Logbook) (id : Nat) : Bool := v.calls.any (fun call => call.holds id)

/-- What a save of a visit that was read comes to. -/
def Logbook.save (v : Logbook) (kind : Saves.Kind) (id : Nat) : Except Saves.Refusal Saves.Write :=
  Saves.write Record.isLive kind (v.visits.get? id)

/-- The items that a request brings, if it brings any. -/
def replaceItems (visit : Nat) (cleared : List Nat) (items : Option (List Entry)) (table : Rows Item × Nat) :
    Option (Rows Item × Nat) :=
  match items with
  | none => some table
  | some entries => setChecklist visit cleared entries table

/-- `create`, a transaction. -/
def Logbook.create (v : Logbook) (now : Int) (later : Nat) (form : Form) (given : Signature)
    (items : Option (List Entry)) : Logbook :=
  match checkSignatureFields now form.visit.status given with
  | .error _ => v
  | .ok signature =>
      let record : Record := {
        form := form
        signature := signature
        amendedAfterSignature := false
        createdAt := now + later
        isDeleted := false }
      match replaceItems v.next (liveItems v.next v.items) items (v.items, v.next + 1) with
      | none => v
      | some table => { v with visits := v.visits.insert v.next record, items := table.1, next := table.2 }

/-- The row an edit writes: every column of the record it read, with the mark if that is signed. -/
def edited (record : Record) (changes : FormChanges) : Record :=
  { record with
    form := changes.apply record.form
    amendedAfterSignature := record.signed || record.amendedAfterSignature }

/-- `save(update_fields=["updated_by", "amended_after_signature", "updated_at"])` -/
def marked (record row : Record) : Record :=
  { row with amendedAfterSignature := record.signed || record.amendedAfterSignature }

/-- The request has come to its end, or is refused. -/
def Logbook.ends (v : Logbook) (index : Nat) : Logbook := { v with calls := v.calls.eraseIdx index }

def Logbook.goes (v : Logbook) (index : Nat) (call : Call) : Logbook := { v with calls := v.calls.set index call }

/-- What a request does next.  Its transaction is seen when it commits, and leaves nothing when the
constraint refuses an item.  No visit leaves its table, so a save that is not refused is an `UPDATE`. -/
def Logbook.advance (v : Logbook) (index : Nat) : Call -> Logbook
  | .edit id record changes items =>
      if v.locked id then v
      else
        match v.save .whole id with
        | .error _ => v.ends index
        | .ok _ => v.goes index (.editing id record changes items (liveItems id v.items))
  | .editing id record changes items cleared =>
      match replaceItems id cleared items (v.items, v.next) with
      | none => v.ends index
      | some table =>
          { v.ends index with
            visits := v.visits.update id (fun _ => edited record changes)
            items := table.1
            next := table.2 }
  | .setChecklist id record entries => v.goes index (.replacing id record entries (liveItems id v.items))
  | .replacing id record entries cleared =>
      match setChecklist id cleared entries (v.items, v.next) with
      | none => v.ends index
      | some table => { v.goes index (.mark id record) with items := table.1, next := table.2 }
  | .mark id record =>
      if v.locked id then v
      else
        match v.save .named id with
        | .error _ => v.ends index
        | .ok _ => { v.ends index with visits := v.visits.update id (marked record) }

def step (v : Logbook) : Event -> Logbook
  | .create now later form given items =>
      if items.all eachItemOnce then v.create now later form given items else v
  | .edit id changes items namesSignature =>
      match v.find id with
      | none => v
      | some record =>
          if items.all eachItemOnce && !namesSignature then
            { v with calls := v.calls ++ [.edit id record changes items] }
          else v
  | .setChecklist id entries =>
      match v.find id with
      | none => v
      | some record =>
          if eachItemOnce entries then
            { v with calls := v.calls ++ [.setChecklist id record entries] }
          else v
  | .advance index =>
      match v.calls[index]? with
      | none => v
      | some call => v.advance index call
  | .drop index => v.ends index
  | .destroy id =>
      if (v.find id).isSome && !v.locked id then
        { v with visits := v.visits.update id (fun row => { row with isDeleted := true }) }
      else v

def run (v : Logbook) (events : List Event) : Logbook := events.foldl step v

/-! ## What the readers see -/

/-- `SignatureState` -/
inductive SignatureState
  | signed
  | pending
  | notPresent
  | declined
  | none_
  deriving DecidableEq

/-- `signature_state`, of a visit whose image has arrived or not. -/
def signatureState (record : Record) (hasImage : Bool) : SignatureState :=
  match record.signature.status with
  | some .signed => if hasImage then .signed else .pending
  | some .notPresent => .notPresent
  | some .declined => .declined
  | none => .none_

/-- `filter_by_state`, over visits annotated by `with_signature`. -/
def filterByState (visits : List (Record × Bool)) : SignatureState -> List (Record × Bool)
  | .signed => visits.filter (fun r => decide (r.1.signature.status = some .signed) && r.2)
  | .pending => visits.filter (fun r => decide (r.1.signature.status = some .signed) && !r.2)
  | .notPresent => visits.filter (fun r => decide (r.1.signature.status = some .notPresent))
  | .declined => visits.filter (fun r => decide (r.1.signature.status = some .declined))
  | .none_ => visits.filter (fun r => decide (r.1.signature.status = none))

end Signatures
end Maintenance
end Shiftlush
