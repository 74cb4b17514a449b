import Shiftlush.Attachments.Keys
import Shiftlush.Rows
import Shiftlush.Transitions

namespace Shiftlush
namespace Attachments

/-!
# Uploads, deletions and the purge

`apps.attachments.services` statement by statement, any number of calls at once.
A confirmation writes one row as its last statement, so its transaction is that
write; the purge runs outside one, and each of its statements is its own.
-/

inductive StorageBackend where
  | r2
  | localDisk
  | trProvider
  deriving DecidableEq, Repr

/-- A row of the table, with the bucket its bytes are in. -/
structure Stored extends Attachment where
  storageBackend : StorageBackend
  uploadedBy : Option Nat
  deriving DecidableEq

/-- What `stat` says of an object. -/
structure StoredObject where
  sizeBytes : Nat
  contentType : String
  deriving DecidableEq

/-- A record an attachment may be for.  `isSigned` is a visit's. -/
structure Target where
  company : Nat
  isDeleted : Bool
  isSigned : Bool
  deriving DecidableEq

def maxSizeBytes : Nat := 10 * 1024 * 1024

def maxSignatureBytes : Nat := 200 * 1024

def signatureMimeType : String := "image/png"

def serverOnlyCategories : List AttachmentCategory := [.monthlyReport]

/-- `ATTACHMENT_PURGE_AFTER_DAYS` -/
def purgeAfterDays : Int := 30

/-- In seconds. -/
def day : Int := 86400

inductive Failure where
  | notFound
  | categoryNotUploadable
  | uploadNotCompleted
  | fileTooLarge
  | unsupportedMimeType
  | signatureNotExpected
  | signatureExists
  | signatureCannotBeDeleted
  | reportFileCannotBeDeleted
  /-- `attachment_size_within_limit` -/
  | sizeWithinLimit
  deriving DecidableEq

/-- The call of `confirm_upload`, its key read. -/
structure Upload where
  company : Nat
  uploadedBy : Nat
  storageKey : String
  originalFilename : String
  place : Place
  deriving DecidableEq

/-- A row of the purge's cursor. -/
structure Entry where
  id : Nat
  storageBackend : StorageBackend
  storageKey : String
  deriving DecidableEq

/-- The next statement of a confirmation. -/
inductive Stage where
  /-- Is there a row of a server-made file? -/
  | checkingRow
  /-- The live row of the key. -/
  | looking
  | checkingTarget
  | measuring
  | checkingVisit (backend : StorageBackend) (object : StoredObject)
  | checkingSignatures (backend : StorageBackend) (object : StoredObject)
  | recording (backend : StorageBackend) (object : StoredObject)
  /-- The refused object is removed. -/
  | discarding (backend : StorageBackend) (failure : Failure)
  deriving DecidableEq

inductive Reply where
  | recorded (id : Nat)
  | refused (failure : Failure)
  | done
  | purged (count : Nat)
  /-- The process died. -/
  | nothing
  deriving DecidableEq

/-- A call under way. -/
inductive Task where
  | confirming (upload : Upload) (stage : Stage)
  /-- `save_bytes`, its object put. -/
  | saving (file : Stored)
  /-- `perform_destroy`, its row read. -/
  | destroying (id : Nat)
  | purging (ahead : List Entry) (purged : Nat)
  /-- The bytes of a row are removed and its key is not yet cleared. -/
  | clearing (id : Nat) (ahead : List Entry) (purged : Nat)
  | finished (reply : Reply)
  deriving DecidableEq

structure State where
  attachments : Rows Stored
  nextAttachment : Nat
  objects : StorageBackend -> String -> Option StoredObject
  targets : ObjectType -> Nat -> Option Target
  /-- `STORAGE_BACKEND_BY_CATEGORY` and `DEFAULT_STORAGE_BACKEND`. -/
  backendFor : AttachmentCategory -> StorageBackend
  now : Nat
  tasks : List Task

/-- A file the server makes, with the name its key gets. -/
structure ServerFile where
  company : Nat
  place : Place
  name : Nat
  mimeType : String
  sizeBytes : Nat
  originalFilename : String
  uploadedBy : Option Nat
  deriving DecidableEq

inductive Event where
  | tick (seconds : Nat)
  /-- A client puts an object under a URL it was given. -/
  | upload (backend : StorageBackend) (storageKey : String) (object : StoredObject)
  | configure (category : AttachmentCategory) (backend : StorageBackend)
  | place (objectType : ObjectType) (id : Nat) (target : Option Target)
  | confirm (company uploadedBy : Nat) (storageKey originalFilename : String)
  | save (file : ServerFile)
  | destroy (company id : Nat)
  /-- `regenerate` deletes the report's old file. -/
  | replace (id : Nat)
  | purge (olderThanDays : Option Int)
  /-- A call under way executes its next statement. -/
  | advance (task : Nat)
  | crash (task : Nat)
  /-- The transaction of a server-made file is rolled back, and `_discard` runs. -/
  | rollBack (task : Nat)
  deriving DecidableEq

namespace Stored

def isDeleted (row : Stored) : Bool := row.toAttachment.isDeleted

/-- `attachment_size_within_limit` -/
def sizeWithinLimit (row : Stored) : Bool := decide (0 < row.sizeBytes ∧ row.sizeBytes ≤ maxSizeBytes)

end Stored

namespace State

variable (s : State)

/-! ## Tasks -/

def start (task : Task) : State := { s with tasks := s.tasks ++ [task] }

def put (i : Nat) (task : Task) : State := { s with tasks := s.tasks.set i task }

/-! ## Storage -/

def putObject (backend : StorageBackend) (storageKey : String) (object : StoredObject) : State :=
  { s with
    objects := fun backend' key =>
      if backend' = backend ∧ key = storageKey then some object else s.objects backend' key }

/-- `storage.delete` -/
def deleteObject (backend : StorageBackend) (storageKey : String) : State :=
  { s with
    objects := fun backend' key =>
      if backend' = backend ∧ key = storageKey then none else s.objects backend' key }

/-! ## Confirmation -/

def targetExists (company : Nat) (objectType : ObjectType) (objectId : Nat) : Bool :=
  match s.targets objectType objectId with
  | none => false
  | some target =>
      !target.isDeleted &&
        (if objectType = .company then decide (objectId = company) else decide (target.company = company))

/-- The live row of a key, by the order of the model. -/
def existing (company : Nat) (storageKey : String) : Option Nat :=
  ((s.attachments.filter (fun r =>
    decide (r.2.company = company ∧ r.2.storageKey = storageKey) && !r.2.isDeleted)).getLast?).map Prod.fst

def hasRow (company : Nat) (storageKey : String) : Bool :=
  s.attachments.any (fun r => decide (r.2.company = company ∧ r.2.storageKey = storageKey))

def signedVisitExists (company visit : Nat) : Bool :=
  match s.targets .maintenanceVisit visit with
  | none => false
  | some target => decide (target.company = company) && target.isSigned

/-- A live signature of the visit. -/
def signatureExists (company visit : Nat) : Bool :=
  s.attachments.any (fun r =>
    decide (r.2.company = company ∧ r.2.objectType = .maintenanceVisit ∧ r.2.objectId = visit ∧
      r.2.category = .signature) && !r.2.isDeleted)

/-- Up to the first query. -/
def confirm (company uploadedBy : Nat) (storageKey originalFilename : String) : Task :=
  match parseKey company storageKey with
  | none => .finished (.refused .notFound)
  | some place =>
      .confirming ⟨company, uploadedBy, storageKey, originalFilename, place⟩
        (if place.category ∈ serverOnlyCategories then .checkingRow else .looking)

/-- What the object itself is refused for. -/
def refusedObject (object : StoredObject) : Option Failure :=
  if object.sizeBytes > maxSizeBytes then some .fileTooLarge
  else if object.contentType ∈ allowedTypes.map Prod.fst then none
  else some .unsupportedMimeType

def checkImage (object : StoredObject) : Option Failure :=
  if object.contentType ≠ signatureMimeType then some .unsupportedMimeType
  else if object.sizeBytes > maxSignatureBytes then some .fileTooLarge
  else none

/-- The row a confirmation writes. -/
def confirmed (upload : Upload) (backend : StorageBackend) (object : StoredObject) : Stored where
  company := upload.company
  objectType := upload.place.objectType
  objectId := upload.place.objectId
  category := upload.place.category
  originalFilename := .ofList (upload.originalFilename.toList.take 255)
  mimeType := object.contentType
  sizeBytes := object.sizeBytes
  storageKey := upload.storageKey
  deletedAt := none
  storageBackend := backend
  uploadedBy := some upload.uploadedBy

/-- `Attachment.objects.create` -/
def record (i : Nat) (file : Stored) : State :=
  if file.sizeWithinLimit then
    { s with
      attachments := s.attachments.insert s.nextAttachment file
      nextAttachment := s.nextAttachment + 1
      tasks := s.tasks.set i (.finished (.recorded s.nextAttachment)) }
  else s.put i (.finished (.refused .sizeWithinLimit))

/-- The next statement of `confirm_upload`. -/
def advanceConfirm (i : Nat) (upload : Upload) : Stage -> State
  | .checkingRow =>
      if s.hasRow upload.company upload.storageKey then
        s.put i (.finished (.refused .categoryNotUploadable))
      else
        s.put i (.confirming upload
          (.discarding (s.backendFor upload.place.category) .categoryNotUploadable))
  | .looking =>
      match s.existing upload.company upload.storageKey with
      | some id => s.put i (.finished (.recorded id))
      | none => s.put i (.confirming upload .checkingTarget)
  | .checkingTarget =>
      if s.targetExists upload.company upload.place.objectType upload.place.objectId then
        s.put i (.confirming upload .measuring)
      else s.put i (.finished (.refused .notFound))
  | .measuring =>
      let backend := s.backendFor upload.place.category
      match s.objects backend upload.storageKey with
      | none => s.put i (.finished (.refused .uploadNotCompleted))
      | some object =>
          match refusedObject object with
          | some failure => s.put i (.confirming upload (.discarding backend failure))
          | none =>
              if upload.place.category ≠ .signature then s.put i (.confirming upload (.recording backend object))
              else
                match checkImage object with
                | some failure => s.put i (.confirming upload (.discarding backend failure))
                | none => s.put i (.confirming upload (.checkingVisit backend object))
  | .checkingVisit backend object =>
      if s.signedVisitExists upload.company upload.place.objectId then
        s.put i (.confirming upload (.checkingSignatures backend object))
      else s.put i (.confirming upload (.discarding backend .signatureNotExpected))
  | .checkingSignatures backend object =>
      if s.signatureExists upload.company upload.place.objectId then
        s.put i (.confirming upload (.discarding backend .signatureExists))
      else s.put i (.confirming upload (.recording backend object))
  | .recording backend object => s.record i (confirmed upload backend object)
  | .discarding backend failure =>
      (s.deleteObject backend upload.storageKey).put i (.finished (.refused failure))

/-! ## Files of the server -/

/-- The row `save_bytes` writes. -/
def saved (file : ServerFile) (extension : String) : Stored where
  company := file.company
  objectType := file.place.objectType
  objectId := file.place.objectId
  category := file.place.category
  originalFilename := file.originalFilename
  mimeType := file.mimeType
  sizeBytes := file.sizeBytes
  storageKey := uploadKey file.company file.place file.name extension
  deletedAt := none
  storageBackend := s.backendFor file.place.category
  uploadedBy := file.uploadedBy

/-- `save_bytes`, up to its row. -/
def save (file : ServerFile) : State :=
  match allowedTypes.find? (fun entry => entry.1 = file.mimeType) with
  | none => s.start (.finished .nothing)
  | some entry =>
      let row := s.saved file entry.2
      (s.putObject row.storageBackend row.storageKey ⟨file.sizeBytes, file.mimeType⟩).start (.saving row)

/-! ## Deletion -/

/-- `perform_destroy`, up to the update. -/
def destroy (company id : Nat) : Task :=
  match (s.attachments.get? id).filter (fun row => decide (row.company = company) && !row.isDeleted) with
  | none => .finished (.refused .notFound)
  | some row =>
      if row.category = .signature then .finished (.refused .signatureCannotBeDeleted)
      else if row.category = .monthlyReport then .finished (.refused .reportFileCannotBeDeleted)
      else .destroying id

/-- `live_file`, up to its deletion. -/
def replace (id : Nat) : Task :=
  match (s.attachments.get? id).filter (fun row => !row.isDeleted && !row.storageKey.isEmpty) with
  | none => .finished .done
  | some _ => .destroying id

/-- `SoftDeleteModel.delete` -/
def delete (id : Nat) : State :=
  { s with attachments := s.attachments.update id (fun row => { row with deletedAt := some s.now }) }

/-! ## The purge -/

/-- `_detached`, of one row. -/
def isDetached (olderThanDays : Option Int) (row : Stored) : Bool :=
  match row.deletedAt with
  | none => false
  | some deletedAt =>
      decide ((deletedAt : Int) ≤ s.now - olderThanDays.getD purgeAfterDays * day) && !row.storageKey.isEmpty

/-- `_detached`, as the cursor holds it. -/
def detached (olderThanDays : Option Int) : List Entry :=
  (s.attachments.filter (fun r => s.isDetached olderThanDays r.2)).map
    (fun r => ⟨r.1, r.2.storageBackend, r.2.storageKey⟩)

def advancePurge (i : Nat) : List Entry -> Nat -> State
  | [], purged => s.put i (.finished (.purged purged))
  | entry :: ahead, purged =>
      (s.deleteObject entry.storageBackend entry.storageKey).put i (.clearing entry.id ahead purged)

/-- `UPDATE … SET storage_key = ''` -/
def clearKey (id : Nat) : State :=
  { s with attachments := s.attachments.update id (fun row => { row with storageKey := "" }) }

/-! ## Events -/

def advance (i : Nat) : State :=
  match s.tasks[i]? with
  | some (.confirming upload stage) => s.advanceConfirm i upload stage
  | some (.saving file) => s.record i file
  | some (.destroying id) => (s.delete id).put i (.finished .done)
  | some (.purging ahead purged) => s.advancePurge i ahead purged
  | some (.clearing id ahead purged) => (s.clearKey id).put i (.purging ahead (purged + 1))
  | some (.finished _) => s
  | none => s

def crash (i : Nat) : State :=
  match s.tasks[i]? with
  | some (.finished _) => s
  | _ => s.put i (.finished .nothing)

/-- `_discard` -/
def rollBack (i : Nat) : State :=
  match s.tasks[i]? with
  | some (.saving file) => (s.deleteObject file.storageBackend file.storageKey).put i (.finished .nothing)
  | _ => s

def step : Event -> State
  | .tick seconds => { s with now := s.now + seconds }
  | .upload backend storageKey object => s.putObject backend storageKey object
  | .configure category backend =>
      { s with
        backendFor := fun category' => if category' = category then backend else s.backendFor category' }
  | .place objectType id target =>
      { s with
        targets := fun objectType' id' =>
          if objectType' = objectType ∧ id' = id then target else s.targets objectType' id' }
  | .confirm company uploadedBy storageKey originalFilename =>
      s.start (confirm company uploadedBy storageKey originalFilename)
  | .save file => s.save file
  | .destroy company id => s.start (s.destroy company id)
  | .replace id => s.start (s.replace id)
  | .purge olderThanDays => s.start (.purging (s.detached olderThanDays) 0)
  | .advance i => s.advance i
  | .crash i => s.crash i
  | .rollBack i => s.rollBack i

end State
end Attachments
end Shiftlush
