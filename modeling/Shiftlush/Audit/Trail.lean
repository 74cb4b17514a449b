import Shiftlush.Rows
import Shiftlush.Saves
import Shiftlush.Transitions

namespace Shiftlush
namespace Audit

open Transitions (run everyStep)
open Saves (Kind Refusal)

/-!
# The audit trail

`core.audit` and the saves it listens to, for any one audited model: instances
in memory with the snapshot `from_db` leaves on them, the row each save writes,
and the entries `on_save` files.  A save that its base manager or its guard
refuses writes and files nothing.
-/

/-- A concrete field of a model: `field.name` and `field.attname`. -/
structure Field where
  name : String
  attname : String
  deriving DecidableEq

/-- Two values are one when Python's `==` holds of them. -/
inductive Value where
  | null
  | text (content : String)
  | number (count : Int)
  | flag (bit : Bool)
  /-- Anything else, with its `str`. -/
  | other (rendered : String)
  deriving DecidableEq

/-- What JSONB holds. -/
inductive Json where
  | null
  | text (content : String)
  | number (count : Int)
  | flag (bit : Bool)
  deriving DecidableEq

/-- `_serialise` -/
def Value.serialise : Value -> Json
  | .null => .null
  | .text content => .text content
  | .number count => .number count
  | .flag bit => .flag bit
  | .other rendered => .text rendered

/-- Of a boolean field. -/
def Value.isTrue (value : Value) : Bool := decide (value = .flag true)

/-- `MASKED_FIELDS` -/
def maskedFields : List String :=
  ["password", "national_id", "token_hash", "qr_token", "request_hash", "response_body", "reporter_name",
   "reporter_phone"]

/-- `MASK` -/
def mask : Json := .text "***"

/-- `IGNORED_IN_DIFF` -/
def ignoredInDiff : List String := ["updated_at"]

namespace Field

def id : Field := ⟨"id", "id"⟩
def company : Field := ⟨"company", "company_id"⟩
def createdAt : Field := ⟨"created_at", "created_at"⟩
def updatedAt : Field := ⟨"updated_at", "updated_at"⟩
def isDeleted : Field := ⟨"is_deleted", "is_deleted"⟩
def deletedAt : Field := ⟨"deleted_at", "deleted_at"⟩

def isMasked (field : Field) : Bool := decide (field.name ∈ maskedFields ∨ field.attname ∈ maskedFields)

def isIgnored (field : Field) : Bool := decide (field.name ∈ ignoredInDiff)

/-- What the trail shows of a value. -/
def shown (field : Field) (value : Value) : Json := if field.isMasked then mask else value.serialise

end Field

/-- The base manager of a model, `objects`. -/
inductive Manager where
  /-- `UserManager`, which shows every row. -/
  | every
  /-- `SoftDeleteManager` -/
  | live
  /-- `TenantManager`, of a `CompanyOwnedModel`. -/
  | tenant
  deriving DecidableEq

/-- `_meta` of a model that is not one of `EXCLUDED_MODELS`. -/
structure Model where
  fields : List Field
  manager : Manager
  /-- `companies.Company`, whose entries go by its own id. -/
  isCompany : Bool
  key : Field.id ∈ fields

/-- A stored row, by field. -/
abbrev Row := Field -> Value

structure Instance where
  pk : Nat
  /-- `_state.adding` -/
  adding : Bool
  /-- `none` when the field is deferred. -/
  attributes : Field -> Option Value
  /-- `_loaded_values` -/
  loaded : Field -> Option Value

inductive Action where
  | create
  | update
  | delete
  deriving DecidableEq

abbrev Values := List (Field × Json)

structure Entry where
  record : Nat
  action : Action
  old : Values
  new : Values
  deriving DecidableEq

/-- The two variables of `core.context`. -/
structure Scope where
  active : Option Value
  isSystem : Bool

structure State where
  rows : Rows Row
  nextPk : Nat
  instances : List Instance
  log : List Entry
  scope : Scope

inductive Event where
  /-- A block is entered or left. -/
  | enter (scope : Scope)
  /-- A new instance, in memory. -/
  | construct (values : Field -> Value)
  /-- A row is read, but for the fields that are deferred. -/
  | load (pk : Nat) (deferred : Field -> Bool)
  | assign (instance' : Nat) (field : Field) (value : Value)
  /-- `save(update_fields=…)` -/
  | save (instance' : Nat) (updateFields : Option (List Field)) (now : Value)
  /-- `SoftDeleteModel.delete` -/
  | delete (instance' : Nat) (now : Value)
  /-- `SoftDeleteQuerySet.delete`, of the live rows a filter selects. -/
  | deleteWhere (selects : Nat -> Row -> Bool) (now : Value)

/-! ## What an entry says -/

section Entries

variable (model : Model)

/-- `_snapshot` -/
def snapshot (values : Field -> Value) : Values :=
  model.fields.map (fun field => (field, field.shown (values field)))

/-- The instance came out of the database. -/
def hasLoaded (loaded : Field -> Option Value) : Bool := model.fields.any (fun field => (loaded field).isSome)

/-- The snapshot and the attribute of a field differ. -/
def isMoved (loaded : Field -> Option Value) (values : Field -> Value) (field : Field) : Bool :=
  !field.isIgnored && (match loaded field with
    | some before => decide (before ≠ values field)
    | none => false)

/-- `_changed` -/
def changed (loaded : Field -> Option Value) (values : Field -> Value) : Values × Values :=
  if hasLoaded model loaded then
    let moved := model.fields.filter (isMoved loaded values)
    (moved.map (fun field => (field, field.shown ((loaded field).getD .null))),
      moved.map (fun field => (field, field.shown (values field))))
  else ([], snapshot model values)

/-- `_write` files an entry under a company, or not at all. -/
def isFiled (values : Field -> Value) : Bool := model.isCompany || decide (values .company ≠ .null)

def write (values : Field -> Value) (entry : Entry) : List Entry :=
  if isFiled model values then [entry] else []

/-- `on_save`, of an instance that was inserted. -/
def onCreate (pk : Nat) (values : Field -> Value) : List Entry :=
  write model values ⟨pk, .create, [], snapshot model values⟩

/-- The snapshot was live, and the instance is deleted. -/
def isDeletion (loaded : Field -> Option Value) (values : Field -> Value) : Bool :=
  (values .isDeleted).isTrue && !((loaded .isDeleted).getD (.flag false)).isTrue

/-- `on_save`, of an instance that was updated. -/
def onSave (pk : Nat) (loaded : Field -> Option Value) (values : Field -> Value) : List Entry :=
  if isDeletion loaded values then write model values ⟨pk, .delete, [], []⟩
  else
    let difference := changed model loaded values
    if difference.2 = [] then [] else write model values ⟨pk, .update, difference.1, difference.2⟩

end Entries

/-! ## Saves -/

/-- `auto_now` of `updated_at`. -/
def stamp (attributes : Field -> Option Value) (now : Value) : Field -> Option Value :=
  fun field => if field = .updatedAt then some now else attributes field

/-- The fields an `UPDATE` writes. -/
def isWritten (model : Model) (inst : Instance) (updateFields : Option (List Field)) (field : Field) : Bool :=
  decide (field ∈ model.fields ∧ field ≠ .id) &&
    (match updateFields with
    | some named => decide (field ∈ named)
    | none => (inst.attributes field).isSome)

namespace State

variable (model : Model) (s : State)

def set (i : Nat) (inst : Instance) : State := { s with instances := s.instances.set i inst }

def construct (values : Field -> Value) : State :=
  { s with
    nextPk := s.nextPk + 1
    instances := s.instances ++ [⟨s.nextPk, true, fun field => some (values field), fun _ => none⟩] }

/-- `from_db` -/
def load (pk : Nat) (deferred : Field -> Bool) : State :=
  match s.rows.get? pk with
  | none => s
  | some row =>
      let read := fun field =>
        if decide (field ∈ model.fields) && (decide (field = .id) || !deferred field) then some (row field) else none
      { s with instances := s.instances ++ [⟨pk, false, read, read⟩] }

/-- Any field but the primary key. -/
def assign (i : Nat) (field : Field) (value : Value) : State :=
  match s.instances[i]? with
  | none => s
  | some inst =>
      if field = .id then s
      else
        s.set i { inst with
          attributes := fun other => if other = field then some value else inst.attributes other }

def isLive (row : Row) : Bool := !(row .isDeleted).isTrue

/-- Whether the base manager shows a row. -/
def shows (row : Row) : Bool :=
  match model.manager with
  | .every => true
  | .live => isLive row
  | .tenant => isLive row && (s.scope.isSystem || decide (s.scope.active = some (row .company)))

/-- The stored row, as the base manager shows it. -/
def shown? (pk : Nat) : Option Row := (s.rows.get? pk).filter (s.shows model)

/-- `CompanyOwnedModel.save`, before the save itself: the company of the instance is asked for, and read
first when it is deferred. -/
def guarded (inst : Instance) : Option Instance :=
  if model.manager = .tenant && !s.scope.isSystem then
    match s.scope.active with
    | none => some inst
    | some active =>
        match (inst.attributes .company).or ((s.shown? model inst.pk).map (fun row => row .company)) with
        -- The row is not there to be read.
        | none => none
        | some company =>
            if company = .null ∨ company = active then
              some { inst with
                attributes := fun field => if field = .company then some company else inst.attributes field }
            else none
  else some inst

/-- A save of an instance with deferred fields names the others. -/
def kind (inst : Instance) (updateFields : Option (List Field)) : Kind :=
  if inst.adding then .new
  else if updateFields.isSome || model.fields.any (fun field => (inst.attributes field).isNone) then .named
  else .whole

def writes (inst : Instance) (updateFields : Option (List Field)) : Except Refusal Saves.Write :=
  Saves.write (s.shows model) (kind model inst updateFields) (s.rows.get? inst.pk)

/-- `pre_save` of an `INSERT`. -/
def created (inst : Instance) (now : Value) : Field -> Option Value :=
  fun field => if field = .createdAt then some now else stamp inst.attributes now field

/-- The column `company` of a `CompanyOwnedModel` is not null. -/
def lacksCompany (row : Row) : Bool := decide (model.manager = .tenant ∧ row .company = .null)

def insert (i : Nat) (inst : Instance) (now : Value) : State :=
  let values := fun field => (created inst now field).getD .null
  if lacksCompany model values then s.set i { inst with attributes := created inst now }
  else { s.set i { inst with adding := false, attributes := created inst now } with
    rows := s.rows.insert inst.pk values
    log := s.log ++ onCreate model inst.pk values }

/-- The row after an `UPDATE` of some fields. -/
def written (inst : Instance) (updateFields : Option (List Field)) (values row : Row) : Row :=
  fun field => if isWritten model inst updateFields field then values field else row field

/-- `pre_save` of an `UPDATE`. -/
def stamped (inst : Instance) (updateFields : Option (List Field)) (now : Value) : Field -> Option Value :=
  if isWritten model inst updateFields .updatedAt then stamp inst.attributes now else inst.attributes

/-- What `on_save` asks an instance for. -/
def isAsked (loaded : Field -> Option Value) (values : Field -> Value) (field : Field) : Bool :=
  decide (field = .isDeleted) ||
    (decide (field = .company) && (isDeletion loaded values || !(changed model loaded values).2.isEmpty))

/-- Of the row of the instance.  A deferred field is read when it is asked for. -/
def update (i : Nat) (inst : Instance) (updateFields : Option (List Field)) (now : Value) (row : Row) : State :=
  let attributes := stamped model inst updateFields now
  let values := fun field => (attributes field).getD (row field)
  if lacksCompany model (written model inst updateFields values row) then s.set i { inst with attributes := attributes }
  else { s.set i { inst with
      attributes := fun field => if isAsked model inst.loaded values field then some (values field)
        else attributes field } with
    rows := s.rows.update inst.pk (written model inst updateFields values)
    log := s.log ++ onSave model inst.pk inst.loaded values }

/-- A save that is refused has stamped the instance. -/
def refuse (i : Nat) (inst : Instance) (updateFields : Option (List Field)) (now : Value) : Refusal -> State
  | .integrityError => s.set i { inst with attributes := created inst now }
  | .notUpdated => s.set i { inst with attributes := stamped model inst updateFields now }

def save (i : Nat) (updateFields : Option (List Field)) (now : Value) : State :=
  match (s.instances[i]?).bind (s.guarded model) with
  | none => s
  | some inst =>
      if updateFields = some [] then s.set i inst
      else
        match s.writes model inst updateFields with
        | .error refusal => s.refuse model i inst updateFields now refusal
        | .ok .insert => s.insert model i inst now
        | .ok .update =>
            match s.rows.get? inst.pk with
            | none => s
            | some row => s.update model i inst updateFields now row

def deletionFields : List Field := [.isDeleted, .deletedAt, .updatedAt]

def delete (i : Nat) (now : Value) : State :=
  ((s.assign i .isDeleted (.flag true)).assign i .deletedAt now).save model i (some deletionFields) now

def deletedRow (row : Row) (now : Value) : Row :=
  fun field => if field = .isDeleted then .flag true else if field = .deletedAt then now else row field

/-- Without a `save`, and so without an entry. -/
def deleteWhere (selects : Nat -> Row -> Bool) (now : Value) : State :=
  if .isDeleted ∈ model.fields then
    { s with
      rows := s.rows.updateWhere (fun pk row => selects pk row && isLive row) (fun row => deletedRow row now) }
  else s

def step : Event -> State
  | .enter scope => { s with scope := scope }
  | .construct values => s.construct values
  | .load pk deferred => s.load model pk deferred
  | .assign i field value => s.assign i field value
  | .save i updateFields now => s.save model i updateFields now
  | .delete i now => s.delete model i now
  | .deleteWhere selects now => s.deleteWhere model selects now

end State

/-! ## The law -/

section Law

variable (model : Model)

/-- A field differs between two rows. -/
def isDifferent (before after : Row) (field : Field) : Bool :=
  !field.isIgnored && decide (before field ≠ after field)

/-- Only the deletion is written. -/
def isRemoval (before after : Row) : Bool :=
  State.isLive before && !State.isLive after && model.fields.all (fun field =>
    !isDifferent before after field || decide (field = .isDeleted ∨ field = .deletedAt))

/-- The entries a change of a row calls for. -/
def expected (pk : Nat) : Option Row -> Option Row -> List Entry
  | some before, some after =>
      let moved := model.fields.filter (isDifferent before after)
      if moved = [] then []
      else if isRemoval model before after then [⟨pk, .delete, [], []⟩]
      else [⟨pk, .update, moved.map (fun field => (field, field.shown (before field))),
        moved.map (fun field => (field, field.shown (after field)))⟩]
  | none, some after => [⟨pk, .create, [], snapshot model after⟩]
  | _, none => []

/-- The entries of a record. -/
def ofRecord (log : List Entry) (pk : Nat) : List Entry := log.filter (fun entry => decide (entry.record = pk))

/-- A step files for each record just what its row went through. -/
def State.Records (s s' : State) : Prop :=
  ∃ new, s'.log = s.log ++ new ∧
    ∀ pk, ofRecord new pk = expected model pk (s.rows.get? pk) (s'.rows.get? pk)

/-- What the trail says of a field, after an entry. -/
def Entry.apply (entry : Entry) (known : Field -> Option Json) : Field -> Option Json :=
  match entry.action with
  | .create => fun field => entry.new.lookup field
  | .update => fun field => (entry.new.lookup field).or (known field)
  -- A delete entry does not say when.
  | .delete => fun field =>
      if field = .isDeleted then some (.flag true) else if field = .deletedAt then none else known field

def replay (entries : List Entry) : Field -> Option Json :=
  entries.foldl (fun known entry => entry.apply known) (fun _ => none)

/-- The trail of every row, folded from its creation, gives the row. -/
def State.Replays (s : State) : Prop :=
  ∀ pk row, s.rows.get? pk = some row -> ∀ field ∈ model.fields, field.isMasked = false ->
    field.isIgnored = false -> replay (ofRecord s.log pk) field = some (row field).serialise ∨
      field = .deletedAt ∧ replay (ofRecord s.log pk) field = none

/-! ## When a save is recorded as it is -/

/-- The snapshot of a field and its stored value tell the same change. -/
def tellsSame (inst : Instance) (updateFields : Option (List Field)) (values row : Row) (field : Field) : Bool :=
  field.isIgnored ||
    (decide (isMoved inst.loaded values field =
        (isWritten model inst updateFields field && decide (row field ≠ values field))) &&
      (!isMoved inst.loaded values field || field.isMasked ||
        decide ((inst.loaded field).map Value.serialise = some (row field).serialise)))

/-- A field is left as it is. -/
def isLeft (inst : Instance) (updateFields : Option (List Field)) (values row : Row) (field : Field) : Bool :=
  field.isIgnored || !isWritten model inst updateFields field || decide (row field = values field)

/-- An `UPDATE` is of the row the instance was loaded with, and of every field
changed since. -/
def recordsUpdate (inst : Instance) (updateFields : Option (List Field)) (values row : Row) : Bool :=
  if !isFiled model values then model.fields.all (isLeft model inst updateFields values row)
  else if isDeletion inst.loaded values then
    isWritten model inst updateFields .isDeleted && State.isLive row && model.fields.all (fun field =>
      decide (field = .isDeleted ∨ field = .deletedAt) || isLeft model inst updateFields values row field)
  else hasLoaded model inst.loaded && model.fields.all (tellsSame model inst updateFields values row)

def recordsSave (s : State) (i : Nat) (updateFields : Option (List Field)) (now : Value) : Bool :=
  match (s.instances[i]?).bind (s.guarded model) with
  | none => true
  | some inst =>
      decide (updateFields = some []) ||
        (match s.writes model inst updateFields with
        | .error _ => true
        | .ok .insert =>
            let values := fun field => (State.created inst now field).getD .null
            State.lacksCompany model values || isFiled model values
        | .ok .update =>
            match s.rows.get? inst.pk with
            | none => true
            | some row =>
                let values := fun field => (State.stamped model inst updateFields now field).getD (row field)
                State.lacksCompany model (State.written model inst updateFields values row) ||
                  recordsUpdate model inst updateFields values row)

/-- The saves of a run are recorded as they are, and nothing is removed by a
queryset. -/
def records (s : State) : Event -> Bool
  | .save i updateFields now => recordsSave model s i updateFields now
  | .delete i now =>
      recordsSave model ((s.assign i .isDeleted (.flag true)).assign i .deletedAt now) i
        (some State.deletionFields) now
  | .deleteWhere selects _ =>
      decide (.isDeleted ∉ model.fields) || !s.rows.any (fun r => selects r.1 r.2 && State.isLive r.2)
  | _ => true

end Law

end Audit
end Shiftlush
