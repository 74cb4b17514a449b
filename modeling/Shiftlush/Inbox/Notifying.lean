import Shiftlush.Notifications
import Shiftlush.Rows

namespace Shiftlush
namespace Inbox

open Notifications (createAll)

/-!
# Raising notifications, and mailing them

`apps.notifications`.  A notification is raised inside somebody's transaction; its e-mail is put
in the queue once that has committed, and a worker sends it later, to whoever the recipient is by
then.  Who gets one by e-mail is a preference, kept as a row only where somebody chose.
-/

/-- `NotificationKind` -/
inductive Kind
  | contractRenewalDue
  | contractExpired
  | contractAutoRenewed
  | contractAutoRenewalBlocked
  | maintenanceOverdue
  | visitAssigned
  | faultReported
  | faultEmergency
  | faultAssigned
  | faultResolved
  | inspectionDue
  | correctionDeadlineNear
  | correctionDeadlinePassed
  | inspectionRedLabel
  | billingVatMissing
  | invoiceDraftsReady
  | monthlyReportsReady
  deriving DecidableEq

namespace Kind

/-- `NotificationKind.values` -/
def all : List Kind :=
  [contractRenewalDue, contractExpired, contractAutoRenewed, contractAutoRenewalBlocked, maintenanceOverdue,
    visitAssigned, faultReported, faultEmergency, faultAssigned, faultResolved, inspectionDue,
    correctionDeadlineNear, correctionDeadlinePassed, inspectionRedLabel, billingVatMissing, invoiceDraftsReady,
    monthlyReportsReady]

/-- `EMAIL_DEFAULTS` -/
def emailDefault : Kind -> Bool
  | maintenanceOverdue => false
  | faultResolved => false
  | _ => true

/-- `EMAIL_ALWAYS` -/
def emailAlways : Kind -> Bool
  | faultEmergency => true
  | correctionDeadlinePassed => true
  | inspectionRedLabel => true
  | _ => false

theorem mem_all (kind : Kind) : kind ∈ all := by cases kind <;> decide

end Kind

structure User where
  company : Option Nat
  isActive : Bool
  isDeleted : Bool
  email : String
  deriving DecidableEq

structure Notification where
  id : Nat
  company : Nat
  recipient : Nat
  kind : Kind
  subjectType : String
  subjectId : Nat
  data : List (String × String)
  dedupeKey : String
  readAt : Option Int
  deriving DecidableEq

/-- `uq_notification_dedupe_per_recipient` -/
def Notification.key (n : Notification) : Nat × String := (n.recipient, n.dedupeKey)

/-- `NotificationPreference` -/
structure Preference where
  company : Nat
  user : Nat
  kind : Kind
  email : Bool
  isDeleted : Bool
  deriving DecidableEq

structure Office where
  users : Rows User
  notifications : List Notification
  preferences : Rows Preference
  next : Nat
  /-- The notifications whose e-mail waits for a worker. -/
  queue : List Nat
  /-- What `send_notification` was asked for: which, and to what address. -/
  sent : List (Nat × String)

def Office.empty : Office := ⟨[], [], [], 1, [], []⟩

/-! ## Preferences -/

/-- The row of a user's own choice, of which there is one at most. -/
def choice (preferences : Rows Preference) (user : Nat) (kind : Kind) : Option (Nat × Preference) :=
  preferences.find? (fun r => decide (r.2.user = user) && decide (r.2.kind = kind) && !r.2.isDeleted)

/-- `_wants_email`, of one user. -/
def wantsEmail (preferences : Rows Preference) (kind : Kind) (user : Nat) : Bool :=
  kind.emailAlways || ((choice preferences user kind).map (·.2.email)).getD kind.emailDefault

/-- A line of the settings page. -/
structure PreferenceEntry where
  kind : Kind
  email : Bool
  locked : Bool
  deriving DecidableEq

/-- `NotificationPreference.objects` -/
def visible (company : Nat) (preferences : Rows Preference) : Rows Preference :=
  preferences.filter (fun r => decide (r.2.company = company))

/-- `preferences_for` -/
def preferencesFor (preferences : Rows Preference) (company user : Nat) : List PreferenceEntry :=
  Kind.all.map (fun kind => {
    kind := kind
    email := kind.emailAlways ||
      ((choice (visible company preferences) user kind).map (·.2.email)).getD kind.emailDefault
    locked := kind.emailAlways })

/-- What the form lets through: a kind once, and none of the locked ones turned off. -/
def validEntries (entries : List (Kind × Bool)) : Bool :=
  decide (entries.map Prod.fst).Nodup && entries.all (fun entry => !(entry.1.emailAlways && !entry.2))

/-- One turn of the loop in `set_preferences`. -/
def setPreference (company user : Nat) (entries : List (Kind × Bool)) (table : Rows Preference × Nat) (kind : Kind) :
    Rows Preference × Nat :=
  match entries.lookup kind, choice (visible company table.1) user kind with
  | some email, none =>
      (table.1.insert table.2 { company := company, user := user, kind := kind, email := email, isDeleted := false },
        table.2 + 1)
  | some email, some r => (table.1.update r.1 (fun row => { row with email := email }), table.2)
  | none, some r => (table.1.update r.1 (fun row => { row with isDeleted := true }), table.2)
  | none, none => table

/-- `set_preferences` -/
def setPreferences (company user : Nat) (entries : List (Kind × Bool)) (table : Rows Preference × Nat) :
    Rows Preference × Nat :=
  Kind.all.foldl (setPreference company user entries) table

/-! ## Notifying -/

/-- A user as the caller holds it. -/
structure Recipient where
  id : Nat
  user : User

structure Call where
  kind : Kind
  recipients : List Recipient
  subjectType : String
  subjectId : Nat
  /-- What `normalize_data` makes of the facts, unless it refuses them. -/
  data : Option (List (String × String))
  dedupeKey : String

/-- Whoever is active and has a company. -/
def Recipient.firm (recipient : Recipient) : Option Nat :=
  if recipient.user.isActive && !recipient.user.isDeleted then recipient.user.company else none

/-- The rows a call would insert, each under a key of its own. -/
def asked (next : Nat) (call : Call) (data : List (String × String)) : List Notification :=
  ((call.recipients.filterMap (fun r => r.firm.map (fun company => (r.id, company)))).zipIdx next).map (fun entry => {
    id := entry.2
    company := entry.1.2
    recipient := entry.1.1
    kind := call.kind
    subjectType := call.subjectType
    subjectId := call.subjectId
    data := data
    dedupeKey := call.dedupeKey
    readAt := none })

/-- A transaction under way: what it has written, and what is to run once it commits. -/
structure Work where
  office : Office
  hooks : List Nat

/-- `notify`, under a company's context or the system's; `none` is what raises. -/
def notify (context : Option Nat) (suppressed : Bool) (work : Work) (call : Call) : Option Work :=
  match call.data with
  | none => none
  | some data =>
      let rows := asked work.office.next call data
      if rows.any (fun n => context.any (fun company => decide (company ≠ n.company))) then none
      else
        let after := createAll Notification.key work.office.notifications rows
        let created := after.drop work.office.notifications.length
        let mailed := if suppressed then []
          else created.filter (fun n => wantsEmail work.office.preferences call.kind n.recipient)
        some {
          office := { work.office with notifications := after, next := work.office.next + rows.length }
          hooks := work.hooks ++ mailed.map (·.id) }

/-! ## Events -/

inductive Event
  /-- A transaction with the calls of `notify` in it; enqueuing may fail for some. -/
  | transaction (context : Option Nat) (suppressed : Bool) (calls : List Call) (commits : Bool) (lost : List Nat)
  /-- A worker runs one of the tasks in the queue. -/
  | deliver (index : Nat)
  | join (id : Nat) (company : Option Nat) (email : String)
  | change (id : Nat) (isActive isDeleted : Bool) (email : String)
  | setPreferences (user : Nat) (entries : List (Kind × Bool))
  /-- `stale`: the row was read before another request marked it. -/
  | read (user id : Nat) (now : Int) (stale : Bool)
  | readAll (user : Nat) (now : Int)

/-- `send_notification_email` -/
def Office.deliver (office : Office) (id : Nat) : Office :=
  match office.notifications.find? (fun n => decide (n.id = id)) with
  | none => office
  | some n =>
      match office.users.get? n.recipient with
      | none => office
      | some user =>
          if user.isActive && !user.isDeleted then { office with sent := office.sent ++ [(id, user.email)] } else office

/-- The first time it was read is kept, unless two requests read it at once. -/
def Notification.markRead (now : Int) (stale : Bool) (n : Notification) : Notification :=
  { n with readAt := some (if stale then now else n.readAt.getD now) }

def Office.commit (work : Work) (lost : List Nat) : Office :=
  { work.office with queue := work.office.queue ++ work.hooks.filter (fun id => !lost.contains id) }

def step (office : Office) : Event -> Office
  | .transaction context suppressed calls commits lost =>
      match calls.foldlM (notify context suppressed) ⟨office, []⟩ with
      | none => office
      | some work => if commits then Office.commit work lost else office
  | .deliver index =>
      match office.queue[index]? with
      | none => office
      | some id => ({ office with queue := office.queue.eraseIdx index }).deliver id
  | .join id company email =>
      if (office.users.get? id).isSome then office
      else { office with users := office.users.insert id ⟨company, true, false, email⟩ }
  | .change id isActive isDeleted email =>
      { office with users := office.users.update id (fun user => ⟨user.company, isActive, isDeleted, email⟩) }
  | .setPreferences user entries =>
      match (office.users.get? user).bind User.company with
      | none => office
      | some company =>
          if validEntries entries then
            let table := setPreferences company user entries (office.preferences, office.next)
            { office with preferences := table.1, next := table.2 }
          else office
  | .read user id now stale =>
      { office with notifications := office.notifications.map (fun n =>
          if n.id = id ∧ n.recipient = user then n.markRead now stale else n) }
  | .readAll user now =>
      { office with notifications := office.notifications.map (fun n =>
          if n.recipient = user then n.markRead now false else n) }

end Inbox
end Shiftlush
