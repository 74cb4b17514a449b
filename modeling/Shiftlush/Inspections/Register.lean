import Shiftlush.Fleet.RedLabel
import Shiftlush.Attachments.Records

namespace Shiftlush
namespace Inspections

open Calendar (Date)
open Fleet (Label)
open Attachments (Attachment)

/-!
# The register of inspections

The deadlines of `apps.inspections.rules`, and recording and editing as the API
does them.  What `Fleet` does not read of an inspection is kept beside the firm,
under the inspection's key.
-/

/-! ## The rules -/

inductive Deadline where
  | none
  | days
  | nextInspection
  deriving DecidableEq, Repr

structure LabelRule where
  usable : Bool
  deadline : Deadline
  days : Option Nat
  sealedIfMissed : Bool
  deriving DecidableEq, Repr

/-- `RULES` -/
def rules : Label -> LabelRule
  | .green => ⟨true, .none, none, false⟩
  | .blue => ⟨true, .nextInspection, none, false⟩
  | .yellow => ⟨true, .days, some 120, true⟩
  | .red => ⟨false, .days, some 60, true⟩

/-- `correction_deadline` -/
def correctionDeadline (label : Label) (countedFrom nextInspectionDue : Date) : Option Date :=
  match (rules label).deadline with
  | .days => (rules label).days.map countedFrom.addDays
  | .nextInspection => some nextInspectionDue
  | .none => none

/-- The label is one whose deadline is a number of days. -/
def isCounted (label : Label) : Bool := decide ((rules label).deadline = .days)

/-- A number of days goes with the rules that count them, and with no other. -/
theorem rules_days (label : Label) : (rules label).days.isSome = isCounted label := by
  cases label with
  | _ => rfl

theorem correctionDeadline_uncounted {label : Label} (uncounted : isCounted label = false)
    (day day' nextInspectionDue : Date) :
    correctionDeadline label day nextInspectionDue = correctionDeadline label day' nextInspectionDue := by
  unfold isCounted at uncounted
  have other := of_decide_eq_false uncounted
  unfold correctionDeadline
  split
  · rename_i counted
    exact absurd counted other
  · rfl
  · rfl

/-- A counted deadline tells the day it was counted from. -/
theorem correctionDeadline_counted {label : Label} (counted : isCounted label = true)
    {day day' nextInspectionDue : Date}
    (same : correctionDeadline label day nextInspectionDue =
      correctionDeadline label day' nextInspectionDue) : day = day' := by
  rcases Option.isSome_iff_exists.mp ((rules_days label).trans counted) with ⟨days, found⟩
  unfold correctionDeadline at same
  rw [of_decide_eq_true counted, found] at same
  have ordinals : (day.addDays days).ordinal = (day'.addDays days).ordinal :=
    congrArg Date.ordinal (Option.some.inj same)
  rw [Date.ordinal_addDays, Date.ordinal_addDays] at ordinals
  exact Date.ordinal_injective (by omega)

/-! ## Rows -/

inductive InspectionKind where
  | periodic
  | followUp
  deriving DecidableEq, Repr

/-- The other columns of an inspection. -/
structure Detail where
  kind : InspectionKind
  follows : Option Nat
  report : Option Nat
  correctionDeadline : Option Date
  deriving DecidableEq

inductive Failure where
  | notFound
  | doesNotExist
  /-- "A follow-up follows something." -/
  | required
  /-- "Another lift's inspection." -/
  | anotherLift
  /-- "Only a follow-up follows." -/
  | invalid
  | endDateBeforeStartDate (field : String)
  | attachmentTargetMismatch
  | integrityError
  deriving DecidableEq, Repr

structure Register where
  firm : Fleet.Firm
  details : Rows Detail
  attachments : Rows Attachment
  deriving DecidableEq

/-- `_check_dates` -/
def checkDates (inspectedOn : Date) (nextInspectionDue : Option Date) : Except Failure Unit :=
  if nextInspectionDue.any (fun due => decide (due ≤ inspectedOn)) then
    .error (.endDateBeforeStartDate "next_inspection_due")
  else .ok ()

namespace Register

def empty : Register := ⟨.empty, [], []⟩

/-- The date of the inspection a deadline counts from, `origin_of`. -/
def originDate (s : Register) (follows : Option Nat) (inspectedOn : Date) : Date :=
  match follows.bind s.firm.inspections.get? with
  | some origin => origin.inspectedOn
  | none => inspectedOn

/-- `derive_deadline` -/
def deriveDeadline (s : Register) (follows : Option Nat) (inspection : Fleet.Inspection) : Option Date :=
  correctionDeadline inspection.label (s.originDate follows inspection.inspectedOn)
    inspection.nextInspectionDue

def lift (s : Register) (id : Nat) : Except Failure Fleet.Elevator :=
  match s.firm.elevators.get? id with
  | some lift => .ok lift
  | none => .error .doesNotExist

/-- The queryset of `follows`: the periodic inspections. -/
def periodic (s : Register) (id : Nat) : Except Failure Fleet.Inspection :=
  match s.firm.inspections.get? id, s.details.get? id with
  | some inspection, some detail => if detail.kind = .periodic then .ok inspection else .error .doesNotExist
  | _, _ => .error .doesNotExist

/-- What a new inspection follows, as it was looked up. -/
def origin (s : Register) : Option Nat -> Except Failure (Option Fleet.Inspection)
  | none => .ok none
  | some id => (s.periodic id).map some

/-- `InspectionCreateSerializer.validate` -/
def validate (s : Register) (kind : InspectionKind) (new : Fleet.NewInspection) : Except Failure Unit := do
  let _ ← s.lift new.elevator
  let origin ← s.origin new.follows
  match kind, origin with
  | .followUp, none => .error .required
  | .followUp, some origin =>
      if origin.elevator ≠ new.elevator then .error .anotherLift
      else if new.inspectedOn < origin.inspectedOn then .error (.endDateBeforeStartDate "inspected_on")
      else checkDates new.inspectedOn new.nextInspectionDue
  | .periodic, some _ => .error .invalid
  | .periodic, none => checkDates new.inspectedOn new.nextInspectionDue

/-- `record`, with the firm the lift's sync leaves. -/
def record (s : Register) (kind : InspectionKind) (new : Fleet.NewInspection) (now : Nat) :
    Except Failure Register := do
  s.validate kind new
  let due := new.nextInspectionDue.getD (s.firm.defaultNextInspectionDue new.inspectedOn new.follows)
  if due ≤ new.inspectedOn then .error .integrityError
  else
    match s.firm.recordInspection new now with
    | .error _ => .error .doesNotExist
    | .ok firm =>
        let deadline := correctionDeadline new.label (s.originDate new.follows new.inspectedOn) due
        .ok { s with
          firm := firm
          details := s.details.insert s.firm.nextId ⟨kind, new.follows, none, deadline⟩ }

/-- The report an edit states, with the checks of `attach_report`. -/
def attachReport (s : Register) (id : Nat) : Option Nat -> Except Failure Unit
  | none => .ok ()
  | some attachment =>
      match s.attachments.get? attachment with
      | none => .error .doesNotExist
      | some file =>
          if file.isDeleted then .error .doesNotExist
          else if file.objectType ≠ .inspection ∨ file.category ≠ .inspectionReport then
            .error .attachmentTargetMismatch
          else if file.objectId ≠ id then .error .attachmentTargetMismatch
          else .ok ()

/-- The rows an edit is of, once it is checked. -/
def checkEdit (s : Register) (id : Nat) (changes : Fleet.InspectionChanges) (report : Option (Option Nat)) :
    Except Failure (Fleet.Inspection × Detail) :=
  match s.firm.inspections.get? id, s.details.get? id with
  | some inspection, some detail => do
      let edited := changes.apply inspection
      checkDates edited.inspectedOn (some edited.nextInspectionDue)
      s.attachReport id (report.getD none)
      .ok (inspection, detail)
  | _, _ => .error .notFound

/-- `edit` -/
def edit (s : Register) (id : Nat) (changes : Fleet.InspectionChanges) (report : Option (Option Nat)) :
    Except Failure Register := do
  let (inspection, detail) ← s.checkEdit id changes report
  match s.firm.editInspection id changes with
  | .error _ => .error .notFound
  | .ok firm =>
      let deadline := s.deriveDeadline detail.follows (changes.apply inspection)
      .ok { s with
        firm := firm
        details := s.details.update id (fun detail =>
          { detail with report := report.getD detail.report, correctionDeadline := deadline }) }

end Register

/-! ## Requests -/

inductive Event where
  | record (kind : InspectionKind) (new : Fleet.NewInspection) (now : Nat)
  | edit (id : Nat) (changes : Fleet.InspectionChanges) (report : Option (Option Nat))
  | upload (id : Nat) (file : Attachment)
  /-- Any other request of the firm. -/
  | other (event : { event : Fleet.Event // event.isExamination = false })

/-- To create a lift examines none. -/
theorem isExamination_createElevator : (Fleet.Event.createElevator (some .active)).isExamination = false := rfl

namespace Register

def attempt (s : Register) : Event -> Except Failure Register
  | .record kind new now => s.record kind new now
  | .edit id changes report => s.edit id changes report
  | .upload id file => .ok { s with attachments := s.attachments.insert id file }
  | .other event => .ok { s with firm := s.firm.step event.1 }

/-- A refused request leaves the register as it is. -/
def step (s : Register) (event : Event) : Register :=
  match s.attempt event with
  | .ok s' => s'
  | .error _ => s

end Register
end Inspections
end Shiftlush
