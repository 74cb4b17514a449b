import Shiftlush.Inspections.Register

namespace Shiftlush
namespace Inspections

open Calendar (Date)
open Transitions (run everyStep)

/-!
# Deadlines counted from another inspection

The deadline of a follow-up is counted from the date of the inspection it
follows.  An edit recomputes the deadline of the row it edits, and of no other.
-/

namespace Register

variable {s s' : Register}

/-! ## What the requests do -/

theorem origin_ok {follows : Option Nat} {looked : Option Fleet.Inspection}
    (found : s.origin follows = .ok looked) : (follows = none ∧ looked = none) ∨
      ∃ id inspection detail, follows = some id ∧ looked = some inspection ∧
        s.details.get? id = some detail ∧ detail.kind = .periodic := by
  cases follows with
  | none =>
      cases found
      exact Or.inl ⟨rfl, rfl⟩
  | some id =>
      cases listed : s.periodic id with
      | error failure =>
          unfold Register.origin at found
          dsimp only at found
          rw [listed] at found
          cases found
      | ok inspection =>
          unfold Register.origin at found
          dsimp only at found
          rw [listed] at found
          cases found
          unfold periodic at listed
          split at listed
          · rename_i detail _ here
            split at listed
            · rename_i periodic
              exact Or.inr ⟨id, inspection, detail, rfl, rfl, here, periodic⟩
            · cases listed
          · cases listed

/-- A recorded inspection is periodic and follows nothing, or follows a periodic one. -/
theorem validate_ok {kind : InspectionKind} {new : Fleet.NewInspection}
    (valid : s.validate kind new = .ok ()) : (kind = .periodic ∧ new.follows = none) ∨
      (kind = .followUp ∧ ∃ id detail, new.follows = some id ∧ s.details.get? id = some detail ∧
        detail.kind = .periodic) := by
  unfold validate at valid
  rcases bind_ok.mp valid with ⟨lift, _, rest⟩
  rcases bind_ok.mp rest with ⟨origin, found, checked⟩
  rcases origin_ok found with ⟨follows, rfl⟩ | ⟨id, inspection, detail, follows, rfl, here, periodic⟩
  · cases kind with
    | periodic => exact Or.inl ⟨rfl, follows⟩
    | followUp => cases checked
  · cases kind with
    | periodic => cases checked
    | followUp => exact Or.inr ⟨rfl, id, detail, follows, here, periodic⟩

theorem record_ok {kind : InspectionKind} {new : Fleet.NewInspection} {now : Nat}
    (done : s.record kind new now = .ok s') : s.validate kind new = .ok () ∧
      s'.firm = s.firm.step (.recordInspection new now) ∧ ∃ inspection,
        s'.firm.inspections = s.firm.inspections.insert s.firm.nextId inspection ∧
        s'.details = s.details.insert s.firm.nextId
          ⟨kind, new.follows, none, s.deriveDeadline new.follows inspection⟩ := by
  unfold record at done
  rcases bind_ok.mp done with ⟨_, valid, rest⟩
  refine ⟨valid, ?_⟩
  dsimp only at rest
  split at rest
  · cases rest
  · split at rest
    · cases rest
    · rename_i firm recorded
      cases rest
      have step : s.firm.step (.recordInspection new now) = firm := by
        unfold Fleet.Firm.step Fleet.Firm.attempt
        dsimp only
        rw [recorded]
      refine ⟨step.symm, ?_⟩
      unfold Fleet.Firm.recordInspection at recorded
      split at recorded
      · cases recorded
      · have same := Except.ok.inj recorded
        subst same
        rw [Fleet.Firm.inspections_syncElevator]
        exact ⟨_, rfl, rfl⟩

theorem checkEdit_ok {id : Nat} {changes : Fleet.InspectionChanges} {report : Option (Option Nat)}
    {inspection : Fleet.Inspection} {detail : Detail}
    (checked : s.checkEdit id changes report = .ok (inspection, detail)) :
    s.firm.inspections.get? id = some inspection ∧ s.details.get? id = some detail := by
  unfold checkEdit at checked
  split at checked
  · rename_i inspection' detail' found found'
    rcases bind_ok.mp checked with ⟨_, _, rest⟩
    rcases bind_ok.mp rest with ⟨_, _, last⟩
    cases last
    exact ⟨found, found'⟩
  · cases checked

/-- What an accepted edit leaves. -/
theorem step_edit {id : Nat} {changes : Fleet.InspectionChanges} {report : Option (Option Nat)}
    {inspection : Fleet.Inspection} {detail : Detail}
    (checked : s.checkEdit id changes report = .ok (inspection, detail)) :
    (s.step (.edit id changes report)).firm = s.firm.step (.editInspection id changes) ∧
      (s.step (.edit id changes report)).firm.inspections =
        s.firm.inspections.update id changes.apply ∧
      (s.step (.edit id changes report)).details = s.details.update id (fun row =>
        { row with
          report := report.getD row.report
          correctionDeadline := s.deriveDeadline detail.follows (changes.apply inspection) }) := by
  have found := (checkEdit_ok checked).1
  unfold step attempt edit Fleet.Firm.step Fleet.Firm.attempt Fleet.Firm.editInspection
  dsimp only
  rw [checked, ok_bind, found]
  refine ⟨rfl, ?_, rfl⟩
  exact Fleet.Firm.inspections_syncElevator _ _

theorem step_edit_refused {id : Nat} {changes : Fleet.InspectionChanges} {report : Option (Option Nat)}
    {failure : Failure} (refused : s.checkEdit id changes report = .error failure) :
    s.step (.edit id changes report) = s := by
  unfold step attempt edit
  dsimp only
  rw [refused, error_bind]

/-- Requests that are no examination leave the inspections. -/
theorem inspections_step {firm : Fleet.Firm} {event : Fleet.Event} (other : event.isExamination = false) :
    (firm.step event).inspections = firm.inspections := by
  unfold Fleet.Firm.step
  split
  · rename_i firm' done
    by_cases created : event.isCreation = true
    · cases event with
      | createElevator status =>
          rcases bind_ok.mp done with ⟨_, _, rest⟩
          cases rest
          rfl
      | _ => cases created
    · rcases Fleet.Firm.attempt_restamped other (Bool.eq_false_iff.mpr created) done with
        ⟨_, restamped, _⟩
      exact restamped.inspections
  · rfl

/-! ## Rows and their origins -/

structure Sound (s : Register) : Prop where
  keyed : s.firm.Keyed
  paired : ∀ id, (s.details.get? id).isSome = (s.firm.inspections.get? id).isSome
  /-- "A periodic one following something is a contradiction." -/
  kinds : ∀ id detail, s.details.get? id = some detail ->
    (detail.kind = .periodic ↔ detail.follows = none)
  origins : ∀ id detail origin, s.details.get? id = some detail -> detail.follows = some origin ->
    ∃ detail', s.details.get? origin = some detail' ∧ detail'.kind = .periodic

theorem sound_empty : empty.Sound where
  keyed := Fleet.Firm.keyed_empty
  paired _ := rfl
  kinds id detail here := by cases here
  origins id detail origin here := by cases here

namespace Sound

theorem paired_some (sound : s.Sound) {id : Nat} {inspection : Fleet.Inspection}
    (found : s.firm.inspections.get? id = some inspection) : ∃ detail, s.details.get? id = some detail := by
  apply Option.isSome_iff_exists.mp
  rw [sound.paired, found]
  rfl

/-- What is followed follows nothing, so no inspection follows itself. -/
theorem origin_ne (sound : s.Sound) {id origin : Nat} {detail : Detail}
    (here : s.details.get? id = some detail) (follows : detail.follows = some origin) : origin ≠ id := by
  rintro rfl
  rcases sound.origins origin detail origin here follows with ⟨detail', found, periodic⟩
  rw [here] at found
  cases found
  have nothing := (sound.kinds origin detail here).mp periodic
  rw [follows] at nothing
  cases nothing

theorem fresh (sound : s.Sound) : s.firm.inspections.get? s.firm.nextId = none ∧
    s.details.get? s.firm.nextId = none := by
  have absent := sound.keyed.inspections.absent (le_refl _)
  have paired := sound.paired s.firm.nextId
  rw [absent] at paired
  exact ⟨absent, Option.not_isSome_iff_eq_none.mp (by rw [paired]; decide)⟩

theorem record (sound : s.Sound) {kind : InspectionKind} {new : Fleet.NewInspection} {now : Nat}
    (done : s.record kind new now = .ok s') : s'.Sound := by
  rcases record_ok done with ⟨valid, firm, inspection, inspections, details⟩
  have absent := sound.fresh
  refine ⟨?_, ?_, ?_, ?_⟩
  · rw [firm]
    exact sound.keyed.step _
  · intro id
    rw [inspections, details, Rows.get?_insert, Rows.get?_insert, Option.isSome_or, Option.isSome_or,
      sound.paired]
    split
    · rfl
    · rfl
  · intro id detail here
    rw [details] at here
    by_cases own : id = s.firm.nextId
    · subst own
      rw [Rows.get?_insert_self absent.2] at here
      cases here
      rcases validate_ok valid with ⟨periodic, nothing⟩ | ⟨followUp, origin, _, follows, _⟩
      · exact ⟨fun _ => nothing, fun _ => periodic⟩
      · rw [followUp, follows]
        constructor
        · intro impossible
          cases impossible
        · intro impossible
          cases impossible
    · rw [Rows.get?_insert_of_ne (Ne.symm own)] at here
      exact sound.kinds id detail here
  · intro id detail origin here follows
    rw [details] at here ⊢
    by_cases own : id = s.firm.nextId
    · subst own
      rw [Rows.get?_insert_self absent.2] at here
      cases here
      rcases validate_ok valid with ⟨_, nothing⟩ | ⟨_, origin', detail', follows', found, periodic⟩
      · rw [nothing] at follows
        cases follows
      · rw [follows'] at follows
        cases follows
        exact ⟨detail', Rows.get?_insert_of_some found, periodic⟩
    · rw [Rows.get?_insert_of_ne (Ne.symm own)] at here
      rcases sound.origins id detail origin here follows with ⟨detail', found, periodic⟩
      exact ⟨detail', Rows.get?_insert_of_some found, periodic⟩

theorem edit (sound : s.Sound) (id : Nat) (changes : Fleet.InspectionChanges)
    (report : Option (Option Nat)) : (s.step (.edit id changes report)).Sound := by
  cases checked : s.checkEdit id changes report with
  | error failure =>
      rw [step_edit_refused checked]
      exact sound
  | ok rows =>
      rcases step_edit checked with ⟨firm, inspections, details⟩
      have old : ∀ id' detail', (s.step (.edit id changes report)).details.get? id' = some detail' ->
          ∃ detail, s.details.get? id' = some detail ∧ detail'.kind = detail.kind ∧
            detail'.follows = detail.follows := by
        intro id' detail' here
        rw [details, Rows.get?_update] at here
        split at here
        · rename_i same
          subst same
          rcases Option.map_eq_some_iff.mp here with ⟨detail, found, rfl⟩
          exact ⟨detail, found, rfl, rfl⟩
        · exact ⟨detail', here, rfl, rfl⟩
      refine ⟨?_, ?_, ?_, ?_⟩
      · rw [firm]
        exact sound.keyed.step _
      · intro id'
        rw [inspections, details, Rows.isSome_get?_update, Rows.isSome_get?_update, sound.paired]
      · intro id' detail' here
        rcases old id' detail' here with ⟨detail, found, kind, follows⟩
        rw [kind, follows]
        exact sound.kinds id' detail found
      · intro id' detail' origin here follows'
        rcases old id' detail' here with ⟨detail, found, _, follows⟩
        rw [follows] at follows'
        rcases sound.origins id' detail origin found follows' with ⟨detail'', found'', periodic⟩
        rw [details, Rows.get?_update]
        split
        · rw [found'']
          exact ⟨_, rfl, periodic⟩
        · exact ⟨detail'', found'', periodic⟩

theorem step (sound : s.Sound) (event : Event) : (s.step event).Sound := by
  cases event with
  | record kind new now =>
      unfold Register.step attempt
      dsimp only
      split
      · rename_i s' done
        exact sound.record done
      · exact sound
  | edit id changes report => exact sound.edit id changes report
  | upload id file => exact ⟨sound.keyed, sound.paired, sound.kinds, sound.origins⟩
  | other event =>
      have inspections : (s.firm.step event.1).inspections = s.firm.inspections := inspections_step event.2
      refine ⟨sound.keyed.step event.1, ?_, sound.kinds, sound.origins⟩
      intro id
      exact (sound.paired id).trans (by rw [← inspections]; rfl)

end Sound

/-! ## The law -/

/-- What an inspection's own row holds is what the rules derive. -/
def DerivedAt (s : Register) (id : Nat) : Prop :=
  ∀ inspection, s.firm.inspections.get? id = some inspection -> ∃ detail, s.details.get? id = some detail ∧
    detail.correctionDeadline = correctionDeadline inspection.label
      (s.originDate detail.follows inspection.inspectedOn) inspection.nextInspectionDue

/-- Every stored deadline is the one the rules derive. -/
def Derived (s : Register) : Prop := ∀ id, s.DerivedAt id

theorem DerivedAt.eq {id : Nat} {inspection : Fleet.Inspection} {detail : Detail}
    (derived : s.DerivedAt id) (found : s.firm.inspections.get? id = some inspection)
    (here : s.details.get? id = some detail) : detail.correctionDeadline = correctionDeadline inspection.label
      (s.originDate detail.follows inspection.inspectedOn) inspection.nextInspectionDue := by
  rcases derived inspection found with ⟨detail', here', same⟩
  rw [here] at here'
  cases here'
  exact same

theorem Sound.derivedAt (sound : s.Sound) {id : Nat} (each : ∀ inspection detail,
    s.firm.inspections.get? id = some inspection -> s.details.get? id = some detail ->
      detail.correctionDeadline = correctionDeadline inspection.label
        (s.originDate detail.follows inspection.inspectedOn) inspection.nextInspectionDue) :
    s.DerivedAt id := by
  intro inspection found
  rcases sound.paired_some found with ⟨detail, here⟩
  exact ⟨detail, here, each inspection detail found here⟩

/-- An inspection that follows this one has a deadline of a number of days. -/
def isCountedFrom (s : Register) (id : Nat) : Bool :=
  s.firm.inspections.any (fun r =>
    isCounted r.2.label && decide ((s.details.get? r.1).bind Detail.follows = some id))

/-- No deadline is counted from a date that an edit moves. -/
def keepsDeadlines (s : Register) : Event -> Bool
  | .edit id changes report =>
      match s.checkEdit id changes report with
      | .ok (inspection, _) =>
          decide ((changes.apply inspection).inspectedOn = inspection.inspectedOn) || !s.isCountedFrom id
      | .error _ => true
  | _ => true

theorem isCountedFrom_iff (sound : s.Sound) {id : Nat} : s.isCountedFrom id = true ↔
    ∃ id' inspection detail, s.firm.inspections.get? id' = some inspection ∧
      s.details.get? id' = some detail ∧ detail.follows = some id ∧ isCounted inspection.label = true := by
  unfold isCountedFrom
  rw [List.any_eq_true]
  constructor
  · rintro ⟨r, mem, passes⟩
    rw [Bool.and_eq_true, decide_eq_true_eq, Option.bind_eq_some_iff] at passes
    rcases passes with ⟨counted, detail, here, follows⟩
    exact ⟨r.1, r.2, detail, Rows.get?_of_mem sound.keyed.examined mem, here, follows, counted⟩
  · rintro ⟨id', inspection, detail, found, here, follows, counted⟩
    refine ⟨(id', inspection), Rows.mem_of_get? found, ?_⟩
    rw [Bool.and_eq_true, decide_eq_true_eq, Option.bind_eq_some_iff]
    exact ⟨counted, detail, here, follows⟩

/-- The date of an origin is read from its row. -/
theorem originDate_congr {follows : Option Nat} {day : Date}
    (same : ∀ origin, follows = some origin -> (s'.firm.inspections.get? origin).map
      Fleet.Inspection.inspectedOn = (s.firm.inspections.get? origin).map Fleet.Inspection.inspectedOn) :
    s'.originDate follows day = s.originDate follows day := by
  unfold originDate
  cases follows with
  | none => rfl
  | some origin =>
      have here := same origin rfl
      dsimp only [Option.bind_some]
      cases found : s.firm.inspections.get? origin with
      | none =>
          rw [found, Option.map_none, Option.map_eq_none_iff] at here
          rw [here]
      | some row =>
          rw [found, Option.map_some] at here
          rcases Option.map_eq_some_iff.mp here with ⟨row', found', same'⟩
          rw [found']
          exact same'

theorem Derived.record (sound : s.Sound) (derived : s.Derived) {kind : InspectionKind}
    {new : Fleet.NewInspection} {now : Nat} (done : s.record kind new now = .ok s') : s'.Derived := by
  rcases record_ok done with ⟨valid, firm, inspection, inspections, details⟩
  have absent := sound.fresh
  -- Whatever is followed is recorded already.
  have kept : ∀ follows day, (∀ origin, follows = some origin -> ∃ detail, s.details.get? origin = some detail) ->
      s'.originDate follows day = s.originDate follows day := by
    intro follows day recorded
    apply originDate_congr
    intro origin here
    rcases recorded origin here with ⟨detail, found⟩
    have paired := sound.paired origin
    rw [found] at paired
    rcases Option.isSome_iff_exists.mp paired.symm with ⟨row, found'⟩
    rw [inspections, Rows.get?_insert_of_some found', found']
  intro id
  apply (sound.record done).derivedAt
  intro inspection' detail' found here
  rw [inspections] at found
  rw [details] at here
  by_cases own : id = s.firm.nextId
  · subst own
    rw [Rows.get?_insert_self absent.1] at found
    rw [Rows.get?_insert_self absent.2] at here
    cases found
    cases here
    dsimp only
    rw [kept]
    · rfl
    · intro origin follows
      rcases validate_ok valid with ⟨_, nothing⟩ | ⟨_, origin', detail, follows', found, _⟩
      · rw [nothing] at follows
        cases follows
      · rw [follows'] at follows
        cases follows
        exact ⟨detail, found⟩
  · rw [Rows.get?_insert_of_ne (Ne.symm own)] at found here
    rw [kept]
    · exact (derived id).eq found here
    · intro origin follows
      rcases sound.origins id detail' origin here follows with ⟨detail, found, _⟩
      exact ⟨detail, found⟩

section Edits

variable {id : Nat} {changes : Fleet.InspectionChanges} {report : Option (Option Nat)}
  {inspection : Fleet.Inspection} {detail : Detail}

/-- The edited row's own deadline is recomputed. -/
theorem derivedAt_edited (sound : s.Sound)
    (checked : s.checkEdit id changes report = .ok (inspection, detail)) :
    (s.step (.edit id changes report)).DerivedAt id := by
  rcases checkEdit_ok checked with ⟨found, here⟩
  rcases step_edit checked with ⟨_, inspections, details⟩
  apply (sound.edit id changes report).derivedAt
  intro inspection' detail' found' here'
  rw [inspections, Rows.get?_update_self, found] at found'
  rw [details, Rows.get?_update_self, here] at here'
  cases found'
  cases here'
  dsimp only
  rw [originDate_congr (s := s)]
  · rfl
  · intro origin follows
    rw [inspections, Rows.get?_update_of_ne (sound.origin_ne here follows)]

/-- The other rows are as they were, and so are their deadlines unless their origin moved. -/
theorem derivedAt_other (sound : s.Sound) (derived : s.Derived)
    (checked : s.checkEdit id changes report = .ok (inspection, detail)) {id' : Nat} (other : id' ≠ id)
    (kept : (changes.apply inspection).inspectedOn = inspection.inspectedOn ∨ s.isCountedFrom id = false) :
    (s.step (.edit id changes report)).DerivedAt id' := by
  have found := (checkEdit_ok checked).1
  rcases step_edit checked with ⟨_, inspections, details⟩
  apply (sound.edit id changes report).derivedAt
  intro inspection' detail' found' here'
  rw [inspections, Rows.get?_update_of_ne other] at found'
  rw [details, Rows.get?_update_of_ne other] at here'
  have before := (derived id').eq found' here'
  rw [before]
  by_cases follows : detail'.follows = some id
  · rcases kept with same | uncounted
    · have date : (s.step (.edit id changes report)).originDate detail'.follows inspection'.inspectedOn =
          s.originDate detail'.follows inspection'.inspectedOn := by
        apply originDate_congr
        intro origin _
        rw [inspections, Rows.get?_update]
        split
        · rename_i here
          subst here
          rw [found, Option.map_some, Option.map_some, Option.map_some, same]
        · rfl
      rw [date]
    · apply correctionDeadline_uncounted
      apply Bool.eq_false_iff.mpr
      intro counted
      have from_ := (isCountedFrom_iff sound).mpr ⟨id', inspection', detail', found', here', follows, counted⟩
      rw [uncounted] at from_
      cases from_
  · have date : (s.step (.edit id changes report)).originDate detail'.follows inspection'.inspectedOn =
        s.originDate detail'.follows inspection'.inspectedOn := by
      apply originDate_congr
      intro origin here
      have away : origin ≠ id := by
        rintro rfl
        exact follows here
      rw [inspections, Rows.get?_update_of_ne away]
    rw [date]

/-- A counted deadline does not follow its origin. -/
theorem not_derived_edited (sound : s.Sound) (derived : s.Derived)
    (checked : s.checkEdit id changes report = .ok (inspection, detail))
    (moved : (changes.apply inspection).inspectedOn ≠ inspection.inspectedOn)
    (counted : s.isCountedFrom id = true) : ¬ (s.step (.edit id changes report)).Derived := by
  intro after
  have found := (checkEdit_ok checked).1
  rcases step_edit checked with ⟨_, inspections, details⟩
  rcases (isCountedFrom_iff sound).mp counted with ⟨id', inspection', detail', found', here', follows, days⟩
  have other : id' ≠ id := (sound.origin_ne here' follows).symm
  have before := (derived id').eq found' here'
  have found'' : (s.step (.edit id changes report)).firm.inspections.get? id' = some inspection' := by
    rw [inspections, Rows.get?_update_of_ne other, found']
  have here'' : (s.step (.edit id changes report)).details.get? id' = some detail' := by
    rw [details, Rows.get?_update_of_ne other, here']
  have now := (after id').eq found'' here''
  have date : s.originDate detail'.follows inspection'.inspectedOn = inspection.inspectedOn := by
    unfold originDate
    rw [follows, Option.bind_some, found]
  have date' : (s.step (.edit id changes report)).originDate detail'.follows inspection'.inspectedOn =
      (changes.apply inspection).inspectedOn := by
    unfold originDate
    rw [follows, Option.bind_some, inspections, Rows.get?_update_self, found]
    rfl
  rw [before, date, date'] at now
  exact moved (correctionDeadline_counted days now).symm

end Edits

theorem Derived.step (sound : s.Sound) (derived : s.Derived) {event : Event}
    (keeps : s.keepsDeadlines event = true) : (s.step event).Derived := by
  cases event with
  | record kind new now =>
      unfold Register.step attempt
      dsimp only
      split
      · rename_i s' done
        exact derived.record sound done
      · exact derived
  | edit id changes report =>
      unfold keepsDeadlines at keeps
      dsimp only at keeps
      split at keeps
      · rename_i inspection detail checked
        rw [Bool.or_eq_true, decide_eq_true_eq, Bool.not_eq_true'] at keeps
        intro id'
        by_cases own : id' = id
        · subst own
          exact derivedAt_edited sound checked
        · exact derivedAt_other sound derived checked own keeps
      · rename_i failure refused
        rw [step_edit_refused refused]
        exact derived
  | upload id file => exact derived
  | other event =>
      have inspections : (s.firm.step event.1).inspections = s.firm.inspections := inspections_step event.2
      intro id
      apply (sound.step (.other event)).derivedAt
      intro inspection detail found here
      have found' : s.firm.inspections.get? id = some inspection := by
        rw [← inspections]
        exact found
      rw [originDate_congr (s := s)]
      · exact (derived id).eq found' here
      · intro origin _
        have same : (s.step (.other event)).firm.inspections = s.firm.inspections := inspections
        rw [same]

theorem keepsDeadlines_of_derived (sound : s.Sound) (derived : s.Derived) {event : Event}
    (after : (s.step event).Derived) : s.keepsDeadlines event = true := by
  cases event with
  | edit id changes report =>
      unfold keepsDeadlines
      dsimp only
      split
      · rename_i inspection detail checked
        by_contra failed
        rw [Bool.or_eq_true, decide_eq_true_eq, Bool.not_eq_true', not_or, Bool.not_eq_false] at failed
        exact not_derived_edited sound derived checked failed.1 failed.2 after
      · rfl
  | _ => rfl

theorem derived_empty : empty.Derived := by
  intro id inspection found
  cases found

/-- Every deadline is derived in every state of a run, exactly when no edit
moves the date that a follow-up's deadline is counted from. -/
theorem deadlines_derived (events : List Event) :
    (∀ before, before <+: events -> (run step empty before).Derived) ↔
      everyStep step keepsDeadlines empty events = true := by
  let J : Register -> Prop := fun s => s.Sound ∧ s.Derived
  have start : J empty := ⟨sound_empty, derived_empty⟩
  have keeps : ∀ s event, keepsDeadlines s event = true -> J s -> J (s.step event) := by
    rintro s event allowed ⟨sound, derived⟩
    exact ⟨sound.step event, derived.step sound allowed⟩
  constructor
  · intro within
    refine Transitions.everyStep_of_law (J := J) (L := Derived) keeps ?_ start within
    rintro s event ⟨sound, derived⟩ after
    exact keepsDeadlines_of_derived sound derived after
  · rintro passes before ⟨after, rfl⟩
    have prefix' := (Transitions.everyStep_append.mp passes).1
    exact (Transitions.run_invariant_of_everyStep (J := J) keeps prefix' start).2

/-- A red follow-up, and then a correction of the date of what it follows. -/
def correctedOrigin : List Event :=
  let first : Date := .first 24300
  [.other ⟨.createElevator (some .active), isExamination_createElevator⟩,
   .record .periodic ⟨0, first, .yellow, none, none, "", ""⟩ 0,
   .record .followUp ⟨0, first.addDays 20, .red, some 1, none, "", ""⟩ 1,
   .edit 1 ⟨some (first.addDays 5), none, none, none, none⟩ none]

theorem deadline_stale : ¬ ∀ before, before <+: correctedOrigin -> (run step empty before).Derived := by
  rw [deadlines_derived]
  decide +kernel

end Register
end Inspections
end Shiftlush
