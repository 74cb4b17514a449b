import Shiftlush.Portal.Isolation

namespace Shiftlush
namespace Portal
namespace Views

open Calendar (Date)
open Transitions (run run_filter)

/-!
# Reports of other customers change nothing

The portal writes in one place: a report makes a fault, and may put the lift it is of out of
service.  A run of requests of any accounts is put beside the run of those of one customer's, and
that customer's are answered alike after the two.
-/

variable {db : Database} {account : Account} {elevator id now : Nat} {report : Faults.PublicReport}
  {reference : String} {customer : Nat}

/-- A key that no fault has and that no file is of. -/
def Database.Unused (db : Database) (id : Nat) : Prop :=
  db.faults.get? id = none ∧
    ∀ r ∈ db.files, r.2.attachment.objectType = .fault -> r.2.attachment.objectId ≠ id

/-- The keys drawn for the reports are all different, and new. -/
def Fresh (events : List Event) (db : Database) : Prop :=
  (events.filterMap Event.key).Nodup ∧ ∀ id ∈ events.filterMap Event.key, db.Unused id

/-! ## One report -/

section Report

variable (db) in
/-- The lifts after a report. -/
def liftsAfter (elevator : Nat) (report : Faults.PublicReport) : Rows Elevator :=
  if report.elevatorStopped then db.elevators.update elevator Elevator.stop else db.elevators

variable (db) in
/-- The database after a report that is accepted. -/
def stored (account : Account) (elevator : Nat) (report : Faults.PublicReport) (id now : Nat) (reference : String) :
    Database :=
  { db with
    faults := db.faults.insert id (reported account elevator report now reference)
    elevators := liftsAfter db elevator report }

theorem create_cases (accepted : accepts db account elevator report = true) (absent : db.faults.get? id = none) :
    create db account elevator report id now reference = stored db account elevator report id now reference :=
  if_pos ⟨accepted, absent⟩

theorem create_refused (refused : accepts db account elevator report = false) :
    create db account elevator report id now reference = db :=
  if_neg (by rw [refused]; simp)

@[simp] theorem reported_elevator : (reported account elevator report now reference).fault.elevator = elevator := rfl

@[simp] theorem stop_building (row : Elevator) : row.stop.building = row.building := by
  unfold Elevator.stop
  split <;> rfl

/-- What of a lift a report leaves as it was, in the columns the joins and the filters read. -/
def Elevator.place (row : Elevator) : Nat × Nat × Bool := (row.company, row.building, row.isDeleted)

@[simp] theorem stop_place (row : Elevator) : row.stop.place = row.place := by
  unfold Elevator.stop
  split <;> rfl

theorem place_liftsAfter (other : Nat) :
    ((liftsAfter db elevator report).get? other).map Elevator.place = (db.elevators.get? other).map Elevator.place := by
  unfold liftsAfter
  split
  · rw [Rows.get?_update]
    split
    · rename_i same
      rw [same]
      cases db.elevators.get? elevator with
      | none => rfl
      | some row => exact congrArg some (stop_place row)
    · rfl
  · rfl

/-- A join through the lifts reads no more of them than their places. -/
theorem customerOfElevator_of_places {db' : Database} (buildings : db'.buildings = db.buildings)
    (places : ∀ lift, (db'.elevators.get? lift).map Elevator.place = (db.elevators.get? lift).map Elevator.place) :
    customerOfElevator db' = customerOfElevator db := by
  funext lift
  have through : ∀ d : Database, customerOfElevator d lift =
      ((d.elevators.get? lift).map Elevator.place).bind (fun place => customerOfBuilding d place.2.1) := by
    intro d
    rw [Option.bind_map]
    rfl
  rw [through, through, places lift]
  unfold customerOfBuilding
  rw [buildings]

theorem customerOfElevator_stored :
    customerOfElevator (stored db account elevator report id now reference) = customerOfElevator db :=
  customerOfElevator_of_places rfl place_liftsAfter

theorem customerOfVisit_stored :
    customerOfVisit (stored db account elevator report id now reference) = customerOfVisit db := by
  funext visit
  unfold customerOfVisit
  rw [customerOfElevator_stored]
  rfl

theorem customerOfInspection_stored :
    customerOfInspection (stored db account elevator report id now reference) = customerOfInspection db := by
  funext inspection
  unfold customerOfInspection
  rw [customerOfElevator_stored]
  rfl

theorem customerOfFault_stored_of_ne {fault : Nat} (other : fault ≠ id) :
    customerOfFault (stored db account elevator report id now reference) fault = customerOfFault db fault := by
  have found : (stored db account elevator report id now reference).faults.get? fault = db.faults.get? fault :=
    Rows.get?_insert_of_ne other.symm
  unfold customerOfFault
  rw [customerOfElevator_stored, found]

theorem concernsTechnician_stored (technician : Nat) :
    concernsTechnician (stored db account elevator report id now reference) customer technician =
      concernsTechnician db customer technician := by
  unfold concernsTechnician
  rw [customerOfElevator_stored]
  congr 1
  exact (List.any_append).trans (by simp [reported, Faults.PublicReport.row])

theorem concernsDefect_stored (row : NonConformity) :
    concernsDefect (stored db account elevator report id now reference) customer row = concernsDefect db customer row := by
  unfold concernsDefect
  rw [customerOfElevator_stored, customerOfInspection_stored]
  rfl

/-- What there is of a customer after a report: what there was, but for three tables. -/
theorem restrict_stored : restrict customer (stored db account elevator report id now reference) =
    { restrict customer db with
      elevators := (liftsAfter db elevator report).filter
        (fun r => decide (customerOfBuilding db r.2.building = some customer))
      faults := (db.faults.insert id (reported account elevator report now reference)).filter
        (fun r => decide (customerOfElevator db r.2.fault.elevator = some customer))
      files := db.files.filter (fun r =>
        concernsFile (stored db account elevator report id now reference) customer r.2.attachment) } := by
  unfold restrict
  rw [customerOfElevator_stored, customerOfVisit_stored]
  ext1
  case nonConformities => exact List.filter_congr (fun r _ => concernsDefect_stored r.2)
  case firstNames => exact List.filter_congr (fun r _ => concernsTechnician_stored r.1)
  all_goals rfl

/-- The lift of a report that is accepted is the account's customer's. -/
theorem lift_of_accepts (keyed : db.Keyed) (accepted : accepts db account elevator report = true) :
    customerOfElevator db elevator = some account.customer := by
  have shown := (Bool.and_eq_true_iff.mp accepted).1
  rcases Option.isSome_iff_exists.mp shown with ⟨row, found⟩
  rcases mem_getQueryset (Rows.mem_of_get? found) with ⟨listed, theirs⟩
  rw [customerOfElevator, Rows.get?_of_mem keyed.elevators listed]
  exact theirs

theorem concernsFile_stored {attachment : Attachments.Attachment}
    (same : attachment.objectType = .fault ->
      (customerOfFault (stored db account elevator report id now reference) attachment.objectId = some customer ↔
        customerOfFault db attachment.objectId = some customer)) :
    concernsFile (stored db account elevator report id now reference) customer attachment =
      concernsFile db customer attachment := by
  unfold concernsFile
  rw [customerOfVisit_stored, customerOfInspection_stored]
  cases type : attachment.objectType with
  | fault => exact decide_eq_decide.mpr (same type)
  | _ => rfl

/-- A report of somebody else's. -/
theorem restrict_stored_other (keyed : db.Keyed) (accepted : accepts db account elevator report = true)
    (absent : db.faults.get? id = none) (other : account.customer ≠ customer) :
    restrict customer (stored db account elevator report id now reference) = restrict customer db := by
  have lift := lift_of_accepts keyed accepted
  have foreign : ¬ customerOfElevator db elevator = some customer := by
    rw [lift]
    exact fun same => other (Option.some.inj same)
  rw [restrict_stored]
  ext1
  case elevators =>
    change List.filter _ (liftsAfter db elevator report) = List.filter _ db.elevators
    unfold liftsAfter
    split
    · apply Rows.filter_update
      intro row mem
      have reads : customerOfBuilding db row.building = customerOfElevator db elevator := by
        rw [customerOfElevator, Rows.get?_of_mem keyed.elevators mem, Option.bind_some]
      simp [reads, foreign]
    · rfl
  case faults =>
    refine (List.filter_append ..).trans ?_
    simp only [List.filter_cons, reported_elevator, foreign, decide_false, List.filter_nil]
    exact List.append_nil _
  case files =>
    refine List.filter_congr (fun r _ => concernsFile_stored (fun _ => ?_))
    by_cases new : r.2.attachment.objectId = id
    · have now_ : customerOfFault (stored db account elevator report id now reference) id =
          customerOfElevator db elevator := by
        rw [customerOfFault, customerOfElevator_stored, stored, Rows.get?_insert_self absent]
        rfl
      have before : customerOfFault db id = none := by
        rw [customerOfFault, absent, Option.bind_none]
      rw [new, now_, before]
      exact iff_of_false foreign (by simp)
    · rw [customerOfFault_stored_of_ne new]
  all_goals rfl

/-- One of the customer's own. -/
theorem restrict_stored_own (keyed : db.Keyed) (accepted : accepts db account elevator report = true)
    (unused : db.Unused id) (own : account.customer = customer) :
    restrict customer (stored db account elevator report id now reference) =
      stored (restrict customer db) account elevator report id now reference := by
  have lift := lift_of_accepts keyed accepted
  rw [restrict_stored]
  ext1
  case elevators =>
    change List.filter _ (liftsAfter db elevator report) = liftsAfter (restrict customer db) elevator report
    unfold liftsAfter
    split
    · refine (List.filter_map ..).trans ?_
      refine congrArg (List.map _) (List.filter_congr (fun r _ => ?_))
      simp only [Function.comp_apply]
      split
      · rw [stop_building]
      · rfl
    · rfl
  case faults =>
    refine (List.filter_append ..).trans ?_
    simp only [List.filter_cons, reported_elevator, lift, own, decide_true, if_true, List.filter_nil]
    rfl
  case files =>
    refine List.filter_congr (fun r mem => concernsFile_stored (fun ofAFault => ?_))
    rw [customerOfFault_stored_of_ne (unused.2 r mem ofAFault)]
  all_goals rfl

end Report

/-! ## Runs -/

section Runs

variable {events : List Event}

theorem keyed_stored (keyed : db.Keyed) (absent : db.faults.get? id = none) :
    (stored db account elevator report id now reference).Keyed where
  buildings := keyed.buildings
  elevators := by
    change (liftsAfter db elevator report).Distinct
    unfold liftsAfter
    split
    · exact keyed.elevators.update elevator Elevator.stop
    · exact keyed.elevators
  visits := keyed.visits
  inspections := keyed.inspections
  faults := keyed.faults.insert absent
  firstNames := keyed.firstNames

theorem Fresh.later {event : Event} (fresh : Fresh (event :: events) db) : Fresh events db := by
  cases event with
  | get account request => exact fresh
  | report account elevator report id now reference =>
      exact ⟨(List.nodup_cons.mp fresh.1).2, fun key mem => fresh.2 key (List.mem_cons_of_mem _ mem)⟩

theorem Fresh.here (fresh : Fresh (.report account elevator report id now reference :: events) db) : db.Unused id :=
  fresh.2 id List.mem_cons_self

theorem Fresh.stored (fresh : Fresh (.report account elevator report id now reference :: events) db) :
    Fresh events (stored db account elevator report id now reference) := by
  refine ⟨fresh.later.1, ?_⟩
  intro key mem
  have other : id ≠ key := by
    rintro rfl
    exact (List.nodup_cons.mp fresh.1).1 mem
  have before := fresh.later.2 key mem
  exact ⟨(Rows.get?_insert_of_ne other).trans before.1, before.2⟩

/-- Two databases that are alike for a customer, with the events to come. -/
structure Alike (customer : Nat) (events : List Event) (db db' : Database) : Prop where
  keyed : db.Keyed
  keyed' : db'.Keyed
  same : restrict customer db' = restrict customer db
  buildings : db'.buildings = db.buildings
  places : ∀ lift, (db'.elevators.get? lift).map Elevator.place = (db.elevators.get? lift).map Elevator.place
  fresh : Fresh events db
  fresh' : Fresh events db'

theorem accepts_restrict (keyed : db.Keyed) :
    accepts (restrict account.customer db) account elevator report = accepts db account elevator report := by
  unfold accepts
  rw [elevatorsOf_restrict keyed]

theorem Alike.verdict {db' : Database} (alike : Alike account.customer events db db') :
    accepts db' account elevator report = accepts db account elevator report := by
  rw [← accepts_restrict alike.keyed', ← accepts_restrict alike.keyed, alike.same]

theorem Alike.alone {event : Event} {db' : Database} (alike : Alike customer (event :: events) db db')
    (other : event.account.customer ≠ customer) : Alike customer events (step db event) db' := by
  cases event with
  | get account request => exact { alike with fresh := alike.fresh.later, fresh' := alike.fresh'.later }
  | report account elevator report id now reference =>
      have absent := alike.fresh.here.1
      change Alike customer events (create db account elevator report id now reference) db'
      cases accepted : accepts db account elevator report with
      | false =>
          rw [create_refused accepted]
          exact { alike with fresh := alike.fresh.later, fresh' := alike.fresh'.later }
      | true =>
          rw [create_cases accepted absent]
          exact {
            keyed := keyed_stored alike.keyed absent
            keyed' := alike.keyed'
            same := alike.same.trans (restrict_stored_other alike.keyed accepted absent other).symm
            buildings := alike.buildings
            places := fun lift => (alike.places lift).trans (place_liftsAfter lift).symm
            fresh := alike.fresh.stored
            fresh' := alike.fresh'.later }

theorem Alike.both {event : Event} {db' : Database} (alike : Alike customer (event :: events) db db')
    (own : event.account.customer = customer) : Alike customer events (step db event) (step db' event) := by
  cases event with
  | get account request => exact { alike with fresh := alike.fresh.later, fresh' := alike.fresh'.later }
  | report account elevator report id now reference =>
      have theirs : account.customer = customer := own
      have unused := alike.fresh.here
      have unused' := alike.fresh'.here
      have verdict : accepts db' account elevator report = accepts db account elevator report := by
        rw [← theirs] at alike
        exact alike.verdict
      change Alike customer events (create db account elevator report id now reference)
        (create db' account elevator report id now reference)
      cases accepted : accepts db account elevator report with
      | false =>
          rw [create_refused accepted, create_refused (verdict.trans accepted)]
          exact { alike with fresh := alike.fresh.later, fresh' := alike.fresh'.later }
      | true =>
          have accepted' := verdict.trans accepted
          rw [create_cases accepted unused.1, create_cases accepted' unused'.1]
          exact {
            keyed := keyed_stored alike.keyed unused.1
            keyed' := keyed_stored alike.keyed' unused'.1
            same := by
              rw [restrict_stored_own alike.keyed' accepted' unused' theirs,
                restrict_stored_own alike.keyed accepted unused theirs, alike.same]
            buildings := alike.buildings
            places := fun lift =>
              ((place_liftsAfter lift).trans (alike.places lift)).trans (place_liftsAfter lift).symm
            fresh := alike.fresh.stored
            fresh' := alike.fresh'.stored }

theorem namesALift_iff_place (keyed : db.Keyed) (lift : Nat) : namesALift db account (some lift) = true ↔
    ∃ building, (db.elevators.get? lift).map Elevator.place = some (account.company, building, false) := by
  rw [namesALift_some keyed]
  constructor
  · rintro ⟨row, found, ofFirm, alive⟩
    exact ⟨row.building, by rw [found, Option.map_some, Elevator.place, ofFirm, alive]⟩
  · rintro ⟨building, placed⟩
    rcases Option.map_eq_some_iff.mp placed with ⟨row, found, here⟩
    exact ⟨row, found, congrArg Prod.fst here, congrArg (fun place => place.2.2) here⟩

theorem Alike.foreign {db' : Database} (alike : Alike customer events db db') (request : Request) :
    NamesForeign db' account request ↔ NamesForeign db account request := by
  unfold NamesForeign
  simp only [namesALift_iff_place alike.keyed, namesALift_iff_place alike.keyed', alike.places,
    customerOfElevator_of_places alike.buildings alike.places]

theorem Alike.answers {db' : Database} (alike : Alike account.customer events db db') (c : Collation) (today : Date)
    (request : Request) : respond db' c today account request = respond db c today account request := by
  by_cases foreign : NamesForeign db account request
  · rw [respond_foreign c today foreign, respond_foreign c today ((alike.foreign request).mpr foreign)]
  · have foreign' := fun there => foreign ((alike.foreign request).mp there)
    rw [← respond_restrict alike.keyed c today foreign, ← respond_restrict alike.keyed' c today foreign', alike.same]

theorem alike_run (keyed : db.Keyed) {events : List Event} (fresh : Fresh events db) (customer : Nat) :
    Alike customer [] (run step db events)
      (run step db (events.filter (fun event => decide (event.account.customer = customer)))) := by
  have start : Alike customer events db db := ⟨keyed, keyed, rfl, rfl, fun _ => rfl, fresh, fresh⟩
  exact run_filter (fun _ _ _ _ other (alike : Alike customer _ _ _) => alike.alone (of_decide_eq_false other))
    (fun _ _ _ _ own alike => alike.both (of_decide_eq_true own)) start

end Runs

/-- Whatever the accounts of other customers read and report in between, an account is answered what
it would be if only those of its own customer had, to what it reads and to what it reports. -/
theorem others_unseen (keyed : db.Keyed) (events : List Event) (fresh : Fresh events db) (account : Account)
    (c : Collation) (today : Date) :
    (∀ request, respond (run step db events) c today account request =
      respond (run step db (events.filter (fun event => decide (event.account.customer = account.customer))))
        c today account request) ∧
      ∀ elevator report id now reference,
        Fresh (events ++ [.report account elevator report id now reference]) db ->
        answerReport (run step db events) c today account elevator report id now reference =
          answerReport (run step db (events.filter (fun event => decide (event.account.customer = account.customer))))
            c today account elevator report id now reference := by
  have last := alike_run keyed fresh account.customer
  refine ⟨fun request => (last.answers c today request).symm, ?_⟩
  intro elevator report id now reference further
  have after := alike_run keyed further account.customer
  rw [List.filter_append, Transitions.run_append, Transitions.run_append] at after
  have own : [Event.report account elevator report id now reference].filter
      (fun event => decide (event.account.customer = account.customer)) =
        [.report account elevator report id now reference] := List.filter_eq_self.mpr (by
    intro event mem
    rw [List.mem_singleton.mp mem]
    exact decide_eq_true rfl)
  rw [own] at after
  unfold answerReport
  rw [last.verdict]
  split
  · exact congrArg some (after.answers c today (.fault id)).symm
  · rfl

/-- Papatya's manager stops a lift, and Defne's reports one and then another. -/
theorem others_unseen_papatya :
    let papatya : Event := .report ⟨6, 1, 8⟩ 4 ⟨⟨false, true⟩, "stuck", "", ""⟩ 11 0 "R-1"
    let defne : Event := .report ⟨5, 1, 7⟩ 3 ⟨⟨false, false⟩, "noise", "", ""⟩ 12 1 "R-2"
    respond (run step neighbours [papatya, defne]) plain (.first 24312) ⟨5, 1, 7⟩
        (.faults none none ⟨none, none, .number 1⟩) =
      respond (run step neighbours [defne]) plain (.first 24312) ⟨5, 1, 7⟩
        (.faults none none ⟨none, none, .number 1⟩) ∧
    answerReport (run step neighbours [papatya, defne]) plain (.first 24312) ⟨5, 1, 7⟩ 3
        ⟨⟨true, false⟩, "", "", ""⟩ 13 2 "R-3" =
      answerReport (run step neighbours [defne]) plain (.first 24312) ⟨5, 1, 7⟩ 3
        ⟨⟨true, false⟩, "", "", ""⟩ 13 2 "R-3" := by
  intro papatya defne
  have unseen := others_unseen keyed_neighbours [papatya, defne]
    ⟨by decide, fun _ _ => ⟨rfl, fun _ mem => absurd mem List.not_mem_nil⟩⟩ ⟨5, 1, 7⟩ plain (.first 24312)
  exact ⟨unseen.1 _, unseen.2 3 ⟨⟨true, false⟩, "", "", ""⟩ 13 2 "R-3"
    ⟨by decide, fun _ _ => ⟨rfl, fun _ mem => absurd mem List.not_mem_nil⟩⟩⟩

end Views
end Portal
end Shiftlush
