import Shiftlush.Reports.FilesSound
import Shiftlush.Transitions

namespace Shiftlush
namespace Reports
namespace Files

open Failing (Failures Session point query change raise catching each Ends Ends.mono ends_pure ends_query ends_change
  ends_raise ends_point ends_bind ends_catching ends_atomic ends_any ends_runHooks)

/-!
# Files and objects, over a run

Between two requests every object belongs to a row and every row that names an object
has it, as long as no failure falls where the clean-up does not reach.
-/

variable {f : Failures Point Raised} {w w' : World} {r : Request}

/-- The rows and the objects agree, and a customer has one live report for a month. -/
structure Sound (w : World) : Prop where
  held : ∀ row ∈ w.db.attachments, ∀ key, row.2.storageKey = some key -> key ∈ w.outside.objects
  owned : ∀ key ∈ w.outside.objects, ∃ row ∈ w.db.attachments, row.2.storageKey = some key
  oneLive : ∀ customer period, (w.db.reports.filter (liveOf customer period)).length ≤ 1

/-- Between two requests. -/
structure Settled (w : World) : Prop extends Sound w where
  attachments : w.db.attachments.Below w.outside.nextId
  reports : w.db.reports.Below w.outside.nextId
  objects : ∀ key ∈ w.outside.objects, key < w.outside.nextId
  hooks : w.hooks = []
  depth : w.depth = 0

/-! ## What keeps it -/

theorem Settled.untouched (settled : Settled w) (same : w'.db = w.db) (hooks : w'.hooks = []) (depth : w'.depth = 0)
    (objects : w'.outside.objects = w.outside.objects) (later : w.outside.nextId ≤ w'.outside.nextId) : Settled w' where
  held := by
    rw [same, objects]
    exact settled.held
  owned := by
    rw [same, objects]
    exact settled.owned
  oneLive := by
    rw [same]
    exact settled.oneLive
  attachments := by
    rw [same]
    exact settled.attachments.mono later
  reports := by
    rw [same]
    exact settled.reports.mono later
  objects := by
    rw [objects]
    exact fun key mem => (settled.objects key mem).trans_le later
  hooks := hooks
  depth := depth

theorem Keeps.liveOf {g : CustomerReport -> CustomerReport} (keeps : Keeps g) (customer : Nat) (period : Int)
    (id : Nat) (row : CustomerReport) :
    Files.liveOf customer period (id, g row) = Files.liveOf customer period (id, row) := by
  unfold Files.liveOf
  rw [(keeps row).1, (keeps row).2.1, (keeps row).2.2]

/-- Rewriting a report keeps whose it is. -/
theorem Settled.rewritten (settled : Settled w) {id : Nat} {g : CustomerReport -> CustomerReport} (keeps : Keeps g)
    (attachments : w'.db.attachments = w.db.attachments) (reports : w'.db.reports = w.db.reports.update id g)
    (outside : w'.outside = w.outside) (hooks : w'.hooks = []) (depth : w'.depth = 0) : Settled w' where
  held := by
    rw [attachments, outside]
    exact settled.held
  owned := by
    rw [attachments, outside]
    exact settled.owned
  oneLive := by
    intro customer period
    rw [reports]
    refine (Rows.length_filter_update _ id g _ ?_).trans (settled.oneLive customer period)
    intro row _ live
    rwa [keeps.liveOf] at live
  attachments := by
    rw [attachments, outside]
    exact settled.attachments
  reports := by
    rw [reports, outside]
    exact settled.reports.of_isSome (fun other => Rows.isSome_get?_update _ _ _ _)
  objects := by
    rw [outside]
    exact settled.objects
  hooks := hooks
  depth := depth

/-- Deleting a row keeps its key. -/
theorem Settled.deleted (settled : Settled w) (id : Nat) : Settled { w with db := { w.db with
    attachments := w.db.attachments.update id (fun row => { row with isDeleted := true }) } } where
  held := by
    intro row mem key keyed
    rcases List.mem_map.mp mem with ⟨row, listed, rfl⟩
    refine settled.held row listed key ?_
    split at keyed
    · exact keyed
    · exact keyed
  owned := by
    intro key mem
    rcases settled.owned key mem with ⟨row, listed, keyed⟩
    refine ⟨_, List.mem_map_of_mem listed, ?_⟩
    split
    · exact keyed
    · exact keyed
  oneLive := settled.oneLive
  attachments := settled.attachments.of_isSome (fun other =>
    Rows.isSome_get?_update w.db.attachments id other (fun row => { row with isDeleted := true }))
  reports := settled.reports
  objects := settled.objects
  hooks := settled.hooks
  depth := settled.depth

theorem Settled.withFile (settled : Settled w) : Settled (withFile w) where
  held := by
    intro row mem key keyed
    rcases List.mem_append.mp mem with listed | new
    · exact List.mem_cons_of_mem _ (settled.held row listed key keyed)
    · rw [List.mem_singleton.mp new] at keyed
      cases keyed
      exact List.mem_cons_self
  owned := by
    intro key mem
    rcases List.mem_cons.mp mem with rfl | listed
    · exact ⟨_, List.mem_append_right _ List.mem_cons_self, rfl⟩
    · rcases settled.owned key listed with ⟨row, there, keyed⟩
      exact ⟨row, List.mem_append_left _ there, keyed⟩
  oneLive := settled.oneLive
  attachments := (settled.attachments.mono (Nat.le_succ _)).insert _
  reports := settled.reports.mono (Nat.le_add_right _ 2)
  objects := by
    intro key mem
    have new : w.outside.nextId < w.outside.nextId + 2 := Nat.lt_add_of_pos_right (by decide)
    rcases List.mem_cons.mp mem with rfl | listed
    · exact new
    · exact (settled.objects key listed).trans new
  hooks := settled.hooks
  depth := settled.depth

theorem hasReport_eq_false {customer : Nat} {period : Int} (none : w.db.hasReport customer period = false) :
    w.db.reports.filter (liveOf customer period) = [] := by
  rw [List.filter_eq_nil_iff]
  exact List.any_eq_false.mp none

theorem Settled.withReport (settled : Settled w) (recorded : unrecorded w r f = false) : Settled (withReport r w) where
  held := settled.withFile.held
  owned := settled.withFile.owned
  oneLive := by
    intro customer period
    have none := hasReport_eq_false (Bool.or_eq_false_iff.mp recorded).2
    have before := settled.oneLive customer period
    unfold Files.withReport Rows.insert
    dsimp only
    rw [List.filter_append, List.length_append]
    by_cases own : customer = r.customer ∧ period = r.period
    · rw [own.1, own.2, none, List.length_nil, Nat.zero_add]
      exact List.length_filter_le _ _
    · rw [List.filter_cons_of_neg (fun live => own ⟨(of_decide_eq_true live).1.symm, (of_decide_eq_true live).2.1.symm⟩)]
      exact before
  attachments := settled.withFile.attachments.mono (Nat.le_succ _)
  reports := (settled.reports.mono (Nat.le_add_right _ 2)).insert _
  objects := fun key mem => (settled.withFile.objects key mem).trans (Nat.lt_succ_self _)
  hooks := settled.hooks
  depth := settled.depth

/-! ## Messages and the clean-up -/

theorem sendMessage_ends (f : Failures Point Raised) (message : Message) (settled : Settled w) :
    Ends f w (sendMessage message) (fun _ w' => Settled w' ∧ w'.outside = w.outside)
      (fun _ w' => w' = w ∧ f (.prepare message.address) ≠ none) := by
  unfold sendMessage markFailed setReports
  refine ends_bind (ends_point ?_ ?_)
  · intro _
    refine ends_catching (ends_point (fun _ => ⟨settled, rfl⟩) ?_)
    intro _ _
    refine ends_catching (ends_bind (ends_point ?_ (fun _ _ => ends_pure ⟨settled, rfl⟩)))
    intro _
    have keeps : Keeps (fun report => report.missed message.address) := fun _ => ⟨rfl, rfl, rfl⟩
    exact ends_change ⟨settled.rewritten keeps rfl rfl rfl settled.hooks settled.depth, rfl⟩
  · exact fun _ fails => ⟨rfl, fun none => by rw [none] at fails; cases fails⟩

/-- The hooks of a commit raise where a message cannot be prepared. -/
theorem runHooks_ends (f : Failures Point Raised) {messages : List Message} (waiting : w.hooks = messages)
    (settled : Settled { w with hooks := [] }) :
    Ends f w (Failing.runHooks sendMessage) (fun _ w' => Settled w' ∧ w'.outside = w.outside)
      (fun _ w' => (Settled w' ∧ w'.outside = w.outside) ∧ messages.any (fun m => (f (.prepare m.address)).isSome) = true) := by
  refine ends_runHooks ?_ ⟨settled, rfl⟩
  rintro message mem now ⟨settled, same⟩
  refine (sendMessage_ends f message settled).mono ?_ ?_
  · exact fun _ _ ends => ⟨ends.1, ends.2.trans same⟩
  · rintro e _ ⟨rfl, fails⟩
    exact ⟨⟨settled, same⟩, List.any_eq_true.mpr ⟨message, waiting ▸ mem, Option.isSome_iff_ne_none.mpr fails⟩⟩

theorem discard_nothing (f : Failures Point Raised) {raised : Raised -> World -> Prop} (empty : w.outside.stored = []) :
    Ends f w discard (fun _ w' => w' = w) raised := by
  unfold discard
  refine ends_bind (ends_query ?_)
  rw [empty]
  exact ends_pure rfl

/-- The clean-up takes a listed object away, unless that fails too. -/
theorem discard_listed (f : Failures Point Raised) {raised : Raised -> World -> Prop} {key : Nat}
    (listed : w.outside.stored = [key]) :
    Ends f w discard (fun _ w' => if (f .discard).isSome then w' = w else
      w' = { w with outside := { w.outside with
        objects := w.outside.objects.filter (fun other => decide (other ≠ key)) } }) raised := by
  unfold discard setObjects
  refine ends_bind (ends_query ?_)
  rw [listed]
  refine ends_bind (ends_catching (ends_bind (ends_point ?_ ?_)))
  · intro removed
    refine ends_change (ends_pure ?_)
    rw [removed]
    exact rfl
  · intro e fails
    refine ends_pure (ends_pure ?_)
    rw [fails]
    exact rfl

theorem ends_listing {α : Type} {body : Prog α} {post : α -> World -> Prop} {raised : Raised -> World -> Prop}
    (inside : Ends f { w with outside := { w.outside with stored := [] } } body
      (fun a w' => post a { w' with outside := { w'.outside with stored := w.outside.stored } })
      (fun e w' => raised e { w' with outside := { w'.outside with stored := w.outside.stored } })) :
    Ends f w (listing body) post raised := by
  unfold Ends at inside ⊢
  unfold listing
  dsimp only
  cases ended : body f { w with outside := { w.outside with stored := [] } } with
  | mk outcome w' =>
      rw [ended] at inside
      cases outcome with
      | ok a => exact inside
      | error e => exact inside

/-! ## A customer's turn -/

/-- The turn rolls back after it has put its object. -/
def rollsBack (w : World) (r : Request) (f : Failures Point Raised) : Bool :=
  unrecorded w r f || undelivered r f || (f .commit).isSome

/-- A message that waits for the commit cannot be prepared. -/
def unprepared (r : Request) (f : Failures Point Raised) : Bool :=
  mailed r && r.emails.any (fun address => (f (.prepare address)).isSome)

/-- Once the object is put its row is inserted, a rollback can take it away again, and no hook raises after the commit
(or the clean-up that this sets off fails as well). -/
def carefulTurn (w : World) (r : Request) (f : Failures Point Raised) : Bool :=
  !stores w r f || ((f .insertAttachment).isNone &&
    (if rollsBack w r f then (f .discard).isNone else !unprepared r f || (f .discard).isSome))

/-- `generate_one` delivers nothing. -/
def carefulOne (w : World) (r : Request) (f : Failures Point Raised) : Bool :=
  !stores w r f || ((f .insertAttachment).isNone &&
    (!(unrecorded w r f || (f .commit).isSome) || (f .discard).isNone))

/-- The world of a rollback. -/
def rolledBack (w w' : World) : World := { w' with db := w.db, hooks := w.hooks, depth := w.depth }

section Turn

variable (settled : Settled w) (empty : w.outside.stored = [])

include settled empty

theorem discard_untouched (untouched : Untouched w w') :
    Ends f (rolledBack w w') discard (fun _ => Settled) (fun _ _ => False) := by
  have none : (rolledBack w w').outside.stored = [] := untouched.stored.trans empty
  refine (discard_nothing f none).mono ?_ (fun _ _ never => never)
  rintro _ _ rfl
  exact settled.untouched rfl settled.hooks settled.depth untouched.objects untouched.later

theorem discard_put (listed : Listed w w') (removes : f .discard = none) :
    Ends f (rolledBack w w') discard (fun _ => Settled) (fun _ _ => False) := by
  rcases listed with ⟨objects, stored, later⟩
  have one : (rolledBack w w').outside.stored = [w.outside.nextId] := by
    rw [rolledBack, stored, empty, List.nil_append]
  refine (discard_listed f one).mono ?_ (fun _ _ never => never)
  intro _ left ends
  simp only [removes, Option.isSome_none, Bool.false_eq_true, if_false] at ends
  subst ends
  have fresh : w.outside.objects.filter (fun other => decide (other ≠ w.outside.nextId)) = w.outside.objects :=
    List.filter_eq_self.mpr (fun key mem => decide_eq_true (settled.objects key mem).ne)
  refine settled.untouched rfl settled.hooks settled.depth ?_ ((Nat.le_add_right _ 2).trans later)
  dsimp only [rolledBack]
  rw [objects, List.filter_cons_of_neg (by simp), fresh]

end Turn

theorem liveFile_withReport (settled : Settled w) (r : Request) :
    (withReport r w).db.liveFile (w.outside.nextId + 2) = some (w.outside.nextId + 1, w.outside.nextId) := by
  have report := settled.reports.absent (Nat.le_add_right _ 2)
  have attachment := settled.attachments.absent (Nat.le_succ _)
  unfold Database.liveFile withReport withFile
  dsimp only
  rw [Rows.get?_insert_self report]
  dsimp only [bind, Option.bind]
  rw [Rows.get?_insert_self attachment]
  rfl

theorem carefulTurn_cases (careful : carefulTurn w r f = true) (puts : stores w r f = true) :
    f .insertAttachment = none ∧ (rollsBack w r f = true -> f .discard = none) ∧
      (rollsBack w r f = false -> unprepared r f = true -> (f .discard).isSome = true) := by
  rw [carefulTurn, puts, Bool.not_true, Bool.false_or, Bool.and_eq_true, Option.isNone_iff_eq_none] at careful
  refine ⟨careful.1, ?_, ?_⟩
  · intro rolls
    rw [rolls, if_pos rfl] at careful
    exact Option.isNone_iff_eq_none.mp careful.2
  · intro commits fails
    rw [commits, if_neg Bool.false_ne_true, fails, Bool.not_true, Bool.false_or] at careful
    exact careful.2

/-- A commit for which nothing waits. -/
theorem commit_nothing (settled : Settled w) {depth : Nat} (outermost : depth = 0) {raised : Raised -> World -> Prop} :
    Ends f w (if depth = 0 then Failing.runHooks sendMessage else pure ()) (fun _ => Settled) raised := by
  rw [if_pos outermost]
  refine (runHooks_ends f settled.hooks (settled.untouched rfl rfl settled.depth rfl le_rfl)).mono ?_ ?_
  · exact fun _ _ ends => ends.1
  · rintro _ _ ⟨-, never⟩
    cases never

/-- Once what was delivered is committed, only its messages are left to send. -/
theorem Delivered.recorded {delivered : World} {messages : List Message} (delivers : Delivered w' delivered messages)
    (settled : Settled w) (db : w'.db = w.db) (outside : w'.outside = w.outside) (hooks : w'.hooks = w.hooks) :
    delivered.hooks = messages ∧ Settled { delivered with hooks := [], depth := 0 } := by
  rcases delivers.reports with ⟨id, g, keeps, reports⟩
  rw [db] at reports
  refine ⟨?_, settled.rewritten keeps ?_ reports (delivers.outside.trans outside) rfl rfl⟩
  · rw [delivers.hooks, hooks, settled.hooks, List.nil_append]
  · rw [delivers.attachments, db]

/-- The hooks of a turn that has put its object. -/
theorem commit_put (empty : w.outside.stored = []) (settled : Settled (withReport r w)) {delivered : World}
    {messages : List Message} (delivers : Delivered (withReport r { w with depth := w.depth + 1 }) delivered messages)
    (kept : messages.any (fun m => (f (.prepare m.address)).isSome) = true -> (f .discard).isSome = true) :
    Ends f { delivered with depth := 0 } (Failing.runHooks sendMessage) (fun _ => Settled)
      (fun _ now => Ends f now discard (fun _ => Settled) (fun _ _ => False)) := by
  rcases delivers.recorded settled rfl rfl rfl with ⟨waiting, recorded⟩
  have hooks : ({ delivered with depth := 0 } : World).hooks = messages := waiting
  refine (runHooks_ends f hooks recorded).mono (fun _ _ ends => ends.1) ?_
  rintro e now ⟨⟨settled, same⟩, fails⟩
  have listed : now.outside.stored = [w.outside.nextId] := by
    rw [same, delivers.outside]
    exact congrArg (· ++ [w.outside.nextId]) empty
  refine (discard_listed f listed).mono ?_ (fun _ _ never => never)
  intro _ _ ends
  rw [if_pos (kept fails)] at ends
  exact ends ▸ settled

theorem turn_ends (settled : Settled w) (empty : w.outside.stored = []) (careful : carefulTurn w r f = true) :
    Ends f w (catching
      (atomic .commit do
        let report ← create r
        match report with
        | none => return ()
        | some report => deliver r report)
      (fun _ => discard)) (fun _ => Settled) (fun _ _ => False) := by
  have cases_ := carefulTurn_cases careful
  refine ends_catching (ends_atomic ?_)
  have inside := create_ends f r { w with depth := w.depth + 1 }
  refine ends_bind (inside.mono ?_ ?_)
  · rintro report _ (⟨rfl, rfl⟩ | ⟨puts, (recorded : unrecorded w r f = false), rfl, rfl⟩)
    · refine ends_pure ⟨fun _ => commit_nothing settled settled.depth, ?_⟩
      exact fun _ _ => discard_untouched settled empty ⟨rfl, rfl, le_rfl⟩
    · rcases cases_ puts with ⟨-, removes, keeps⟩
      have made : Settled (withReport r w) := settled.withReport recorded
      have file := liveFile_withReport settled r
      have listed (delivered : World) (same : delivered.outside = (withReport r w).outside) : Listed w delivered := by
        rw [Listed, same]
        exact ⟨rfl, rfl, Nat.le_succ _⟩
      refine (deliver_ends f (withReport r { w with depth := w.depth + 1 }) r _ file List.mem_cons_self).mono ?_ ?_
      · rintro _ delivered ⟨reached, messages, delivers, sent⟩
        refine ⟨?_, ?_⟩
        · intro committed
          rw [settled.depth, if_pos rfl]
          refine commit_put empty made delivers ?_
          intro fails
          refine keeps ?_ ?_
          · rw [rollsBack, recorded, reached, committed]
            rfl
          · rcases sent with rfl | ⟨mails, rfl⟩
            · cases fails
            · rw [List.any_map] at fails
              rw [unprepared, mails, Bool.true_and]
              exact fails
        · intro e fails
          have rolls : rollsBack w r f = true := by
            rw [rollsBack, fails, Option.isSome_some, Bool.or_true]
          exact discard_put settled empty (listed delivered delivers.outside) (removes rolls)
      · rintro e delivered ⟨same, fails⟩
        have rolls : rollsBack w r f = true := by
          rw [rollsBack, fails, Bool.or_true, Bool.true_or]
        exact discard_put settled empty (listed delivered same) (removes rolls)
  · rintro e w' (untouched | ⟨puts, lost | ⟨(clash : unrecorded w r f = true), listed⟩⟩)
    · exact discard_untouched settled empty ⟨untouched.objects, untouched.stored, untouched.later⟩
    · exact absurd (cases_ puts).1 lost
    · have rolls : rollsBack w r f = true := by
        rw [rollsBack, clash, Bool.true_or, Bool.true_or]
      exact discard_put settled empty listed ((cases_ puts).2.1 rolls)

theorem Settled.relisted (settled : Settled w) (stored : List Nat) :
    Settled { w with outside := { w.outside with stored := stored } } :=
  settled.untouched rfl settled.hooks settled.depth rfl le_rfl

theorem Settled.generateFor (settled : Settled w) (careful : carefulTurn w r f = true) :
    Settled (generateFor r f w).2 := by
  have turn := turn_ends (settled.relisted []) rfl careful
  refine Ends.state (ends_listing (turn.mono ?_ ?_))
  · exact fun _ _ ends => ends.relisted _
  · exact fun _ _ never => never.elim

theorem carefulOne_cases (careful : carefulOne w r f = true) (puts : stores w r f = true) :
    f .insertAttachment = none ∧ ((unrecorded w r f || (f .commit).isSome) = true -> f .discard = none) := by
  rw [carefulOne, puts, Bool.not_true, Bool.false_or, Bool.and_eq_true, Option.isNone_iff_eq_none] at careful
  refine ⟨careful.1, ?_⟩
  intro rolls
  rw [rolls, Bool.not_true, Bool.false_or] at careful
  exact Option.isNone_iff_eq_none.mp careful.2

theorem generateOne_ends (settled : Settled w) (empty : w.outside.stored = []) (careful : carefulOne w r f = true) :
    Ends f w (discarding (atomic .commit (create r))) (fun _ => Settled) (fun _ => Settled) := by
  have cases_ := carefulOne_cases careful
  have again {w' : World} {e : Raised} (ends : Ends f w' discard (fun _ => Settled) (fun _ _ => False)) :
      Ends f w' (do discard; raise e : Prog (Option Nat)) (fun _ => Settled) (fun _ => Settled) :=
    ends_bind (ends.mono (fun _ _ settled => ends_raise settled) (fun _ _ never => never.elim))
  refine ends_catching (ends_atomic ?_)
  refine (create_ends f r { w with depth := w.depth + 1 }).mono ?_ ?_
  · rintro report _ (⟨rfl, rfl⟩ | ⟨puts, (recorded : unrecorded w r f = false), rfl, rfl⟩)
    · refine ⟨fun _ => commit_nothing settled settled.depth, ?_⟩
      exact fun _ _ => again (discard_untouched settled empty ⟨rfl, rfl, le_rfl⟩)
    · refine ⟨fun _ => commit_nothing (settled.withReport recorded) settled.depth, ?_⟩
      intro e fails
      have listed : Listed w (withReport r w) := ⟨rfl, rfl, Nat.le_succ _⟩
      have rolls : (unrecorded w r f || (f .commit).isSome) = true := by
        rw [fails, Option.isSome_some, Bool.or_true]
      exact again (discard_put settled empty listed ((cases_ puts).2 rolls))
  · rintro e w' (untouched | ⟨puts, lost | ⟨(clash : unrecorded w r f = true), listed⟩⟩)
    · exact again (discard_untouched settled empty ⟨untouched.objects, untouched.stored, untouched.later⟩)
    · exact absurd (cases_ puts).1 lost
    · have rolls : (unrecorded w r f || (f .commit).isSome) = true := by
        rw [clash, Bool.true_or]
      exact again (discard_put settled empty listed ((cases_ puts).2 rolls))

theorem Settled.generateOne (settled : Settled w) (careful : carefulOne w r f = true) :
    Settled (generateOne r f w).2 := by
  have turn := generateOne_ends (settled.relisted []) rfl careful
  refine Ends.state (ends_listing (turn.mono ?_ ?_))
  · exact fun _ _ ends => ends.relisted _
  · exact fun _ _ ends => ends.relisted _

/-! ## Rendering again -/

/-- A new file is put. -/
def rendersAgain (f : Failures Point Raised) : Bool :=
  (f .buildReport).isNone && (f .oldFile).isNone && (f .render).isNone && (f .put).isNone

/-- The new file cannot be recorded. -/
def unsaved (w : World) (report : Nat) (f : Failures Point Raised) : Bool :=
  (f .insertAttachment).isSome || (f .saveFile).isSome || ((w.db.liveFile report).isSome && (f .deleteOld).isSome)

/-- The report with a new file, its old one still there. -/
def refiled (report : Nat) (w : World) : World :=
  { withFile w with
    db := { (withFile w).db with
      reports := w.db.reports.update report (fun row => { row with file := some (w.outside.nextId + 1) }) }
    outside := { (withFile w).outside with stored := w.outside.stored } }

/-- The report with a new file, its old one deleted. -/
def rerendered (report : Nat) (w : World) : World :=
  match w.db.liveFile report with
  | none => refiled report w
  | some old => { refiled report w with db := { (refiled report w).db with
      attachments := (refiled report w).db.attachments.update old.1 (fun row => { row with isDeleted := true }) } }

/-- The clean-up of a single file never has a file to clean up. -/
theorem storeAlone_ends (f : Failures Point Raised) (w : World) : Ends f w (listing (discarding storePdf))
    (fun id w' => (f .render = none ∧ f .put = none) ∧ f .insertAttachment = none ∧ id = w.outside.nextId + 1 ∧
      w' = { withFile w with outside := { (withFile w).outside with stored := w.outside.stored } })
    (fun _ w' => (w'.outside.objects = w.outside.objects ∧ w.outside.nextId ≤ w'.outside.nextId) ∨
      (f .render = none ∧ f .put = none) ∧ f .insertAttachment ≠ none) := by
  refine ends_listing (ends_catching ((storePdf_ends f _).mono ?_ ?_))
  · rintro _ _ ⟨put, inserted, rfl, rfl⟩
    exact ⟨put, inserted, rfl, rfl⟩
  · rintro e w' (untouched | lost)
    · refine ends_bind ((discard_nothing f untouched.stored).mono ?_ (fun _ _ raises => raises))
      rintro _ _ rfl
      exact ends_raise (.inl ⟨untouched.objects, untouched.later⟩)
    · exact ends_bind (ends_any (fun _ _ => ends_raise (.inr lost)) (fun _ _ => .inr lost))

theorem rerender_ends (f : Failures Point Raised) (w : World) (report : Nat) : Ends f w (rerender report)
    (fun _ w' => rendersAgain f = true ∧ unsaved w report f = false ∧ w' = rerendered report w)
    (fun _ w' => (w'.outside.objects = w.outside.objects ∧ w.outside.nextId ≤ w'.outside.nextId) ∨
      rendersAgain f = true ∧ unsaved w report f = true) := by
  unfold rerender setReports setAttachments
  refine ends_bind (ends_point ?_ (fun _ _ => .inl ⟨rfl, le_rfl⟩))
  intro built
  refine ends_bind (ends_point ?_ (fun _ _ => .inl ⟨rfl, le_rfl⟩))
  intro looked
  have puts : f .render = none ∧ f .put = none -> rendersAgain f = true := by
    rintro ⟨rendered, put⟩
    simp [rendersAgain, built, looked, rendered, put]
  refine ends_bind (ends_query (ends_bind ((storeAlone_ends f w).mono ?_ ?_)))
  · rintro _ _ ⟨put, inserted, rfl, rfl⟩
    have again := puts put
    refine ends_bind (ends_point ?_ ?_)
    · intro saved
      refine ends_bind (ends_change ?_)
      cases old : w.db.liveFile report with
      | none =>
          refine ends_pure ⟨again, ?_, ?_⟩
          · rw [unsaved, inserted, saved, old]
            rfl
          · rw [rerendered, old]
            rfl
      | some file =>
          refine ends_bind (ends_point ?_ ?_)
          · intro deleted
            refine ends_change ⟨again, ?_, ?_⟩
            · rw [unsaved, inserted, saved, deleted]
              simp
            · rw [rerendered, old]
              rfl
          · intro e fails
            refine .inr ⟨again, ?_⟩
            rw [unsaved, old, fails]
            simp
    · intro e fails
      refine .inr ⟨again, ?_⟩
      rw [unsaved, fails]
      simp
  · rintro e w' (untouched | ⟨put, lost⟩)
    · exact .inl untouched
    · refine .inr ⟨puts put, ?_⟩
      rw [unsaved, Option.isSome_iff_ne_none.mpr lost, Bool.true_or, Bool.true_or]

theorem Settled.refiled (settled : Settled w) (report : Nat) : Settled (refiled report w) := by
  have keeps : Keeps (fun row => { row with file := some (w.outside.nextId + 1) }) := fun _ => ⟨rfl, rfl, rfl⟩
  exact (settled.withFile.relisted w.outside.stored).rewritten keeps rfl rfl rfl settled.hooks settled.depth

theorem rerendered_depth (report : Nat) (w : World) (depth depth' : Nat) :
    { Files.rerendered report { w with depth := depth } with depth := depth' } =
      Files.rerendered report { w with depth := depth' } := by
  unfold Files.rerendered
  dsimp only
  cases w.db.liveFile report with
  | none => rfl
  | some old => rfl

theorem Settled.rerendered (settled : Settled w) (report : Nat) : Settled (rerendered report w) := by
  unfold Files.rerendered
  split
  · exact settled.refiled report
  · exact (settled.refiled report).deleted _

/-- The report of a request. -/
def found (w : World) (report : Nat) : Bool :=
  w.db.reports.any (fun r => decide (r.1 = report ∧ r.2.isDeleted = false))

theorem getObject_ends (f : Failures Point Raised) (w : World) (report : Nat) : Ends f w (getObject report)
    (fun _ w' => found w report = true ∧ w' = w) (fun _ w' => w' = w) := by
  unfold getObject
  refine ends_bind (ends_query ?_)
  split
  · exact ends_raise rfl
  · rename_i there
    refine ends_pure ⟨?_, rfl⟩
    rw [Bool.not_eq_true', Bool.not_eq_false] at there
    exact there

/-- What renders a report again, once it has put the new file, does not fail. -/
def carefulAgain (w : World) (report : Nat) (f : Failures Point Raised) : Bool :=
  !(found w report && rendersAgain f) || (!unsaved w report f && (f .commit).isNone)

theorem renderAgain_ends (settled : Settled w) {report : Nat} (careful : carefulAgain w report f = true) :
    Ends f w (renderAgain report) (fun _ => Settled) (fun _ => Settled) := by
  unfold renderAgain
  refine ends_bind ((getObject_ends f w report).mono ?_ (fun _ _ same => same ▸ settled))
  intro _ w' ends
  rcases ends with ⟨there, same⟩
  subst same
  have cases_ (again : rendersAgain f = true) : unsaved w' report f = false ∧ f .commit = none := by
    simpa [carefulAgain, there, again] using careful
  refine ends_atomic ((rerender_ends f _ report).mono ?_ ?_)
  · rintro _ _ ⟨again, -, rfl⟩
    refine ⟨?_, ?_⟩
    · intro _
      rw [rerendered_depth]
      exact commit_nothing (settled.rerendered report) settled.depth
    · intro e fails
      rw [(cases_ again).2] at fails
      cases fails
  · rintro e left (⟨objects, later⟩ | ⟨again, lost⟩)
    · exact settled.untouched rfl settled.hooks settled.depth objects later
    · have kept : unsaved w' report f = true := lost
      rw [(cases_ again).1] at kept
      cases kept

/-! ## Sending -/

/-- A file that is missing is rendered again. -/
def resends (w : World) (report : Nat) (emails : List String) (f : Failures Point Raised) : Bool :=
  found w report && (f .recipientsAgain).isNone && decide (emails ≠ []) && (f .liveFile).isNone &&
    (w.db.liveFile report).isNone && rendersAgain f

/-- What is left of the request then. -/
def afterRendering : List Point := [.release, .liveFileAgain] ++ mailingPoints ++ [.complete, .commit]

/-- A request that has put a new file does not fail until it has committed. -/
def carefulSend (w : World) (report : Nat) (emails : List String) (f : Failures Point Raised) : Bool :=
  !resends w report emails f || (!unsaved w report f && !afterRendering.any (fun p => (f p).isSome))

theorem liveFile_held (settled : Settled w) {report : Nat} {file : Nat × Nat} (live : w.db.liveFile report = some file) :
    file.2 ∈ w.outside.objects := by
  unfold Database.liveFile at live
  rcases Option.bind_eq_some_iff.mp live with ⟨row, -, live⟩
  rcases Option.bind_eq_some_iff.mp live with ⟨id, -, live⟩
  rcases Option.bind_eq_some_iff.mp live with ⟨attachment, there, live⟩
  rcases Option.bind_eq_some_iff.mp live with ⟨key, keyed, live⟩
  split at live
  · cases live
  · cases live
    exact settled.held _ (Rows.mem_of_get? there) key keyed

theorem liveFile_rerendered (settled : Settled w) {report : Nat} (there : found w report = true)
    (missing : w.db.liveFile report = none) :
    (Files.rerendered report w).db.liveFile report = some (w.outside.nextId + 1, w.outside.nextId) := by
  have attachment := settled.attachments.absent (Nat.le_succ w.outside.nextId)
  rcases List.any_eq_true.mp there with ⟨r, listed, same⟩
  have here : r.1 = report := (of_decide_eq_true same).1
  unfold Files.rerendered
  rw [missing]
  unfold Database.liveFile Files.refiled Files.withFile
  dsimp only
  rw [Rows.get?_update_self]
  cases report_ : w.db.reports.get? report with
  | none => exact absurd (here ▸ listed) (Rows.get?_eq_none.mp report_ r.2)
  | some row =>
      dsimp only [bind, Option.bind, Option.map]
      rw [Rows.get?_insert_self attachment]
      rfl

/-- Nothing was put, up to the list. -/
def Unput (w w' : World) : Prop := w'.outside.objects = w.outside.objects ∧ w.outside.nextId ≤ w'.outside.nextId

/-- Rendering again, inside the transaction of the request. -/
theorem regenerate_ends (f : Failures Point Raised) (w : World) (report : Nat) (nested : w.depth ≠ 0) :
    Ends f w (regenerate .release report)
      (fun _ w' => rendersAgain f = true ∧ w' = Files.rerendered report w)
      (fun _ w' => Unput w w' ∨
        rendersAgain f = true ∧ (unsaved w report f = true ∨ (f .release).isSome = true)) := by
  refine ends_atomic ((rerender_ends f _ report).mono ?_ ?_)
  · rintro _ _ ⟨again, -, rfl⟩
    refine ⟨?_, ?_⟩
    · intro _
      rw [if_neg nested, rerendered_depth]
      exact ends_pure ⟨again, rfl⟩
    · intro e fails
      exact .inr ⟨again, .inr (by rw [fails]; rfl)⟩
  · rintro e w' (unput | ⟨again, lost⟩)
    · exact .inl unput
    · exact .inr ⟨again, .inl lost⟩

theorem sendAgain_ends (f : Failures Point Raised) (settled : Settled w) {report : Nat} (emails : List String)
    (there : found w report = true) (missing : w.db.liveFile report = none) :
    Ends f { w with depth := w.depth + 1 } (sendReport report emails)
      (fun _ w' => resends w report emails f = true ∧ ∃ messages,
        Delivered { Files.rerendered report w with depth := w.depth + 1 } w' messages)
      (fun _ w' => Unput w w' ∨ resends w report emails f = true ∧
        (unsaved w report f = true ∨ afterRendering.any (fun p => (f p).isSome) = true)) := by
  unfold sendReport
  refine ends_bind (ends_point ?_ (fun _ _ => .inl ⟨rfl, le_rfl⟩))
  intro asked
  split
  · exact ends_bind (ends_raise (.inl ⟨rfl, le_rfl⟩))
  · rename_i somebody
    refine ends_bind (ends_point ?_ (fun _ _ => .inl ⟨rfl, le_rfl⟩))
    intro looked
    refine ends_bind (ends_query ?_)
    rw [missing]
    have puts : rendersAgain f = true -> resends w report emails f = true := by
      intro again
      simp [resends, there, asked, somebody, looked, missing, again]
    have entered : Files.rerendered report { w with depth := w.depth + 1 } =
        { Files.rerendered report w with depth := w.depth + 1 } := (rerendered_depth report w w.depth (w.depth + 1)).symm
    have live := liveFile_rerendered settled there missing
    refine ends_bind ((regenerate_ends f _ report (Nat.succ_ne_zero _)).mono ?_ ?_)
    · rintro _ _ ⟨again, rfl⟩
      refine ends_bind (ends_point ?_ ?_)
      · intro _
        rw [entered]
        have held := liveFile_held (settled.rerendered report) live
        refine (mailReport_ends f { Files.rerendered report w with depth := w.depth + 1 } report emails live held).mono ?_ ?_
        · exact fun _ _ ends => ⟨puts again, _, ends.2⟩
        · rintro e w' ⟨-, fails⟩
          refine .inr ⟨puts again, .inr ?_⟩
          rw [afterRendering, List.any_append, List.any_append, fails, Bool.or_true, Bool.true_or]
      · intro e fails
        exact .inr ⟨puts again, .inr (any_failed (by decide) fails)⟩
    · rintro e w' (unput | ⟨again, lost | released⟩)
      · exact .inl unput
      · exact .inr ⟨puts again, .inl lost⟩
      · rcases Option.isSome_iff_exists.mp released with ⟨e, fails⟩
        exact .inr ⟨puts again, .inr (any_failed (by decide) fails)⟩

/-- The end of the request's transaction, with nothing at stake or nothing failing. -/
theorem complete_ends {base delivered : World} {messages : List Message} (settled : Settled w) (made : Settled base)
    (delivers : Delivered w' delivered messages) (db : w'.db = base.db) (outside : w'.outside = base.outside)
    (hooks : w'.hooks = base.hooks)
    (safe : Unput w delivered ∨ f .complete = none ∧ f .commit = none) :
    Ends f delivered (point .complete)
      (fun _ s => (f .commit = none -> Ends f { s with depth := w.depth }
          (if w.depth = 0 then Failing.runHooks sendMessage else pure ()) (fun _ => Settled) (fun _ => Settled)) ∧
        ∀ e, f .commit = some e -> Settled (rolledBack w s))
      (fun _ s => Settled (rolledBack w s)) := by
  rcases delivers.recorded made db outside hooks with ⟨waiting, recorded⟩
  have undone (e : Raised) (p : Point) (late : p = .complete ∨ p = .commit) (fails : f p = some e) :
      Settled (rolledBack w delivered) := by
    rcases safe with ⟨objects, later⟩ | ⟨completes, commits⟩
    · exact settled.untouched rfl settled.hooks settled.depth objects later
    · rcases late with rfl | rfl
      · rw [completes] at fails
        cases fails
      · rw [commits] at fails
        cases fails
  refine ends_point ?_ (fun e fails => undone e .complete (.inl rfl) fails)
  intro _
  refine ⟨?_, fun e fails => undone e .commit (.inr rfl) fails⟩
  intro _
  rw [settled.depth, if_pos rfl]
  have hooks : ({ delivered with depth := 0 } : World).hooks = messages := waiting
  exact (runHooks_ends f hooks recorded).mono (fun _ _ ends => ends.1) (fun _ _ ends => ends.1.1)

theorem send_ends (settled : Settled w) {report : Nat} {emails : List String}
    (careful : carefulSend w report emails f = true) :
    Ends f w (send report emails) (fun _ => Settled) (fun _ => Settled) := by
  unfold send
  refine ends_bind ((getObject_ends f w report).mono ?_ (fun _ _ same => same ▸ settled))
  intro _ w' ends
  rcases ends with ⟨there, same⟩
  subst same
  refine ends_atomic (ends_bind ?_)
  cases live : w'.db.liveFile report with
  | some file =>
      refine (sendReport_ends f { w' with depth := w'.depth + 1 } report emails live (liveFile_held settled live)).mono ?_ ?_
      · rintro _ delivered ⟨-, -, delivers⟩
        have unput : Unput w' delivered := by
          rw [Unput, delivers.outside]
          exact ⟨rfl, le_rfl⟩
        exact complete_ends settled settled delivers rfl rfl rfl (.inl unput)
      · rintro e left ⟨same, -⟩
        exact settled.untouched rfl settled.hooks settled.depth (congrArg Outside.objects same)
          (congrArg Outside.nextId same).ge
  | none =>
      have cases_ (again : resends w' report emails f = true) :
          unsaved w' report f = false ∧ afterRendering.any (fun p => (f p).isSome) = false := by
        simpa [carefulSend, again] using careful
      refine (sendAgain_ends f settled emails there live).mono ?_ ?_
      · rintro _ delivered ⟨again, messages, delivers⟩
        have passed := (cases_ again).2
        have late (p : Point) (listed : p ∈ afterRendering) : f p = none := by
          rw [List.any_eq_false] at passed
          exact Option.not_isSome_iff_eq_none.mp (passed p listed)
        exact complete_ends settled (settled.rerendered report) delivers rfl rfl rfl
          (.inr ⟨late .complete (by decide), late .commit (by decide)⟩)
      · rintro e left (unput | ⟨again, lost | fails⟩)
        · exact settled.untouched rfl settled.hooks settled.depth unput.1 unput.2
        · rw [(cases_ again).1] at lost
          cases lost
        · rw [(cases_ again).2] at fails
          cases fails

/-! ## Runs -/

/-- Every turn of a run of the job is careful. -/
def carefulTurns (w : World) (turns : List (Request × Failures Point Raised)) : Bool :=
  Transitions.everyStep (fun w turn => (generateFor turn.1 turn.2 w).2) (fun w turn => carefulTurn w turn.1 turn.2) w turns

/-- No failure falls where the clean-up does not reach. -/
def careful (w : World) : Event -> Bool
  | .generate turns => carefulTurns w turns
  | .generateOne r f => carefulOne w r f
  | .send report emails f => carefulSend w report emails f
  | .renderAgain report f => carefulAgain w report f
  | .deleteAttachment _ => true

theorem Settled.generate (settled : Settled w) (turns : List (Request × Failures Point Raised))
    (careful : carefulTurns w turns = true) : Settled (generate w turns) := by
  induction turns generalizing w with
  | nil => exact settled
  | cons turn turns ih =>
      rw [carefulTurns, Transitions.everyStep_cons, Bool.and_eq_true] at careful
      exact ih (settled.generateFor careful.1) careful.2

theorem Settled.step (settled : Settled w) {event : Event} (here : careful w event = true) : Settled (step w event) := by
  cases event with
  | generate turns => exact settled.generate turns here
  | generateOne r f => exact settled.generateOne here
  | send report emails f => exact Ends.state (send_ends settled here)
  | renderAgain report f => exact Ends.state (renderAgain_ends settled here)
  | deleteAttachment id => exact settled.deleted id

/-- In a run whose failures all fall where the clean-up reaches, the rows and the objects agree after every event. -/
theorem files_kept (settled : Settled w) (events : List Event)
    (steps : Transitions.everyStep step careful w events = true) :
    ∀ before, before <+: events -> Sound (Transitions.run step w before) := by
  rintro before ⟨after, rfl⟩
  have sofar := (Transitions.everyStep_append.mp steps).1
  have kept := Transitions.run_invariant_of_everyStep (J := Settled)
    (fun _ _ here settled => settled.step here) sofar settled
  exact kept.toSound

/-- A firm whose reports are still to be made. -/
def noReports : World := ⟨⟨[], []⟩, ⟨[], [], 0⟩, [], 0⟩

theorem noReports_settled : Settled noReports where
  held := by
    intro row mem
    cases mem
  owned := by
    intro key mem
    cases mem
  oneLive := fun _ _ => Nat.zero_le 1
  attachments := by
    intro id there
    cases there
  reports := by
    intro id there
    cases there
  objects := by
    intro key mem
    cases mem
  hooks := rfl
  depth := rfl

/-- A covered customer of a firm that sends its reports. -/
def october : Request := ⟨0, 24321, true, ["site@example.com"], true, true, false⟩

def failsAt (point : Point) : Failures Point Raised := fun p => if p = point then some .other else none

/-- A report is made, its mail fails on its way, its file is deleted, and it is sent again in vain, then with a new file. -/
def octoberRun : List Event := [
  .generate [(october, failsAt (.send "site@example.com"))],
  .deleteAttachment 1,
  .send 2 ["site@example.com"] (failsAt .render),
  .send 2 ["site@example.com"] (failsAt (.prepare "site@example.com")),
  .renderAgain 2 (failsAt .discard)]

theorem files_kept_october : Sound (Transitions.run step noReports octoberRun) :=
  files_kept noReports_settled octoberRun (by decide +kernel) octoberRun (List.prefix_refl octoberRun)

/-- A mail that cannot be prepared takes the committed file with it, and a row that cannot be inserted leaves its object
behind. -/
theorem files_lost :
    (¬ ∀ w events, Settled w -> ∀ row ∈ (Transitions.run step w events).db.attachments, ∀ key,
      row.2.storageKey = some key -> key ∈ (Transitions.run step w events).outside.objects) ∧
    ¬ ∀ w events, Settled w -> ∀ key ∈ (Transitions.run step w events).outside.objects,
      ∃ row ∈ (Transitions.run step w events).db.attachments, row.2.storageKey = some key := by
  refine ⟨?_, ?_⟩
  · intro held
    have lost := held noReports [.generate [(october, failsAt (.prepare "site@example.com"))]] noReports_settled
      (1, ⟨some 0, false⟩) (by decide +kernel) 0 rfl
    revert lost
    decide +kernel
  · intro owned
    have orphan := owned noReports [.generateOne october (failsAt .insertAttachment)] noReports_settled
      0 (by decide +kernel)
    revert orphan
    decide +kernel

end Files
end Reports
end Shiftlush
