import Shiftlush.Reports.Files

namespace Shiftlush
namespace Reports
namespace Files

open Failing (Failures Session point query change raise catching each Ends Ends.mono ends_pure ends_query ends_change
  ends_raise ends_point ends_bind ends_catching ends_atomic ends_each)

/-!
# What a run leaves of its files

Each entry point is followed through its failures once.  Up to the put nothing outside
the database changes; between the put and the end of the transaction the new object is
in the clean-up list, or it is lost.
-/

variable {f : Failures Point Raised} {w w' : World} {r : Request}

/-! ## Where a failure falls -/

/-- The turn puts an object. -/
def stores (w : World) (r : Request) (f : Failures Point Raised) : Bool :=
  (f .reportExists).isNone && !(w.db.hasReport r.customer r.period && !r.raced) && (f .buildReport).isNone && r.covered &&
    (f .render).isNone && (f .put).isNone

/-- The report cannot be recorded. -/
def unrecorded (w : World) (r : Request) (f : Failures Point Raised) : Bool :=
  (f .insertReport).isSome || w.db.hasReport r.customer r.period

def mailed (r : Request) : Bool := r.send && r.enabled && decide (r.emails ≠ [])

def mailingPoints : List Point := [.fetch, .portal, .saveDelivery]

/-- Where sending a report whose file is there can fail. -/
def sendingPoints : List Point := [.recipientsAgain, .liveFile] ++ mailingPoints

/-- The delivery raises, before anything is sent. -/
def undelivered (r : Request) (f : Failures Point Raised) : Bool :=
  if r.send && r.enabled then
    (f .recipients).isSome || (if r.emails = [] then (f .saveDelivery).isSome
      else sendingPoints.any (fun p => (f p).isSome))
  else (f .saveDelivery).isSome

/-! ## Storing -/

/-- With a new file, its row and its place in the list. -/
def withFile (w : World) : World :=
  { w with
    db := { w.db with
      attachments := w.db.attachments.insert (w.outside.nextId + 1) { storageKey := some w.outside.nextId, isDeleted := false } }
    outside :=
      { objects := w.outside.nextId :: w.outside.objects
        stored := w.outside.stored ++ [w.outside.nextId]
        nextId := w.outside.nextId + 2 } }

/-- Nothing was put. -/
structure Untouched (w w' : World) : Prop where
  objects : w'.outside.objects = w.outside.objects
  stored : w'.outside.stored = w.outside.stored
  later : w.outside.nextId ≤ w'.outside.nextId

theorem Untouched.refl (w : World) : Untouched w w := ⟨rfl, rfl, le_rfl⟩

theorem ends_fresh {post : Nat -> World -> Prop} {raised : Raised -> World -> Prop}
    (holds : post w.outside.nextId { w with outside := { w.outside with nextId := w.outside.nextId + 1 } }) :
    Ends f w fresh post raised :=
  ends_bind (ends_query (ends_bind (ends_change (ends_pure holds))))

theorem storePdf_ends (f : Failures Point Raised) (w : World) : Ends f w storePdf
    (fun id w' => (f .render = none ∧ f .put = none) ∧ f .insertAttachment = none ∧ id = w.outside.nextId + 1 ∧
      w' = withFile w)
    (fun _ w' => Untouched w w' ∨ (f .render = none ∧ f .put = none) ∧ f .insertAttachment ≠ none) := by
  unfold storePdf saveBytes setObjects setAttachments
  refine ends_bind (ends_point ?_ (fun _ _ => .inl (.refl w)))
  intro rendered
  refine ends_bind (ends_bind (ends_fresh (ends_bind (ends_point ?_ ?_))))
  · intro put
    refine ends_bind (ends_change (ends_bind (ends_point ?_ ?_)))
    · intro inserted
      refine ends_bind (ends_fresh (ends_bind (ends_change (ends_pure ?_))))
      exact ends_bind (ends_change (ends_pure ⟨⟨rendered, put⟩, inserted, rfl, rfl⟩))
    · intro e fails
      exact .inr ⟨⟨rendered, put⟩, fun none => by rw [none] at fails; cases fails⟩
  · exact fun _ _ => .inl ⟨rfl, rfl, Nat.le_succ _⟩

/-- With the report of a new file. -/
def withReport (r : Request) (w : World) : World :=
  let file := withFile w
  { file with
    db := { file.db with
      reports := w.db.reports.insert (w.outside.nextId + 2)
        { customer := r.customer, period := r.period, file := some (w.outside.nextId + 1), delivery := .pending,
          recipients := [], undelivered := [], isDeleted := false } }
    outside := { file.outside with nextId := w.outside.nextId + 3 } }

/-- A new object is in the list, and nothing else has changed outside. -/
def Listed (w w' : World) : Prop :=
  w'.outside.objects = w.outside.nextId :: w.outside.objects ∧
    w'.outside.stored = w.outside.stored ++ [w.outside.nextId] ∧ w.outside.nextId + 2 ≤ w'.outside.nextId

theorem create_ends (f : Failures Point Raised) (r : Request) (w : World) : Ends f w (create r)
    (fun id w' => id = none ∧ w' = w ∨
      stores w r f = true ∧ unrecorded w r f = false ∧ id = some (w.outside.nextId + 2) ∧ w' = withReport r w)
    (fun _ w' => Untouched w w' ∨ stores w r f = true ∧
      (f .insertAttachment ≠ none ∨ unrecorded w r f = true ∧ Listed w w')) := by
  unfold create setReports
  refine ends_bind (ends_point ?_ (fun _ _ => .inl (.refl w)))
  intro looked
  refine ends_bind (ends_query ?_)
  split
  · exact ends_pure (.inl ⟨rfl, rfl⟩)
  · rename_i absent
    refine ends_bind (ends_point ?_ (fun _ _ => .inl (.refl w)))
    intro built
    split
    · exact ends_pure (.inl ⟨rfl, rfl⟩)
    · rename_i covered
      have puts : f .render = none ∧ f .put = none -> stores w r f = true := by
        rintro ⟨rendered, put⟩
        simp only [Bool.not_eq_true', Bool.not_eq_false] at covered
        simp [stores, looked, absent, built, covered, rendered, put]
      refine ends_bind ((storePdf_ends f w).mono ?_ ?_)
      · rintro _ _ ⟨put, -, rfl, rfl⟩
        have listed : Listed w (withFile w) := ⟨rfl, rfl, le_rfl⟩
        refine ends_bind (ends_point ?_ ?_)
        · intro inserted
          refine ends_bind (ends_query ?_)
          split
          · rename_i clash
            have unrecorded : unrecorded w r f = true := Bool.or_eq_true_iff.mpr (.inr clash)
            exact ends_bind (ends_raise (.inr ⟨puts put, .inr ⟨unrecorded, listed⟩⟩))
          · rename_i free
            have recorded : unrecorded w r f = false :=
              Bool.or_eq_false_iff.mpr ⟨by rw [inserted]; rfl, Bool.eq_false_iff.mpr free⟩
            refine ends_bind (ends_fresh (ends_bind (ends_change (ends_pure ?_))))
            exact .inr ⟨puts put, recorded, rfl, rfl⟩
        · intro e fails
          have unrecorded : unrecorded w r f = true := Bool.or_eq_true_iff.mpr (.inl (by rw [fails]; rfl))
          exact .inr ⟨puts put, .inr ⟨unrecorded, listed⟩⟩
      · rintro e w' (untouched | ⟨put, lost⟩)
        · exact .inl untouched
        · exact .inr ⟨puts put, .inl lost⟩

/-! ## Delivering -/

/-- A report keeps whose it is, its month and its file. -/
def Keeps (g : CustomerReport -> CustomerReport) : Prop :=
  ∀ row, (g row).customer = row.customer ∧ (g row).period = row.period ∧ (g row).isDeleted = row.isDeleted

/-- One report rewritten, and messages put to the hooks. -/
structure Delivered (w w' : World) (messages : List Message) : Prop where
  attachments : w'.db.attachments = w.db.attachments
  reports : ∃ id g, Keeps g ∧ w'.db.reports = w.db.reports.update id g
  outside : w'.outside = w.outside
  hooks : w'.hooks = w.hooks ++ messages
  depth : w'.depth = w.depth

theorem saveDelivery_ends (f : Failures Point Raised) (w : World) (report : Nat) {g : CustomerReport -> CustomerReport}
    (keeps : Keeps g) : Ends f w (saveDelivery report g)
      (fun _ w' => f .saveDelivery = none ∧ Delivered w w' []) (fun _ w' => w' = w ∧ f .saveDelivery ≠ none) := by
  unfold saveDelivery setReports
  refine ends_bind (ends_point ?_ ?_)
  · intro saved
    exact ends_change ⟨saved, rfl, ⟨report, g, keeps, rfl⟩, rfl, (List.append_nil _).symm, rfl⟩
  · exact fun _ fails => ⟨rfl, fun none => by rw [none] at fails; cases fails⟩

theorem any_failed {points : List Point} {p : Point} (listed : p ∈ points) {e : Raised} (fails : f p = some e) :
    points.any (fun p => (f p).isSome) = true :=
  List.any_eq_true.mpr ⟨p, listed, by rw [fails]; rfl⟩

theorem mailReport_ends (f : Failures Point Raised) (w : World) (report : Nat) (emails : List String) {file : Nat × Nat}
    (live : w.db.liveFile report = some file) (there : file.2 ∈ w.outside.objects) :
    Ends f w (mailReport report emails)
      (fun _ w' => mailingPoints.any (fun p => (f p).isSome) = false ∧
        Delivered w w' (emails.map (fun address => ⟨report, address⟩)))
      (fun _ w' => w'.outside = w.outside ∧ mailingPoints.any (fun p => (f p).isSome) = true) := by
  unfold mailReport
  refine ends_bind (ends_query ?_)
  rw [live]
  refine ends_bind (ends_point ?_ (fun e fails => ⟨rfl, any_failed (by decide) fails⟩))
  intro fetched
  refine ends_bind (ends_query ?_)
  rw [decide_eq_true there]
  refine ends_bind (ends_point ?_ (fun e fails => ⟨rfl, any_failed (by decide) fails⟩))
  intro portal
  refine ends_bind (ends_change ((saveDelivery_ends f _ report ?_).mono ?_ ?_))
  · exact fun _ => ⟨rfl, rfl, rfl⟩
  · rintro _ w' ⟨saved, delivered⟩
    refine ⟨by simp [mailingPoints, fetched, portal, saved], delivered.attachments, delivered.reports, delivered.outside,
      delivered.hooks.trans (List.append_nil _), delivered.depth⟩
  · rintro e w' ⟨rfl, fails⟩
    rcases Option.ne_none_iff_exists'.mp fails with ⟨e, fails⟩
    exact ⟨rfl, any_failed (by decide) fails⟩

/-- A report whose file is there is sent as it is. -/
theorem sendReport_ends (f : Failures Point Raised) (w : World) (report : Nat) (emails : List String) {file : Nat × Nat}
    (live : w.db.liveFile report = some file) (there : file.2 ∈ w.outside.objects) :
    Ends f w (sendReport report emails)
      (fun _ w' => emails ≠ [] ∧ sendingPoints.any (fun p => (f p).isSome) = false ∧
        Delivered w w' (emails.map (fun address => ⟨report, address⟩)))
      (fun _ w' => w'.outside = w.outside ∧ (emails = [] ∨ sendingPoints.any (fun p => (f p).isSome) = true)) := by
  unfold sendReport
  refine ends_bind (ends_point ?_ (fun e fails => ⟨rfl, .inr (any_failed (by decide) fails)⟩))
  intro asked
  split
  · rename_i nobody
    exact ends_bind (ends_raise ⟨rfl, .inl nobody⟩)
  · rename_i somebody
    refine ends_bind (ends_point ?_ (fun e fails => ⟨rfl, .inr (any_failed (by decide) fails)⟩))
    intro found
    refine ends_bind (ends_query ?_)
    rw [live]
    refine (mailReport_ends f w report emails live there).mono ?_ ?_
    · rintro _ w' ⟨passed, delivered⟩
      refine ⟨somebody, ?_, delivered⟩
      rw [sendingPoints, List.any_append, passed]
      simp [asked, found]
    · rintro e w' ⟨same, fails⟩
      refine ⟨same, .inr ?_⟩
      rw [sendingPoints, List.any_append, fails, Bool.or_true]

theorem deliver_ends (f : Failures Point Raised) (w : World) (r : Request) (report : Nat) {file : Nat × Nat}
    (live : w.db.liveFile report = some file) (there : file.2 ∈ w.outside.objects) :
    Ends f w (deliver r report)
      (fun _ w' => undelivered r f = false ∧ ∃ messages, Delivered w w' messages ∧
        (messages = [] ∨ mailed r = true ∧ messages = r.emails.map (fun address => ⟨report, address⟩)))
      (fun _ w' => w'.outside = w.outside ∧ undelivered r f = true) := by
  have saves (g : CustomerReport -> CustomerReport) (keeps : Keeps g)
      (branch : undelivered r f = (f .saveDelivery).isSome) : Ends f w (saveDelivery report g)
        (fun _ w' => undelivered r f = false ∧ ∃ messages, Delivered w w' messages ∧
          (messages = [] ∨ mailed r = true ∧ messages = r.emails.map (fun address => ⟨report, address⟩)))
        (fun _ w' => w'.outside = w.outside ∧ undelivered r f = true) := by
    refine (saveDelivery_ends f w report keeps).mono ?_ ?_
    · rintro _ w' ⟨saved, delivered⟩
      exact ⟨by rw [branch, saved]; rfl, [], delivered, .inl rfl⟩
    · rintro e w' ⟨rfl, fails⟩
      exact ⟨rfl, by rw [branch, Option.isSome_iff_ne_none]; exact fails⟩
  unfold deliver
  split
  · rename_i off
    refine saves _ (fun _ => ⟨rfl, rfl, rfl⟩) ?_
    rw [undelivered, if_neg]
    simpa [Bool.and_eq_true, Bool.or_eq_true, ← Bool.not_and] using off
  · rename_i on_
    have enabled : (r.send && r.enabled) = true := by
      simpa [← Bool.not_and] using on_
    refine ends_bind (ends_point ?_ ?_)
    · intro read
      split
      · rename_i nobody
        refine saves _ (fun _ => ⟨rfl, rfl, rfl⟩) ?_
        rw [undelivered, if_pos enabled, if_pos nobody, read]
        rfl
      · rename_i somebody
        have branch : undelivered r f = sendingPoints.any (fun p => (f p).isSome) := by
          rw [undelivered, if_pos enabled, if_neg somebody, read]
          rfl
        have mails : mailed r = true := by
          rw [mailed, enabled, Bool.true_and]
          exact decide_eq_true somebody
        refine (sendReport_ends f w report r.emails live there).mono ?_ ?_
        · rintro _ w' ⟨-, passed, delivered⟩
          exact ⟨branch.trans passed, _, delivered, .inr ⟨mails, rfl⟩⟩
        · rintro e w' ⟨same, nobody | fails⟩
          · exact absurd nobody somebody
          · exact ⟨same, branch.trans fails⟩
    · intro e fails
      refine ⟨rfl, ?_⟩
      rw [undelivered, if_pos enabled, fails]
      rfl

end Files
end Reports
end Shiftlush
