import Shiftlush.Attachments.Purging

namespace Shiftlush
namespace Attachments

/-!
# What a refused upload leaves

A confirmation with no other call between its statements.  It looks at the row, the
target, the object and the visit in this order, and the first that is wrong refuses it:
some refusals remove the object and some do not.
-/

/-- How a confirmation ends. -/
inductive Decision where
  /-- The key has a live row. -/
  | found (id : Nat)
  | record (object : StoredObject)
  | refuse (failure : Failure)
  /-- Refused, and the object removed. -/
  | discard (failure : Failure)
  deriving DecidableEq

namespace State

variable (s : State)

/-- The statements of a call, with no other call between them. -/
def alone (i : Nat) : Nat -> State -> State
  | 0, s => s
  | statements + 1, s => alone i statements (s.advance i)

/-- `confirm_upload`, from its call to its end. -/
def confirmUpload (company uploadedBy : Nat) (storageKey originalFilename : String) : State :=
  alone s.tasks.length 6 (s.start (confirm company uploadedBy storageKey originalFilename))

/-- `check_signature_confirm` -/
def checkSignatureConfirm (upload : Upload) (object : StoredObject) : Option Failure :=
  match checkImage object with
  | some failure => some failure
  | none =>
      if !s.signedVisitExists upload.company upload.place.objectId then some .signatureNotExpected
      else if s.signatureExists upload.company upload.place.objectId then some .signatureExists
      else none

/-- What is wrong with the object behind the key. -/
def checkObject (upload : Upload) (object : StoredObject) : Option Failure :=
  match refusedObject object with
  | some failure => some failure
  | none => if upload.place.category ≠ .signature then none else s.checkSignatureConfirm upload object

def decision (upload : Upload) : Decision :=
  if upload.place.category ∈ serverOnlyCategories then
    if s.hasRow upload.company upload.storageKey then .refuse .categoryNotUploadable
    else .discard .categoryNotUploadable
  else
    match s.existing upload.company upload.storageKey with
    | some id => .found id
    | none =>
        if s.targetExists upload.company upload.place.objectType upload.place.objectId then
          match s.objects (s.backendFor upload.place.category) upload.storageKey with
          | none => .refuse .uploadNotCompleted
          | some object =>
              match s.checkObject upload object with
              | some failure => .discard failure
              | none => .record object
        else .refuse .notFound

/-- The state a decision leaves. -/
def settle (i : Nat) (upload : Upload) : Decision -> State
  | .found id => s.put i (.finished (.recorded id))
  | .record object => s.record i (confirmed upload (s.backendFor upload.place.category) object)
  | .refuse failure => s.put i (.finished (.refused failure))
  | .discard failure =>
      (s.deleteObject (s.backendFor upload.place.category) upload.storageKey).put i (.finished (.refused failure))

/-! ## One call alone -/

variable {s} {i : Nat} {upload : Upload} {stage : Stage} {task task' : Task}

theorem put_put : (s.put i task).put i task' = s.put i task' := by
  unfold put
  dsimp only
  rw [List.set_set]

theorem record_put (file : Stored) : (s.put i task).record i file = s.record i file := by
  unfold record put
  dsimp only
  rw [List.set_set, List.set_set]

/-- What a statement does does not depend on the stage it is read from. -/
theorem advanceConfirm_put : (s.put i task).advanceConfirm i upload stage = s.advanceConfirm i upload stage := by
  have puts : ∀ task', (s.put i task).put i task' = s.put i task' := fun _ => put_put
  have deletes : ∀ backend task', ((s.put i task).deleteObject backend upload.storageKey).put i task' =
      (s.deleteObject backend upload.storageKey).put i task' := by
    intro backend task'
    unfold deleteObject put
    dsimp only
    rw [List.set_set]
  cases stage with
  | recording backend object => exact record_put _
  | discarding backend failure => exact deletes backend _
  | checkingRow =>
      unfold advanceConfirm
      dsimp only
      rw [puts, puts]
      rfl
  | looking =>
      unfold advanceConfirm
      dsimp only
      simp only [puts]
      rfl
  | checkingTarget =>
      unfold advanceConfirm
      dsimp only
      rw [puts, puts]
      rfl
  | measuring =>
      unfold advanceConfirm
      dsimp only
      simp only [puts]
      rfl
  | checkingVisit backend object =>
      unfold advanceConfirm
      dsimp only
      rw [puts, puts]
      rfl
  | checkingSignatures backend object =>
      unfold advanceConfirm
      dsimp only
      rw [puts, puts]
      rfl

theorem alone_succ (i statements : Nat) (s : State) : alone i (statements + 1) s = alone i statements (s.advance i) := rfl

theorem alone_confirming (here : i < s.tasks.length) (statements : Nat) :
    alone i (statements + 1) (s.put i (.confirming upload stage)) = alone i statements (s.advanceConfirm i upload stage) := by
  have reads : (s.put i (.confirming upload stage)).tasks[i]? = some (.confirming upload stage) :=
    List.getElem?_set_self here
  rw [alone_succ, advance, reads]
  dsimp only
  rw [advanceConfirm_put]

theorem alone_finished {reply : Reply} (done : s.tasks[i]? = some (.finished reply)) (statements : Nat) :
    alone i statements s = s := by
  induction statements with
  | zero => rfl
  | succ statements ih =>
      have stays : s.advance i = s := by
        unfold advance
        rw [done]
      rw [alone_succ, stays, ih]

theorem alone_put_finished {reply : Reply} (here : i < s.tasks.length) (statements : Nat) :
    alone i statements (s.put i (.finished reply)) = s.put i (.finished reply) :=
  alone_finished (List.getElem?_set_self here) statements

theorem alone_discarding (here : i < s.tasks.length) (statements : Nat) (backend : StorageBackend) (failure : Failure) :
    alone i (statements + 1) (s.put i (.confirming upload (.discarding backend failure))) =
      (s.deleteObject backend upload.storageKey).put i (.finished (.refused failure)) := by
  have kept : i < (s.deleteObject backend upload.storageKey).tasks.length := here
  rw [alone_confirming here, advanceConfirm]
  exact alone_put_finished kept statements

theorem alone_recording (here : i < s.tasks.length) (statements : Nat) (backend : StorageBackend) (object : StoredObject) :
    alone i (statements + 1) (s.put i (.confirming upload (.recording backend object))) =
      s.record i (confirmed upload backend object) := by
  rw [alone_confirming here, advanceConfirm, record]
  split
  · exact alone_finished (List.getElem?_set_self here) statements
  · exact alone_put_finished here statements

/-- The object is measured and, if it is a signature, checked against its visit. -/
theorem alone_measuring (here : i < s.tasks.length) (statements : Nat) {object : StoredObject}
    (there : s.objects (s.backendFor upload.place.category) upload.storageKey = some object) :
    alone i (statements + 4) (s.put i (.confirming upload .measuring)) =
      s.settle i upload (match s.checkObject upload object with
        | some failure => .discard failure
        | none => .record object) := by
  rw [alone_confirming here, advanceConfirm, there]
  unfold checkObject
  dsimp only
  cases refusedObject object with
  | some failure => exact alone_discarding here _ _ failure
  | none =>
      dsimp only
      by_cases plain : upload.place.category ≠ .signature
      · rw [if_pos plain, if_pos plain]
        exact alone_recording here _ _ object
      · rw [if_neg plain, if_neg plain]
        unfold checkSignatureConfirm
        cases checkImage object with
        | some failure => exact alone_discarding here _ _ failure
        | none =>
            dsimp only
            rw [alone_confirming here, advanceConfirm]
            cases s.signedVisitExists upload.company upload.place.objectId with
            | false => exact alone_discarding here _ _ .signatureNotExpected
            | true =>
                rw [if_pos rfl, alone_confirming here, advanceConfirm]
                cases s.signatureExists upload.company upload.place.objectId with
                | false => exact alone_recording here _ _ object
                | true => exact alone_discarding here _ _ .signatureExists

theorem alone_looking (here : i < s.tasks.length) (open_ : upload.place.category ∉ serverOnlyCategories) :
    alone i 6 (s.put i (.confirming upload .looking)) = s.settle i upload (s.decision upload) := by
  rw [alone_confirming here, advanceConfirm]
  unfold decision
  rw [if_neg open_]
  cases s.existing upload.company upload.storageKey with
  | some id => exact alone_put_finished here _
  | none =>
      dsimp only
      rw [alone_confirming here, advanceConfirm]
      cases s.targetExists upload.company upload.place.objectType upload.place.objectId with
      | false => exact alone_put_finished here _
      | true =>
          rw [if_pos rfl, if_pos rfl]
          cases there : s.objects (s.backendFor upload.place.category) upload.storageKey with
          | none =>
              rw [alone_confirming here, advanceConfirm, there]
              exact alone_put_finished here _
          | some object => exact alone_measuring here 0 there

theorem alone_checkingRow (here : i < s.tasks.length) (closed : upload.place.category ∈ serverOnlyCategories) :
    alone i 6 (s.put i (.confirming upload .checkingRow)) = s.settle i upload (s.decision upload) := by
  rw [alone_confirming here, advanceConfirm]
  unfold decision
  rw [if_pos closed]
  cases s.hasRow upload.company upload.storageKey with
  | true => exact alone_put_finished here _
  | false => exact alone_discarding here _ _ .categoryNotUploadable

/-- A confirmation of a well-formed key leaves what was decided. -/
theorem confirmUpload_eq {company uploadedBy : Nat} {storageKey originalFilename : String} {place : Place}
    (parsed : parseKey company storageKey = some place) :
    s.confirmUpload company uploadedBy storageKey originalFilename =
      (s.start (.finished .nothing)).settle s.tasks.length ⟨company, uploadedBy, storageKey, originalFilename, place⟩
        (s.decision ⟨company, uploadedBy, storageKey, originalFilename, place⟩) := by
  have here : s.tasks.length < (s.start (.finished .nothing)).tasks.length := by
    unfold start
    rw [List.length_append]
    exact Nat.lt_succ_self _
  have starts : ∀ task, s.start task = (s.start (.finished .nothing)).put s.tasks.length task := by
    intro task
    unfold start put
    dsimp only
    rw [List.set_append_right _ _ (Nat.le_refl _), Nat.sub_self]
    rfl
  unfold confirmUpload confirm
  rw [parsed]
  dsimp only
  rw [starts]
  by_cases closed : place.category ∈ serverOnlyCategories
  · rw [if_pos closed]
    exact alone_checkingRow here closed
  · rw [if_neg closed]
    exact alone_looking here closed

/-! ## Nothing is left behind -/

/-- An attachment row refers to the object. -/
def Refers (s : State) (backend : StorageBackend) (storageKey : String) : Prop :=
  ∃ r ∈ s.attachments, r.2.owns backend storageKey = true

/-- If the confirmation is refused, the object is gone or a row refers to it. -/
def LeavesNothing (s : State) (company uploadedBy : Nat) (storageKey originalFilename : String) (place : Place) : Prop :=
  ∀ failure, (s.confirmUpload company uploadedBy storageKey originalFilename).tasks[s.tasks.length]? =
      some (.finished (.refused failure)) ->
    (s.confirmUpload company uploadedBy storageKey originalFilename).objects (s.backendFor place.category) storageKey =
        none ∨
      (s.confirmUpload company uploadedBy storageKey originalFilename).Refers (s.backendFor place.category) storageKey

/-- A server-made file has no row; of the others a live row is there, or the target is and an object that passes the
checks is not empty. -/
def CleansUp (s : State) (upload : Upload) (object : StoredObject) : Prop :=
  if upload.place.category ∈ serverOnlyCategories then s.hasRow upload.company upload.storageKey = false
  else
    (s.existing upload.company upload.storageKey).isSome = true ∨
      s.targetExists upload.company upload.place.objectType upload.place.objectId = true ∧
        (s.checkObject upload object = none -> 0 < object.sizeBytes)

theorem objects_deleteObject (backend : StorageBackend) (storageKey : String) :
    (s.deleteObject backend storageKey).objects backend storageKey = none := if_pos ⟨rfl, rfl⟩

theorem objects_upload (backend : StorageBackend) (storageKey : String) (object : StoredObject) :
    (s.step (.upload backend storageKey object)).objects backend storageKey = some object := if_pos ⟨rfl, rfl⟩

theorem objects_place (objectType : ObjectType) (id : Nat) (target : Option Target) :
    (s.step (.place objectType id target)).objects = s.objects := rfl

theorem tasks_put_self (here : i < s.tasks.length) : (s.put i task).tasks[i]? = some task := List.getElem?_set_self here

/-- What a decision leaves of the object. -/
theorem settle_leaves (upload : Upload) (here : i < s.tasks.length) {object : StoredObject}
    (there : s.objects (s.backendFor upload.place.category) upload.storageKey = some object) (decision : Decision) :
    (∀ failure, (s.settle i upload decision).tasks[i]? = some (.finished (.refused failure)) ->
      (s.settle i upload decision).objects (s.backendFor upload.place.category) upload.storageKey = none ∨
        (s.settle i upload decision).Refers (s.backendFor upload.place.category) upload.storageKey) ↔
      s.Refers (s.backendFor upload.place.category) upload.storageKey ∨
        match decision with
        | .found _ => True
        | .record object => (confirmed upload (s.backendFor upload.place.category) object).sizeWithinLimit = true
        | .refuse _ => False
        | .discard _ => True := by
  cases decision with
  | found id =>
      refine ⟨fun _ => .inr trivial, fun _ failure same => ?_⟩
      rw [settle, tasks_put_self here] at same
      cases same
  | refuse failure =>
      constructor
      · intro leaves
        rcases leaves failure (tasks_put_self here) with gone | refers
        · exact absurd (there.symm.trans gone) nofun
        · exact .inl refers
      · rintro (refers | impossible) _ _
        · exact .inr refers
        · exact impossible.elim
  | discard failure =>
      refine ⟨fun _ => .inr trivial, fun _ _ _ => .inl ?_⟩
      exact objects_deleteObject _ _
  | record object' =>
      have recorded : s.settle i upload (.record object') =
          s.record i (confirmed upload (s.backendFor upload.place.category) object') := rfl
      rw [recorded]
      unfold record
      dsimp only
      split
      · rename_i within
        refine ⟨fun _ => .inr within, fun _ failure same => ?_⟩
        rw [List.getElem?_set_self here] at same
        cases same
      · rename_i outside
        constructor
        · intro leaves
          rcases leaves .sizeWithinLimit (tasks_put_self here) with gone | refers
          · exact absurd (there.symm.trans gone) nofun
          · exact .inl refers
        · rintro (refers | within) _ _
          · exact .inr refers
          · exact absurd within outside

/-- An object that passes the checks can be recorded, unless it is empty. -/
theorem sizeWithinLimit_confirmed {object : StoredObject} {backend : StorageBackend}
    (passes : s.checkObject upload object = none) :
    (confirmed upload backend object).sizeWithinLimit = true ↔ 0 < object.sizeBytes := by
  have small : object.sizeBytes ≤ maxSizeBytes := by
    by_contra large
    unfold checkObject refusedObject at passes
    rw [if_pos (Nat.lt_of_not_le large)] at passes
    cases passes
  unfold Stored.sizeWithinLimit
  rw [decide_eq_true_iff]
  exact ⟨fun within => within.1, fun some => ⟨some, small⟩⟩

/-- What a refused upload leaves is said by what was decided. -/
theorem leavesNothing_iff_decision {company uploadedBy : Nat} {storageKey originalFilename : String} {place : Place}
    (parsed : parseKey company storageKey = some place) {object : StoredObject}
    (there : s.objects (s.backendFor place.category) storageKey = some object) :
    s.LeavesNothing company uploadedBy storageKey originalFilename place ↔
      s.Refers (s.backendFor place.category) storageKey ∨
        match s.decision ⟨company, uploadedBy, storageKey, originalFilename, place⟩ with
        | .found _ => True
        | .record object => (confirmed ⟨company, uploadedBy, storageKey, originalFilename, place⟩
            (s.backendFor place.category) object).sizeWithinLimit = true
        | .refuse _ => False
        | .discard _ => True := by
  have here : s.tasks.length < (s.start (.finished .nothing)).tasks.length := by
    unfold start
    rw [List.length_append]
    exact Nat.lt_succ_self _
  unfold LeavesNothing
  rw [confirmUpload_eq parsed]
  exact settle_leaves (s := s.start (.finished .nothing))
    ⟨company, uploadedBy, storageKey, originalFilename, place⟩ here there
    (s.decision ⟨company, uploadedBy, storageKey, originalFilename, place⟩)

/-- A refused upload leaves nothing behind exactly when a row refers to the object or the refusal is one that removes
it. -/
theorem leavesNothing_iff {company uploadedBy : Nat} {storageKey originalFilename : String} {place : Place}
    (parsed : parseKey company storageKey = some place) {object : StoredObject}
    (there : s.objects (s.backendFor place.category) storageKey = some object) :
    s.LeavesNothing company uploadedBy storageKey originalFilename place ↔
      s.Refers (s.backendFor place.category) storageKey ∨
        s.CleansUp ⟨company, uploadedBy, storageKey, originalFilename, place⟩ object := by
  refine (leavesNothing_iff_decision parsed there).trans (or_congr Iff.rfl ?_)
  unfold decision CleansUp
  dsimp only
  by_cases closed : place.category ∈ serverOnlyCategories
  · rw [if_pos closed, if_pos closed]
    cases s.hasRow company storageKey with
    | true => exact ⟨False.elim, nofun⟩
    | false => exact ⟨fun _ => rfl, fun _ => trivial⟩
  · rw [if_neg closed, if_neg closed]
    cases s.existing company storageKey with
    | some id => exact ⟨fun _ => .inl rfl, fun _ => trivial⟩
    | none =>
        dsimp only
        cases s.targetExists company place.objectType place.objectId with
        | false => exact ⟨False.elim, fun either => either.elim nofun (fun both => nomatch both.1)⟩
        | true =>
            rw [if_pos rfl, there]
            dsimp only
            cases checked : s.checkObject ⟨company, uploadedBy, storageKey, originalFilename, place⟩ object with
            | some failure => exact ⟨fun _ => .inr ⟨rfl, nofun⟩, fun _ => trivial⟩
            | none =>
                dsimp only
                rw [sizeWithinLimit_confirmed checked]
                constructor
                · exact fun some => .inr ⟨rfl, fun _ => some⟩
                · rintro (none | ⟨_, some⟩)
                  · cases none
                  · exact some rfl

/-- A photograph of the lift is in the bucket. -/
def uploaded : State := oneLift.step (.upload .r2 photoKey ⟨1000, "image/jpeg"⟩)

theorem parseKey_photoKey : parseKey 1 photoKey = some ⟨.elevator, 1, .photo⟩ := by decide +kernel

theorem objects_uploaded : uploaded.objects .r2 photoKey = some ⟨1000, "image/jpeg"⟩ := objects_upload .r2 photoKey _

theorem leavesNothing_uploaded : uploaded.LeavesNothing 1 7 photoKey "shaft.jpg" ⟨.elevator, 1, .photo⟩ := by
  refine (leavesNothing_iff parseKey_photoKey objects_uploaded).mpr (.inr ?_)
  unfold CleansUp
  rw [if_neg (by decide)]
  exact .inr ⟨rfl, fun _ => by decide⟩

/-- The lift is deleted between the ticket and the confirmation, which is refused and leaves the photograph. -/
theorem photo_left_behind :
    parseKey 1 photoKey = some ⟨.elevator, 1, .photo⟩ ∧
      ¬(uploaded.step (.place .elevator 1 (some ⟨1, true, false⟩))).LeavesNothing 1 7 photoKey "shaft.jpg"
        ⟨.elevator, 1, .photo⟩ := by
  refine ⟨parseKey_photoKey, fun leaves => ?_⟩
  have left : (uploaded.step (.place .elevator 1 (some ⟨1, true, false⟩))).objects .r2 photoKey =
      some ⟨1000, "image/jpeg"⟩ := by
    rw [objects_place]
    exact objects_uploaded
  have refused : (uploaded.step (.place .elevator 1 (some ⟨1, true, false⟩))).decision
      ⟨1, 7, photoKey, "shaft.jpg", ⟨.elevator, 1, .photo⟩⟩ = .refuse .notFound := by decide +kernel
  have kept := (leavesNothing_iff_decision parseKey_photoKey left).mp leaves
  rw [refused] at kept
  rcases kept with ⟨r, mem, _⟩ | impossible
  · exact absurd mem List.not_mem_nil
  · exact impossible

end State
end Attachments
end Shiftlush
