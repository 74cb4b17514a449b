import Shiftlush.Users.Edits

namespace Shiftlush
namespace Users
namespace Edits

open Sessions (Role)
open Failing (Failures Ends ends_pure ends_query ends_change ends_raise ends_point ends_bind)

/-!
# What an edit leaves

An edit is followed through its statements once.  Up to `user.save()` nothing is
written; from then on the colleague has been saved, and a stop leaves what the
statements before it wrote.
-/

variable {f : Failures Point Raised} {clock : Point -> Nat} {office office' : Office} {edit : Edit}
variable {requester user : User} {changes : UserChanges} {role : Option Role} {id now : Nat}

/-! ## Where an edit stops -/

/-- The edit comes to `user.save()`. -/
structure Saves (f : Failures Point Raised) (office : Office) (edit : Edit) (requester user : User)
    (changes : UserChanges) (role : Option Role) : Prop where
  authenticating : f .authenticating = none
  known : office.users.get? edit.requester = some requester
  active : requester.isActive = true
  permitted : mayWrite requester.role = true
  finding : f .finding = none
  found : office.users.get? edit.user = some user
  company : ∃ company, edit.company = some company ∧ user.company = some company
  form : edit.form = some (changes, role)
  owners : ¬(role = some .owner ∧ requester.role ≠ .owner)
  saving : f .saving = none

/-- `change_role` comes to its first write. -/
structure Moves (f : Failures Point Raised) (office : Office) (id : Nat) (user : User) (role : Role) : Prop where
  checking : f .checking = none
  allowed : ¬(role ≠ user.role ∧ isLastActiveOwner office.users id user = true)
  moving : f .moving = none

/-- Nothing stops the edit after `user.save()`. -/
structure Completes (f : Failures Point Raised) (office : Office) (id : Nat) (user : User) (role : Option Role) :
    Prop where
  moves : ∀ new, role = some new -> Moves f office id user new
  unassigning : ∀ new, role = some new -> new ≠ .technician -> f .unassigning = none
  answering : f .answering = none

/-! ## Statements -/

namespace Office

/-- The firm sees no live assignment of the user. -/
def NoneLive (office : Office) (company : Option Nat) (id : Nat) : Prop :=
  ∀ r ∈ office.assignments, r.2.user = id -> some r.2.company = company -> r.2.isDeleted = true

theorem write_write (office : Office) (now now' id : Nat) (f g : User -> User) :
    (office.write now id f).write now' id g = office.write now' id (fun row => g (f row)) := by
  unfold write Rows.update
  dsimp only
  rw [Function.update_idem, List.map_map]
  congr 1
  refine List.map_congr_left (fun r _ => ?_)
  dsimp only [Function.comp]
  split
  · rfl
  · rfl

/-- A write that changes nothing gives the row what it has. -/
theorem write_eq_self (keyed : office.users.Distinct) (found : office.users.get? id = some user) {g : User -> User} :
    office.write now id g = office ↔ g user = user ∧ now = office.updatedAt id := by
  constructor
  · intro same
    have users : (office.users.update id g).get? id = office.users.get? id :=
      congrArg (fun office => office.users.get? id) same
    have stamps : Function.update office.updatedAt id now id = office.updatedAt id :=
      congrArg (fun office => office.updatedAt id) same
    rw [Rows.get?_update_self, found] at users
    rw [Function.update_self] at stamps
    exact ⟨Option.some.inj users, stamps⟩
  · rintro ⟨same, rfl⟩
    unfold write
    rw [Rows.update_same_self keyed found same, Function.update_eq_self]

theorem noneLive_unassign (office : Office) (now : Nat) (company : Option Nat) (id : Nat) :
    (office.unassign now company id).NoneLive company id := by
  unfold NoneLive unassign Rows.updateWhere
  intro r mem own seen
  obtain ⟨before, mem, rfl⟩ := List.mem_map.mp mem
  by_cases live : before.2.user = id ∧ some before.2.company = company ∧ before.2.isDeleted = false
  · rw [if_pos (decide_eq_true live)]
  · rw [if_neg (fun marked => live (of_decide_eq_true marked))] at own seen ⊢
    by_contra kept
    exact live ⟨own, seen, eq_false_of_ne_true kept⟩

theorem unassign_of_noneLive {company : Option Nat} (none : office.NoneLive company id) :
    office.unassign now company id = office := by
  unfold unassign Rows.updateWhere
  have same : office.assignments.map (fun r =>
      if decide (r.2.user = id ∧ some r.2.company = company ∧ r.2.isDeleted = false) then
        (r.1, { r.2 with isDeleted := true, deletedAt := some now }) else r) = office.assignments := by
    refine (List.map_congr_left (fun r mem => if_neg ?_)).trans (List.map_id office.assignments)
    intro live
    obtain ⟨own, seen, live⟩ := of_decide_eq_true live
    rw [none r mem own seen] at live
    cases live
  rw [same]

end Office

theorem otherOwners_update (users : Rows User) (firm : Option Nat) (id : Nat) (g : User -> User) :
    otherOwners (users.update id g) firm id = otherOwners users firm id := by
  unfold otherOwners Rows.update
  rw [List.countP_map]
  refine List.countP_congr (fun r _ => ?_)
  dsimp only [Function.comp]
  split
  · rename_i here
    simp [here]
  · exact Iff.rfl

/-- Saving the fields changes nothing of who owns the firm. -/
theorem isLastActiveOwner_saved (users : Rows User) (id : Nat) (changes : UserChanges) (user : User) :
    isLastActiveOwner (users.update id (fun _ => changes.apply user)) id (changes.apply user) =
      isLastActiveOwner users id user := by
  unfold isLastActiveOwner
  rw [otherOwners_update]
  rfl

/-! ## What is left -/

/-- The colleague saved with the fields. -/
def saved (clock : Point -> Nat) (office : Office) (edit : Edit) (changes : UserChanges) (user : User) : Office :=
  office.write (clock .saving) edit.user (fun _ => changes.apply user)

/-- And with the role. -/
def moved (clock : Point -> Nat) (office : Office) (edit : Edit) (changes : UserChanges) (user : User) (new : Role) :
    Office :=
  (saved clock office edit changes user).write (clock .moving) edit.user (fun row => { row with role := new })

/-- What is left of an edit that came to `user.save()`, by where it stops. -/
inductive Leaves (f : Failures Point Raised) (clock : Point -> Nat) (office : Office) (edit : Edit) (user : User)
    (changes : UserChanges) (role : Option Role) : Office -> Prop where
  | saved : (∀ new, role = some new -> ¬Moves f office edit.user user new) ->
      Leaves f clock office edit user changes role (saved clock office edit changes user)
  | moved (new : Role) : role = some new -> Moves f office edit.user user new ->
      (new ≠ .technician -> f .unassigning ≠ none) ->
      Leaves f clock office edit user changes role (moved clock office edit changes user new)
  | unassigned (new : Role) : role = some new -> Moves f office edit.user user new -> new ≠ .technician ->
      f .unassigning = none ->
      Leaves f clock office edit user changes role
        ((moved clock office edit changes user new).unassign (clock .unassigning) edit.company edit.user)

theorem authenticate_ends (f : Failures Point Raised) (office : Office) (id : Nat) : Ends f office (authenticate id)
    (fun row office' => office' = office ∧ f .authenticating = none ∧ office.users.get? id = some row ∧
      row.isActive = true ∧ mayWrite row.role = true)
    (fun _ office' => office' = office ∧ ¬(f .authenticating = none ∧ ∃ row, office.users.get? id = some row ∧
      row.isActive = true ∧ mayWrite row.role = true)) := by
  unfold authenticate
  refine ends_bind (ends_point ?_ ?_)
  · intro passes
    refine ends_bind (ends_query ?_)
    cases known : office.users.get? id with
    | none => exact ends_raise ⟨rfl, fun all => nomatch all.2.choose_spec.1⟩
    | some row =>
        dsimp only
        cases active : row.isActive with
        | false =>
            refine ends_raise ⟨rfl, ?_⟩
            rintro ⟨_, row', same, active', _⟩
            cases same
            rw [active] at active'
            cases active'
        | true =>
            cases permitted : mayWrite row.role with
            | false =>
                refine ends_raise ⟨rfl, ?_⟩
                rintro ⟨_, row', same, _, permitted'⟩
                cases same
                rw [permitted] at permitted'
                cases permitted'
            | true => exact ends_pure ⟨rfl, passes, rfl, active, permitted⟩
  · intro e fails
    refine ⟨rfl, fun all => ?_⟩
    rw [fails] at all
    exact nomatch all.1

theorem getObject_ends (f : Failures Point Raised) (office : Office) (company : Option Nat) (id : Nat) :
    Ends f office (getObject company id)
      (fun user office' => office' = office ∧ f .finding = none ∧ office.users.get? id = some user ∧
        ∃ firm, company = some firm ∧ user.company = some firm)
      (fun _ office' => office' = office ∧ ¬(f .finding = none ∧ ∃ user, office.users.get? id = some user ∧
        ∃ firm, company = some firm ∧ user.company = some firm)) := by
  unfold getObject
  refine ends_bind (ends_point ?_ ?_)
  · intro passes
    cases company with
    | none =>
        refine ends_raise ⟨rfl, ?_⟩
        rintro ⟨_, _, _, firm, same, _⟩
        cases same
    | some firm =>
        refine ends_bind (ends_query ?_)
        cases found : office.users.get? id with
        | none =>
            refine ends_raise ⟨rfl, ?_⟩
            rintro ⟨_, _, same, _⟩
            cases same
        | some user =>
            dsimp only
            split
            · rename_i own
              exact ends_pure ⟨rfl, passes, rfl, firm, rfl, own⟩
            · rename_i other
              refine ends_raise ⟨rfl, ?_⟩
              rintro ⟨_, user', same, firm', same', own⟩
              cases same
              cases same'
              exact other own
  · intro e fails
    refine ⟨rfl, fun all => ?_⟩
    rw [fails] at all
    exact nomatch all.1

/-- `change_role` on a colleague who has been saved. -/
theorem changeRole_ends (f : Failures Point Raised) (clock : Point -> Nat) (office : Office) (edit : Edit)
    (changes : UserChanges) (user : User) (new : Role) :
    Ends f (saved clock office edit changes user) (changeRole clock edit.company edit.user (changes.apply user) new)
      (fun _ office' => Leaves f clock office edit user changes (some new) office' ∧ Moves f office edit.user user new ∧
        (new ≠ .technician -> f .unassigning = none))
      (fun _ office' => Leaves f clock office edit user changes (some new) office' ∧
        ¬(Moves f office edit.user user new ∧ (new ≠ .technician -> f .unassigning = none))) := by
  have stays : ¬Moves f office edit.user user new -> Leaves f clock office edit user changes (some new)
      (saved clock office edit changes user) := by
    intro stuck
    refine .saved (fun new' same => ?_)
    cases same
    exact stuck
  unfold changeRole
  refine ends_bind (ends_point ?_ ?_)
  · intro checking
    refine ends_bind (ends_query ?_)
    have same : isLastActiveOwner (saved clock office edit changes user).users edit.user (changes.apply user) =
        isLastActiveOwner office.users edit.user user := isLastActiveOwner_saved ..
    rw [same]
    split
    · rename_i last
      have stuck : ¬Moves f office edit.user user new := fun moves => moves.allowed last
      exact ends_raise ⟨stays stuck, fun both => stuck both.1⟩
    · rename_i allowed
      refine ends_bind (ends_point ?_ ?_)
      · intro moving
        have moves : Moves f office edit.user user new := ⟨checking, allowed, moving⟩
        refine ends_bind (ends_change ?_)
        split
        · rename_i office_role
          refine ends_bind (ends_point ?_ ?_)
          · intro unassigning
            exact ends_change ⟨.unassigned new rfl moves office_role unassigning, moves, fun _ => unassigning⟩
          · intro e fails
            have lost : f .unassigning ≠ none := by
              rw [fails]
              exact nofun
            exact ⟨.moved new rfl moves (fun _ => lost), fun both => lost (both.2 office_role)⟩
        · rename_i technician
          exact ends_pure ⟨.moved new rfl moves (fun other => absurd other technician), moves,
            fun other => absurd other technician⟩
      · intro e fails
        have stuck : ¬Moves f office edit.user user new := by
          intro moves
          rw [moves.moving] at fails
          cases fails
        exact ⟨stays stuck, fun both => stuck both.1⟩
  · intro e fails
    have stuck : ¬Moves f office edit.user user new := by
      intro moves
      rw [moves.checking] at fails
      cases fails
    exact ⟨stays stuck, fun both => stuck both.1⟩

/-- An edit answers when nothing stops it, and otherwise leaves what it wrote. -/
theorem update_ends (f : Failures Point Raised) (clock : Point -> Nat) (office : Office) (edit : Edit) :
    Ends f office (update clock edit)
      (fun _ office' => ∃ requester user changes role, Saves f office edit requester user changes role ∧
        Completes f office edit.user user role ∧ Leaves f clock office edit user changes role office')
      (fun _ office' => (∀ requester user changes role, ¬Saves f office edit requester user changes role) ∧
          office' = office ∨
        ∃ requester user changes role, Saves f office edit requester user changes role ∧
          ¬Completes f office edit.user user role ∧ Leaves f clock office edit user changes role office') := by
  unfold update
  refine ends_bind ((authenticate_ends f office edit.requester).mono ?_ ?_)
  · rintro requester _ ⟨rfl, authenticating, known, active, permitted⟩
    refine ends_bind ((getObject_ends f _ edit.company edit.user).mono ?_ ?_)
    · rintro user office ⟨rfl, finding, found, company⟩
      cases form : edit.form with
      | none => exact ends_raise (.inl ⟨fun _ _ _ _ saves => (nomatch form.symm.trans saves.form), rfl⟩)
      | some body =>
          obtain ⟨changes, role⟩ := body
          dsimp only
          split
          · rename_i owners
            refine ends_raise (.inl ⟨fun requester' _ _ _ saves => ?_, rfl⟩)
            have same := saves.form
            have who := saves.known
            rw [form] at same
            rw [known] at who
            cases same
            cases who
            exact saves.owners owners
          · rename_i owners
            refine ends_bind (ends_point ?_ ?_)
            · intro saving
              have saves : Saves f office edit requester user changes role :=
                ⟨authenticating, known, active, permitted, finding, found, company, form, owners, saving⟩
              refine ends_bind (ends_change ?_)
              cases role with
              | none =>
                  have left : Leaves f clock office edit user changes none (saved clock office edit changes user) :=
                    .saved (fun _ same => nomatch same)
                  refine ends_bind (ends_point ?_ ?_)
                  · intro answering
                    exact ends_pure ⟨requester, user, changes, none, saves,
                      ⟨fun _ same => (nomatch same), fun _ same => (nomatch same), answering⟩, left⟩
                  · intro e fails
                    refine .inr ⟨requester, user, changes, none, saves, fun completes => ?_, left⟩
                    rw [completes.answering] at fails
                    cases fails
              | some new =>
                  refine ends_bind ((changeRole_ends f clock office edit changes user new).mono ?_ ?_)
                  · rintro _ office' ⟨left, moves, unassigning⟩
                    refine ends_bind (ends_point ?_ ?_)
                    · intro answering
                      refine ends_pure ⟨requester, user, changes, some new, saves, ⟨?_, ?_, answering⟩, left⟩
                      · rintro _ ⟨rfl⟩
                        exact moves
                      · rintro _ ⟨rfl⟩
                        exact unassigning
                    · intro e fails
                      refine .inr ⟨requester, user, changes, some new, saves, fun completes => ?_, left⟩
                      rw [completes.answering] at fails
                      cases fails
                  · rintro e office' ⟨left, stops⟩
                    refine .inr ⟨requester, user, changes, some new, saves, fun completes => stops ?_, left⟩
                    exact ⟨completes.moves new rfl, completes.unassigning new rfl⟩
            · intro e fails
              refine .inl ⟨fun _ _ _ _ saves => ?_, rfl⟩
              rw [saves.saving] at fails
              cases fails
    · rintro e _ ⟨rfl, stops⟩
      exact .inl ⟨fun _ user _ _ saves => stops ⟨saves.finding, user, saves.found, saves.company⟩, rfl⟩
  · rintro e _ ⟨rfl, stops⟩
    exact .inl ⟨fun row _ _ _ saves => stops ⟨saves.authenticating, row, saves.known, saves.active, saves.permitted⟩, rfl⟩

/-! ## What holds of the tables -/

/-- An assignment is of the firm of its user. -/
structure Office.Sound (office : Office) : Prop where
  keyed : office.users.Distinct
  assigned : ∀ r ∈ office.assignments, ∀ user, office.users.get? r.2.user = some user ->
    user.company = some r.2.company

namespace Office

theorem Sound.write (sound : office.Sound) {g : User -> User}
    (keeps : ∀ user, office.users.get? id = some user -> (g user).company = user.company) :
    (office.write now id g).Sound := by
  refine ⟨sound.keyed.update id g, fun r mem user found => ?_⟩
  have found : (office.users.update id g).get? r.2.user = some user := found
  rw [Rows.get?_update] at found
  split at found
  · rename_i here
    obtain ⟨before, known, rfl⟩ := Option.map_eq_some_iff.mp found
    rw [here] at known
    rw [keeps before known]
    exact sound.assigned r mem before (here ▸ known)
  · exact sound.assigned r mem user found

theorem Sound.unassign (sound : office.Sound) (now : Nat) (company : Option Nat) (id : Nat) :
    (office.unassign now company id).Sound := by
  refine ⟨sound.keyed, fun r mem user found => ?_⟩
  obtain ⟨before, listed, rfl⟩ := List.mem_map.mp mem
  have same : (if decide (before.2.user = id ∧ some before.2.company = company ∧ before.2.isDeleted = false) then
      (before.1, { before.2 with isDeleted := true, deletedAt := some now }) else before).2.user = before.2.user ∧
      (if decide (before.2.user = id ∧ some before.2.company = company ∧ before.2.isDeleted = false) then
        (before.1, { before.2 with isDeleted := true, deletedAt := some now }) else before).2.company =
        before.2.company := by
    split
    · exact ⟨rfl, rfl⟩
    · exact ⟨rfl, rfl⟩
  rw [same.1] at found
  rw [same.2]
  exact sound.assigned before listed user found

theorem Sound.assign (sound : office.Sound) (key id customer : Nat) : (office.assign key id customer).Sound := by
  unfold Office.assign
  split
  · exact sound
  · rename_i company named
    obtain ⟨row, known, own⟩ := Option.bind_eq_some_iff.mp named
    refine ⟨sound.keyed, fun r mem user found => ?_⟩
    rcases List.mem_append.mp mem with old | new
    · exact sound.assigned r old user found
    · cases List.mem_singleton.mp new
      have found : office.users.get? id = some user := found
      rw [known] at found
      cases found
      exact own

end Office

theorem Leaves.sound (leaves : Leaves f clock office edit user changes role office') (sound : office.Sound)
    (found : office.users.get? edit.user = some user) : office'.Sound := by
  have saved : (Edits.saved clock office edit changes user).Sound := by
    refine sound.write (fun row known => ?_)
    rw [found] at known
    cases known
    rfl
  have moved : ∀ new, (Edits.moved clock office edit changes user new).Sound :=
    fun new => saved.write (fun _ _ => rfl)
  cases leaves with
  | saved _ => exact saved
  | moved new _ _ _ => exact moved new
  | unassigned new _ _ _ _ => exact (moved new).unassign ..

/-- The colleague stays, in the same firm. -/
theorem Leaves.colleague (leaves : Leaves f clock office edit user changes role office')
    (found : office.users.get? edit.user = some user) :
    ∃ row, office'.users.get? edit.user = some row ∧ row.company = user.company := by
  have saved : (Edits.saved clock office edit changes user).users.get? edit.user = some (changes.apply user) := by
    unfold Edits.saved Office.write
    rw [Rows.get?_update_self, found]
    rfl
  have moved : ∀ new, (Edits.moved clock office edit changes user new).users.get? edit.user =
      some { changes.apply user with role := new } := by
    intro new
    have written := Rows.get?_update_self (Edits.saved clock office edit changes user).users edit.user
      (fun row => { row with role := new })
    rw [saved] at written
    exact written
  cases leaves with
  | saved _ => exact ⟨_, saved, rfl⟩
  | moved new _ _ _ => exact ⟨_, moved new, rfl⟩
  | unassigned new _ _ _ _ => exact ⟨_, moved new, rfl⟩

inductive Event where
  | edited (f : Failures Point Raised) (clock : Point -> Nat) (edit : Edit)
  | assigned (key id customer : Nat)

def Office.step (office : Office) : Event -> Office
  | .edited f clock edit => (update clock edit f office).2
  | .assigned key id customer => office.assign key id customer

theorem Office.Sound.step (sound : office.Sound) (event : Event) : (office.step event).Sound := by
  cases event with
  | assigned key id customer => exact sound.assign key id customer
  | edited f clock edit =>
      refine Ends.state (J := Office.Sound) ((update_ends f clock office edit).mono ?_ ?_)
      · rintro _ office' ⟨_, user, _, _, saves, _, leaves⟩
        exact leaves.sound sound saves.found
      · rintro _ office' (⟨_, rfl⟩ | ⟨_, user, _, _, saves, _, leaves⟩)
        · exact sound
        · exact leaves.sound sound saves.found

/-- Whatever stops the edits. -/
theorem Office.Sound.run (sound : office.Sound) (events : List Event) : (events.foldl Office.step office).Sound := by
  induction events generalizing office with
  | nil => exact sound
  | cons event events ih => exact ih (sound.step event)

/-! ## All or nothing -/

/-- An edit that is not answered leaves all as it was, and one that gives another role than technician leaves no live
assignment. -/
structure AllOrNothing (f : Failures Point Raised) (clock : Point -> Nat) (office : Office) (edit : Edit) : Prop where
  nothing : ∀ e office', update clock edit f office = (.error e, office') -> office' = office
  all : ∀ answer office' changes new, update clock edit f office = (.ok answer, office') ->
    edit.form = some (changes, some new) -> new ≠ .technician ->
      ∀ r ∈ office'.assignments, r.2.user = edit.user -> r.2.isDeleted = true

/-- What the statements up to the stop write is what is there. -/
structure Quiet (f : Failures Point Raised) (clock : Point -> Nat) (office : Office) (edit : Edit) (user : User)
    (changes : UserChanges) (role : Option Role) : Prop where
  fields : changes.apply user = user
  saved : (∀ new, role = some new -> ¬Moves f office edit.user user new) ->
    clock .saving = office.updatedAt edit.user
  moved : ∀ new, role = some new -> Moves f office edit.user user new ->
    new = user.role ∧ clock .moving = office.updatedAt edit.user
  unassigned : ∀ new, role = some new -> Moves f office edit.user user new -> new ≠ .technician ->
    f .unassigning = none -> office.NoneLive edit.company edit.user

theorem moved_eq_self (keyed : office.users.Distinct) (found : office.users.get? edit.user = some user) (new : Role) :
    moved clock office edit changes user new = office ↔
      changes.apply user = user ∧ new = user.role ∧ clock .moving = office.updatedAt edit.user := by
  unfold moved saved
  rw [Office.write_write, Office.write_eq_self keyed found]
  constructor
  · rintro ⟨same, time⟩
    have given : new = user.role := congrArg User.role same
    refine ⟨?_, given, time⟩
    rw [given] at same
    exact same
  · rintro ⟨same, given, time⟩
    refine ⟨?_, time⟩
    rw [same, given]

theorem Leaves.same_iff (leaves : Leaves f clock office edit user changes role office') (keyed : office.users.Distinct)
    (found : office.users.get? edit.user = some user) :
    office' = office ↔ Quiet f clock office edit user changes role := by
  cases leaves with
  | saved stuck =>
      unfold Edits.saved
      rw [Office.write_eq_self keyed found]
      constructor
      · rintro ⟨same, time⟩
        exact ⟨same, fun _ => time, fun new given moves => absurd moves (stuck new given),
          fun new given moves => absurd moves (stuck new given)⟩
      · intro quiet
        exact ⟨quiet.fields, quiet.saved stuck⟩
  | moved new given moves last =>
      rw [moved_eq_self keyed found]
      subst given
      constructor
      · rintro ⟨same, kept, time⟩
        refine ⟨same, fun stuck => absurd moves (stuck new rfl), ?_, ?_⟩
        · rintro _ ⟨rfl⟩ _
          exact ⟨kept, time⟩
        · rintro _ ⟨rfl⟩ _ other unassigning
          exact absurd unassigning (last other)
      · intro quiet
        exact ⟨quiet.fields, quiet.moved new rfl moves⟩
  | unassigned new given moves other unassigning =>
      subst given
      constructor
      · intro same
        have before : Edits.moved clock office edit changes user new = office := by
          ext1
          · exact (congrArg Office.users same :)
          · exact (congrArg Office.updatedAt same :)
          · rfl
        have none := Office.noneLive_unassign (Edits.moved clock office edit changes user new) (clock .unassigning)
          edit.company edit.user
        rw [same] at none
        obtain ⟨fields, kept, time⟩ := (moved_eq_self keyed found new).mp before
        refine ⟨fields, fun stuck => absurd moves (stuck new rfl), ?_, ?_⟩
        · rintro _ ⟨rfl⟩ _
          exact ⟨kept, time⟩
        · rintro _ ⟨rfl⟩ _ _ _
          exact none
      · intro quiet
        have before : Edits.moved clock office edit changes user new = office :=
          (moved_eq_self keyed found new).mpr ⟨quiet.fields, quiet.moved new rfl moves⟩
        rw [before]
        exact Office.unassign_of_noneLive (quiet.unassigned new rfl moves other unassigning)

theorem not_live_of_completes (sound : office.Sound) (saves : Saves f office edit requester user changes role)
    (completes : Completes f office edit.user user role)
    (leaves : Leaves f clock office edit user changes role office') {new : Role} (given : role = some new)
    (other : new ≠ .technician) : ∀ r ∈ office'.assignments, r.2.user = edit.user -> r.2.isDeleted = true := by
  obtain ⟨firm, named, own⟩ := saves.company
  have after : office'.Sound := leaves.sound sound saves.found
  have none : office'.NoneLive edit.company edit.user := by
    cases leaves with
    | saved stuck => exact absurd (completes.moves new given) (stuck new given)
    | moved new' given' _ last =>
        rw [given] at given'
        cases given'
        exact absurd (completes.unassigning new given other) (last other)
    | unassigned new' _ _ _ _ => exact Office.noneLive_unassign _ _ _ _
  obtain ⟨row, known, company⟩ := leaves.colleague saves.found
  intro r mem mine
  have same := after.assigned r mem row (mine ▸ known)
  rw [company, own] at same
  exact none r mem mine (same.symm.trans named.symm)

/-- Team updates are all or nothing, unless an edit is stopped after it has saved something. -/
theorem allOrNothing_iff (sound : office.Sound) : AllOrNothing f clock office edit ↔
    ∀ requester user changes role, Saves f office edit requester user changes role ->
      Completes f office edit.user user role ∨ Quiet f clock office edit user changes role := by
  have ends := update_ends f clock office edit
  unfold Ends at ends
  cases ended : update clock edit f office with
  | mk outcome office' =>
      rw [ended] at ends
      cases outcome with
      | ok answer =>
          obtain ⟨requester, user, changes, role, saves, completes, leaves⟩ := ends
          constructor
          · intro _ requester' user' changes' role' saves'
            have who := saves.found.symm.trans saves'.found
            have what := saves.form.symm.trans saves'.form
            cases who
            cases what
            exact .inl completes
          · intro _
            refine ⟨fun e office'' same => ?_, fun answer' office'' changes' new same given other => ?_⟩
            · rw [ended] at same
              cases same
            · rw [ended] at same
              cases same
              rw [saves.form] at given
              cases given
              exact not_live_of_completes sound saves completes leaves rfl other
      | error e =>
          constructor
          · intro holds requester' user' changes' role' saves'
            rcases ends with ⟨none, _⟩ | ⟨requester, user, changes, role, saves, _, leaves⟩
            · exact absurd saves' (none requester' user' changes' role')
            · have who := saves.found.symm.trans saves'.found
              have what := saves.form.symm.trans saves'.form
              cases who
              cases what
              exact .inr ((leaves.same_iff sound.keyed saves.found).mp (holds.nothing e office' ended))
          · intro stops
            refine ⟨fun e' office'' same => ?_, fun answer office'' changes' new same => ?_⟩
            · rw [ended] at same
              cases same
              rcases ends with ⟨_, same⟩ | ⟨requester, user, changes, role, saves, stopped, leaves⟩
              · exact same
              · have quiet := (stops requester user changes role saves).resolve_left stopped
                exact (leaves.same_iff sound.keyed saves.found).mpr quiet
            · rw [ended] at same
              cases same

/-- A firm with one owner. -/
def oneOwner : Office where
  users := [(0, {
    company := some 7
    email := "ada@firm.com"
    firstName := "Ada"
    lastName := "Usta"
    phone := ""
    role := .owner
    isActive := true
    certificateNumber := ""
    certificateValidUntil := none })]
  updatedAt := fun _ => 0
  assignments := []

/-- And with a technician, who has a customer. -/
def crew : Office :=
  { oneOwner with
    users := oneOwner.users ++ [(1, {
      company := some 7
      email := "ece@firm.com"
      firstName := "Ece"
      lastName := "Kaya"
      phone := ""
      role := .technician
      isActive := true
      certificateNumber := ""
      certificateValidUntil := none })]
    assignments := [(0, { company := 7, user := 1, customer := 3, deletedAt := none, isDeleted := false })] }

/-- The owner renames the technician and gives them another role. -/
def promotion : Edit where
  requester := 0
  company := some 7
  user := 1
  form := some (⟨some "Eda", none, none, none, none⟩, some .operations)

/-- Nothing stops it: the assignment goes with the role. -/
theorem allOrNothing_of_promotion : AllOrNothing (fun _ => none) (fun _ => 1) crew promotion := by
  have sound : crew.Sound := {
    keyed := by decide
    assigned := by decide }
  refine (allOrNothing_iff sound).mpr (fun requester user changes role saves => .inl ?_)
  have known : crew.users.get? 1 = some user := saves.found
  have technician : user.role = .technician := by
    cases known
    rfl
  refine ⟨fun new _ => ⟨rfl, fun last => ?_, rfl⟩, fun _ _ _ => rfl, rfl⟩
  have owner : isLastActiveOwner crew.users 1 user = true := last.2
  unfold isLastActiveOwner at owner
  rw [technician] at owner
  cases owner

/-- The owner gives themselves another first name and another role. -/
def stepDown : Edit where
  requester := 0
  company := some 7
  user := 0
  form := some (⟨some "Eda", none, none, none, none⟩, some .technician)

theorem oneOwner_sound : oneOwner.Sound where
  keyed := by decide
  assigned := fun _ mem => nomatch mem

/-- The last owner is refused the new role and keeps the new name. -/
theorem last_owner_renamed :
    oneOwner.Sound ∧ ¬AllOrNothing (fun _ => none) (fun _ => 1) oneOwner stepDown := by
  refine ⟨oneOwner_sound, fun holds => ?_⟩
  have refused : update (fun _ => 1) stepDown (fun _ => none) oneOwner =
      (.error (.refused .lastOwnerCannotBeDeactivated), (update (fun _ => 1) stepDown (fun _ => none) oneOwner).2) := rfl
  have same := congrArg Office.users (holds.nothing _ _ refused)
  revert same
  decide

end Edits
end Users
end Shiftlush
