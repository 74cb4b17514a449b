import Shiftlush.Billing.LineEdits

namespace Shiftlush
namespace Billing

open Calendar (Date)
open Transactions

/-!
# What an edit commits

A draft's lock protects its row and its lines, and an invoice number's entry the
question who carries it.  So a request commits what its service would make of
the rows committed by then, but for the one thing read before the lock: the line
that `edit_line` saves.
-/

/-! ## The convention -/

/-- An issued draft carries the number. -/
def InvoiceDraft.carries (draft : InvoiceDraft) (number : String) : Bool :=
  decide (draft.invoiceNumber = number) && draft.status.payable

namespace Bills

def carries (v : Bills) (id : Nat) (number : String) : Bool :=
  (v.drafts.get? id).any (fun draft => draft.carries number)

/-- The draft a line is on. -/
def draftOf (v : Bills) (line : Nat) : Option Nat := (v.lines.get? line).map InvoiceLine.draft

/-- What no request changes: keys are distinct, and a line stays on its draft. -/
structure Stays (v v' : Bills) : Prop where
  drafts : v.drafts.Distinct -> v'.drafts.Distinct
  lines : ∀ id draft, v.draftOf id = some draft -> v'.draftOf id = some draft

/-- No line has the key. -/
def Unused (key : Nat) (v : Bills) : Prop := v.lines.get? key = none

end Bills

def Row.kept : Row -> Bills -> Bills -> Prop
  | .draft id, v, v' => v'.drafts.get? id = v.drafts.get? id ∧ v'.linesOf id = v.linesOf id
  | .number n, v, v' => ∀ id, v'.carries id n = v.carries id n

def convention : Convention Bills Row Loaded where
  inv := Bills.Tallied
  kept := Row.kept
  keptId key v v' := v'.lines.get? key = v.lines.get? key
  always := Bills.Stays
  unused := Bills.Unused
  order _ _ _ _ _ := True
  noted _ _ := True
  kept_refl row v := by
    cases row with
    | draft id => exact ⟨rfl, rfl⟩
    | number number => exact fun _ => rfl
  always_refl _ := ⟨fun distinct => distinct, fun _ _ on => on⟩
  unused_kept _ _ _ unused unused' := unused'.trans unused.symm

variable {s v v' : Bills} {t : Trail Bills Row Loaded} {id : Nat}

/-! ## What the tables say after a write -/

section Queries

variable {f : InvoiceLine -> InvoiceLine} {g : InvoiceDraft -> InvoiceDraft}

theorem draftOf_updateLine (stays : ∀ line, (f line).draft = line.draft) (line : Nat) :
    (v.updateLine id f).draftOf line = v.draftOf line := by
  unfold Bills.draftOf Bills.updateLine
  dsimp only
  rw [Rows.get?_update]
  split
  · rw [Option.map_map]
    congr 1
    funext row
    exact stays row
  · rfl

theorem carries_updateDraft (key : Nat) (number : String) :
    (v.updateDraft id g).carries key number =
      if key = id then (v.drafts.get? id).any (fun draft => (g draft).carries number)
      else v.carries key number := by
  unfold Bills.carries Bills.updateDraft
  dsimp only
  rw [Rows.get?_update]
  split
  · rename_i here
    rw [here, Option.any_map]
  · rfl

theorem numberTaken_iff (distinct : v.drafts.Distinct) {number : String} :
    v.numberTaken id number = true ↔ ∃ key, key ≠ id ∧ v.carries key number = true := by
  unfold Bills.numberTaken Bills.carries InvoiceDraft.carries
  rw [List.any_eq_true]
  constructor
  · rintro ⟨r, mem, counted⟩
    rw [Bool.and_eq_true, decide_eq_true_eq] at counted
    refine ⟨r.1, counted.1.1, ?_⟩
    have listed : v.drafts.get? r.1 = some r.2 := Rows.get?_of_mem distinct mem
    rw [listed, Option.any_some, Bool.and_eq_true, decide_eq_true_eq]
    exact ⟨counted.1.2, counted.2⟩
  · rintro ⟨key, other, counted⟩
    rcases Option.any_eq_true _ _ |>.mp counted with ⟨draft, found, both⟩
    refine ⟨(key, draft), Rows.mem_of_get? found, ?_⟩
    rw [Bool.and_eq_true, decide_eq_true_eq] at both ⊢
    exact ⟨⟨other, both.1⟩, both.2⟩

theorem numberTaken_congr (distinct : v.drafts.Distinct) (distinct' : v'.drafts.Distinct)
    {number : String} (same : ∀ key, v'.carries key number = v.carries key number) :
    v'.numberTaken id number = v.numberTaken id number := by
  rw [Bool.eq_iff_iff, numberTaken_iff distinct, numberTaken_iff distinct']
  simp only [same]

end Queries

/-- Issuing a draft tells the number it is issued under from every other. -/
theorem carries_issued {draft : InvoiceDraft} {number number' : String} {date : Date}
    (open_ : draft.status = .draft) (other : number' ≠ number) :
    ((draft.issued number date).settled).carries number' = draft.carries number' := by
  have before : draft.carries number' = false := by
    unfold InvoiceDraft.carries
    rw [open_, Bool.and_eq_false_iff]
    exact Or.inr rfl
  rw [before]
  unfold InvoiceDraft.carries
  rw [invoiceNumber_settled]
  rw [Bool.and_eq_false_iff]
  left
  exact decide_eq_false (Ne.symm other)

/-! ## The writes -/

theorem respects_updateDraft {g : InvoiceDraft -> InvoiceDraft} (locked : t.Locked (.draft id)) :
    convention.Respects t (Bills.updateDraft id g) v where
  rows v' rely row kept := by
    have mine : Row.kept (.draft id) v v' := rely.rows _ locked
    cases row with
    | draft id' => exact ⟨Rows.update_same kept.1, kept.2⟩
    | number number =>
        intro key
        have same : v'.carries key number = v.carries key number := kept key
        rw [carries_updateDraft, carries_updateDraft, mine.1, same]
  ids _ _ _ same := same
  always v' rely := by
    have stays : Bills.Stays v v' := rely.always
    refine ⟨?_, stays.lines⟩
    intro distinct
    unfold Rows.Distinct Bills.updateDraft at distinct ⊢
    rw [Rows.keys_update] at distinct ⊢
    exact stays.drafts distinct

theorem respects_updateLine {f : InvoiceLine -> InvoiceLine} (same : ∀ line, (f line).draft = line.draft) :
    convention.Respects t (Bills.updateLine id f) v where
  rows v' _ row kept := by
    cases row with
    | draft id' =>
        refine ⟨kept.1, ?_⟩
        rw [linesOf_updateLine same, linesOf_updateLine same, kept.2]
    | number number => exact kept
  ids _ _ _ kept := Rows.update_same kept
  always v' rely := by
    have stays : Bills.Stays v v' := rely.always
    refine ⟨stays.drafts, ?_⟩
    intro line draft on
    rw [draftOf_updateLine same] at on ⊢
    exact stays.lines line draft on

theorem respects_insertLine {key : Nat} {line : InvoiceLine} (drawn : key ∈ t.ids) :
    convention.Respects t (Bills.insertLine key line) v where
  rows v' _ row kept := by
    cases row with
    | draft id' =>
        refine ⟨kept.1, ?_⟩
        rw [linesOf_insertLine, linesOf_insertLine, kept.2]
    | number number => exact kept
  ids _ _ _ kept := Rows.insert_same kept
  always v' rely := by
    have stays : Bills.Stays v v' := rely.always
    have mine : v'.lines.get? key = v.lines.get? key := rely.ids key drawn
    refine ⟨stays.drafts, ?_⟩
    intro line' draft on
    unfold Bills.draftOf Bills.insertLine at on ⊢
    dsimp only at on ⊢
    by_cases here : key = line'
    · subst here
      rw [Rows.get?_insert] at on ⊢
      rw [mine]
      exact on
    · rw [Rows.get?_insert_of_ne here] at on ⊢
      exact stays.lines line' draft on

/-- The draft is locked, and the numbers it carries before or after are. -/
theorem confined_updateDraft {g : InvoiceDraft -> InvoiceDraft} (locked : t.Locked (.draft id))
    (carries : ∀ number, ¬ t.Locked (.number number) -> ∀ draft, v.drafts.get? id = some draft ->
      (g draft).carries number = draft.carries number)
    (confined : convention.Confined t s v) : convention.Confined t s (v.updateDraft id g) where
  rows row free := by
    have kept := confined.rows row free
    cases row with
    | draft id' =>
        have other : id' ≠ id := by
          rintro rfl
          exact free locked
        exact ⟨(Rows.get?_update_of_ne other).trans kept.1, kept.2⟩
    | number number =>
        intro key
        rw [carries_updateDraft]
        split
        · rename_i here
          subst here
          have before : v.carries key number = s.carries key number := kept key
          rw [← before]
          unfold Bills.carries
          cases found : v.drafts.get? key with
          | none => rfl
          | some draft =>
              rw [Option.any_some, Option.any_some]
              exact carries number free draft found
        · exact kept key
  always := by
    have stays : Bills.Stays s v := confined.always
    exact ⟨fun distinct => (stays.drafts distinct).update id g, stays.lines⟩
  ids := confined.ids

theorem confined_updateLine {f : InvoiceLine -> InvoiceLine} {draft : Nat}
    (same : ∀ line, (f line).draft = line.draft) (distinct : v.lines.Distinct)
    (on : v.draftOf id = some draft) (locked : t.Locked (.draft draft))
    (confined : convention.Confined t s v) : convention.Confined t s (v.updateLine id f) where
  rows row free := by
    have kept := confined.rows row free
    cases row with
    | number number => exact kept
    | draft id' =>
        have other : id' ≠ draft := by
          rintro rfl
          exact free locked
        refine ⟨kept.1, ?_⟩
        rw [linesOf_updateLine_other distinct same on other]
        exact kept.2
  always := by
    have stays : Bills.Stays s v := confined.always
    refine ⟨stays.drafts, ?_⟩
    intro line draft on
    rw [draftOf_updateLine same]
    exact stays.lines line draft on
  ids id' undrawn unused := Rows.update_absent (confined.ids id' undrawn unused)

theorem confined_insertLine {key : Nat} {line : InvoiceLine} (drawn : key ∈ t.ids)
    (locked : t.Locked (.draft line.draft)) (confined : convention.Confined t s v) :
    convention.Confined t s (v.insertLine key line) where
  rows row free := by
    have kept := confined.rows row free
    cases row with
    | number number => exact kept
    | draft id' =>
        have other : line.draft ≠ id' := by
          intro here
          rw [here] at locked
          exact free locked
        refine ⟨kept.1, ?_⟩
        rw [linesOf_insertLine, if_neg other]
        exact kept.2
  always := by
    have stays : Bills.Stays s v := confined.always
    refine ⟨stays.drafts, ?_⟩
    intro line' draft on
    rcases Option.map_eq_some_iff.mp (stays.lines line' draft on) with ⟨row, found, at_draft⟩
    exact Option.map_eq_some_iff.mpr ⟨row, Rows.get?_insert_of_some found, at_draft⟩
  ids id' undrawn unused := by
    have other : key ≠ id' := by
      rintro rfl
      exact undrawn drawn
    exact (Rows.get?_insert_of_ne other).trans (confined.ids id' undrawn unused)

/-! ## The programs -/

section Programs

theorem locked_here (t : Trail Bills Row Loaded) (row : Row) : (t.hold .update row).Locked row :=
  List.mem_cons_self

theorem sound_loadDraft {post : Bills -> InvoiceDraft -> Trail Bills Row Loaded -> Prop}
    (after : ∀ draft, post s draft ((Trail.start 0).see [])) :
    Sound convention (loadDraft id) s (.start 0) post := by
  unfold loadDraft
  simp only [Prog.bind_eq, sound_bind, sound_peek]
  intro found
  cases found with
  | none => exact sound_raise
  | some draft => exact after draft

theorem sound_loadLine {post : Bills -> Nat × InvoiceLine -> Trail Bills Row Loaded -> Prop}
    (after : ∀ draft line, s.draftOf id = some draft ->
      post s (draft, line) ((Trail.start 0).see [(id, line)])) :
    Sound convention (loadLine id) s (.start 0) post := by
  unfold loadLine
  simp only [Prog.bind_eq, sound_bind, sound_fetch, sound_peekLogged]
  intro draft on
  refine ⟨?_, ?_⟩
  · intro v rely
    have stays : Bills.Stays s v := rely.always
    exact stays.lines id draft on
  · refine ⟨fun _ _ => trivial, ?_⟩
    intro found
    cases found with
    | none => exact sound_raise
    | some line => exact after draft line on

theorem sound_editable {post : Bills -> InvoiceDraft -> Trail Bills Row Loaded -> Prop}
    (after : ∀ draft, (t.writes s).drafts.get? id = some draft -> draft.status = .draft ->
      post s draft (t.hold .update (.draft id))) : Sound convention (editable id) s t post := by
  unfold editable
  simp only [Prog.bind_eq, sound_bind, sound_lock, sound_fetch]
  refine ⟨trivial, ?_⟩
  intro draft found
  refine ⟨?_, ?_⟩
  · intro v rely
    have kept : Row.kept (.draft id) _ v := rely.rows _ List.mem_cons_self
    exact kept.1.trans found
  · split
    · rename_i open_
      exact after draft found open_
    · exact sound_raise

/-- What the lock of a draft keeps of its lines. -/
theorem rely_linesOf (locked : t.Locked (.draft id)) (rely : convention.Rely t v v') :
    v'.linesOf id = v.linesOf id := by
  have kept : Row.kept (.draft id) v v' := rely.rows _ locked
  exact kept.2

theorem get?_linesOf_draftOf {line draft : Nat} (on : v.draftOf line = some draft) :
    (v.linesOf draft).get? line = v.lines.get? line := by
  rcases Option.map_eq_some_iff.mp on with ⟨row, listed, rfl⟩
  rw [listed]
  exact get?_linesOf listed

/-- The lock of a draft keeps each of its lines. -/
theorem rely_line {line : Nat} (locked : t.Locked (.draft id)) (on : v.draftOf line = some id)
    (rely : convention.Rely t v v') : v'.lines.get? line = v.lines.get? line := by
  have stays : Bills.Stays v v' := rely.always
  rw [← get?_linesOf_draftOf on, ← get?_linesOf_draftOf (stays.lines line id on), rely_linesOf locked rely]

theorem sound_saveLine {kind : Saves.Kind} {f : InvoiceLine -> InvoiceLine} {draft : Nat}
    (same : ∀ line, (f line).draft = line.draft) (distinct : (t.writes s).lines.Distinct)
    (on : (t.writes s).draftOf id = some draft) (locked : t.Locked (.draft draft))
    {post : Bills -> Unit -> Trail Bills Row Loaded -> Prop}
    (after : ∀ line, (t.writes s).line id = .ok line -> post s () (t.write (Bills.updateLine id f))) :
    Sound convention (saveLine kind id f) s t post := by
  unfold saveLine
  simp only [Prog.bind_eq, sound_bind, sound_observe]
  refine ⟨?_, ?_⟩
  · intro v rely
    rw [rely_line locked on rely]
  · split
    · exact sound_raise
    · exact sound_raise
    · rename_i write saved
      rw [sound_write]
      refine ⟨respects_updateLine same, confined_updateLine same distinct on locked, ?_⟩
      rcases Option.map_eq_some_iff.mp on with ⟨line, listed, _⟩
      cases write with
      | insert =>
          rw [(Saves.write_eq_insert.mp saved).2] at listed
          cases listed
      | update =>
          rcases Saves.write_eq_update.mp saved with ⟨_, line, found, live⟩
          exact after line (line_ok.mpr ⟨found, live⟩)

theorem sound_recompute {draft : InvoiceDraft} (locked : t.Locked (.draft id))
    (found : (t.writes s).drafts.get? id = some draft) (open_ : draft.status = .draft)
    {post : Bills -> InvoiceDraft -> Trail Bills Row Loaded -> Prop}
    (after : ∀ t', t'.writes s = (t.writes s).recompute id -> t'.held = t.held -> t'.seen = t.seen ->
      post s (draft.withSums (totals ((t.writes s).amounts id) draft.vatRate)) t') :
    Sound convention (recompute id draft) s t post := by
  unfold recompute
  rw [if_pos open_]
  simp only [Prog.bind_eq, Prog.pure_eq, sound_bind, sound_observe, sound_write, sound_done]
  refine ⟨?_, respects_updateDraft locked, ?_, ?_⟩
  · intro v rely
    exact amounts_of_linesOf (rely_linesOf locked rely)
  · apply confined_updateDraft locked
    intro number _ row listed
    rfl
  · apply after
    · rw [recompute_of_draft found open_]
      rfl
    · rfl
    · rfl

end Programs

/-! ## What each request commits -/

inductive Change : Request -> Bills -> Bills -> List Loaded -> Prop where
  | adds {id new key s s'} : Bills.Unused key s -> s.addLine id new key = .ok s' ->
      Change (.addLine id new) s s' []
  | edits {id changes draftId draft loaded line s s'} : s.draftOf id = some draftId -> s.line id = .ok line ->
      s.editable draftId = .ok draft -> changes.isValid = true ->
      s' = (s.updateLine id (InvoiceLine.savedOver (changes.apply loaded))).recompute draftId ->
      Change (.editLine id changes) s s' [(id, loaded)]
  | removes {id draftId draft loaded line s s'} : s.draftOf id = some draftId -> s.line id = .ok line ->
      s.editable draftId = .ok draft ->
      s' = (s.updateLine id InvoiceLine.deleted).recompute draftId ->
      Change (.removeLine id) s s' [(id, loaded)]
  | issues {id number date posts s s'} : s.issue id number date posts = .ok s' ->
      Change (.issue id number date posts) s s' []

/-- What a request commits. -/
def Commits (q : Request) (s : Bills) (_ : Unit) (t : Trail Bills Row Loaded) : Prop := Change q s (t.writes s) t.seen

theorem sound_addLine (id : Nat) (new : NewLine) :
    Sound convention (addLine id new) s (.start 0) (fun s => Commits (.addLine id new) s) := by
  unfold addLine
  simp only [Prog.bind_eq, Prog.pure_eq, sound_bind]
  apply sound_loadDraft
  intro _
  rw [sound_require]
  intro valid
  apply sound_editable
  intro draft found open_
  rw [Trail.see_writes, Trail.start_writes] at found
  have locked := locked_here ((Trail.start 0).see []) (.draft id)
  simp only [sound_observe, sound_fresh, sound_write]
  refine ⟨?_, ?_⟩
  · intro v rely
    have same := rely_linesOf locked rely
    unfold Bills.lastPosition Bills.liveLines
    rw [same]
  · intro key unused _
    refine ⟨respects_insertLine List.mem_cons_self, ?_, ?_⟩
    · exact confined_insertLine List.mem_cons_self locked
    · refine sound_recompute List.mem_cons_self found open_ ?_
      intro t' writes _ seen
      rw [sound_done]
      unfold Commits
      rw [writes, seen]
      refine .adds unused ?_
      unfold Bills.addLine
      rw [draft_ok.mpr found, editable_ok.mpr ⟨found, open_⟩, valid]
      rfl

theorem sound_editLine (id : Nat) (changes : LineChanges) (tallied : s.Tallied) :
    Sound convention (editLine id changes) s (.start 0) (fun s => Commits (.editLine id changes) s) := by
  unfold editLine
  simp only [Prog.bind_eq, Prog.pure_eq, sound_bind]
  apply sound_loadLine
  intro draftId line on
  rw [sound_require]
  intro valid
  apply sound_editable
  intro draft found open_
  rw [Trail.see_writes, Trail.start_writes] at found
  have locked := locked_here ((Trail.start 0).see [(id, line)]) (.draft draftId)
  have stays : ∀ row, (InvoiceLine.savedOver (changes.apply line) row).draft = row.draft := fun _ => rfl
  refine sound_saveLine stays tallied.lines on locked ?_
  intro row listed
  refine sound_recompute List.mem_cons_self found open_ ?_
  intro t' writes _ seen
  rw [sound_done]
  unfold Commits
  rw [writes, seen]
  exact .edits on listed (editable_ok.mpr ⟨found, open_⟩) valid rfl

theorem sound_removeLine (id : Nat) (tallied : s.Tallied) :
    Sound convention (removeLine id) s (.start 0) (fun s => Commits (.removeLine id) s) := by
  unfold removeLine
  simp only [Prog.bind_eq, Prog.pure_eq, sound_bind]
  apply sound_loadLine
  intro draftId line on
  apply sound_editable
  intro draft found open_
  rw [Trail.see_writes, Trail.start_writes] at found
  have locked := locked_here ((Trail.start 0).see [(id, line)]) (.draft draftId)
  have stays : ∀ row, (InvoiceLine.deleted row).draft = row.draft := fun _ => rfl
  refine sound_saveLine stays tallied.lines on locked ?_
  intro row listed
  refine sound_recompute List.mem_cons_self found open_ ?_
  intro t' writes _ seen
  rw [sound_done]
  unfold Commits
  rw [writes, seen]
  exact .removes on listed (editable_ok.mpr ⟨found, open_⟩) rfl

theorem sound_issue (id : Nat) (number : String) (date : Date) (posts : Bool) (tallied : s.Tallied) :
    Sound convention (issue id number date posts) s (.start 0)
      (fun s => Commits (.issue id number date posts) s) := by
  unfold issue
  simp only [Prog.bind_eq, sound_bind]
  apply sound_loadDraft
  intro _
  apply sound_editable
  intro draft found open_
  rw [Trail.see_writes, Trail.start_writes] at found
  have locked := locked_here ((Trail.start 0).see []) (.draft id)
  rw [sound_observe]
  refine ⟨?_, ?_⟩
  · intro v rely
    have same := rely_linesOf locked rely
    unfold Bills.needsPrice Bills.liveLines
    rw [same]
  · split
    · exact sound_raise
    · rename_i priced
      simp only [sound_bind, sound_peek]
      intro taken
      split
      · exact sound_raise
      · simp only [sound_bind]
        refine sound_recompute locked found open_ ?_
        intro t' writes held seen
        have drafts : (t'.writes s).drafts.Distinct := by
          rw [writes]
          exact (tallied.but id).recompute.drafts
        have mine : (t'.hold .update (.number number)).Locked (.draft id) := by
          apply locked_hold
          unfold Trail.Locked
          rw [held]
          exact locked
        simp only [sound_lock, sound_ensure]
        refine ⟨trivial, ?_⟩
        intro free
        rw [Bool.not_eq_true', Trail.hold_writes] at free
        refine ⟨?_, ?_⟩
        · intro v rely
          have stays : Bills.Stays _ v := rely.always
          have kept : Row.kept (.number number) _ v := rely.rows _ (locked_here t' _)
          rw [numberTaken_congr drafts (stays.drafts drafts) kept]
          rw [Bool.not_eq_true']
          exact free
        · split
          · rename_i posted
            rw [sound_write]
            refine ⟨respects_updateDraft mine, ?_, ?_⟩
            · apply confined_updateDraft mine
              intro number' unlocked row listed
              have other : number' ≠ number := by
                rintro rfl
                exact unlocked (locked_here t' _)
              rw [Trail.hold_writes, writes, get?_recompute, if_pos rfl] at listed
              rcases Option.map_eq_some_iff.mp listed with ⟨before, found', rfl⟩
              have same : before = draft := Option.some.inj (found'.symm.trans found)
              apply carries_issued _ other
              rw [status_recounted, same]
              exact open_
            · rw [writes, numberTaken_recompute] at free
              unfold Commits
              rw [Trail.write_seen, Trail.write_writes, Trail.hold_seen, Trail.hold_writes, writes, seen]
              refine .issues ?_
              unfold Bills.issue
              have billed : s.needsPrice id = false := Bool.eq_false_iff.mpr priced
              have untaken : s.numberTaken id number = false := free
              rw [editable_ok.mpr ⟨found, open_⟩, ok_bind, billed, untaken, if_neg Bool.false_ne_true,
                if_neg Bool.false_ne_true]
              exact if_pos posted
          · exact sound_raise

theorem sound_serve (q : Request) (tallied : s.Tallied) : Sound convention (serve q) s (.start 0)
    (fun s' _ t => Change q s' (t.writes s') t.seen) := by
  cases q with
  | addLine id new => exact sound_addLine id new
  | editLine id changes => exact sound_editLine id changes tallied
  | removeLine id => exact sound_removeLine id tallied
  | issue id number date posts => exact sound_issue id number date posts tallied

theorem Change.tallied {q : Request} {seen : List Loaded} (change : Change q s v seen)
    (tallied : s.Tallied) : v.Tallied := by
  cases change with
  | adds unused done =>
      rcases addLine_ok done with ⟨draft, _, _, rfl⟩
      exact (tallied.insertLine unused).recompute
  | @edits _ changes _ _ loaded _ _ _ on _ _ _ after =>
      rw [after]
      exact (tallied.updateLine (f := InvoiceLine.savedOver (changes.apply loaded)) (fun _ => rfl)
        on).recompute
  | removes on _ _ after =>
      rw [after]
      exact (tallied.updateLine (f := InvoiceLine.deleted) (fun _ => rfl) on).recompute
  | @issues _ number date _ _ _ done =>
      rcases issue_ok done with ⟨draft, _, _, _, rfl⟩
      apply (tallied.but _).recompute.updateDraft
      intro row _ open_
      have payable := status_settled number date row
      rw [open_] at payable
      cases payable

theorem disciplined : Disciplined convention serve Change where
  sound q _ tallied := sound_serve q tallied
  inv _ _ _ _ tallied change := change.tallied tallied

end Billing
end Shiftlush
