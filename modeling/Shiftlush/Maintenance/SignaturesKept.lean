import Shiftlush.Maintenance.Signatures

namespace Shiftlush
namespace Maintenance
namespace Signatures

/-!
# What becomes of a signature

A signature is checked once, when the visit is recorded.  Whatever requests read and write after
that, each writes the signature it read, which is the one there is, and the mark that the visit
was amended, which only a signed visit ever gets, is never taken back.  A visit that was deleted
is not written again.
-/

/-- What the fields of a signature say of each other. -/
def Signature.Fit (createdAt : Int) (signature : Signature) : Prop :=
  match signature.status with
  | some .signed => signature.signerName ≠ "" ∧ signature.signerRole.isSome = true ∧
      ∃ signedAt, signature.signedAt = some signedAt ∧ signedAt ≤ createdAt
  | _ => strip signature.signerName = "" ∧ signature.signerRole = none ∧ signature.signedAt = none

/-- What the same visit may look like later. -/
structure Record.Follows (row row' : Record) : Prop where
  signature : row'.signature = row.signature
  createdAt : row'.createdAt = row.createdAt
  amended : row.amendedAfterSignature = true -> row'.amendedAfterSignature = true
  edited : row.signed = true -> row'.form ≠ row.form -> row'.amendedAfterSignature = true
  gone : row.isDeleted = true -> row'.isDeleted = true

theorem Record.Follows.refl (row : Record) : row.Follows row :=
  ⟨rfl, rfl, id, fun _ differs => absurd rfl differs, id⟩

theorem Record.Follows.trans {row row' row'' : Record} (first : row.Follows row') (second : row'.Follows row'') :
    row.Follows row'' := by
  refine ⟨second.signature.trans first.signature, second.createdAt.trans first.createdAt,
    fun amended => second.amended (first.amended amended), ?_, fun gone => second.gone (first.gone gone)⟩
  intro signed differs
  by_cases same : row'.form = row.form
  · apply second.edited
    · rw [Record.signed, first.signature]
      exact signed
    · rwa [same]
  · exact second.amended (first.edited signed same)

/-- What a request read of a visit, beside the visit there is. -/
structure Record.Read (record row : Record) : Prop where
  signature : record.signature = row.signature
  createdAt : record.createdAt = row.createdAt
  amended : record.amendedAfterSignature = true -> row.amendedAfterSignature = true
  live : record.isDeleted = false

structure Record.Sound (row : Record) : Prop where
  fit : row.signature.Fit row.createdAt
  amended : row.amendedAfterSignature = true -> row.signed = true

def Call.id : Call -> Nat
  | .edit id _ _ _ => id
  | .editing id _ _ _ _ => id
  | .setChecklist id _ _ => id
  | .replacing id _ _ _ => id
  | .mark id _ => id

def Call.record : Call -> Record
  | .edit _ record _ _ => record
  | .editing _ record _ _ _ => record
  | .setChecklist _ record _ => record
  | .replacing _ record _ _ => record
  | .mark _ record => record

/-- What a request has of its visit: nobody deletes the visit it holds. -/
structure Call.Fits (call : Call) (row : Record) : Prop where
  read : call.record.Read row
  held : call.holds call.id = true -> row.isDeleted = false

structure Logbook.Sound (v : Logbook) : Prop where
  below : v.visits.Below v.next
  visits : ∀ id row, v.visits.get? id = some row -> row.Sound
  calls : ∀ call ∈ v.calls, ∃ row, v.visits.get? call.id = some row ∧ call.Fits row

/-- Later visits, under the keys of the earlier ones. -/
def Logbook.Follows (v w : Logbook) : Prop :=
  ∀ id row, v.visits.get? id = some row -> ∃ row', w.visits.get? id = some row' ∧ row.Follows row'

theorem Logbook.Follows.refl (v : Logbook) : v.Follows v := fun _ row found => ⟨row, found, Record.Follows.refl row⟩

theorem Logbook.Follows.trans {u v w : Logbook} (first : u.Follows v) (second : v.Follows w) : u.Follows w := by
  intro id row found
  rcases first id row found with ⟨row', found', follows⟩
  rcases second id row' found' with ⟨row'', found'', follows'⟩
  exact ⟨row'', found'', follows.trans follows'⟩

/-! ## The check -/

theorem fit_of_check {now created : Int} {status : VisitStatus} {given signature : Signature} (le : now ≤ created)
    (ok : checkSignatureFields now status given = .ok signature) : signature.Fit created := by
  unfold checkSignatureFields at ok
  dsimp only at ok
  cases chosen : given.status with
  | none =>
      simp only [chosen] at ok
      split_ifs at ok with completed named role
      cases ok
      simp only [Signature.Fit]
      exact ⟨not_not.mp named, by simpa using role, trivial⟩
  | some status' =>
      cases status' with
      | signed =>
          simp only [chosen] at ok
          split_ifs at ok with unnamed role
          cases ok
          simp only [Signature.Fit]
          refine ⟨unnamed, by simpa [Option.isSome_iff_ne_none] using role, _, rfl, ?_⟩
          cases given.signedAt with
          | none => exact le
          | some day =>
              dsimp only
              split_ifs with before
              · exact before.trans le
              · exact le
      | notPresent =>
          simp only [chosen] at ok
          split_ifs at ok with named role
          cases ok
          simp only [Signature.Fit]
          exact ⟨not_not.mp named, by simpa using role, trivial⟩
      | declined =>
          simp only [chosen] at ok
          split_ifs at ok with named role
          cases ok
          simp only [Signature.Fit]
          exact ⟨not_not.mp named, by simpa using role, trivial⟩

/-! ## The writes -/

theorem signed_of_read {record row : Record} (read : record.Read row) : record.signed = row.signed := by
  rw [Record.signed, Record.signed, read.signature]

theorem mark_kept {record row : Record} (sound : row.Sound) (read : record.Read row)
    (amended : row.amendedAfterSignature = true) : (record.signed || record.amendedAfterSignature) = true := by
  rw [signed_of_read read, sound.amended amended, Bool.true_or]

theorem mark_signed {record row : Record} (sound : row.Sound) (read : record.Read row)
    (mark : (record.signed || record.amendedAfterSignature) = true) : row.signed = true := by
  rcases Bool.or_eq_true_iff.mp mark with signed | amended
  · rw [← signed_of_read read, signed]
  · exact sound.amended (read.amended amended)

theorem follows_edited {record row : Record} (sound : row.Sound) (read : record.Read row) (live : row.isDeleted = false)
    (changes : FormChanges) : row.Follows (edited record changes) where
  signature := read.signature
  createdAt := read.createdAt
  amended := mark_kept sound read
  edited := fun signed _ => by rw [Signatures.edited, signed_of_read read, signed, Bool.true_or]
  gone := fun gone => by
    rw [live] at gone
    cases gone

theorem sound_edited {record row : Record} (sound : row.Sound) (read : record.Read row) (changes : FormChanges) :
    (edited record changes).Sound := by
  refine ⟨?_, ?_⟩
  · have fit := sound.fit
    rw [← read.signature, ← read.createdAt] at fit
    exact fit
  · intro mark
    have signed := mark_signed sound read mark
    rwa [← signed_of_read read] at signed

theorem follows_marked {record row : Record} (sound : row.Sound) (read : record.Read row) :
    row.Follows (marked record row) :=
  ⟨rfl, rfl, mark_kept sound read, fun _ differs => absurd rfl differs, fun gone => gone⟩

theorem sound_marked {record row : Record} (sound : row.Sound) (read : record.Read row) : (marked record row).Sound :=
  ⟨sound.fit, fun mark => show row.signed = true from mark_signed sound read mark⟩

theorem Record.Follows.read {record row row' : Record} (read : record.Read row) (follows : row.Follows row') :
    record.Read row' :=
  ⟨read.signature.trans follows.signature.symm, read.createdAt.trans follows.createdAt.symm,
    fun amended => follows.amended (read.amended amended), read.live⟩

/-! ## One event -/

section Steps

variable {v : Logbook}

theorem Call.holds_id {call : Call} {id : Nat} (holds : call.holds id = true) : call.id = id := by
  cases call with
  | editing => exact of_decide_eq_true holds
  | edit => cases holds
  | setChecklist => cases holds
  | replacing => cases holds
  | mark => cases holds

/-- Who is to write a visit that is locked waits. -/
theorem holds_of_unlocked {id : Nat} (unlocked : v.locked id = false) {call : Call} (mem : call ∈ v.calls)
    (here : call.id = id) : call.holds call.id = false := by
  unfold Logbook.locked at unlocked
  rw [List.any_eq_false] at unlocked
  rw [here]
  exact Bool.eq_false_iff.mpr (unlocked call mem)

/-- A save that is not refused has found its visit. -/
theorem live_of_save {kind : Saves.Kind} {id : Nat} {write : Saves.Write} {row : Record}
    (saved : v.save kind id = .ok write) (found : v.visits.get? id = some row) : kind = .new ∨ row.isDeleted = false := by
  unfold Logbook.save at saved
  rw [found] at saved
  cases write with
  | insert =>
      have absent := (Saves.write_eq_insert.mp saved).2
      cases absent
  | update =>
      rcases (Saves.write_eq_update.mp saved).2 with ⟨row', same, live⟩
      cases same
      exact Or.inr (Bool.not_eq_true' _ ▸ live)

/-- A change of one visit that follows what was there, with fewer calls or the same ones. -/
theorem sound_update (sound : v.Sound) {id : Nat} {f : Record -> Record} {w : Logbook}
    (visits : w.visits = v.visits.update id f) (next : v.next ≤ w.next) (calls : w.calls ⊆ v.calls)
    (fits : ∀ row, v.visits.get? id = some row -> (f row).Sound ∧ row.Follows (f row))
    (held : ∀ call ∈ w.calls, call.holds id = true -> ∀ row, row.isDeleted = false -> (f row).isDeleted = false) :
    w.Sound ∧ v.Follows w := by
  have follows : v.Follows w := by
    intro id' row found
    rw [visits]
    by_cases here : id' = id
    · subst here
      exact ⟨f row, by rw [Rows.get?_update_self, found, Option.map_some], (fits row found).2⟩
    · exact ⟨row, by rw [Rows.get?_update_of_ne here, found], Record.Follows.refl row⟩
  refine ⟨⟨?_, ?_, ?_⟩, follows⟩
  · rw [visits]
    exact (sound.below.mono next).of_isSome (fun id' => Rows.isSome_get?_update _ id id' f)
  · intro id' row found
    rw [visits, Rows.get?_update] at found
    split at found
    · rename_i here
      rcases Option.map_eq_some_iff.mp found with ⟨before, listed, rfl⟩
      rw [here] at listed
      exact (fits before listed).1
    · exact sound.visits id' row found
  · intro call mem
    rcases sound.calls call (calls mem) with ⟨row, found, fit⟩
    rcases follows _ row found with ⟨row', found', after⟩
    refine ⟨row', found', after.read fit.read, ?_⟩
    intro holds
    rw [visits, Rows.get?_update, found] at found'
    split at found'
    · rename_i here
      rw [Option.map_some, Option.some.injEq] at found'
      rw [← found']
      exact held call mem (here ▸ holds) row (fit.held holds)
    · rw [← Option.some.inj found']
      exact fit.held holds

/-- The same visits, with calls that fit them. -/
theorem sound_same (sound : v.Sound) {w : Logbook} (visits : w.visits = v.visits) (next : v.next ≤ w.next)
    (calls : ∀ call ∈ w.calls, ∃ row, v.visits.get? call.id = some row ∧ call.Fits row) : w.Sound ∧ v.Follows w := by
  refine ⟨⟨?_, ?_, ?_⟩, ?_⟩
  · rw [visits]
    exact sound.below.mono next
  · rw [visits]
    exact sound.visits
  · intro call mem
    rw [visits]
    exact calls call mem
  · intro id row found
    exact ⟨row, by rw [visits, found], Record.Follows.refl row⟩

theorem sound_ends (sound : v.Sound) (index : Nat) : (v.ends index).Sound ∧ v.Follows (v.ends index) :=
  sound_same sound rfl (Nat.le_refl _) (fun call mem => sound.calls call (List.mem_of_mem_eraseIdx mem))

/-- A request goes on with the visit it has. -/
theorem calls_goes (sound : v.Sound) {index : Nat} {next : Call} {row : Record}
    (found : v.visits.get? next.id = some row) (fit : next.Fits row) :
    ∀ call ∈ (v.goes index next).calls, ∃ row, v.visits.get? call.id = some row ∧ call.Fits row := by
  intro call mem
  rcases List.mem_or_eq_of_mem_set mem with before | rfl
  · exact sound.calls call before
  · exact ⟨row, found, fit⟩

theorem addItem_next {visit : Nat} {table table' : Rows Item × Nat} {entry : Entry}
    (ok : addItem visit table entry = some table') : table'.2 = table.2 + 1 := by
  unfold addItem at ok
  dsimp only at ok
  split at ok
  · cases ok
  · cases ok
    rfl

theorem foldlM_addItem_next {visit : Nat} {entries : List Entry} {table table' : Rows Item × Nat}
    (ok : entries.foldlM (addItem visit) table = some table') : table.2 ≤ table'.2 := by
  induction entries generalizing table with
  | nil =>
      cases ok
      exact Nat.le_refl _
  | cons entry entries ih =>
      rw [List.foldlM_cons] at ok
      rcases Option.bind_eq_some_iff.mp ok with ⟨between, first, rest⟩
      have one := addItem_next first
      have more := ih rest
      omega

theorem setChecklist_next {visit : Nat} {cleared : List Nat} {entries : List Entry} {table table' : Rows Item × Nat}
    (ok : setChecklist visit cleared entries table = some table') : table.2 ≤ table'.2 :=
  @foldlM_addItem_next visit entries (clearItems cleared table.1, table.2) table' ok

theorem replaceItems_next {visit : Nat} {cleared : List Nat} {items : Option (List Entry)}
    {table table' : Rows Item × Nat} (ok : replaceItems visit cleared items table = some table') :
    table.2 ≤ table'.2 := by
  cases items with
  | none =>
      cases ok
      exact Nat.le_refl _
  | some entries => exact setChecklist_next ok

theorem find_some {id : Nat} {record : Record} (found : v.find id = some record) :
    v.visits.get? id = some record ∧ record.isDeleted = false := by
  have parts := Option.filter_eq_some_iff.mp found
  exact ⟨parts.1, Bool.not_eq_true' _ ▸ parts.2⟩

/-- A request that has read the visit there is. -/
theorem sound_call (sound : v.Sound) {call : Call} (found : v.find call.id = some call.record)
    (free : call.holds call.id = false) : ({ v with calls := v.calls ++ [call] } : Logbook).Sound := by
  refine ⟨sound.below, sound.visits, ?_⟩
  intro call' mem
  rcases List.mem_append.mp mem with before | last
  · exact sound.calls call' before
  · rw [List.mem_singleton.mp last]
    have there := find_some found
    refine ⟨call.record, there.1, ⟨rfl, rfl, id, there.2⟩, ?_⟩
    intro holds
    rw [free] at holds
    cases holds

theorem sound_create (sound : v.Sound) (now : Int) (later : Nat) (form : Form) (given : Signature)
    (items : Option (List Entry)) : (v.create now later form given items).Sound ∧
      v.Follows (v.create now later form given items) := by
  unfold Logbook.create
  split
  · exact ⟨sound, Logbook.Follows.refl v⟩
  rename_i signature ok
  dsimp only
  split
  · exact ⟨sound, Logbook.Follows.refl v⟩
  rename_i table replaced
  have next := replaceItems_next replaced
  have fit := fit_of_check (show now ≤ now + later by omega) ok
  have absent : v.visits.get? v.next = none := sound.below.absent (Nat.le_refl _)
  refine ⟨⟨(sound.below.insert _).mono next, ?_, ?_⟩, ?_⟩
  · intro id row found
    dsimp only at found
    rw [Rows.get?_insert] at found
    rcases Option.or_eq_some_iff.mp found with before | ⟨_, new⟩
    · exact sound.visits id row before
    · split at new
      · cases new
        exact ⟨fit, fun amended => by cases amended⟩
      · cases new
  · intro call mem
    rcases sound.calls call mem with ⟨row, found, fits⟩
    exact ⟨row, Rows.get?_insert_of_some found, fits⟩
  · intro id row found
    exact ⟨row, Rows.get?_insert_of_some found, Record.Follows.refl row⟩

/-- An edit takes its visit, unless somebody holds it or it is gone. -/
theorem sound_edit (sound : v.Sound) {index id : Nat} {record : Record} {changes : FormChanges}
    {items : Option (List Entry)} (listed : v.calls[index]? = some (.edit id record changes items)) :
    (v.advance index (.edit id record changes items)).Sound ∧
      v.Follows (v.advance index (.edit id record changes items)) := by
  rcases sound.calls _ (List.mem_of_getElem? listed) with ⟨row, found, fit⟩
  simp only [Logbook.advance]
  split
  · exact ⟨sound, Logbook.Follows.refl v⟩
  · cases saved : v.save .whole id with
    | error _ => exact sound_ends sound index
    | ok _ =>
        rcases live_of_save saved found with impossible | live
        · cases impossible
        · exact sound_same sound rfl (Nat.le_refl _) (calls_goes sound found ⟨fit.read, fun _ => live⟩)

/-- An edit commits. -/
theorem sound_editing (sound : v.Sound) {index id : Nat} {record : Record} {changes : FormChanges}
    {items : Option (List Entry)} {cleared : List Nat}
    (listed : v.calls[index]? = some (.editing id record changes items cleared)) :
    (v.advance index (.editing id record changes items cleared)).Sound ∧
      v.Follows (v.advance index (.editing id record changes items cleared)) := by
  rcases sound.calls _ (List.mem_of_getElem? listed) with ⟨row, found, fit⟩
  have live : row.isDeleted = false := fit.held (decide_eq_true rfl)
  simp only [Logbook.advance]
  split
  · exact sound_ends sound index
  · rename_i table replaced
    have fits : ∀ row', v.visits.get? id = some row' ->
        (edited record changes).Sound ∧ row'.Follows (edited record changes) := by
      intro row' found'
      have same := Option.some.inj (found'.symm.trans found)
      rw [same]
      exact ⟨sound_edited (sound.visits _ row found) fit.read changes,
        follows_edited (sound.visits _ row found) fit.read live changes⟩
    exact sound_update sound (f := fun _ => edited record changes) rfl (replaceItems_next replaced)
      List.eraseIdx_subset fits (fun _ _ _ _ _ => fit.read.live)

/-- The checklist is replaced, and its request goes on. -/
theorem sound_replacing (sound : v.Sound) {index id : Nat} {record : Record} {entries : List Entry}
    {cleared : List Nat} (listed : v.calls[index]? = some (.replacing id record entries cleared)) :
    (v.advance index (.replacing id record entries cleared)).Sound ∧
      v.Follows (v.advance index (.replacing id record entries cleared)) := by
  rcases sound.calls _ (List.mem_of_getElem? listed) with ⟨row, found, fit⟩
  simp only [Logbook.advance]
  split
  · exact sound_ends sound index
  · rename_i table replaced
    have fits : (Call.mark id record).Fits row := ⟨fit.read, fun impossible => by cases impossible⟩
    exact sound_same sound rfl (setChecklist_next replaced) (@calls_goes v sound index (.mark id record) row found fits)

theorem sound_mark (sound : v.Sound) {index id : Nat} {record : Record}
    (listed : v.calls[index]? = some (.mark id record)) :
    (v.advance index (.mark id record)).Sound ∧ v.Follows (v.advance index (.mark id record)) := by
  rcases sound.calls _ (List.mem_of_getElem? listed) with ⟨row, found, fit⟩
  simp only [Logbook.advance]
  split
  · exact ⟨sound, Logbook.Follows.refl v⟩
  · cases v.save .named id with
    | error _ => exact sound_ends sound index
    | ok _ =>
        refine sound_update sound (f := marked record) rfl (Nat.le_refl _) (List.eraseIdx_subset) ?_
          (fun _ _ _ _ live => live)
        intro row' found'
        have same := Option.some.inj (found'.symm.trans found)
        rw [same]
        exact ⟨sound_marked (sound.visits _ row found) fit.read, follows_marked (sound.visits _ row found) fit.read⟩

theorem sound_advance (sound : v.Sound) {index : Nat} {call : Call} (listed : v.calls[index]? = some call) :
    (v.advance index call).Sound ∧ v.Follows (v.advance index call) := by
  cases call with
  | edit id record changes items => exact sound_edit sound listed
  | editing id record changes items cleared => exact sound_editing sound listed
  | setChecklist id record entries =>
      rcases sound.calls _ (List.mem_of_getElem? listed) with ⟨row, found, fit⟩
      exact sound_same sound rfl (Nat.le_refl _)
        (calls_goes sound found ⟨fit.read, fun impossible => by cases impossible⟩)
  | replacing id record entries cleared => exact sound_replacing sound listed
  | mark id record => exact sound_mark sound listed

theorem sound_destroy (sound : v.Sound) {id : Nat} (unlocked : v.locked id = false) :
    let w : Logbook := { v with visits := v.visits.update id (fun row => { row with isDeleted := true }) }
    w.Sound ∧ v.Follows w := by
  refine sound_update sound (f := fun row => { row with isDeleted := true }) rfl (Nat.le_refl _) (fun _ mem => mem)
    ?_ ?_
  · intro row found
    have fits := sound.visits id row found
    exact ⟨⟨fits.fit, fits.amended⟩, rfl, rfl, fun amended => amended, fun _ differs => absurd rfl differs, fun _ => rfl⟩
  · intro call mem holds
    have here := Call.holds_id holds
    have free := holds_of_unlocked unlocked mem here
    rw [here, holds] at free
    cases free

theorem sound_step (sound : v.Sound) (event : Event) : (step v event).Sound ∧ v.Follows (step v event) := by
  have same : v.Sound ∧ v.Follows v := ⟨sound, Logbook.Follows.refl v⟩
  cases event with
  | create now later form given items =>
      simp only [step]
      split
      · exact sound_create sound now later form given items
      · exact same
  | edit id changes items namesSignature =>
      simp only [step]
      split
      · exact same
      · rename_i record found
        split
        · exact ⟨@sound_call v sound (.edit id record changes items) found rfl, Logbook.Follows.refl v⟩
        · exact same
  | setChecklist id entries =>
      simp only [step]
      split
      · exact same
      · rename_i record found
        split
        · exact ⟨@sound_call v sound (.setChecklist id record entries) found rfl, Logbook.Follows.refl v⟩
        · exact same
  | advance index =>
      simp only [step]
      split
      · exact same
      · rename_i call listed
        exact sound_advance sound listed
  | drop index => exact sound_ends sound index
  | destroy id =>
      simp only [step]
      split
      · rename_i may
        exact sound_destroy sound (Bool.not_eq_true' _ ▸ (Bool.and_eq_true_iff.mp may).2)
      · exact same

end Steps

/-! ## Histories -/

theorem sound_empty : Logbook.empty.Sound :=
  ⟨fun _ here => absurd here Bool.false_ne_true, fun _ _ found => absurd (Rows.mem_of_get? found) List.not_mem_nil,
    fun _ mem => absurd mem List.not_mem_nil⟩

theorem sound_run {v : Logbook} (sound : v.Sound) (events : List Event) :
    (run v events).Sound ∧ v.Follows (run v events) := by
  induction events generalizing v with
  | nil => exact ⟨sound, Logbook.Follows.refl v⟩
  | cons event events ih =>
      have first := sound_step sound event
      have rest := ih first.1
      exact ⟨rest.1, first.2.trans rest.2⟩

/-- Whatever requests read and write in whatever order, and wherever they end: the fields of every
signature fit each other, only a signed visit is marked as amended, and a visit keeps its
signature and its mark for good, has the mark if it was signed and its form has changed, and does
not come back once it is deleted. -/
theorem signatures_kept (events later : List Event) :
    (∀ id row, (run .empty events).visits.get? id = some row ->
      row.signature.Fit row.createdAt ∧ (row.amendedAfterSignature = true -> row.signature.status = some .signed)) ∧
      ∀ id row, (run .empty events).visits.get? id = some row ->
        ∃ row', (run (run .empty events) later).visits.get? id = some row' ∧ row.Follows row' := by
  have sound := (sound_run sound_empty events).1
  constructor
  · intro id row found
    have fits := sound.visits id row found
    exact ⟨fits.fit, fun amended => of_decide_eq_true (fits.amended amended)⟩
  · exact (sound_run sound later).2

/-- The filter of the list and the state a visit is shown with are one. -/
theorem filterByState_eq (visits : List (Record × Bool)) (state : SignatureState) :
    filterByState visits state = visits.filter (fun r => decide (signatureState r.1 r.2 = state)) := by
  cases state <;>
    exact List.filter_congr (fun r _ => by
      unfold signatureState
      cases r.1.signature.status with
      | none => simp
      | some status => cases status <;> cases r.2 <;> simp)

end Signatures
end Maintenance
end Shiftlush
