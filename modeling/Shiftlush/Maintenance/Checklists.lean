import Shiftlush.Maintenance.SignaturesKept

namespace Shiftlush
namespace Maintenance
namespace Signatures

/-!
# Checklists, replaced

The rows of a checklist are closed and new ones opened, in one transaction.  It clears what it
found when it ran, and is seen when it commits, so that it leaves what others have added in the
meantime, and the constraint keeps every list without a repeated item.
-/

structure ItemsSound (items : Rows Item) (next : Nat) : Prop where
  below : items.Below next
  distinct : items.Distinct
  unique : Rows.Unique itemKey items

/-! ## The items of a visit -/

theorem checklist_append (items new : Rows Item) (visit : Nat) :
    checklist (items ++ new) visit = checklist items visit ++ checklist new visit := by
  unfold checklist
  rw [List.filter_append, List.map_append]

theorem checklist_own {visit : Nat} {new : Rows Item}
    (own : ∀ r ∈ new, r.2.visit = visit ∧ r.2.isDeleted = false) : checklist new visit = new.map (·.2.entry) := by
  unfold checklist
  rw [List.filter_eq_self.mpr]
  intro r mem
  simp [own r mem]

theorem checklist_other {visit other : Nat} {new : Rows Item} (own : ∀ r ∈ new, r.2.visit = visit)
    (differs : other ≠ visit) : checklist new other = [] := by
  unfold checklist
  rw [List.filter_eq_nil_iff.mpr, List.map_nil]
  intro r mem
  simp [own r mem, Ne.symm differs]

theorem checklist_cons (r : Nat × Item) (items : Rows Item) (visit : Nat) : checklist (r :: items) visit =
    if r.2.visit = visit ∧ r.2.isDeleted = false then r.2.entry :: checklist items visit
    else checklist items visit := by
  unfold checklist
  rw [List.filter_cons]
  by_cases listed : r.2.visit = visit ∧ r.2.isDeleted = false
  · rw [if_pos listed, if_pos (by simp [listed]), List.map_cons]
  · rw [if_neg listed, if_neg (by simpa using listed)]

/-- Clearing some rows takes them off their lists. -/
theorem checklist_clear (cleared : List Nat) (items : Rows Item) (visit : Nat) :
    checklist (clearItems cleared items) visit = checklist (items.filter (fun r => decide (r.1 ∉ cleared))) visit := by
  unfold clearItems Rows.updateWhere
  induction items with
  | nil => rfl
  | cons r items ih =>
      rw [List.map_cons, List.filter_cons]
      by_cases taken : r.1 ∈ cleared
      · rw [if_pos (decide_eq_true taken), if_neg (by simpa using taken), checklist_cons, if_neg, ih]
        rintro ⟨_, live⟩
        cases live
      · rw [if_neg (by simpa using taken), if_pos (by simpa using taken), checklist_cons, checklist_cons, ih]

theorem sublist_checklist (cleared : List Nat) (items : Rows Item) (visit : Nat) :
    (checklist (clearItems cleared items) visit).Sublist (checklist items visit) := by
  rw [checklist_clear]
  unfold checklist
  exact (List.filter_sublist.filter _).map _

theorem mem_liveItems {visit : Nat} {items : Rows Item} {id : Nat} :
    id ∈ liveItems visit items ↔ ∃ r ∈ items, r.1 = id ∧ r.2.visit = visit ∧ r.2.isDeleted = false := by
  unfold liveItems
  rw [List.mem_map]
  constructor
  · rintro ⟨r, mem, rfl⟩
    rw [List.mem_filter, Bool.and_eq_true, decide_eq_true_iff, Bool.not_eq_true'] at mem
    exact ⟨r, mem.1, rfl, mem.2⟩
  · rintro ⟨r, mem, rfl, own, live⟩
    refine ⟨r, List.mem_filter.mpr ⟨mem, ?_⟩, rfl⟩
    rw [own, live, decide_eq_true rfl]
    rfl

/-- Clearing what there is leaves nothing. -/
theorem checklist_clear_live (items : Rows Item) (visit : Nat) :
    checklist (clearItems (liveItems visit items) items) visit = [] := by
  rw [checklist_clear]
  unfold checklist
  rw [List.filter_eq_nil_iff.mpr, List.map_nil]
  intro r mem listed
  rw [Bool.and_eq_true, decide_eq_true_iff, Bool.not_eq_true'] at listed
  rcases List.mem_filter.mp mem with ⟨there, spared⟩
  exact absurd (mem_liveItems.mpr ⟨r, there, rfl, listed⟩) (of_decide_eq_true spared)

/-- The rows a request has cleared are old ones, of its visit. -/
structure Clearing (visit : Nat) (cleared : List Nat) (items : Rows Item) (next : Nat) : Prop where
  below : ∀ id ∈ cleared, id < next
  own : ∀ r ∈ items, r.1 ∈ cleared -> r.2.visit = visit

theorem clearing_live {items : Rows Item} {next : Nat} (sound : ItemsSound items next) (visit : Nat) :
    Clearing visit (liveItems visit items) items next := by
  constructor
  · intro id mem
    rcases mem_liveItems.mp mem with ⟨r, there, rfl, _⟩
    exact sound.below.of_mem there
  · intro r mem taken
    rcases mem_liveItems.mp taken with ⟨r', there, same, own, _⟩
    rw [← Rows.unique sound.distinct there mem same]
    exact own

theorem checklist_clear_other {visit other : Nat} {cleared : List Nat} {items : Rows Item} {next : Nat}
    (clearing : Clearing visit cleared items next) (differs : other ≠ visit) :
    checklist (clearItems cleared items) other = checklist items other := by
  rw [checklist_clear]
  unfold checklist
  rw [List.filter_filter]
  congr 1
  apply List.filter_congr
  intro r mem
  by_cases taken : r.1 ∈ cleared
  · have elsewhere : r.2.visit ≠ other := fun same => differs (same.symm.trans (clearing.own r mem taken))
    rw [decide_eq_false elsewhere, Bool.false_and, Bool.false_and]
  · rw [decide_eq_true taken, Bool.and_true]

/-! ## What is added -/

/-- What is added comes last, in order. -/
theorem foldlM_addItem_eq {visit : Nat} {entries : List Entry} {table table' : Rows Item × Nat}
    (done : entries.foldlM (addItem visit) table = some table') :
    ∃ new, table'.1 = table.1 ++ new ∧ (∀ r ∈ new, r.2.visit = visit ∧ r.2.isDeleted = false ∧ table.2 ≤ r.1) ∧
      new.map (·.2.entry) = entries := by
  induction entries generalizing table with
  | nil =>
      cases done
      exact ⟨[], (List.append_nil _).symm, fun _ mem => (by cases mem), rfl⟩
  | cons entry entries ih =>
      rw [List.foldlM_cons] at done
      rcases Option.bind_eq_some_iff.mp done with ⟨between, first, rest⟩
      unfold addItem at first
      dsimp only at first
      split at first
      · cases first
      cases first
      rcases ih rest with ⟨new, grown, own, listed⟩
      refine ⟨(table.2, ⟨visit, entry, false⟩) :: new, ?_, ?_, ?_⟩
      · rw [grown, Rows.insert, List.append_assoc]
        rfl
      · intro r mem
        rcases List.mem_cons.mp mem with rfl | later
        · exact ⟨rfl, rfl, Nat.le_refl _⟩
        · have own := own r later
          exact ⟨own.1, own.2.1, Nat.le_of_succ_le own.2.2⟩
      · rw [List.map_cons, listed]

/-- Items that are not there yet are not refused. -/
theorem isSome_foldlM_addItem (visit : Nat) {entries : List Entry} (once : (entries.map (·.item)).Nodup)
    (table : Rows Item × Nat) (free : ∀ entry ∈ entries, ∀ r ∈ table.1, itemKey r.2 ≠ some (visit, entry.item)) :
    ∃ table', entries.foldlM (addItem visit) table = some table' := by
  induction entries generalizing table with
  | nil => exact ⟨table, rfl⟩
  | cons entry entries ih =>
      have parts := List.nodup_cons.mp once
      have fits : Rows.clashes itemKey table.1 table.2 ⟨visit, entry, false⟩ = false := by
        refine Rows.clashes_eq_false.mpr (fun k keyed r mem same => ?_)
        have key : k = (visit, entry.item) := (Option.some.inj keyed).symm
        exact absurd (key ▸ same) (free entry List.mem_cons_self r mem)
      have added : addItem visit table entry = some (table.1.insert table.2 ⟨visit, entry, false⟩, table.2 + 1) := by
        unfold addItem
        dsimp only
        rw [fits, if_neg Bool.false_ne_true]
      have rest : ∀ entry' ∈ entries, ∀ r ∈ table.1.insert table.2 ⟨visit, entry, false⟩,
          itemKey r.2 ≠ some (visit, entry'.item) := by
        intro entry' mem' r mem keyed
        rcases List.mem_append.mp mem with before | last
        · exact free entry' (List.mem_cons_of_mem _ mem') r before keyed
        · rw [List.mem_singleton.mp last] at keyed
          have item := (Prod.mk.inj (Option.some.inj keyed)).2
          exact parts.1 (List.mem_map.mpr ⟨entry', mem', item.symm⟩)
      rcases ih parts.2 (table.1.insert table.2 ⟨visit, entry, false⟩, table.2 + 1) rest with ⟨table', done⟩
      refine ⟨table', ?_⟩
      rw [List.foldlM_cons, added]
      exact (Option.bind_some _ _).trans done

/-- A checklist that is committed is added to what its visit has kept. -/
theorem checklist_setChecklist {visit : Nat} {cleared : List Nat} {entries : List Entry} {items : Rows Item}
    {next : Nat} {table : Rows Item × Nat} (clearing : Clearing visit cleared items next)
    (done : setChecklist visit cleared entries (items, next) = some table) (other : Nat) :
    checklist table.1 other = if other = visit then checklist (clearItems cleared items) visit ++ entries
      else checklist items other := by
  rcases foldlM_addItem_eq done with ⟨new, grown, own, listed⟩
  rw [grown, checklist_append]
  split
  · rename_i here
    rw [here, checklist_own (fun r mem => ⟨(own r mem).1, (own r mem).2.1⟩), listed]
  · rename_i differs
    rw [checklist_clear_other clearing differs, checklist_other (fun r mem => (own r mem).1) differs, List.append_nil]

/-- The rows keep their visits and what they said, and the new ones have new keys. -/
structure Grown (items : Rows Item) (next : Nat) (items' : Rows Item) (next' : Nat) : Prop where
  later : next ≤ next'
  kept : ∀ r ∈ items, ∃ r' ∈ items', r'.1 = r.1 ∧ r'.2.visit = r.2.visit ∧ r'.2.entry = r.2.entry
  old : ∀ r' ∈ items', r'.1 < next -> ∃ r ∈ items, r.1 = r'.1 ∧ r.2.visit = r'.2.visit

theorem Grown.refl (items : Rows Item) (next : Nat) : Grown items next items next :=
  ⟨Nat.le_refl _, fun r mem => ⟨r, mem, rfl, rfl, rfl⟩, fun r mem _ => ⟨r, mem, rfl, rfl⟩⟩

/-- What was cleared is still of the same visit. -/
theorem Grown.clearing {items items' : Rows Item} {next next' visit : Nat} {cleared : List Nat}
    (grown : Grown items next items' next') (clearing : Clearing visit cleared items next) :
    Clearing visit cleared items' next' := by
  refine ⟨fun id mem => Nat.lt_of_lt_of_le (clearing.below id mem) grown.later, ?_⟩
  intro r' mem taken
  rcases grown.old r' mem (clearing.below _ taken) with ⟨r, there, key, own⟩
  rw [← own]
  exact clearing.own r there (key ▸ taken)

theorem mem_clearItems {cleared : List Nat} {items : Rows Item} {r : Nat × Item} (mem : r ∈ items) :
    ∃ r' ∈ clearItems cleared items, r'.1 = r.1 ∧ r'.2.visit = r.2.visit ∧ r'.2.entry = r.2.entry := by
  refine ⟨_, List.mem_map_of_mem mem, ?_⟩
  dsimp only
  split
  · exact ⟨rfl, rfl, rfl⟩
  · exact ⟨rfl, rfl, rfl⟩

theorem grown_setChecklist {visit : Nat} {cleared : List Nat} {entries : List Entry} {items : Rows Item}
    {next : Nat} {table : Rows Item × Nat} (done : setChecklist visit cleared entries (items, next) = some table) :
    Grown items next table.1 table.2 := by
  rcases foldlM_addItem_eq done with ⟨new, grown, own, _⟩
  refine ⟨setChecklist_next done, ?_, ?_⟩
  · intro r mem
    rcases @mem_clearItems cleared items r mem with ⟨r', there, same⟩
    exact ⟨r', grown ▸ List.mem_append_left _ there, same⟩
  · intro r' mem old
    rw [grown] at mem
    rcases List.mem_append.mp mem with there | added
    · rcases List.mem_map.mp there with ⟨r, before, rfl⟩
      refine ⟨r, before, ?_⟩
      split
      · exact ⟨rfl, rfl⟩
      · exact ⟨rfl, rfl⟩
    · exact absurd (own r' added).2.2 (Nat.not_le.mpr old)

theorem grown_replace {visit : Nat} {cleared : List Nat} {entries : Option (List Entry)} {items : Rows Item}
    {next : Nat} {table : Rows Item × Nat} (done : replaceItems visit cleared entries (items, next) = some table) :
    Grown items next table.1 table.2 := by
  cases entries with
  | none =>
      cases done
      exact Grown.refl items next
  | some entries => exact grown_setChecklist done

/-- What a checklist that is sent makes of the items. -/
structure Replaced (visit : Nat) (entries : List Entry) (items items' : Rows Item) : Prop where
  sent : checklist items' visit = entries
  others : ∀ other, other ≠ visit -> checklist items' other = checklist items other
  kept : ∀ r ∈ items, ∃ r' ∈ items', r'.1 = r.1 ∧ r'.2.visit = r.2.visit ∧ r'.2.entry = r.2.entry

theorem setChecklist_ok {visit : Nat} {entries : List Entry} (once : eachItemOnce entries = true) {items : Rows Item}
    {next : Nat} (sound : ItemsSound items next) :
    ∃ table, setChecklist visit (liveItems visit items) entries (items, next) = some table ∧
      Replaced visit entries items table.1 := by
  have free : ∀ entry ∈ entries, ∀ r ∈ clearItems (liveItems visit items) items,
      itemKey r.2 ≠ some (visit, entry.item) := by
    intro entry _ r mem keyed
    unfold itemKey at keyed
    split at keyed
    · cases keyed
    · rename_i live
      have own := (Prod.mk.inj (Option.some.inj keyed)).1
      have listed : r.2.entry ∈ checklist (clearItems (liveItems visit items) items) visit := by
        refine List.mem_map.mpr ⟨r, List.mem_filter.mpr ⟨mem, ?_⟩, rfl⟩
        rw [Bool.and_eq_true, decide_eq_true_iff, Bool.not_eq_true']
        exact ⟨own, Bool.not_eq_true _ ▸ live⟩
      rw [checklist_clear_live] at listed
      cases listed
  rcases isSome_foldlM_addItem visit (of_decide_eq_true once) (clearItems (liveItems visit items) items, next) free with
    ⟨table, done⟩
  have becomes := checklist_setChecklist (clearing_live sound visit) done
  refine ⟨table, done, ?_, ?_, (grown_setChecklist done).kept⟩
  · rw [becomes visit, if_pos rfl, checklist_clear_live, List.nil_append]
  · intro other differs
    rw [becomes other, if_neg differs]

/-! ## Requests on their own -/

/-- The last of the requests under way. -/
theorem getElem?_last (calls : List Call) (call : Call) : (calls ++ [call])[calls.length]? = some call := by simp

theorem set_last (calls : List Call) (call call' : Call) :
    (calls ++ [call]).set calls.length call' = calls ++ [call'] := by
  rw [List.set_append_right _ _ (Nat.le_refl _), Nat.sub_self, List.set_cons_zero]

theorem eraseIdx_last (calls : List Call) (call : Call) : (calls ++ [call]).eraseIdx calls.length = calls := by
  rw [List.eraseIdx_append_of_length_le (Nat.le_refl _)]
  simp

theorem run_cons (v : Logbook) (event : Event) (events : List Event) :
    run v (event :: events) = run (step v event) events := rfl

theorem locked_last {v : Logbook} {id : Nat} (unlocked : v.locked id = false) {call : Call}
    (free : call.holds id = false) {w : Logbook} (calls : w.calls = v.calls ++ [call]) : w.locked id = false := by
  unfold Logbook.locked at unlocked ⊢
  rw [calls, List.any_append, unlocked, List.any_cons, free]
  rfl

/-- A visit that was found is saved. -/
theorem write_found {v : Logbook} {id : Nat} {record : Record} {kind : Saves.Kind} (read : kind ≠ .new)
    (found : v.find id = some record) : Saves.write Record.isLive kind (v.visits.get? id) = .ok .update := by
  have there := Option.filter_eq_some_iff.mp found
  rw [there.1]
  exact Saves.write_of_shows read there.2

theorem run_setChecklist {v : Logbook} {id : Nat} {record : Record} {entries : List Entry} {table : Rows Item × Nat}
    (found : v.find id = some record) (once : eachItemOnce entries = true) (unlocked : v.locked id = false)
    (done : setChecklist id (liveItems id v.items) entries (v.items, v.next) = some table) :
    run v (.setChecklist id entries :: List.replicate 3 (.advance v.calls.length)) =
      { v with visits := v.visits.update id (marked record), items := table.1, next := table.2 } := by
  have called : step v (.setChecklist id entries) = { v with calls := v.calls ++ [.setChecklist id record entries] } := by
    simp only [step, found, once, if_true]
  have cleared : step { v with calls := v.calls ++ [.setChecklist id record entries] } (.advance v.calls.length) =
      { v with calls := v.calls ++ [.replacing id record entries (liveItems id v.items)] } := by
    simp only [step, getElem?_last, Logbook.advance, Logbook.goes, set_last]
  have committed : step { v with calls := v.calls ++ [.replacing id record entries (liveItems id v.items)] }
      (.advance v.calls.length) =
      { v with items := table.1, next := table.2, calls := v.calls ++ [.mark id record] } := by
    simp only [step, getElem?_last, Logbook.advance, Logbook.goes, set_last, done]
  have marks : step { v with items := table.1, next := table.2, calls := v.calls ++ [.mark id record] }
      (.advance v.calls.length) =
      { v with visits := v.visits.update id (marked record), items := table.1, next := table.2 } := by
    simp only [step, getElem?_last, Logbook.advance, Logbook.save, write_found (show Saves.Kind.named ≠ .new by decide) found]
    rw [locked_last unlocked rfl rfl, if_neg Bool.false_ne_true]
    simp only [Logbook.ends, eraseIdx_last]
  rw [run_cons, called, List.replicate_succ, run_cons, cleared, List.replicate_succ, run_cons, committed,
    List.replicate_succ, run_cons, marks]
  rfl

theorem run_edit {v : Logbook} {id : Nat} {record : Record} {entries : List Entry} {table : Rows Item × Nat}
    (changes : FormChanges) (found : v.find id = some record) (once : eachItemOnce entries = true)
    (unlocked : v.locked id = false)
    (done : setChecklist id (liveItems id v.items) entries (v.items, v.next) = some table) :
    run v (.edit id changes (some entries) false :: List.replicate 2 (.advance v.calls.length)) =
      { v with visits := v.visits.update id (fun _ => edited record changes), items := table.1, next := table.2 } := by
  have called : step v (.edit id changes (some entries) false) =
      { v with calls := v.calls ++ [.edit id record changes (some entries)] } := by
    simp only [step, found, Option.all_some, once, Bool.not_false, Bool.and_true, if_true]
  have written : step { v with calls := v.calls ++ [.edit id record changes (some entries)] }
      (.advance v.calls.length) =
      { v with calls := v.calls ++ [.editing id record changes (some entries) (liveItems id v.items)] } := by
    simp only [step, getElem?_last, Logbook.advance, Logbook.save, write_found (show Saves.Kind.whole ≠ .new by decide) found]
    rw [locked_last unlocked rfl rfl, if_neg Bool.false_ne_true]
    simp only [Logbook.goes, set_last]
  have committed : step { v with calls := v.calls ++ [.editing id record changes (some entries) (liveItems id v.items)] }
      (.advance v.calls.length) =
      { v with visits := v.visits.update id (fun _ => edited record changes), items := table.1, next := table.2 } := by
    simp only [step, getElem?_last, Logbook.advance, replaceItems, done, Logbook.ends, eraseIdx_last]
  rw [run_cons, called, List.replicate_succ, run_cons, written, List.replicate_succ, run_cons, committed]
  rfl

/-! ## Every checklist -/

theorem itemsSound_clear {items : Rows Item} {next : Nat} (sound : ItemsSound items next) (cleared : List Nat) :
    ItemsSound (clearItems cleared items) next := by
  refine ⟨?_, sound.distinct.updateWhere _ _, ?_⟩
  · exact sound.below.of_isSome (fun id => Rows.isSome_get?_updateWhere _ _ _ id)
  · apply sound.unique.updateWhere
    intro row k keyed
    cases keyed

theorem itemsSound_add {visit : Nat} {entry : Entry} {table table' : Rows Item × Nat}
    (sound : ItemsSound table.1 table.2) (ok : addItem visit table entry = some table') :
    ItemsSound table'.1 table'.2 := by
  unfold addItem at ok
  dsimp only at ok
  split at ok
  · cases ok
  rename_i free
  cases ok
  have absent : ∀ r ∈ table.1, r.1 ≠ table.2 := fun r mem => Nat.ne_of_lt (sound.below.of_mem mem)
  exact ⟨sound.below.insert _, sound.distinct.insert (sound.below.absent (Nat.le_refl _)),
    sound.unique.insert absent (Bool.not_eq_true _ ▸ free)⟩

theorem itemsSound_foldlM {visit : Nat} {entries : List Entry} {table table' : Rows Item × Nat}
    (sound : ItemsSound table.1 table.2) (ok : entries.foldlM (addItem visit) table = some table') :
    ItemsSound table'.1 table'.2 := by
  induction entries generalizing table with
  | nil =>
      cases ok
      exact sound
  | cons entry entries ih =>
      rw [List.foldlM_cons] at ok
      rcases Option.bind_eq_some_iff.mp ok with ⟨between, first, rest⟩
      exact ih (itemsSound_add sound first) rest

theorem itemsSound_setChecklist {visit : Nat} {cleared : List Nat} {entries : List Entry} {items : Rows Item}
    {next : Nat} {table : Rows Item × Nat} (sound : ItemsSound items next)
    (ok : setChecklist visit cleared entries (items, next) = some table) : ItemsSound table.1 table.2 := by
  have added : entries.foldlM (addItem visit) (clearItems cleared items, next) = some table := ok
  exact itemsSound_foldlM (itemsSound_clear sound cleared) added

theorem itemsSound_replace {visit : Nat} {cleared : List Nat} {entries : Option (List Entry)} {items : Rows Item}
    {next : Nat} {table : Rows Item × Nat} (sound : ItemsSound items next)
    (ok : replaceItems visit cleared entries (items, next) = some table) : ItemsSound table.1 table.2 := by
  cases entries with
  | none =>
      cases ok
      exact sound
  | some entries => exact itemsSound_setChecklist sound ok

def Call.cleared : Call -> List Nat
  | .editing _ _ _ _ cleared => cleared
  | .replacing _ _ _ cleared => cleared
  | _ => []

/-- The items of a logbook, and what the requests under way have cleared of them. -/
structure Logbook.Listed (v : Logbook) : Prop where
  items : ItemsSound v.items v.next
  clearing : ∀ call ∈ v.calls, Clearing call.id call.cleared v.items v.next

/-- The checklist that an event brings to a visit. -/
def Logbook.brings (v : Logbook) (visit : Nat) : Event -> Option (List Entry)
  | .create _ _ _ _ items => if v.next = visit then items else none
  | .advance index =>
      match v.calls[index]? with
      | some (.editing id _ _ items _) => if id = visit then items else none
      | some (.replacing id _ entries _) => if id = visit then some entries else none
      | _ => none
  | _ => none

/-- What one event does to the checklists: a list changes by one that comes whole, and then what is
left of the old one stands before it.  No row is lost, or says anything else. -/
structure Stepwise (v w : Logbook) (brings : Nat -> Option (List Entry)) : Prop where
  whole : ∀ visit, checklist w.items visit = checklist v.items visit ∨
    ∃ entries kept, brings visit = some entries ∧ kept.Sublist (checklist v.items visit) ∧
      checklist w.items visit = kept ++ entries
  kept : ∀ r ∈ v.items, ∃ r' ∈ w.items, r'.1 = r.1 ∧ r'.2.visit = r.2.visit ∧ r'.2.entry = r.2.entry

theorem stepwise_same {v w : Logbook} (items : w.items = v.items) (brings : Nat -> Option (List Entry)) :
    Stepwise v w brings :=
  ⟨fun _ => Or.inl (by rw [items]), fun r mem => ⟨r, items ▸ mem, rfl, rfl, rfl⟩⟩

theorem clearing_nil (visit : Nat) (items : Rows Item) (next : Nat) : Clearing visit [] items next :=
  ⟨fun _ mem => (by cases mem), fun _ _ mem => (by cases mem)⟩

section Steps

variable {v w : Logbook}

theorem listed_same (listed : v.Listed) (items : w.items = v.items) (next : w.next = v.next)
    (calls : ∀ call ∈ w.calls, call ∈ v.calls ∨ call.cleared = [] ∨ call.cleared = liveItems call.id v.items) :
    w.Listed := by
  refine ⟨by rw [items, next]; exact listed.items, ?_⟩
  intro call mem
  rw [items, next]
  rcases calls call mem with before | none_ | live
  · exact listed.clearing call before
  · rw [none_]
    exact clearing_nil _ _ _
  · rw [live]
    exact clearing_live listed.items call.id

theorem listed_grown (listed : v.Listed) (sound : ItemsSound w.items w.next) (grown : Grown v.items v.next w.items w.next)
    (calls : ∀ call ∈ w.calls, call ∈ v.calls ∨ call.cleared = []) : w.Listed := by
  refine ⟨sound, ?_⟩
  intro call mem
  rcases calls call mem with before | none_
  · exact grown.clearing (listed.clearing call before)
  · rw [none_]
    exact clearing_nil _ _ _

theorem stepwise_setChecklist {visit : Nat} {cleared : List Nat} {entries : List Entry} {next : Nat}
    {table : Rows Item × Nat} (clearing : Clearing visit cleared v.items next)
    (done : setChecklist visit cleared entries (v.items, next) = some table) (items : w.items = table.1)
    {brings : Nat -> Option (List Entry)} (brought : brings visit = some entries) : Stepwise v w brings := by
  refine ⟨?_, ?_⟩
  · intro other
    rw [items, checklist_setChecklist clearing done]
    split
    · rename_i here
      rw [here]
      exact Or.inr ⟨entries, _, brought, sublist_checklist cleared v.items visit, rfl⟩
    · exact Or.inl rfl
  · rw [items]
    exact (grown_setChecklist done).kept

theorem stepwise_replace {visit : Nat} {cleared : List Nat} {entries : Option (List Entry)} {next : Nat}
    {table : Rows Item × Nat} (clearing : Clearing visit cleared v.items next)
    (done : replaceItems visit cleared entries (v.items, next) = some table) (items : w.items = table.1)
    {brings : Nat -> Option (List Entry)} (brought : brings visit = entries) : Stepwise v w brings := by
  cases entries with
  | none =>
      cases done
      exact stepwise_same items brings
  | some entries => exact stepwise_setChecklist clearing done items brought

theorem listed_create (listed : v.Listed) (now : Int) (later : Nat) (form : Form) (given : Signature)
    (items : Option (List Entry)) : (v.create now later form given items).Listed ∧
      Stepwise v (v.create now later form given items) (fun visit => if v.next = visit then items else none) := by
  unfold Logbook.create
  split
  · exact ⟨listed, stepwise_same (by rfl) _⟩
  dsimp only
  split
  · exact ⟨listed, stepwise_same (by rfl) _⟩
  rename_i table replaced
  have further : ItemsSound v.items (v.next + 1) :=
    ⟨listed.items.below.mono (Nat.le_succ _), listed.items.distinct, listed.items.unique⟩
  have grown := grown_replace replaced
  refine ⟨listed_grown listed (itemsSound_replace further replaced) ?_ (fun call mem => Or.inl mem),
    stepwise_replace (clearing_live further v.next) replaced rfl (if_pos rfl)⟩
  exact ⟨Nat.le_of_succ_le grown.later, grown.kept, fun r mem old => grown.old r mem (Nat.lt_succ_of_lt old)⟩

theorem mem_goes {index : Nat} {next call : Call} (mem : call ∈ (v.goes index next).calls) :
    call ∈ v.calls ∨ call = next := List.mem_or_eq_of_mem_set mem

theorem listed_ends (listed : v.Listed) (index : Nat) : (v.ends index).Listed :=
  listed_same listed rfl rfl (fun _ mem => Or.inl (List.mem_of_mem_eraseIdx mem))

theorem listed_goes (listed : v.Listed) {index : Nat} {next : Call}
    (cleared : next.cleared = [] ∨ next.cleared = liveItems next.id v.items) : (v.goes index next).Listed := by
  refine listed_same listed rfl rfl ?_
  intro call mem
  rcases mem_goes mem with before | rfl
  · exact Or.inl before
  · exact Or.inr cleared

theorem listed_advance (listed : v.Listed) {index : Nat} {call : Call} (there : v.calls[index]? = some call) :
    (v.advance index call).Listed ∧ Stepwise v (v.advance index call) (fun visit => v.brings visit (.advance index)) := by
  have clearing := listed.clearing call (List.mem_of_getElem? there)
  have ended : ∀ w : Logbook, w = v ∨ w = v.ends index ->
      w.Listed ∧ Stepwise v w (fun visit => v.brings visit (.advance index)) := by
    rintro w (rfl | rfl)
    · exact ⟨listed, stepwise_same (by rfl) _⟩
    · exact ⟨listed_ends listed index, stepwise_same (by rfl) _⟩
  cases call with
  | edit id record changes items =>
      simp only [Logbook.advance]
      split
      · exact ended _ (Or.inl rfl)
      · split
        · exact ended _ (Or.inr rfl)
        · exact ⟨listed_goes listed (Or.inr rfl), stepwise_same (by rfl) _⟩
  | editing id record changes items cleared =>
      simp only [Logbook.advance]
      split
      · exact ended _ (Or.inr rfl)
      · rename_i table replaced
        have brought : v.brings id (.advance index) = items := by
          simp only [Logbook.brings, there, if_true]
        exact ⟨listed_grown listed (itemsSound_replace listed.items replaced) (grown_replace replaced)
          (fun _ mem => Or.inl (List.mem_of_mem_eraseIdx mem)), stepwise_replace clearing replaced rfl brought⟩
  | setChecklist id record entries => exact ⟨listed_goes listed (Or.inr rfl), stepwise_same (by rfl) _⟩
  | replacing id record entries cleared =>
      simp only [Logbook.advance]
      split
      · exact ended _ (Or.inr rfl)
      · rename_i table done
        have brought : v.brings id (.advance index) = some entries := by
          simp only [Logbook.brings, there, if_true]
        refine ⟨listed_grown listed (itemsSound_setChecklist listed.items done) (grown_setChecklist done) ?_,
          stepwise_setChecklist clearing done rfl brought⟩
        intro call mem
        rcases mem_goes mem with before | rfl
        · exact Or.inl before
        · exact Or.inr rfl
  | mark id record =>
      simp only [Logbook.advance]
      split
      · exact ended _ (Or.inl rfl)
      · split
        · exact ended _ (Or.inr rfl)
        · exact ⟨listed_same listed rfl rfl (fun _ mem => Or.inl (List.mem_of_mem_eraseIdx mem)), stepwise_same (by rfl) _⟩

theorem listed_step (listed : v.Listed) (event : Event) :
    (step v event).Listed ∧ Stepwise v (step v event) (fun visit => v.brings visit event) := by
  have same : v.Listed ∧ Stepwise v v (fun visit => v.brings visit event) := ⟨listed, stepwise_same (by rfl) _⟩
  have called : ∀ call : Call, call.cleared = [] ->
      ({ v with calls := v.calls ++ [call] } : Logbook).Listed ∧
        Stepwise v { v with calls := v.calls ++ [call] } (fun visit => v.brings visit event) := by
    intro call none_
    refine ⟨listed_same listed rfl rfl ?_, stepwise_same (by rfl) _⟩
    intro call' mem
    rcases List.mem_append.mp mem with before | last
    · exact Or.inl before
    · rw [List.mem_singleton.mp last]
      exact Or.inr (Or.inl none_)
  cases event with
  | create now later form given items =>
      simp only [step]
      split
      · exact listed_create listed now later form given items
      · exact same
  | edit id changes items namesSignature =>
      simp only [step]
      split
      · exact same
      · split
        · exact called _ rfl
        · exact same
  | setChecklist id entries =>
      simp only [step]
      split
      · exact same
      · split
        · exact called _ rfl
        · exact same
  | advance index =>
      simp only [step]
      split
      · exact same
      · rename_i call there
        exact listed_advance listed there
  | drop index => exact ⟨listed_ends listed index, stepwise_same (by rfl) _⟩
  | destroy id =>
      simp only [step]
      split
      · exact ⟨listed_same listed rfl rfl (fun _ mem => Or.inl mem), stepwise_same (by rfl) _⟩
      · exact same

theorem listed_empty : Logbook.empty.Listed :=
  ⟨⟨fun _ here => absurd here Bool.false_ne_true, List.nodup_nil, Rows.unique_nil⟩, fun _ mem => (by cases mem)⟩

theorem listed_run (listed : v.Listed) (events : List Event) : (run v events).Listed := by
  induction events generalizing v with
  | nil => exact listed
  | cons event events ih => exact ih (listed_step listed event).1

end Steps

/-- No visit's checklist has an item twice. -/
theorem nodup_checklist {items : Rows Item} {next : Nat} (sound : ItemsSound items next) (visit : Nat) :
    ((checklist items visit).map (·.item)).Nodup := by
  unfold checklist
  rw [List.map_map]
  have rows : (items.filter (fun r => decide (r.2.visit = visit) && !r.2.isDeleted)).Nodup :=
    List.Nodup.filter _ (List.Nodup.of_map Prod.fst sound.distinct)
  refine List.Nodup.map_on ?_ rows
  intro r mem r' mem' same
  simp only [List.mem_filter, Bool.and_eq_true, decide_eq_true_eq, Bool.not_eq_true'] at mem mem'
  have keyed : itemKey r.2 = some (visit, r.2.entry.item) := by simp [itemKey, mem.2]
  have keyed' : itemKey r'.2 = some (visit, r.2.entry.item) := by
    have item : r'.2.entry.item = r.2.entry.item := same.symm
    simp [itemKey, mem'.2, item]
  exact Rows.unique sound.distinct mem.1 mem'.1 (sound.unique r mem.1 r' mem'.1 _ keyed keyed')

/-- A `set-checklist` with nothing between its steps. -/
def sendChecklist (v : Logbook) (id : Nat) (entries : List Entry) : List Event :=
  .setChecklist id entries :: List.replicate 3 (.advance v.calls.length)

/-- An edit that brings a checklist, with nothing between its steps. -/
def sendEdit (v : Logbook) (id : Nat) (changes : FormChanges) (entries : List Entry) : List Event :=
  .edit id changes (some entries) false :: List.replicate 2 (.advance v.calls.length)

/-- A checklist that has arrived, with what its visit then looks like. -/
structure Delivered (v after : Logbook) (id : Nat) (entries : List Entry) (row : Record) : Prop where
  replaced : Replaced id entries v.items after.items
  visit : after.visits.get? id = some row

/-- In any logbook no checklist has an item twice, and none changes but by one that comes whole.
A checklist that is sent, to `set-checklist` or with an edit, to a visit nobody holds, is then the
visit's; the other visits have theirs, and the visit has the mark if it was signed. -/
theorem checklist_replaced (events : List Event) :
    (∀ visit, ((checklist (run .empty events).items visit).map (·.item)).Nodup) ∧
      (∀ event, Stepwise (run .empty events) (step (run .empty events) event)
        (fun visit => (run .empty events).brings visit event)) ∧
      ∀ id record entries, (run .empty events).find id = some record -> eachItemOnce entries = true ->
        (run .empty events).locked id = false ->
        Delivered (run .empty events)
            (run (run .empty events) (sendChecklist (run .empty events) id entries)) id entries
            (marked record record) ∧
          ∀ changes, Delivered (run .empty events)
            (run (run .empty events) (sendEdit (run .empty events) id changes entries)) id entries
            (edited record changes) := by
  have listed := listed_run listed_empty events
  refine ⟨fun visit => nodup_checklist listed.items visit, fun event => (listed_step listed event).2, ?_⟩
  intro id record entries found once unlocked
  generalize run .empty events = v at *
  rcases @setChecklist_ok id entries once v.items v.next listed.items with ⟨table, done, replaced⟩
  have there := (find_some found).1
  constructor
  · rw [sendChecklist, run_setChecklist found once unlocked done]
    exact ⟨replaced, by rw [Rows.get?_update_self, there, Option.map_some]⟩
  · intro changes
    rw [sendEdit, run_edit changes found once unlocked done]
    exact ⟨replaced, by rw [Rows.get?_update_self, there, Option.map_some]⟩

end Signatures
end Maintenance
end Shiftlush
