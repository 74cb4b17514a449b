import Shiftlush.Audit.Trail

namespace Shiftlush
namespace Audit

open Transitions (run everyStep)

/-!
# Folding the trail

`on_save` tells a change from the snapshot an instance was loaded with.  It is
the change of the row exactly when the snapshot still says what the row says,
and every field changed in memory is one the save writes.
-/

/-! ## Lists of fields -/

section Fields

variable {F J : Type} {fields : List F} {p q : F -> Bool} {x y : F -> J}

theorem map_filter_eq_iff : (fields.filter p).map (fun f => (f, x f)) = (fields.filter q).map (fun f => (f, y f)) ↔
    ∀ f ∈ fields, p f = q f ∧ (p f = true -> x f = y f) := by
  constructor
  · intro same f mem
    have forth : p f = true -> q f = true ∧ x f = y f := by
      intro passes
      have listed : (f, x f) ∈ (fields.filter p).map (fun f => (f, x f)) :=
        List.mem_map_of_mem (f := fun f => (f, x f)) (List.mem_filter.mpr ⟨mem, passes⟩)
      rw [same] at listed
      rcases List.mem_map.mp listed with ⟨g, mem', pair⟩
      rcases Prod.mk.inj pair with ⟨rfl, values⟩
      exact ⟨(List.mem_filter.mp mem').2, values.symm⟩
    have back : q f = true -> p f = true := by
      intro passes
      have listed : (f, y f) ∈ (fields.filter q).map (fun f => (f, y f)) :=
        List.mem_map_of_mem (f := fun f => (f, y f)) (List.mem_filter.mpr ⟨mem, passes⟩)
      rw [← same] at listed
      rcases List.mem_map.mp listed with ⟨g, mem', pair⟩
      rcases Prod.mk.inj pair with ⟨rfl, _⟩
      exact (List.mem_filter.mp mem').2
    refine ⟨?_, fun passes => (forth passes).2⟩
    cases here : p f with
    | true => rw [(forth here).1]
    | false =>
        cases there : q f with
        | false => rfl
        | true =>
            have passes := back there
            rw [here] at passes
            cases passes
  · intro each
    have filters : fields.filter p = fields.filter q := List.filter_congr (fun f mem => (each f mem).1)
    rw [← filters]
    apply List.map_congr_left
    intro f mem
    rcases List.mem_filter.mp mem with ⟨mem, passes⟩
    rw [(each f mem).2 passes]

end Fields

variable {model : Model} {s s' : State} {inst : Instance} {updateFields : Option (List Field)}
  {values row before after : Row} {loaded : Field -> Option Value} {pk : Nat}

/-! ## The entries of one save -/

theorem isTrue_iff {value : Value} : value.isTrue = true ↔ value = .flag true := by
  unfold Value.isTrue
  rw [decide_eq_true_eq]

theorem expected_self (row : Row) : expected model pk (some row) (some row) = [] := by
  have same : model.fields.filter (isDifferent row row) = [] := by
    rw [List.filter_eq_nil_iff]
    intro field _
    simp [isDifferent]
  unfold expected
  dsimp only
  rw [if_pos same]

/-- Nothing is expected just of a row that stays. -/
theorem expected_eq_nil : expected model pk (some before) (some after) = [] ↔
    ∀ field ∈ model.fields, isDifferent before after field = false := by
  unfold expected
  dsimp only
  split
  · rename_i none
    simp only [true_iff]
    intro field mem
    exact Bool.eq_false_iff.mpr (List.filter_eq_nil_iff.mp none field mem)
  · rename_i some'
    constructor
    · intro impossible
      split at impossible
      · cases impossible
      · cases impossible
    · intro same
      refine absurd (List.filter_eq_nil_iff.mpr ?_) some'
      intro field mem
      rw [same field mem]
      decide

theorem expected_eq_delete : expected model pk (some before) (some after) = [⟨pk, .delete, [], []⟩] ↔
    (∃ field ∈ model.fields, isDifferent before after field = true) ∧ isRemoval model before after = true := by
  unfold expected
  dsimp only
  split
  · rename_i none
    constructor
    · intro impossible
      cases impossible
    · rintro ⟨⟨field, mem, differs⟩, _⟩
      exact absurd differs (List.filter_eq_nil_iff.mp none field mem)
  · rename_i some'
    rcases List.exists_mem_of_ne_nil _ some' with ⟨field, mem⟩
    rcases List.mem_filter.mp mem with ⟨mem, differs⟩
    split
    · rename_i removal
      simp only [true_iff]
      exact ⟨⟨field, mem, differs⟩, removal⟩
    · rename_i kept
      constructor
      · intro impossible
        injection impossible with entry
        injection entry with _ action
        cases action
      · rintro ⟨_, removal⟩
        exact absurd removal kept

/-- What a write makes different. -/
theorem isDifferent_written (field : Field) :
    isDifferent row (State.written model inst updateFields values row) field =
      (!field.isIgnored && (isWritten model inst updateFields field && decide (row field ≠ values field))) := by
  unfold isDifferent State.written
  cases isWritten model inst updateFields field with
  | true => simp
  | false => simp

theorem isLeft_iff (field : Field) : isLeft model inst updateFields values row field = true ↔
    isDifferent row (State.written model inst updateFields values row) field = false := by
  rw [isDifferent_written]
  unfold isLeft
  cases field.isIgnored with
  | true => simp
  | false =>
      cases isWritten model inst updateFields field with
      | true => simp
      | false => simp

theorem written_isDeleted (live : State.isLive row = true)
    (deleted : State.isLive (State.written model inst updateFields values row) = false) :
    isWritten model inst updateFields .isDeleted = true ∧ (values .isDeleted).isTrue = true := by
  unfold State.isLive at live deleted
  unfold State.written at deleted
  rw [Bool.not_eq_true'] at live
  rw [Bool.not_eq_false'] at deleted
  split at deleted
  · rename_i here
    exact ⟨here, deleted⟩
  · rw [live] at deleted
    cases deleted

theorem mem_of_isWritten {field : Field} (written : isWritten model inst updateFields field = true) :
    field ∈ model.fields := by
  unfold isWritten at written
  rw [Bool.and_eq_true, decide_eq_true_eq] at written
  exact written.1.1

theorem isDifferent_isDeleted (written : isWritten model inst updateFields .isDeleted = true)
    (live : State.isLive row = true) (deleted : (values .isDeleted).isTrue = true) :
    isDifferent row (State.written model inst updateFields values row) .isDeleted = true := by
  rw [isDifferent_written, written]
  have moved : row .isDeleted ≠ values .isDeleted := by
    intro same
    unfold State.isLive at live
    rw [same, deleted] at live
    cases live
  have shown : Field.isDeleted.isIgnored = false := by decide
  simp [moved, shown]

/-- An entry of a deletion. -/
theorem delete_eq_expected (deletion : isDeletion inst.loaded values = true) :
    [⟨pk, .delete, [], []⟩] = expected model pk (some row)
        (some (State.written model inst updateFields values row)) ↔
      isWritten model inst updateFields .isDeleted = true ∧ State.isLive row = true ∧
        ∀ field ∈ model.fields, (field = .isDeleted ∨ field = .deletedAt) ∨
          isLeft model inst updateFields values row field = true := by
  unfold isDeletion at deletion
  rw [Bool.and_eq_true] at deletion
  rw [eq_comm, expected_eq_delete]
  unfold isRemoval
  rw [Bool.and_eq_true, Bool.and_eq_true, Bool.not_eq_true', List.all_eq_true]
  constructor
  · rintro ⟨_, ⟨live, deleted⟩, rest⟩
    refine ⟨(written_isDeleted live deleted).1, live, ?_⟩
    intro field mem
    have alone := rest field mem
    rw [Bool.or_eq_true, Bool.not_eq_true', decide_eq_true_eq] at alone
    rw [isLeft_iff]
    exact alone.symm
  · rintro ⟨written, live, rest⟩
    have deleted : State.isLive (State.written model inst updateFields values row) = false := by
      unfold State.isLive State.written
      rw [written, if_pos rfl, deletion.1]
      rfl
    refine ⟨⟨.isDeleted, mem_of_isWritten written, isDifferent_isDeleted written live deletion.1⟩,
      ⟨live, deleted⟩, ?_⟩
    intro field mem
    rw [Bool.or_eq_true, Bool.not_eq_true', decide_eq_true_eq, ← isLeft_iff]
    exact (rest field mem).symm

theorem isMoved_iff {field : Field} : isMoved loaded values field = true ↔
    field.isIgnored = false ∧ ∃ old, loaded field = some old ∧ old ≠ values field := by
  unfold isMoved
  rw [Bool.and_eq_true, Bool.not_eq_true']
  cases loaded field with
  | none => simp
  | some old => simp

theorem tellsSame_iff {field : Field} : tellsSame model inst updateFields values row field = true ↔
    isMoved inst.loaded values field =
      isDifferent row (State.written model inst updateFields values row) field ∧
      (isMoved inst.loaded values field = true ->
        field.shown ((inst.loaded field).getD .null) = field.shown (row field)) := by
  rw [isDifferent_written]
  unfold tellsSame
  cases ignored : field.isIgnored with
  | true =>
      have still : isMoved inst.loaded values field = false := by
        unfold isMoved
        rw [ignored]
        rfl
      simp [still]
  | false =>
      rw [Bool.false_or, Bool.and_eq_true, decide_eq_true_eq, Bool.not_false, Bool.true_and]
      apply and_congr_right
      intro _
      cases moved : isMoved inst.loaded values field with
      | false => simp
      | true =>
          rcases isMoved_iff.mp moved with ⟨_, old, before, _⟩
          unfold Field.shown
          cases field.isMasked with
          | true => simp
          | false => simp [before]

theorem snapshot_ne_nil (values : Field -> Value) : snapshot model values ≠ [] := by
  intro none
  have key := model.key
  rw [List.map_eq_nil_iff.mp none] at key
  cases key

/-- An instance that was never loaded files its whole snapshot. -/
theorem unloaded_ne_expected (never : hasLoaded model loaded = false) :
    [⟨pk, .update, (changed model loaded values).1, (changed model loaded values).2⟩] ≠
      expected model pk (some before) (some after) := by
  have news : changed model loaded values = ([], snapshot model values) := by
    unfold changed
    rw [never]
    rfl
  rw [news]
  intro same
  unfold expected at same
  dsimp only at same
  split at same
  · cases same
  · rename_i some'
    split at same
    · injection same with entry
      injection entry with _ action
      cases action
    · injection same with entry
      injection entry with _ _ old
      exact some' (List.map_eq_nil_iff.mp old.symm)

/-- The change the snapshot tells is the change of the row. -/
theorem changed_eq_expected (has : hasLoaded model inst.loaded = true)
    (kept : isDeletion inst.loaded values = false) :
    (if (changed model inst.loaded values).2 = [] then [] else
      [⟨pk, .update, (changed model inst.loaded values).1, (changed model inst.loaded values).2⟩]) =
      expected model pk (some row) (some (State.written model inst updateFields values row)) ↔
      ∀ field ∈ model.fields, tellsSame model inst updateFields values row field = true := by
  have news : (changed model inst.loaded values) =
      ((model.fields.filter (isMoved inst.loaded values)).map (fun field =>
        (field, field.shown ((inst.loaded field).getD .null))),
       (model.fields.filter (isMoved inst.loaded values)).map (fun field => (field, field.shown (values field)))) := by
    unfold changed
    rw [has, if_pos rfl]
  rw [news]
  dsimp only
  constructor
  · intro same
    split at same
    · rename_i none
      have still := expected_eq_nil.mp same.symm
      have unmoved := List.filter_eq_nil_iff.mp (List.map_eq_nil_iff.mp none)
      intro field mem
      rw [tellsSame_iff, still field mem, Bool.eq_false_iff.mpr (unmoved field mem)]
      exact ⟨rfl, fun impossible => by cases impossible⟩
    · unfold expected at same
      dsimp only at same
      split at same
      · cases same
      · split at same
        · injection same with entry
          injection entry with _ action
          cases action
        · injection same with entry
          injection entry with _ _ old _
          intro field mem
          rw [tellsSame_iff]
          exact map_filter_eq_iff.mp old field mem
  · intro each
    have moves : ∀ field ∈ model.fields, isMoved inst.loaded values field =
        isDifferent row (State.written model inst updateFields values row) field ∧
        (isMoved inst.loaded values field = true ->
          field.shown ((inst.loaded field).getD .null) = field.shown (row field)) :=
      fun field mem => tellsSame_iff.mp (each field mem)
    have filters : model.fields.filter (isMoved inst.loaded values) =
        model.fields.filter (isDifferent row (State.written model inst updateFields values row)) :=
      List.filter_congr (fun field mem => (moves field mem).1)
    have olds := map_filter_eq_iff.mpr moves
    have notRemoval : isRemoval model row (State.written model inst updateFields values row) = false := by
      rw [← Bool.not_eq_true]
      intro removal
      unfold isRemoval at removal
      rw [Bool.and_eq_true, Bool.and_eq_true, Bool.not_eq_true'] at removal
      rcases written_isDeleted removal.1.1 removal.1.2 with ⟨written, deleted⟩
      have differs := isDifferent_isDeleted written removal.1.1 deleted
      rw [← (moves _ (mem_of_isWritten written)).1] at differs
      rcases isMoved_iff.mp differs with ⟨_, old, snapshot, moved⟩
      unfold isDeletion at kept
      rw [deleted, Bool.true_and, Bool.not_eq_false', snapshot, Option.getD_some] at kept
      rw [isTrue_iff.mp kept, isTrue_iff.mp deleted] at moved
      exact moved rfl
    have newly : (model.fields.filter (isMoved inst.loaded values)).map (fun field => (field, field.shown (values field))) =
        (model.fields.filter (isDifferent row (State.written model inst updateFields values row))).map
          (fun field => (field, field.shown (State.written model inst updateFields values row field))) := by
      rw [filters]
      apply List.map_congr_left
      intro field mem
      have differs := (List.mem_filter.mp mem).2
      rw [isDifferent_written, Bool.and_eq_true, Bool.and_eq_true] at differs
      unfold State.written
      rw [if_pos differs.2.1]
    unfold expected
    dsimp only
    rw [← filters]
    by_cases none : model.fields.filter (isMoved inst.loaded values) = []
    · rw [none]
      rfl
    · rw [if_neg none, if_neg (fun empty => none (List.map_eq_nil_iff.mp empty)), notRemoval, olds, newly, ← filters]
      rfl

/-- `on_save` files what the row goes through exactly when the save meets the
condition. -/
theorem onSave_eq_expected : onSave model pk inst.loaded values =
    expected model pk (some row) (some (State.written model inst updateFields values row)) ↔
      recordsUpdate model inst updateFields values row = true := by
  unfold onSave recordsUpdate write
  cases filed : isFiled model values with
  | false =>
      have silent : (if isDeletion inst.loaded values then (if false = true then
          [(⟨pk, .delete, [], []⟩ : Entry)] else []) else
            if (changed model inst.loaded values).2 = [] then [] else if false = true then
              [⟨pk, .update, (changed model inst.loaded values).1, (changed model inst.loaded values).2⟩]
            else []) = [] := by
        split
        · rfl
        · split
          · rfl
          · rfl
      dsimp only
      rw [silent, eq_comm, expected_eq_nil]
      simp only [Bool.not_false, if_true, List.all_eq_true]
      constructor
      · exact fun still field mem => (isLeft_iff field).mpr (still field mem)
      · exact fun left field mem => (isLeft_iff field).mp (left field mem)
  | true =>
      simp only [Bool.not_true, Bool.false_eq_true, if_false, if_true]
      cases deletion : isDeletion inst.loaded values with
      | true =>
          simp only [if_true]
          rw [delete_eq_expected deletion, Bool.and_eq_true, Bool.and_eq_true, List.all_eq_true, and_assoc]
          simp only [Bool.or_eq_true, decide_eq_true_eq]
      | false =>
          simp only [Bool.false_eq_true, if_false]
          cases has : hasLoaded model inst.loaded with
          | false =>
              have whole : (changed model inst.loaded values).2 ≠ [] := by
                unfold changed
                rw [has]
                exact snapshot_ne_nil values
              rw [if_neg whole, Bool.false_and]
              simp only [Bool.false_eq_true, iff_false]
              exact unloaded_ne_expected has
          | true =>
              rw [changed_eq_expected has deletion, Bool.true_and, List.all_eq_true]

/-! ## The entries of one step -/

theorem records_iff (new : List Entry) (log : s'.log = s.log ++ new) : State.Records model s s' ↔
    ∀ pk, ofRecord new pk = expected model pk (s.rows.get? pk) (s'.rows.get? pk) := by
  constructor
  · rintro ⟨new', log', each⟩
    rw [log] at log'
    rw [List.append_cancel_left log']
    exact each
  · exact fun each => ⟨new, log, each⟩

theorem expected_same (stored : Option Row) : expected model pk stored stored = [] := by
  cases stored with
  | none => rfl
  | some row => exact expected_self row

theorem records_of_same (rows : s'.rows = s.rows) (log : s'.log = s.log) : State.Records model s s' := by
  refine ⟨[], by rw [log, List.append_nil], ?_⟩
  intro pk
  rw [rows, expected_same]
  rfl

/-- The entries of one record, where only its row changes. -/
theorem records_alone (pk : Nat) {new : List Entry} (log : s'.log = s.log ++ new)
    (own : ∀ entry ∈ new, entry.record = pk)
    (rows : ∀ other, other ≠ pk -> s'.rows.get? other = s.rows.get? other) : State.Records model s s' ↔
      new = expected model pk (s.rows.get? pk) (s'.rows.get? pk) := by
  have all : ofRecord new pk = new := List.filter_eq_self.mpr (fun entry mem => decide_eq_true (own entry mem))
  rw [records_iff new log]
  constructor
  · intro each
    rw [← each pk, all]
  · intro same other
    by_cases here : other = pk
    · subst here
      rw [all]
      exact same
    · rw [rows other here, expected_same]
      apply List.filter_eq_nil_iff.mpr
      intro entry mem
      rw [own entry mem, decide_eq_true_eq]
      exact Ne.symm here

theorem record_write {entry entry' : Entry} (mem : entry ∈ write model values entry') : entry = entry' := by
  unfold write at mem
  split at mem
  · exact List.mem_singleton.mp mem
  · cases mem

theorem record_onSave {entry : Entry} (mem : entry ∈ onSave model pk loaded values) : entry.record = pk := by
  unfold onSave at mem
  split at mem
  · rw [record_write mem]
  · dsimp only at mem
    split at mem
    · cases mem
    · rw [record_write mem]

theorem records_update {i : Nat} {now : Value} (found : s.rows.get? inst.pk = some row) :
    State.Records model s (s.update model i inst updateFields now row) ↔
      State.lacksCompany model (State.written model inst updateFields
        (fun field => (State.stamped model inst updateFields now field).getD (row field)) row) = true ∨
      recordsUpdate model inst updateFields
        (fun field => (State.stamped model inst updateFields now field).getD (row field)) row = true := by
  unfold State.update
  dsimp only
  generalize (fun field => (State.stamped model inst updateFields now field).getD (row field)) = values
  split
  · rename_i lacks
    simp only [lacks, true_or, iff_true]
    exact records_of_same rfl rfl
  · rename_i lacks
    rw [or_iff_right lacks, records_alone inst.pk rfl (fun entry mem => record_onSave mem)
      (fun other different => Rows.get?_update_of_ne different)]
    dsimp only
    rw [Rows.get?_update_self, found, Option.map_some]
    exact onSave_eq_expected

theorem records_insert {i : Nat} {now : Value} (absent : s.rows.get? inst.pk = none) :
    State.Records model s (s.insert model i inst now) ↔
      State.lacksCompany model (fun field => (State.created inst now field).getD .null) = true ∨
        isFiled model (fun field => (State.created inst now field).getD .null) = true := by
  unfold State.insert
  dsimp only
  generalize (fun field => (State.created inst now field).getD .null) = values
  split
  · rename_i lacks
    simp only [lacks, true_or, iff_true]
    exact records_of_same rfl rfl
  · rename_i lacks
    have own : ∀ entry ∈ onCreate model inst.pk values, entry.record = inst.pk := by
      intro entry mem
      rw [record_write mem]
    rw [or_iff_right lacks, records_alone inst.pk rfl own
      (fun other different => Rows.get?_insert_of_ne different.symm)]
    dsimp only
    rw [Rows.get?_insert_self absent, absent]
    unfold onCreate write expected
    cases isFiled model values with
    | true => simp
    | false => simp

theorem refuse_same (i : Nat) (now : Value) (refusal : Saves.Refusal) :
    (s.refuse model i inst updateFields now refusal).rows = s.rows ∧
      (s.refuse model i inst updateFields now refusal).log = s.log := by
  cases refusal with
  | integrityError => exact ⟨rfl, rfl⟩
  | notUpdated => exact ⟨rfl, rfl⟩

theorem records_save {i : Nat} {now : Value} : State.Records model s (s.save model i updateFields now) ↔
    recordsSave model s i updateFields now = true := by
  have same : State.Records model s s := records_of_same rfl rfl
  unfold State.save recordsSave
  cases (s.instances[i]?).bind (s.guarded model) with
  | none => simp [same]
  | some inst =>
      dsimp only
      by_cases nothing : updateFields = some []
      · rw [if_pos nothing, decide_eq_true nothing, Bool.true_or]
        simp only [iff_true]
        exact records_of_same rfl rfl
      · rw [if_neg nothing, decide_eq_false nothing, Bool.false_or]
        cases writes : s.writes model inst updateFields with
        | error refusal =>
            simp only [iff_true]
            exact records_of_same (refuse_same i now refusal).1 (refuse_same i now refusal).2
        | ok write =>
            cases write with
            | insert =>
                dsimp only
                rw [Bool.or_eq_true]
                exact records_insert (Saves.write_eq_insert.mp writes).2
            | update =>
                rcases Saves.write_eq_update.mp writes with ⟨_, row, found, _⟩
                rw [found]
                dsimp only
                rw [Bool.or_eq_true]
                exact records_update found

/-- A queryset files nothing. -/
theorem records_deleteWhere (distinct : s.rows.Distinct) {selects : Nat -> Row -> Bool} {now : Value} :
    State.Records model s (s.deleteWhere model selects now) ↔ (decide (.isDeleted ∉ model.fields) ||
      !s.rows.any (fun r => selects r.1 r.2 && State.isLive r.2)) = true := by
  unfold State.deleteWhere
  by_cases has : Field.isDeleted ∈ model.fields
  · rw [if_pos has]
    have dropped : decide (Field.isDeleted ∉ model.fields) = false := decide_eq_false (fun absent => absent has)
    have silent : ∀ rows : Rows Row, State.Records model s { s with rows := rows } ↔
        ∀ pk, ofRecord [] pk = expected model pk (s.rows.get? pk) (rows.get? pk) :=
      fun rows => records_iff [] (List.append_nil _).symm
    rw [dropped, Bool.false_or, Bool.not_eq_true', List.any_eq_false, silent]
    constructor
    · intro each r mem chosen
      have found := Rows.get?_of_mem distinct mem
      have nothing := each r.1
      rw [Rows.get?_updateWhere, found, Option.map_some, if_pos chosen] at nothing
      have still := expected_eq_nil.mp nothing.symm _ has
      rw [Bool.and_eq_true] at chosen
      have live := chosen.2
      unfold isDifferent at still
      have moved : r.2 .isDeleted ≠ State.deletedRow r.2 now .isDeleted := by
        intro same
        unfold State.isLive at live
        rw [same] at live
        cases live
      have shown : Field.isDeleted.isIgnored = false := by decide
      simp [shown, moved] at still
    · intro none pk
      rw [Rows.get?_updateWhere]
      cases found : s.rows.get? pk with
      | none => rfl
      | some row =>
          have unchosen := none (pk, row) (Rows.mem_of_get? found)
          rw [Option.map_some, if_neg unchosen]
          exact (expected_self row).symm
  · rw [if_neg has]
    simp only [has, not_false_eq_true, decide_true, Bool.true_or, iff_true]
    exact records_of_same rfl rfl

theorem assign_same (i : Nat) (field : Field) (value : Value) :
    (s.assign i field value).rows = s.rows ∧ (s.assign i field value).log = s.log := by
  unfold State.assign
  split
  · exact ⟨rfl, rfl⟩
  · split
    · exact ⟨rfl, rfl⟩
    · exact ⟨rfl, rfl⟩

/-- A step files just what rows went through exactly when it meets the condition. -/
theorem records_step (distinct : s.rows.Distinct) (event : Event) :
    State.Records model s (s.step model event) ↔ records model s event = true := by
  cases event with
  | enter scope =>
      simp only [records, iff_true]
      exact records_of_same rfl rfl
  | construct values =>
      simp only [records, iff_true]
      exact records_of_same rfl rfl
  | load pk deferred =>
      simp only [records, iff_true]
      unfold State.step State.load
      dsimp only
      split
      · exact records_of_same rfl rfl
      · exact records_of_same rfl rfl
  | assign i field value =>
      simp only [records, iff_true]
      exact records_of_same (assign_same i field value).1 (assign_same i field value).2
  | save i updateFields now => exact records_save
  | delete i now =>
      have marked := assign_same (s := s) i .isDeleted (.flag true)
      have dated := assign_same (s := s.assign i .isDeleted (.flag true)) i .deletedAt now
      have saves : State.Records model ((s.assign i .isDeleted (.flag true)).assign i .deletedAt now)
          (((s.assign i .isDeleted (.flag true)).assign i .deletedAt now).save model i (some State.deletionFields) now) ↔
          records model s (.delete i now) = true := records_save
      unfold State.Records at saves ⊢
      rw [dated.1, dated.2, marked.1, marked.2] at saves
      exact saves
  | deleteWhere selects now => exact records_deleteWhere distinct

/-! ## The fold -/

theorem lookup_map_filter (fields : List Field) (p : Field -> Bool) (y : Field -> Json) (field : Field) :
    ((fields.filter p).map (fun f => (f, y f))).lookup field =
      if field ∈ fields ∧ p field = true then some (y field) else none := by
  induction fields with
  | nil => simp
  | cons first fields ih =>
      by_cases passes : p first = true
      · rw [List.filter_cons_of_pos passes, List.map_cons, List.lookup_cons, ih]
        by_cases here : field = first
        · subst here
          simp [passes]
        · rw [beq_eq_false_iff_ne.mpr here]
          simp [here]
      · rw [List.filter_cons_of_neg passes, ih]
        by_cases here : field = first
        · subst here
          simp [passes]
        · simp [here]

theorem shown_of_visible {field : Field} (visible : field.isMasked = false) (value : Value) :
    field.shown value = value.serialise := by
  unfold Field.shown
  rw [visible]
  rfl

/-- The trail knows a row, but for the time of a removal. -/
def Knows (model : Model) (known : Field -> Option Json) (row : Row) : Prop :=
  ∀ field ∈ model.fields, field.isMasked = false -> field.isIgnored = false ->
    known field = some (row field).serialise ∨ field = .deletedAt ∧ known field = none

theorem knows_created (known : Field -> Option Json) (row : Row) :
    Knows model (Entry.apply ⟨pk, .create, [], snapshot model row⟩ known) row := by
  intro field mem visible _
  left
  have listed := lookup_map_filter model.fields (fun _ => true) (fun field => field.shown (row field)) field
  rw [List.filter_true] at listed
  unfold Entry.apply
  dsimp only
  unfold snapshot
  rw [listed, if_pos ⟨mem, rfl⟩, shown_of_visible visible]

theorem eq_of_not_different {field : Field} (shown : field.isIgnored = false)
    (same : isDifferent before after field = false) : before field = after field := by
  unfold isDifferent at same
  rw [shown, Bool.not_false, Bool.true_and, decide_eq_false_iff_not, not_not] at same
  exact same

/-- Entries that say what a row went through keep the trail up with it. -/
theorem knows_expected {known : Field -> Option Json} (knows : Knows model known before) :
    Knows model ((expected model pk (some before) (some after)).foldl (fun known entry => entry.apply known) known)
      after := by
  intro field mem visible shown
  unfold expected
  dsimp only
  split
  · rename_i none
    have same := eq_of_not_different shown (Bool.eq_false_iff.mpr (List.filter_eq_nil_iff.mp none field mem))
    rw [List.foldl_nil, ← same]
    exact knows field mem visible shown
  · split
    · rename_i removal
      unfold isRemoval State.isLive at removal
      rw [Bool.and_eq_true, Bool.and_eq_true, Bool.not_eq_true', Bool.not_not, List.all_eq_true] at removal
      rw [List.foldl_cons, List.foldl_nil]
      unfold Entry.apply
      dsimp only
      by_cases deleted : field = .isDeleted
      · rw [if_pos deleted, deleted, isTrue_iff.mp removal.1.2]
        exact Or.inl rfl
      · rw [if_neg deleted]
        by_cases time : field = .deletedAt
        · rw [if_pos time]
          exact Or.inr ⟨time, rfl⟩
        · rw [if_neg time]
          have alone := removal.2 field mem
          rw [Bool.or_eq_true, Bool.not_eq_true', decide_eq_true_eq] at alone
          have same := eq_of_not_different shown (alone.resolve_right (not_or.mpr ⟨deleted, time⟩))
          rw [← same]
          exact knows field mem visible shown
    · rw [List.foldl_cons, List.foldl_nil]
      unfold Entry.apply
      dsimp only
      rw [lookup_map_filter]
      cases differs : isDifferent before after field with
      | true =>
          rw [if_pos ⟨mem, rfl⟩, Option.some_or, shown_of_visible visible]
          exact Or.inl rfl
      | false =>
          have same := eq_of_not_different shown differs
          rw [if_neg (fun both => by cases both.2), Option.none_or, ← same]
          exact knows field mem visible shown

theorem replays_of_no_rows (none : s.rows = []) : s.Replays model := by
  intro pk row found
  rw [none] at found
  cases found

theorem replays_step (replays : s.Replays model) (records : State.Records model s s') : s'.Replays model := by
  rcases records with ⟨new, log, each⟩
  intro pk row' found'
  have trail : replay (ofRecord s'.log pk) = (expected model pk (s.rows.get? pk) (some row')).foldl
      (fun known entry => entry.apply known) (replay (ofRecord s.log pk)) := by
    rw [← found', ← each pk, log]
    unfold ofRecord replay
    rw [List.filter_append, List.foldl_append]
  rw [trail]
  cases found : s.rows.get? pk with
  | none => exact knows_created (replay (ofRecord s.log pk)) row'
  | some row => exact knows_expected (replays pk row found)

/-! ## Runs -/

theorem distinct_step (distinct : s.rows.Distinct) (event : Event) : (s.step model event).rows.Distinct := by
  have saves : ∀ s : State, s.rows.Distinct -> ∀ i updateFields now,
      (s.save model i updateFields now).rows.Distinct := by
    intro s distinct i updateFields now
    unfold State.save
    split
    · exact distinct
    · rename_i inst _
      split
      · exact distinct
      · split
        · rw [(refuse_same i now _).1]
          exact distinct
        · rename_i writes
          unfold State.insert
          dsimp only
          split
          · exact distinct
          · exact distinct.insert (Saves.write_eq_insert.mp writes).2
        · split
          · exact distinct
          · unfold State.update
            dsimp only
            split
            · exact distinct
            · exact distinct.update inst.pk _
  cases event with
  | enter scope => exact distinct
  | construct values => exact distinct
  | load pk deferred =>
      unfold State.step State.load
      dsimp only
      split
      · exact distinct
      · exact distinct
  | assign i field value =>
      have same := (assign_same (s := s) i field value).1
      rw [← same] at distinct
      exact distinct
  | save i updateFields now => exact saves s distinct i updateFields now
  | delete i now =>
      apply saves
      rw [(assign_same i .deletedAt now).1, (assign_same i .isDeleted (.flag true)).1]
      exact distinct
  | deleteWhere selects now =>
      unfold State.step State.deleteWhere
      dsimp only
      split
      · dsimp only
        exact distinct.updateWhere _ _
      · exact distinct

/-- The trail replays, and every step files just what its rows went through,
exactly when every save meets the condition. -/
theorem trail_replays (replays : s.Replays model) (distinct : s.rows.Distinct) (events : List Event) :
    (∀ before event, before ++ [event] <+: events ->
      State.Records model (run (State.step model) s before) (run (State.step model) s (before ++ [event])) ∧
        (run (State.step model) s (before ++ [event])).Replays model) ↔
      everyStep (State.step model) (records model) s events = true := by
  let J : State -> Prop := fun s => s.Replays model ∧ s.rows.Distinct
  have now : J s := ⟨replays, distinct⟩
  have keeps : ∀ s event, records model s event = true -> J s -> J (s.step model event) := by
    rintro s event allowed ⟨replays, distinct⟩
    exact ⟨replays_step replays ((records_step distinct event).mpr allowed), distinct_step distinct event⟩
  constructor
  · intro within
    refine Transitions.everyStep_of_stepLaw (J := J)
      (L := fun s event => State.Records model s (s.step model event)) keeps ?_ now ?_
    · rintro s event ⟨_, distinct⟩ filed
      exact (records_step distinct event).mp filed
    · intro before event earlier
      have filed := (within before event earlier).1
      rw [Transitions.run_concat] at filed
      exact filed
  · rintro passes before event ⟨after, rfl⟩
    have first := (Transitions.everyStep_append.mp passes).1
    rcases Transitions.everyStep_append.mp first with ⟨earlier, last⟩
    rw [Transitions.everyStep_cons, Bool.and_eq_true] at last
    have here := Transitions.run_invariant_of_everyStep (J := J) keeps earlier now
    rw [Transitions.run_concat]
    exact ⟨(records_step here.2 event).mpr last.1, (keeps _ event last.1 here).1⟩

/-! ## Trails that drift -/

def customer : Model where
  fields := [.id, .company, ⟨"legal_name", "legal_name"⟩, .isDeleted, .deletedAt, .updatedAt]
  manager := .tenant
  isCompany := false
  key := List.mem_cons_self

def name : Field := ⟨"legal_name", "legal_name"⟩

def newCustomer : Row := fun field =>
  if field = .company then .other "f" else if field = name then .text "a"
  else if field = .isDeleted then .flag false else .null

def emptyState : State := ⟨[], 1, [], [], ⟨some (.other "f"), false⟩⟩

theorem replays_emptyState : emptyState.Replays customer ∧ emptyState.rows.Distinct :=
  ⟨replays_of_no_rows rfl, List.nodup_nil⟩

/-- One instance is saved twice. -/
def savedTwice : List Event :=
  [.construct newCustomer, .save 0 none (.number 1), .load 1 (fun _ => false), .assign 1 name (.text "b"),
   .save 1 none (.number 2), .assign 1 name (.text "c"), .save 1 none (.number 3)]

/-- The same values, each on an instance that was just loaded. -/
def savedOnce : List Event :=
  [.construct newCustomer, .save 0 none (.number 1), .load 1 (fun _ => false), .assign 1 name (.text "b"),
   .save 1 none (.number 2), .load 1 (fun _ => false), .assign 2 name (.text "c"),
   .save 2 (some [name, .updatedAt]) (.number 3), .load 1 (fun _ => false), .delete 3 (.number 4)]

theorem trail_replays_savedOnce : (∀ before event, before ++ [event] <+: savedOnce ->
      State.Records customer (run (State.step customer) emptyState before)
        (run (State.step customer) emptyState (before ++ [event])) ∧
        (run (State.step customer) emptyState (before ++ [event])).Replays customer) ↔
      everyStep (State.step customer) (records customer) emptyState savedOnce = true :=
  trail_replays replays_emptyState.1 replays_emptyState.2 savedOnce

example : everyStep (State.step customer) (records customer) emptyState savedOnce = true := by decide +kernel

theorem trail_drifts : ¬ ∀ before event, before ++ [event] <+: savedTwice ->
    State.Records customer (run (State.step customer) emptyState before)
      (run (State.step customer) emptyState (before ++ [event])) ∧
      (run (State.step customer) emptyState (before ++ [event])).Replays customer := by
  intro within
  have passes := (trail_replays replays_emptyState.1 replays_emptyState.2 savedTwice).mp within
  revert passes
  decide +kernel

end Audit
end Shiftlush
