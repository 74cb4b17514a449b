import Shiftlush.Inbox.Notifying
import Shiftlush.Transitions
import Shiftlush.Uniqueness

namespace Shiftlush
namespace Inbox

open Transitions (run run_invariant)

/-!
# The e-mails a user chose

A choice is a row that is there or not, live or deleted, under a company the reading page filters
by and the sending code does not.  What it stands for is a function: of a user and a kind, the
flag chosen, if any.  Saving the form replaces that function at its user and nowhere else, and
both readers of the rows read the function.
-/

/-- `uq_notification_preference_per_kind` -/
def Preference.key (row : Preference) : Option (Nat × Kind) := if row.isDeleted then none else some (row.user, row.kind)

/-- What a user chose. -/
def chosen (preferences : Rows Preference) (user : Nat) (kind : Kind) : Option Bool :=
  (choice preferences user kind).map (·.2.email)

theorem key_eq_some {row : Preference} {user : Nat} {kind : Kind} :
    row.key = some (user, kind) ↔ row.user = user ∧ row.kind = kind ∧ row.isDeleted = false := by
  unfold Preference.key
  cases row.isDeleted <;> simp

theorem choice_spec {preferences : Rows Preference} {user : Nat} {kind : Kind} {r : Nat × Preference}
    (found : choice preferences user kind = some r) : r ∈ preferences ∧ r.2.key = some (user, kind) := by
  refine ⟨List.mem_of_find?_eq_some found, key_eq_some.mpr ?_⟩
  have passes := List.find?_some found
  simpa [and_assoc] using passes

theorem choice_eq_none {preferences : Rows Preference} {user : Nat} {kind : Kind} :
    choice preferences user kind = none ↔ ∀ r ∈ preferences, r.2.key ≠ some (user, kind) := by
  unfold choice
  rw [List.find?_eq_none]
  apply forall_congr'
  intro r
  apply imp_congr_right
  intro _
  rw [Ne, key_eq_some]
  simp [and_assoc]

/-- The table of choices, beside the next key and everybody's company. -/
structure Chosen (companyOf : Nat -> Option Nat) (table : Rows Preference × Nat) : Prop where
  distinct : table.1.Distinct
  below : table.1.Below table.2
  unique : Rows.Unique Preference.key table.1
  owned : ∀ r ∈ table.1, companyOf r.2.user = some r.2.company

section Table

variable {companyOf : Nat -> Option Nat} {table : Rows Preference × Nat} {user company : Nat} {kind : Kind}

theorem chosen_eq_some (sound : Chosen companyOf table) {email : Bool} :
    chosen table.1 user kind = some email ↔ ∃ r ∈ table.1, r.2.key = some (user, kind) ∧ r.2.email = email := by
  unfold chosen
  rw [Option.map_eq_some_iff]
  constructor
  · rintro ⟨r, found, rfl⟩
    exact ⟨r, (choice_spec found).1, (choice_spec found).2, rfl⟩
  · rintro ⟨r, mem, keyed, rfl⟩
    cases found : choice table.1 user kind with
    | none => exact absurd keyed (choice_eq_none.mp found r mem)
    | some r' =>
        have spec := choice_spec found
        have same := sound.unique r' spec.1 r mem _ spec.2 keyed
        exact ⟨r', rfl, by rw [Rows.unique sound.distinct spec.1 mem same]⟩

theorem chosen_eq_none : chosen table.1 user kind = none ↔ ∀ r ∈ table.1, r.2.key ≠ some (user, kind) := by
  unfold chosen
  rw [Option.map_eq_none_iff, choice_eq_none]

/-- The page that filters by company and the code that does not read the same row. -/
theorem choice_visible (sound : Chosen companyOf table) (employed : companyOf user = some company) :
    choice (visible company table.1) user kind = choice table.1 user kind := by
  have owned : ∀ r ∈ table.1, r.2.user = user -> r.2.company = company := by
    intro r mem theirs
    have here := sound.owned r mem
    rw [theirs, employed] at here
    exact (Option.some.inj here).symm
  unfold choice visible
  rw [List.find?_filter]
  generalize table.1 = rows at owned ⊢
  induction rows with
  | nil => rfl
  | cons r rows ih =>
      rw [List.find?_cons, List.find?_cons, ih (fun r mem => owned r (List.mem_cons_of_mem _ mem))]
      by_cases theirs : r.2.user = user
      · simp [theirs, owned r List.mem_cons_self theirs]
      · simp [theirs]

/-! ## Saving -/

/-- The table with one user's choice of one kind replaced. -/
structure Replaced (companyOf : Nat -> Option Nat) (table after : Rows Preference × Nat) (user : Nat) (kind : Kind)
    (email : Option Bool) : Prop where
  sound : Chosen companyOf after
  here : chosen after.1 user kind = email
  elsewhere : ∀ user' kind', ¬ (user' = user ∧ kind' = kind) -> chosen after.1 user' kind' = chosen table.1 user' kind'

theorem replaced_insert (sound : Chosen companyOf table) (employed : companyOf user = some company)
    (absent : choice table.1 user kind = none) (email : Bool) :
    Replaced companyOf table (table.1.insert table.2 ⟨company, user, kind, email, false⟩, table.2 + 1) user kind
      (some email) := by
  have new : ∀ r ∈ table.1, r.1 ≠ table.2 := fun r mem same => Nat.ne_of_lt (sound.below.of_mem mem) same
  have free := choice_eq_none.mp absent
  have sound' : Chosen companyOf (table.1.insert table.2 ⟨company, user, kind, email, false⟩, table.2 + 1) := by
    refine ⟨sound.distinct.insert (sound.below.absent (Nat.le_refl _)), sound.below.insert _, ?_, ?_⟩
    · refine sound.unique.insert new (Rows.clashes_eq_false.mpr ?_)
      intro k keyed r mem same
      exact absurd (same.trans keyed.symm) (free r mem)
    · intro r mem
      rcases List.mem_append.mp mem with before | last
      · exact sound.owned r before
      · rw [List.mem_singleton.mp last]
        exact employed
  refine ⟨sound', ?_, ?_⟩
  · exact (chosen_eq_some sound').mpr ⟨_, List.mem_append_right _ List.mem_cons_self, rfl, rfl⟩
  · intro user' kind' other
    apply Option.ext
    intro email'
    rw [chosen_eq_some sound', chosen_eq_some sound]
    constructor
    · rintro ⟨r, mem, keyed, rfl⟩
      rcases List.mem_append.mp mem with before | last
      · exact ⟨r, before, keyed, rfl⟩
      · rw [List.mem_singleton.mp last] at keyed
        have parts := key_eq_some.mp keyed
        exact absurd ⟨parts.1.symm, parts.2.1.symm⟩ other
    · rintro ⟨r, mem, keyed, rfl⟩
      exact ⟨r, List.mem_append_left _ mem, keyed, rfl⟩

theorem replaced_update (sound : Chosen companyOf table) {r : Nat × Preference}
    (found : choice table.1 user kind = some r) (f : Preference -> Preference)
    (same : (f r.2).user = r.2.user ∧ (f r.2).kind = r.2.kind ∧ (f r.2).company = r.2.company) :
    Replaced companyOf table (table.1.update r.1 f, table.2) user kind
      (if (f r.2).isDeleted then none else some (f r.2).email) := by
  rcases choice_spec found with ⟨mem, keyed⟩
  have parts := key_eq_some.mp keyed
  have rows : ∀ r', r' ∈ table.1.update r.1 f ↔ (r' ∈ table.1 ∧ r'.1 ≠ r.1) ∨ r' = (r.1, f r.2) := by
    intro r'
    rw [Rows.mem_update]
    refine or_congr_right ⟨?_, fun eq => ⟨r.2, mem, eq⟩⟩
    rintro ⟨row, listed, rfl⟩
    rw [← Rows.unique sound.distinct listed mem rfl]
  have sound' : Chosen companyOf (table.1.update r.1 f, table.2) := by
    refine ⟨sound.distinct.update r.1 f, ?_, ?_, ?_⟩
    · exact sound.below.of_isSome (fun id => Rows.isSome_get?_update table.1 r.1 id f)
    · apply sound.unique.update
      intro row listed
      rw [Rows.clashes_eq_false]
      intro k at_k r' mem' at_k'
      have here : row = r.2 := congrArg Prod.snd (Rows.unique sound.distinct listed mem rfl)
      have keyed' : r.2.key = some k := by
        rw [here, ← @Prod.mk.eta _ _ k] at at_k
        have live := key_eq_some.mp at_k
        rw [keyed, ← parts.1, ← parts.2.1, ← same.1, ← same.2.1, live.1, live.2.1]
      exact sound.unique r' mem' r mem k at_k' keyed'
    · intro r' mem'
      rcases (rows r').mp mem' with ⟨before, _⟩ | rfl
      · exact sound.owned r' before
      · change companyOf (f r.2).user = some (f r.2).company
        rw [same.1, same.2.2]
        exact sound.owned r mem
  refine ⟨sound', ?_, ?_⟩
  · cases gone : (f r.2).isDeleted with
    | true =>
        rw [if_pos rfl, chosen_eq_none]
        intro r' mem' keyed'
        rcases (rows r').mp mem' with ⟨before, other⟩ | rfl
        · exact other (sound.unique r' before r mem _ keyed' keyed)
        · rw [key_eq_some, gone] at keyed'
          cases keyed'.2.2
    | false =>
        rw [if_neg Bool.false_ne_true]
        refine (chosen_eq_some sound').mpr ⟨_, (rows _).mpr (Or.inr rfl), key_eq_some.mpr ?_, rfl⟩
        exact ⟨same.1.trans parts.1, same.2.1.trans parts.2.1, gone⟩
  · intro user' kind' other
    apply Option.ext
    intro email'
    rw [chosen_eq_some sound', chosen_eq_some sound]
    constructor
    · rintro ⟨r', mem', keyed', rfl⟩
      rcases (rows r').mp mem' with ⟨before, _⟩ | rfl
      · exact ⟨r', before, keyed', rfl⟩
      · have live := key_eq_some.mp keyed'
        exact absurd ⟨live.1.symm.trans (same.1.trans parts.1), live.2.1.symm.trans (same.2.1.trans parts.2.1)⟩ other
    · rintro ⟨r', before, keyed', rfl⟩
      refine ⟨r', (rows r').mpr (Or.inl ⟨before, ?_⟩), keyed', rfl⟩
      intro eq
      rw [Rows.unique sound.distinct before mem eq] at keyed'
      have live := key_eq_some.mp keyed'
      exact other ⟨live.1.symm.trans parts.1, live.2.1.symm.trans parts.2.1⟩

/-- One turn of the loop. -/
theorem replaced_setPreference (sound : Chosen companyOf table) (employed : companyOf user = some company)
    (entries : List (Kind × Bool)) (kind : Kind) :
    Replaced companyOf table (setPreference company user entries table kind) user kind (entries.lookup kind) := by
  unfold setPreference
  rw [choice_visible sound employed]
  cases sent : entries.lookup kind with
  | none =>
      cases found : choice table.1 user kind with
      | none =>
          refine ⟨sound, ?_, fun _ _ _ => rfl⟩
          rw [chosen, found, Option.map_none]
      | some r => exact replaced_update sound found (fun row => { row with isDeleted := true }) ⟨rfl, rfl, rfl⟩
  | some email =>
      cases found : choice table.1 user kind with
      | none => exact replaced_insert sound employed found email
      | some r =>
          have live := (key_eq_some.mp (choice_spec found).2).2.2
          have replaced := replaced_update sound found (fun row => { row with email := email }) ⟨rfl, rfl, rfl⟩
          rw [if_neg (by rw [live]; exact Bool.false_ne_true)] at replaced
          exact replaced

/-- The whole form: its user chose what it says, a kind it leaves out is no choice, and nobody else is touched. -/
theorem chosen_setPreferences (sound : Chosen companyOf table) (employed : companyOf user = some company)
    (entries : List (Kind × Bool)) :
    Chosen companyOf (setPreferences company user entries table) ∧
      ∀ user' kind, chosen (setPreferences company user entries table).1 user' kind =
        if user' = user then entries.lookup kind else chosen table.1 user' kind := by
  have loop : ∀ (kinds : List Kind) (table : Rows Preference × Nat), Chosen companyOf table ->
      Chosen companyOf (kinds.foldl (setPreference company user entries) table) ∧
        ∀ user' kind, chosen (kinds.foldl (setPreference company user entries) table).1 user' kind =
          if user' = user ∧ kind ∈ kinds then entries.lookup kind else chosen table.1 user' kind := by
    intro kinds
    induction kinds with
    | nil => exact fun table sound => ⟨sound, fun user' kind => by simp⟩
    | cons first kinds ih =>
        intro table sound
        have turn := replaced_setPreference sound employed entries first
        rcases ih _ turn.sound with ⟨sound', rest⟩
        refine ⟨sound', ?_⟩
        intro user' kind
        rw [List.foldl_cons, rest]
        by_cases theirs : user' = user
        · by_cases later : kind ∈ kinds
          · simp [theirs, later]
          · by_cases here : kind = first
            · subst here
              simp [theirs, later, turn.here]
            · rw [turn.elsewhere user' kind (fun both => here both.2)]
              simp [theirs, later, here]
        · rw [turn.elsewhere user' kind (fun both => theirs both.1)]
          simp [theirs]
  rcases loop Kind.all table sound with ⟨sound', all_⟩
  refine ⟨sound', ?_⟩
  intro user' kind
  unfold setPreferences
  rw [all_]
  simp only [Kind.mem_all, and_true]

end Table

/-! ## Events -/

def Office.companyOf (office : Office) (user : Nat) : Option Nat := (office.users.get? user).bind User.company

/-- Everybody's choices are rows of their company. -/
def Settled (office : Office) : Prop := Chosen office.companyOf (office.preferences, office.next)

/-- What stays of an office whose preferences nobody has saved. -/
structure Undisturbed (office after : Office) : Prop where
  companies : ∀ user company, office.companyOf user = some company -> after.companyOf user = some company
  preferences : after.preferences = office.preferences
  next : office.next ≤ after.next

theorem settled_undisturbed {office after : Office} (same : Undisturbed office after) (settled : Settled office) :
    Settled after := by
  unfold Settled
  rw [same.preferences]
  exact ⟨settled.distinct, settled.below.mono same.next, settled.unique,
    fun r mem => same.companies _ _ (settled.owned r mem)⟩

theorem undisturbed_of_users {office after : Office} (users : after.users = office.users)
    (preferences : after.preferences = office.preferences) (next : office.next ≤ after.next) :
    Undisturbed office after := by
  refine ⟨fun user company employed => ?_, preferences, next⟩
  unfold Office.companyOf
  rw [users]
  exact employed

theorem notify_keeps {context : Option Nat} {suppressed : Bool} {work work' : Work} {call : Call}
    (ok : notify context suppressed work call = some work') : work'.office.users = work.office.users ∧
      work'.office.preferences = work.office.preferences ∧ work.office.next ≤ work'.office.next := by
  unfold notify at ok
  cases given : call.data with
  | none => simp [given] at ok
  | some data =>
      simp only [given] at ok
      split at ok
      · cases ok
      · cases ok
        exact ⟨rfl, rfl, Nat.le_add_right _ _⟩

theorem calls_keep {context : Option Nat} {suppressed : Bool} {calls : List Call} {work work' : Work}
    (ok : calls.foldlM (notify context suppressed) work = some work') : work'.office.users = work.office.users ∧
      work'.office.preferences = work.office.preferences ∧ work.office.next ≤ work'.office.next := by
  induction calls generalizing work with
  | nil =>
      cases ok
      exact ⟨rfl, rfl, Nat.le_refl _⟩
  | cons call calls ih =>
      rw [List.foldlM_cons] at ok
      rcases Option.bind_eq_some_iff.mp ok with ⟨first, here, later⟩
      have kept := notify_keeps here
      have rest := ih later
      exact ⟨rest.1.trans kept.1, rest.2.1.trans kept.2.1, kept.2.2.trans rest.2.2⟩

theorem undisturbed_deliver (office : Office) (index : Nat) : Undisturbed office (step office (.deliver index)) := by
  simp only [step]
  cases office.queue[index]? with
  | none => exact undisturbed_of_users rfl rfl (Nat.le_refl _)
  | some id =>
      unfold Office.deliver
      dsimp only
      cases office.notifications.find? (fun n => decide (n.id = id)) with
      | none => exact undisturbed_of_users rfl rfl (Nat.le_refl _)
      | some n =>
          dsimp only
          cases office.users.get? n.recipient with
          | none => exact undisturbed_of_users rfl rfl (Nat.le_refl _)
          | some user =>
              dsimp only
              split
              · exact undisturbed_of_users rfl rfl (Nat.le_refl _)
              · exact undisturbed_of_users rfl rfl (Nat.le_refl _)

def Event.saves (user : Nat) : Event -> Bool
  | .setPreferences user' _ => decide (user' = user)
  | _ => false

/-- Every event but one of somebody's saving. -/
theorem undisturbed_step (office : Office) (event : Event) (other : ∀ user, event.saves user = false) :
    Undisturbed office (step office event) := by
  cases event with
  | transaction context suppressed calls commits lost =>
      simp only [step]
      cases result : calls.foldlM (notify context suppressed) ⟨office, []⟩ with
      | none => exact undisturbed_of_users rfl rfl (Nat.le_refl _)
      | some work =>
          have kept := calls_keep result
          dsimp only
          split
          · exact undisturbed_of_users kept.1 kept.2.1 kept.2.2
          · exact undisturbed_of_users rfl rfl (Nat.le_refl _)
  | deliver index => exact undisturbed_deliver office index
  | join id company email =>
      simp only [step]
      split
      · exact undisturbed_of_users rfl rfl (Nat.le_refl _)
      · refine ⟨?_, rfl, Nat.le_refl _⟩
        intro user company' employed
        rcases Option.bind_eq_some_iff.mp employed with ⟨row, found, works⟩
        exact Option.bind_eq_some_iff.mpr ⟨row, Rows.get?_insert_of_some found, works⟩
  | change id isActive isDeleted email =>
      refine ⟨?_, rfl, Nat.le_refl _⟩
      intro user company employed
      rcases Option.bind_eq_some_iff.mp employed with ⟨row, found, works⟩
      unfold Office.companyOf
      simp only [step]
      rw [Rows.get?_update, found]
      split
      · exact works
      · exact works
  | setPreferences user entries =>
      have never := other user
      simp [Event.saves] at never
  | read user id now stale => exact undisturbed_of_users rfl rfl (Nat.le_refl _)
  | readAll user now => exact undisturbed_of_users rfl rfl (Nat.le_refl _)

/-- Somebody's saving: the form is refused whole, or is what they chose from now on. -/
theorem step_setPreferences {office : Office} (settled : Settled office) {user company : Nat}
    (employed : office.companyOf user = some company) (entries : List (Kind × Bool)) :
    let after := step office (.setPreferences user entries)
    (validEntries entries = false -> after = office) ∧
      (validEntries entries = true -> Settled after ∧ after.users = office.users ∧
        ∀ user' kind, chosen after.preferences user' kind =
          if user' = user then entries.lookup kind else chosen office.preferences user' kind) := by
  intro after
  have found : (office.users.get? user).bind User.company = some company := employed
  have result : after = if validEntries entries then
      { office with
        preferences := (setPreferences company user entries (office.preferences, office.next)).1
        next := (setPreferences company user entries (office.preferences, office.next)).2 } else office := by
    change step office (.setPreferences user entries) = _
    simp only [step, found]
  rw [result]
  constructor
  · intro refused
    rw [refused]
    rfl
  · intro valid
    rw [valid]
    have saved := chosen_setPreferences settled employed entries
    exact ⟨saved.1, rfl, saved.2⟩

/-- Saving under no company is refused before it writes. -/
theorem step_unemployed {office : Office} {user : Nat} (unemployed : office.companyOf user = none)
    (entries : List (Kind × Bool)) : step office (.setPreferences user entries) = office := by
  have found : (office.users.get? user).bind User.company = none := unemployed
  simp only [step, found]

/-- What one event does to the choices of a user who does not save in it. -/
theorem step_other {office : Office} (settled : Settled office) (event : Event) :
    Settled (step office event) ∧
      (∀ user company, office.companyOf user = some company -> (step office event).companyOf user = some company) ∧
      ∀ user, event.saves user = false ->
        ∀ kind, chosen (step office event).preferences user kind = chosen office.preferences user kind := by
  by_cases nobody : ∀ user, event.saves user = false
  · have same := undisturbed_step office event nobody
    refine ⟨settled_undisturbed same settled, same.companies, ?_⟩
    intro user _ kind
    rw [same.preferences]
  · have unchanged : ∀ after, after = office -> Settled after ∧
        (∀ user company, office.companyOf user = some company -> after.companyOf user = some company) ∧
        ∀ user, event.saves user = false ->
          ∀ kind, chosen after.preferences user kind = chosen office.preferences user kind := by
      rintro after rfl
      exact ⟨settled, fun _ _ employed => employed, fun _ _ _ => rfl⟩
    cases event with
    | setPreferences saver entries =>
        cases employed : office.companyOf saver with
        | none => exact unchanged _ (step_unemployed employed entries)
        | some company =>
            have saved := step_setPreferences settled employed entries
            cases valid : validEntries entries with
            | false => exact unchanged _ (saved.1 valid)
            | true =>
                rcases saved.2 valid with ⟨settled', users, choices⟩
                refine ⟨settled', ?_, ?_⟩
                · intro user company' works
                  unfold Office.companyOf
                  rw [users]
                  exact works
                · intro user other kind
                  have different : ¬ user = saver := fun same => of_decide_eq_false other same.symm
                  rw [choices, if_neg different]
    | transaction context suppressed calls commits lost => exact absurd (fun _ => rfl) nobody
    | deliver index => exact absurd (fun _ => rfl) nobody
    | join id company email => exact absurd (fun _ => rfl) nobody
    | change id isActive isDeleted email => exact absurd (fun _ => rfl) nobody
    | read user id now stale => exact absurd (fun _ => rfl) nobody
    | readAll user now => exact absurd (fun _ => rfl) nobody

/-! ## Runs -/

theorem settled_empty : Settled Office.empty := by
  refine ⟨List.nodup_nil, ?_, Rows.unique_nil, fun _ mem => absurd mem List.not_mem_nil⟩
  exact fun _ here => absurd here Bool.false_ne_true

theorem settled_run (events : List Event) : Settled (run step Office.empty events) :=
  @run_invariant _ _ step Settled (fun _ event settled => (step_other settled event).1) _ events settled_empty

/-- A choice stands until its own user saves the form again. -/
theorem chosen_run {office : Office} (settled : Settled office) {user : Nat} {later : List Event}
    (other : ∀ event ∈ later, event.saves user = false) (kind : Kind) :
    chosen (run step office later).preferences user kind = chosen office.preferences user kind := by
  induction later generalizing office with
  | nil => rfl
  | cons event later ih =>
      have first := step_other settled event
      change chosen (run step (step office event) later).preferences user kind = _
      rw [ih first.1 (fun event mem => other event (List.mem_cons_of_mem _ mem)),
        first.2.2 user (other event List.mem_cons_self)]

theorem mem_of_lookup {entries : List (Kind × Bool)} {kind : Kind} {email : Bool}
    (sent : entries.lookup kind = some email) : (kind, email) ∈ entries := by
  rcases List.lookup_eq_some_iff.mp sent with ⟨before, after, rfl, _⟩
  exact List.mem_append_right _ List.mem_cons_self

/-- No form gets through that a locked kind would overrule. -/
theorem locked_of_valid {entries : List (Kind × Bool)} (valid : validEntries entries = true) (kind : Kind) :
    (kind.emailAlways || (entries.lookup kind).getD kind.emailDefault) =
      (entries.lookup kind).getD kind.emailDefault := by
  cases always : kind.emailAlways with
  | false => rfl
  | true =>
      have default_ : kind.emailDefault = true := by cases kind <;> first | rfl | cases always
      cases sent : entries.lookup kind with
      | none => rw [Option.getD_none, default_, Bool.or_true]
      | some email =>
          rw [validEntries, Bool.and_eq_true, List.all_eq_true] at valid
          have allowed := valid.2 _ (mem_of_lookup sent)
          simpa [always] using allowed

/-- In every state reached, the settings page shows a user, kind by kind, exactly what the sending
code asks.  A form that is saved is what both say from then on, a kind left out being its default,
whatever happens until the same user saves again; it changes nobody else's choices, and a form that
is refused changes none. -/
theorem preferences_honoured (events : List Event) {user company : Nat}
    (employed : (run step Office.empty events).companyOf user = some company) :
    let office := run step Office.empty events
    preferencesFor office.preferences company user =
        Kind.all.map (fun kind => ⟨kind, wantsEmail office.preferences kind user, kind.emailAlways⟩) ∧
      ∀ entries, let after := step office (.setPreferences user entries)
        (validEntries entries = false -> after = office) ∧
          (validEntries entries = true ->
            (∀ other, other ≠ user -> ∀ kind,
              chosen after.preferences other kind = chosen office.preferences other kind) ∧
            ∀ later : List Event, (∀ event ∈ later, event.saves user = false) ->
              ∀ kind, chosen (run step after later).preferences user kind = entries.lookup kind ∧
                wantsEmail (run step after later).preferences kind user =
                  (entries.lookup kind).getD kind.emailDefault) := by
  intro office
  have settled : Settled office := settled_run events
  constructor
  · apply List.map_congr_left
    intro kind _
    rw [choice_visible settled employed]
    rfl
  · intro entries after
    have saved := step_setPreferences settled employed entries
    refine ⟨saved.1, ?_⟩
    intro valid
    rcases saved.2 valid with ⟨settled', _, choices⟩
    constructor
    · intro other different kind
      rw [choices, if_neg different]
    · intro later others kind
      have stands : chosen (run step after later).preferences user kind = entries.lookup kind := by
        rw [chosen_run settled' others, choices, if_pos rfl]
      refine ⟨stands, ?_⟩
      change (kind.emailAlways || (chosen _ user kind).getD kind.emailDefault) = _
      rw [stands]
      exact locked_of_valid valid kind

theorem preferences_honoured_ayse :
    wantsEmail (run step Office.empty [.join 1 (some 7) "ayse@example.com",
      .setPreferences 1 [(.invoiceDraftsReady, false)], .change 1 false false "ayse@example.com"]).preferences
        .invoiceDraftsReady 1 = false :=
  ((((@preferences_honoured [.join 1 (some 7) "ayse@example.com"] 1 7 rfl).2
    [(.invoiceDraftsReady, false)]).2 rfl).2 [.change 1 false false "ayse@example.com"] (by simp [Event.saves])
      .invoiceDraftsReady).2

end Inbox
end Shiftlush
