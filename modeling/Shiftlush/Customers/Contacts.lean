import Shiftlush.Customers.Records
import Shiftlush.Saves
import Shiftlush.Transitions

namespace Shiftlush
namespace Customers
namespace Contacts

/-!
# The contacts of a customer

`CustomerContactWriteSerializer` and `demote_other_primaries`.  As for the customers, a request
is checked at one moment and written at a later one.  The write is a transaction: one that makes
a contact primary first reads who else is, then demotes each of these by its key, and inserts or
updates.  Nothing is locked in between, and what others have committed since is there when it
writes; a refusal takes all of it back.
-/

structure Contact where
  company : Nat
  customer : Nat
  fullName : String
  phone : String
  email : String
  isPrimary : Bool
  receivesMonthlyReport : Bool
  isDeleted : Bool
  deriving DecidableEq

/-- What a body sets; `/customers/{id}/contacts` takes the customer from the path. -/
structure Attrs where
  customer : Option Nat := none
  fullName : Option String := none
  phone : Option String := none
  email : Option String := none
  isPrimary : Option Bool := none
  receivesMonthlyReport : Option Bool := none

inductive ErrorCode
  | required
  | blank
  | doesNotExist
  | invalidPhone
  | monthlyReportNeedsEmail
  deriving DecidableEq

inductive Field
  | customer
  | fullName
  | phone
  | receivesMonthlyReport
  deriving DecidableEq

/-- What the code takes from elsewhere: Unicode, and the company of each customer. -/
structure World where
  unicode : Address.Unicode
  companyOf : Nat -> Nat

section Code

variable (world : World)

/-- `normalize_email(value) if value else value` -/
def validateEmail (value : String) : String := if value = "" then value else world.unicode.lower (strip value)

/-- `normalize_phone(value) if value else value` -/
def validatePhone (value : String) : Except Validators.ErrorCode String :=
  if value = "" then .ok value else Validators.normalizePhone value

/-- The fields, each by itself. -/
def fieldErrors (company : Nat) (creating : Bool) (attrs : Attrs) : List (Field × ErrorCode) :=
  (match attrs.customer with
    | none => if creating then [(.customer, .required)] else []
    | some customer => if world.companyOf customer = company then [] else [(.customer, .doesNotExist)]) ++
  (match attrs.fullName with
    | none => if creating then [(.fullName, .required)] else []
    | some fullName => if fullName = "" then [(.fullName, .blank)] else []) ++
  (if attrs.phone.any (fun phone => !(validatePhone phone).isOk) then [(.phone, .invalidPhone)] else [])

/-- What the fields make of the values that pass. -/
def converted (attrs : Attrs) : Attrs :=
  { attrs with
    email := attrs.email.map (validateEmail world)
    phone := attrs.phone.bind (fun phone => (validatePhone phone).toOption) }

def Attrs.onto (attrs : Attrs) (row : Contact) : Contact :=
  { row with
    customer := attrs.customer.getD row.customer
    fullName := attrs.fullName.getD row.fullName
    phone := attrs.phone.getD row.phone
    email := attrs.email.getD row.email
    isPrimary := attrs.isPrimary.getD row.isPrimary
    receivesMonthlyReport := attrs.receivesMonthlyReport.getD row.receivesMonthlyReport }

def blankContact (company : Nat) : Contact where
  company := company
  customer := 0
  fullName := ""
  phone := ""
  email := ""
  isPrimary := false
  receivesMonthlyReport := false
  isDeleted := false

/-- Clearing the address of a ticked contact unticks it. -/
def unticked (email : String) (attrs : Attrs) : Attrs :=
  if attrs.email.isSome && decide (email = "") && attrs.receivesMonthlyReport.isNone then
    { attrs with receivesMonthlyReport := some false }
  else attrs

/-- `is_valid`, and the row that is then to be written. -/
def validate (company : Nat) (record : Option Contact) (body : Attrs) : Except (List (Field × ErrorCode)) Contact :=
  let errors := fieldErrors world company record.isNone body
  if errors ≠ [] then .error errors
  else
    let attrs := converted world body
    let email := attrs.email.getD ((record.map (·.email)).getD "")
    let attrs := unticked email attrs
    let wants := attrs.receivesMonthlyReport.getD ((record.map (·.receivesMonthlyReport)).getD false)
    if wants && decide (email = "") then .error [(.receivesMonthlyReport, .monthlyReportNeedsEmail)]
    else .ok (attrs.onto (record.getD (blankContact company)))

/-! ## The register -/

/-- `uq_customer_primary_contact` -/
def primaryKey (row : Contact) : Option Nat := if row.isPrimary && !row.isDeleted then some row.customer else none

/-- `CustomerContact.objects` -/
def visible (company : Nat) (row : Contact) : Bool := decide (row.company = company) && !row.isDeleted

def Contact.demoted (row : Contact) : Contact := { row with isPrimary := false }

/-- A save of a contact that was read, through the manager of its company.  No contact leaves its
table, so none is inserted. -/
def save (company : Nat) (kind : Saves.Kind) (id : Nat) (f : Contact -> Contact) (rows : Rows Contact) :
    Option (Rows Contact) :=
  match Saves.write (visible company) kind (rows.get? id) with
  | .ok _ => some (rows.update id f)
  | .error _ => none

/-- The contacts that `demote_other_primaries` reads. -/
def otherPrimaries (company customer : Nat) (keep : Option Nat) (rows : Rows Contact) : List Nat :=
  (rows.filter (fun r => visible company r.2 && decide (r.2.customer = customer) && r.2.isPrimary &&
    decide (some r.1 ≠ keep))).map Prod.fst

/-- What `demote_other_primaries` does with them: `save(update_fields=["is_primary", "updated_at"])` -/
def demoteOtherPrimaries (company : Nat) (found : List Nat) (rows : Rows Contact) : Option (Rows Contact) :=
  found.foldlM (fun rows id => save company .named id Contact.demoted rows) rows

/-- A request that was valid: the row it is to write, and the record it read. -/
inductive Pending
  | insert (row : Contact)
  | update (id : Nat) (record row : Contact)
  deriving DecidableEq

def Pending.row : Pending -> Contact
  | .insert row => row
  | .update _ _ row => row

/-- The write makes its contact primary. -/
def Pending.demotes : Pending -> Bool
  | .insert row => row.isPrimary
  | .update _ record row => row.isPrimary && !record.isPrimary

/-- `instance.customer`, or the customer of the body. -/
def Pending.customer : Pending -> Nat
  | .insert row => row.customer
  | .update _ record _ => record.customer

/-- `keep_pk` -/
def Pending.keep : Pending -> Option Nat
  | .insert _ => none
  | .update id _ _ => some id

/-- A request that was valid, and the primary contacts its transaction has read. -/
structure Transaction where
  pending : Pending
  found : Option (List Nat)
  deriving DecidableEq

structure Register where
  rows : Rows Contact
  next : Nat
  pending : List Transaction

def Register.empty : Register := ⟨[], 1, []⟩

inductive Event
  | create (company : Nat) (body : Attrs)
  | update (company id : Nat) (body : Attrs)
  /-- A request that was valid goes on. -/
  | advance (index : Nat)
  | destroy (company id : Nat)

/-- `get_object` -/
def Register.find (register : Register) (company id : Nat) : Option Contact :=
  (register.rows.get? id).filter (visible company)

/-- A transaction that has begun, and read the others. -/
def Register.select (register : Register) (pending : Pending) : Transaction :=
  ⟨pending, some (otherPrimaries pending.row.company pending.customer pending.keep register.rows)⟩

/-- The rows that a transaction finds when it comes to its own. -/
def Register.demoted (register : Register) (transaction : Transaction) : Option (Rows Contact) :=
  demoteOtherPrimaries transaction.pending.row.company (transaction.found.getD []) register.rows

/-- The `INSERT` or the `UPDATE`, which the constraint may refuse. -/
def Register.write (register : Register) (pending : Pending) (rows : Rows Contact) : Option Register :=
  match pending with
  | .insert row =>
      if Rows.clashes primaryKey rows register.next row then none
      else some { register with rows := rows.insert register.next row, next := register.next + 1 }
  | .update id _ row =>
      if Rows.clashes primaryKey rows id row then none
      else (save row.company .whole id (fun _ => row) rows).map (fun rows => { register with rows := rows })

/-- `create` and `update`, to the commit. -/
def Register.perform (register : Register) (transaction : Transaction) : Option Register :=
  (register.demoted transaction).bind (register.write transaction.pending)

def Register.await (register : Register) (pending : Pending) : Register :=
  { register with pending := register.pending ++ [⟨pending, none⟩] }

def Register.ends (register : Register) (index : Nat) : Register :=
  { register with pending := register.pending.eraseIdx index }

/-- A transaction reads, and then writes. -/
def Register.advance (register : Register) (index : Nat) (transaction : Transaction) : Register :=
  if transaction.pending.demotes && transaction.found.isNone then
    { register with pending := register.pending.set index (register.select transaction.pending) }
  else ((register.ends index).perform transaction).getD (register.ends index)

def Contact.deleted (row : Contact) : Contact := { row with isDeleted := true }

def step (register : Register) : Event -> Register
  | .create company body =>
      match validate world company none body with
      | .ok row => register.await (.insert row)
      | .error _ => register
  | .update company id body =>
      match register.find company id with
      | none => register
      | some record =>
          match validate world company (some record) body with
          | .ok row => register.await (.update id record row)
          | .error _ => register
  | .advance index =>
      match register.pending[index]? with
      | none => register
      | some transaction => register.advance index transaction
  | .destroy company id =>
      if (register.find company id).isSome then
        { register with rows := register.rows.update id Contact.deleted }
      else register

def reached (events : List Event) : Register := events.foldl (step world) .empty

end Code

/-! ## What holds of every contact -/

structure Contact.Sound (world : World) (row : Contact) : Prop where
  company : world.companyOf row.customer = row.company
  email : row.receivesMonthlyReport = true -> row.email ≠ ""

/-- What a request is to write, and what it read. -/
def Pending.Sound (world : World) : Pending -> Prop
  | .insert row => row.Sound world
  | .update _ record row => record.Sound world ∧ row.Sound world ∧ row.company = record.company

structure Register.Sound (world : World) (register : Register) : Prop where
  below : register.rows.Below register.next
  distinct : register.rows.Distinct
  primary : Rows.Unique primaryKey register.rows
  rows : ∀ r ∈ register.rows, r.2.Sound world
  pending : ∀ transaction ∈ register.pending, transaction.pending.Sound world

section Sound

variable {world : World} {register : Register}

theorem unticked_eq (email : String) (attrs : Attrs) : (unticked email attrs).customer = attrs.customer ∧
    (unticked email attrs).email = attrs.email := by
  unfold unticked
  split
  · exact ⟨rfl, rfl⟩
  · exact ⟨rfl, rfl⟩

/-- A body that passes names a customer of the company, or leaves the one there is. -/
theorem customer_checked {company : Nat} {record : Option Contact} {body : Attrs}
    (before : ∀ r, record = some r -> r.Sound world ∧ r.company = company)
    (passes : fieldErrors world company record.isNone body = []) :
    world.companyOf (body.customer.getD (record.getD (blankContact company)).customer) = company := by
  simp only [fieldErrors, List.append_eq_nil_iff] at passes
  have checked := passes.1.1
  cases named : body.customer with
  | some customer =>
      rw [named] at checked
      by_contra other
      have refused : ¬world.companyOf customer = company := other
      dsimp only at checked
      rw [if_neg refused] at checked
      cases checked
  | none =>
      cases record with
      | none =>
          rw [named] at checked
          cases checked
      | some r => exact ((before r rfl).1.company).trans (before r rfl).2

theorem company_base {company : Nat} {record : Option Contact}
    (before : ∀ r, record = some r -> r.Sound world ∧ r.company = company) :
    (record.getD (blankContact company)).company = company := by
  cases record with
  | none => rfl
  | some r => exact (before r rfl).2

theorem validate_ok {company : Nat} {record : Option Contact} {body : Attrs} {row : Contact}
    (before : ∀ r, record = some r -> r.Sound world ∧ r.company = company)
    (ok : validate world company record body = .ok row) : row.Sound world ∧ row.company = company := by
  unfold validate at ok
  dsimp only at ok
  split at ok
  · cases ok
  rename_i fields
  split at ok
  · cases ok
  rename_i wanted
  cases ok
  have email : (record.map (·.email)).getD "" = (record.getD (blankContact company)).email := by cases record <;> rfl
  have wants : (record.map (·.receivesMonthlyReport)).getD false =
      (record.getD (blankContact company)).receivesMonthlyReport := by
    cases record <;> rfl
  rw [email, wants] at wanted
  rw [email]
  refine ⟨⟨?_, ?_⟩, company_base before⟩
  · have named := customer_checked before (not_not.mp fields)
    simp only [Attrs.onto, (unticked_eq _ _).1, company_base before]
    exact named
  · intro receives empty
    simp only [Attrs.onto, (unticked_eq _ _).2] at receives empty
    exact wanted (by rw [receives, empty]; rfl)

/-! ## One event -/

theorem primaryKey_eq_some {row : Contact} {customer : Nat} :
    primaryKey row = some customer ↔ row.isPrimary = true ∧ row.isDeleted = false ∧ row.customer = customer := by
  unfold primaryKey
  cases row.isPrimary <;> cases row.isDeleted <;> simp

theorem primaryKey_demoted (row : Contact) : primaryKey row.demoted = none := rfl

theorem Contact.Sound.demoted {row : Contact} (sound : row.Sound world) : row.demoted.Sound world :=
  ⟨sound.company, sound.email⟩

theorem save_eq_some {company id : Nat} {kind : Saves.Kind} {f : Contact -> Contact} {rows rows' : Rows Contact}
    (saved : save company kind id f rows = some rows') : rows' = rows.update id f := by
  unfold save at saved
  split at saved
  · cases saved
    rfl
  · cases saved

/-- What a write finds when it has demoted. -/
structure Cleared (world : World) (next : Nat) (rows : Rows Contact) : Prop where
  below : rows.Below next
  distinct : rows.Distinct
  primary : Rows.Unique primaryKey rows
  rows : ∀ r ∈ rows, r.2.Sound world

theorem Cleared.demote {next : Nat} {rows : Rows Contact} (cleared : Cleared world next rows) (id : Nat) :
    Cleared world next (rows.update id Contact.demoted) := by
  refine ⟨?_, cleared.distinct.update id _, ?_, ?_⟩
  · exact cleared.below.of_isSome (fun id' => Rows.isSome_get?_update _ id id' _)
  · apply cleared.primary.fade
    intro row k keyed
    rw [primaryKey_demoted] at keyed
    cases keyed
  · intro r mem
    rcases Rows.mem_update.mp mem with ⟨before, _⟩ | ⟨row, before, rfl⟩
    · exact cleared.rows r before
    · exact (cleared.rows _ before).demoted

theorem Register.Sound.demoted (sound : register.Sound world) {transaction : Transaction} {rows : Rows Contact}
    (done : register.demoted transaction = some rows) : Cleared world register.next rows := by
  refine Transitions.foldlM_invariant (J := Cleared world register.next) ?_ done
    ⟨sound.below, sound.distinct, sound.primary, sound.rows⟩
  intro rows id rows' _ cleared saved
  rw [save_eq_some saved]
  exact cleared.demote id

theorem Register.Sound.perform (sound : register.Sound world) {transaction : Transaction}
    (fit : transaction.pending.Sound world) {register' : Register}
    (done : register.perform transaction = some register') : register'.Sound world := by
  rcases Option.bind_eq_some_iff.mp done with ⟨rows, demoted, written⟩
  have cleared := sound.demoted demoted
  unfold Register.write at written
  cases asked : transaction.pending with
  | insert row =>
      rw [asked] at written fit
      dsimp only at written
      split at written
      · cases written
      rename_i free
      cases written
      have absent : ∀ r ∈ rows, r.1 ≠ register.next := fun r mem => Nat.ne_of_lt (cleared.below.of_mem mem)
      refine ⟨cleared.below.insert row, cleared.distinct.insert (cleared.below.absent (Nat.le_refl _)),
        cleared.primary.insert absent (Bool.not_eq_true _ ▸ free), ?_, sound.pending⟩
      intro r mem
      rcases List.mem_append.mp mem with before | last
      · exact cleared.rows r before
      · rw [List.mem_singleton.mp last]
        exact fit
  | update id record row =>
      rw [asked] at written fit
      dsimp only at written
      split at written
      · cases written
      rename_i free
      rcases Option.map_eq_some_iff.mp written with ⟨rows', saved, rfl⟩
      have becomes : Cleared world register.next (rows.update id (fun _ => row)) := by
        refine ⟨?_, cleared.distinct.update id _, cleared.primary.update (fun _ _ => Bool.not_eq_true _ ▸ free), ?_⟩
        · exact cleared.below.of_isSome (fun id' => Rows.isSome_get?_update rows id id' _)
        · intro r mem
          rcases Rows.mem_update.mp mem with ⟨before, _⟩ | ⟨_, _, rfl⟩
          · exact cleared.rows r before
          · exact fit.2.1
      rw [save_eq_some saved]
      exact ⟨becomes.below, becomes.distinct, becomes.primary, becomes.rows, sound.pending⟩

theorem mem_of_find {company id : Nat} {record : Contact} (found : register.find company id = some record) :
    (id, record) ∈ register.rows ∧ record.company = company := by
  rcases Option.filter_eq_some_iff.mp found with ⟨listed, seen⟩
  simp only [visible, Bool.and_eq_true, decide_eq_true_eq] at seen
  exact ⟨Rows.mem_of_get? listed, seen.1⟩

theorem Register.Sound.await (sound : register.Sound world) {pending : Pending} (fit : pending.Sound world) :
    (register.await pending).Sound world := by
  refine ⟨sound.below, sound.distinct, sound.primary, sound.rows, ?_⟩
  intro pending' mem
  rcases List.mem_append.mp mem with before | last
  · exact sound.pending pending' before
  · rw [List.mem_singleton.mp last]
    exact fit

theorem Register.Sound.ends (sound : register.Sound world) (index : Nat) : (register.ends index).Sound world :=
  ⟨sound.below, sound.distinct, sound.primary, sound.rows,
    fun transaction mem => sound.pending transaction (List.mem_of_mem_eraseIdx mem)⟩

theorem Register.Sound.advance (sound : register.Sound world) {index : Nat} {transaction : Transaction}
    (listed : register.pending[index]? = some transaction) : (register.advance index transaction).Sound world := by
  have fit := sound.pending transaction (List.mem_of_getElem? listed)
  unfold Register.advance
  split
  · refine ⟨sound.below, sound.distinct, sound.primary, sound.rows, ?_⟩
    intro transaction' mem
    rcases List.mem_or_eq_of_mem_set mem with before | rfl
    · exact sound.pending transaction' before
    · exact fit
  · cases done : (register.ends index).perform transaction with
    | none => exact sound.ends index
    | some register' => exact (sound.ends index).perform fit done

theorem Register.Sound.delete (sound : register.Sound world) (id : Nat) :
    ({ register with rows := register.rows.update id Contact.deleted } : Register).Sound world := by
  have primary : Rows.Unique primaryKey (register.rows.update id Contact.deleted) := by
    refine sound.primary.update (fun row _ => Rows.clashes_eq_false.mpr (fun k keyed => ?_))
    have live := (primaryKey_eq_some.mp keyed).2.1
    cases live
  refine ⟨?_, sound.distinct.update id _, primary, ?_, sound.pending⟩
  · apply sound.below.of_isSome
    exact fun id' => Rows.isSome_get?_update _ id id' _
  · intro r mem
    rcases Rows.mem_update.mp (show r ∈ register.rows.update id Contact.deleted from mem) with
      ⟨before, _⟩ | ⟨row, before, rfl⟩
    · exact sound.rows r before
    · exact ⟨(sound.rows _ before).company, (sound.rows _ before).email⟩

theorem Register.Sound.step (sound : register.Sound world) (event : Event) :
    (Contacts.step world register event).Sound world := by
  cases event with
  | create company body =>
      simp only [Contacts.step]
      split
      · rename_i row valid
        exact sound.await (validate_ok (fun _ none_ => by cases none_) valid).1
      · exact sound
  | update company id body =>
      simp only [Contacts.step]
      split
      · exact sound
      · rename_i record found
        have read := mem_of_find found
        have fit := sound.rows _ read.1
        split
        · rename_i row valid
          have checked := validate_ok (fun r same => by cases same; exact ⟨fit, read.2⟩) valid
          exact sound.await ⟨fit, checked.1, checked.2.trans read.2.symm⟩
        · exact sound
  | advance index =>
      simp only [Contacts.step]
      split
      · exact sound
      · rename_i transaction listed
        exact sound.advance listed
  | destroy company id =>
      simp only [Contacts.step]
      split
      · exact sound.delete id
      · exact sound

theorem sound_empty : Register.empty.Sound world :=
  ⟨fun _ here => absurd here Bool.false_ne_true, List.nodup_nil, Rows.unique_nil, fun _ mem => absurd mem List.not_mem_nil,
    fun _ mem => absurd mem List.not_mem_nil⟩

theorem sound_reached (events : List Event) : (reached world events).Sound world := by
  unfold reached
  induction events using List.reverseRecOn with
  | nil => exact sound_empty
  | append_singleton events event ih =>
      rw [List.foldl_append]
      exact ih.step event

/-- Whatever requests are checked and written in whatever order, a customer has one live primary
contact at most, a contact belongs to the company of its customer, and whoever receives the
monthly report has an address. -/
theorem contacts_sound (world : World) (events : List Event) :
    (∀ r ∈ (reached world events).rows, ∀ r' ∈ (reached world events).rows,
      r.2.isPrimary = true -> r'.2.isPrimary = true -> r.2.isDeleted = false -> r'.2.isDeleted = false ->
      r.2.customer = r'.2.customer -> r.1 = r'.1) ∧
      ∀ r ∈ (reached world events).rows,
        world.companyOf r.2.customer = r.2.company ∧ (r.2.receivesMonthlyReport = true -> r.2.email ≠ "") := by
  have sound : (reached world events).Sound world := sound_reached events
  constructor
  · intro r mem r' mem' primary primary' live live' same
    exact sound.primary r mem r' mem' r'.2.customer (primaryKey_eq_some.mpr ⟨primary, live, same⟩)
      (primaryKey_eq_some.mpr ⟨primary', live', rfl⟩)
  · exact fun r mem => ⟨(sound.rows r mem).company, (sound.rows r mem).email⟩

/-! ## Demoting -/

/-- The company sees a contact under the key. -/
def seen (company : Nat) (rows : Rows Contact) (id : Nat) : Bool := ((rows.get? id).filter (visible company)).isSome

theorem save_of_seen {company id : Nat} {kind : Saves.Kind} {f : Contact -> Contact} {rows : Rows Contact}
    (read : kind ≠ .new) (here : seen company rows id = true) :
    save company kind id f rows = some (rows.update id f) := by
  rcases Option.isSome_iff_exists.mp here with ⟨row, found⟩
  rcases Option.filter_eq_some_iff.mp found with ⟨listed, live⟩
  unfold save
  rw [listed, Saves.write_of_shows read live]

theorem save_of_unseen {company id : Nat} {f : Contact -> Contact} {rows : Rows Contact}
    (gone : seen company rows id = false) : save company .named id f rows = none := by
  unfold seen at gone
  unfold save Saves.write
  cases stored : rows.get? id with
  | none => rfl
  | some row =>
      rw [stored, Option.filter_some] at gone
      split at gone
      · cases gone
      · rename_i hidden
        dsimp only
        rw [if_neg hidden]

/-- Demoting changes nothing but who is primary. -/
structure Demoted (found : List Nat) (rows rows' : Rows Contact) : Prop where
  spared : ∀ r ∈ rows, r.1 ∉ found -> r ∈ rows'
  left : ∀ r ∈ rows', r ∈ rows ∨ r.2.isPrimary = false
  taken : ∀ r ∈ rows', r.1 ∈ found -> r.2.isPrimary = false
  seen : ∀ company id, Contacts.seen company rows' id = Contacts.seen company rows id

theorem demoted_nil (rows : Rows Contact) : Demoted [] rows rows :=
  ⟨fun _ mem _ => mem, fun _ mem => Or.inl mem, fun _ _ mem => (by cases mem), fun _ _ => rfl⟩

theorem demoted_one (rows : Rows Contact) (id : Nat) : Demoted [id] rows (rows.update id Contact.demoted) where
  spared := fun r mem other => Rows.mem_update.mpr (Or.inl ⟨mem, fun same => other (List.mem_singleton.mpr same)⟩)
  left := by
    intro r mem
    rcases Rows.mem_update.mp mem with ⟨before, _⟩ | ⟨_, _, rfl⟩
    · exact Or.inl before
    · exact Or.inr rfl
  taken := by
    intro r mem here
    rcases Rows.mem_update.mp mem with ⟨_, other⟩ | ⟨_, _, rfl⟩
    · exact absurd (List.mem_singleton.mp here) other
    · rfl
  seen := by
    intro company id'
    unfold Contacts.seen
    rw [Rows.get?_update]
    split
    · cases rows.get? id' with
      | none => rfl
      | some row =>
          rw [Option.map_some, Option.filter_some, Option.filter_some]
          have same : visible company row.demoted = visible company row := rfl
          rw [same]
          split
          · rfl
          · rfl
    · rfl

theorem Demoted.trans {found found' : List Nat} {rows mid rows' : Rows Contact} (first : Demoted found rows mid)
    (second : Demoted found' mid rows') : Demoted (found ++ found') rows rows' where
  spared := by
    intro r mem other
    rw [List.mem_append, not_or] at other
    exact second.spared r (first.spared r mem other.1) other.2
  left := by
    intro r mem
    rcases second.left r mem with between | plain
    · exact first.left r between
    · exact Or.inr plain
  taken := by
    intro r mem here
    rcases List.mem_append.mp here with before | after
    · rcases second.left r mem with between | plain
      · exact first.taken r between before
      · exact plain
    · exact second.taken r mem after
  seen := fun company id => (second.seen company id).trans (first.seen company id)

/-- What was found is demoted, unless one of them is gone. -/
theorem demoteOtherPrimaries_cases (company : Nat) (found : List Nat) (rows : Rows Contact) :
    (∃ rows', demoteOtherPrimaries company found rows = some rows' ∧ Demoted found rows rows') ∨
      demoteOtherPrimaries company found rows = none ∧ ∃ id ∈ found, seen company rows id = false := by
  unfold demoteOtherPrimaries
  induction found generalizing rows with
  | nil => exact Or.inl ⟨rows, rfl, demoted_nil rows⟩
  | cons id found ih =>
      rw [List.foldlM_cons]
      cases here : seen company rows id with
      | false =>
          right
          rw [save_of_unseen here]
          exact ⟨rfl, id, List.mem_cons_self, here⟩
      | true =>
          rw [save_of_seen (by decide) here]
          have first := demoted_one rows id
          rcases ih (rows.update id Contact.demoted) with ⟨rows', done, rest⟩ | ⟨refused, id', mem, gone⟩
          · exact Or.inl ⟨rows', done, first.trans rest⟩
          · exact Or.inr ⟨refused, id', List.mem_cons_of_mem _ mem, (first.seen company id').symm.trans gone⟩

/-! ## What is refused -/

/-- An update of a contact that was primary already, or that is moved to another customer; or whose
contact is gone. -/
def Pending.Exposed (register : Register) : Pending -> Prop
  | .insert _ => False
  | .update id record row => (row.isPrimary = true ∧ (record.isPrimary = true ∨ row.customer ≠ record.customer)) ∨
      register.find row.company id = none

/-- Since the transaction read the primary contacts of its customer, one has come that it does not
know, or one that it knows has been deleted. -/
def Transaction.Outrun (register : Register) (transaction : Transaction) : Prop :=
  (transaction.pending.demotes = true ∧ ∃ r ∈ register.rows, r.2.isPrimary = true ∧ r.2.isDeleted = false ∧
    r.2.customer = transaction.pending.customer ∧ some r.1 ≠ transaction.pending.keep ∧
    r.1 ∉ transaction.found.getD []) ∨
  ∃ id ∈ transaction.found.getD [], register.find transaction.pending.row.company id = none

theorem find_eq_none {company id : Nat} (gone : seen company register.rows id = false) :
    register.find company id = none := Option.isSome_eq_false_iff.mp gone |> Option.isNone_iff_eq_none.mp

/-- Who is primary after a demotion was so before, and was not found. -/
theorem Demoted.primary {found : List Nat} {rows rows' : Rows Contact} (demoted : Demoted found rows rows')
    {r : Nat × Contact} (mem : r ∈ rows') {customer : Nat} (keyed : primaryKey r.2 = some customer) :
    r ∈ rows ∧ r.1 ∉ found := by
  have parts := primaryKey_eq_some.mp keyed
  constructor
  · rcases demoted.left r mem with before | plain
    · exact before
    · rw [parts.1] at plain
      cases plain
  · intro here
    have plain := demoted.taken r mem here
    rw [parts.1] at plain
    cases plain

theorem clash_exists {rows : Rows Contact} {id : Nat} {row : Contact}
    (clash : Rows.clashes primaryKey rows id row = true) : row.isPrimary = true ∧
      ∃ r ∈ rows, primaryKey r.2 = some row.customer ∧ r.1 ≠ id := by
  by_contra none_
  have free : Rows.clashes primaryKey rows id row = false := by
    refine Rows.clashes_eq_false.mpr (fun k keyed r mem same => ?_)
    have parts := primaryKey_eq_some.mp keyed
    by_contra other
    exact none_ ⟨parts.1, r, mem, parts.2.2 ▸ same, other⟩
  rw [free] at clash
  cases clash

/-- The write itself is refused for a contact that is primary beside its own, or for its own. -/
theorem write_refused {transaction : Transaction} {rows : Rows Contact}
    (demoted : Demoted (transaction.found.getD []) register.rows rows)
    (refused : register.write transaction.pending rows = none) :
    transaction.pending.Exposed register ∨ transaction.Outrun register := by
  cases asked : transaction.pending with
  | insert row =>
      rw [asked] at refused
      simp only [Register.write] at refused
      split at refused
      · rename_i clash
        rcases clash_exists clash with ⟨primary, r, mem, keyed, _⟩
        have before := demoted.primary mem keyed
        have parts := primaryKey_eq_some.mp keyed
        refine Or.inr (Or.inl ⟨?_, r, before.1, parts.1, parts.2.1, ?_, ?_, before.2⟩)
        · rw [asked]
          exact primary
        · rw [asked]
          exact parts.2.2
        · rw [asked]
          exact Option.some_ne_none _
      · cases refused
  | update id record row =>
      rw [asked] at refused
      simp only [Register.write] at refused
      split at refused
      · rename_i clash
        rcases clash_exists clash with ⟨primary, r, mem, keyed, other⟩
        by_cases stays : record.isPrimary = false ∧ row.customer = record.customer
        · have before := demoted.primary mem keyed
          have parts := primaryKey_eq_some.mp keyed
          refine Or.inr (Or.inl ⟨?_, r, before.1, parts.1, parts.2.1, ?_, ?_, before.2⟩)
          · rw [asked]
            change (row.isPrimary && !record.isPrimary) = true
            rw [primary, stays.1]
            rfl
          · rw [asked]
            exact parts.2.2.trans stays.2
          · rw [asked]
            exact fun same => other (Option.some.inj same)
        · refine Or.inl (Or.inl ⟨primary, ?_⟩)
          rw [not_and_or, Bool.not_eq_false] at stays
          exact stays
      · rw [Option.map_eq_none_iff] at refused
        refine Or.inl (Or.inr (find_eq_none ?_))
        rw [← demoted.seen, ← Bool.not_eq_true]
        intro here
        rw [save_of_seen (by decide) here] at refused
        cases refused

theorem perform_refused {transaction : Transaction} (refused : register.perform transaction = none) :
    transaction.pending.Exposed register ∨ transaction.Outrun register := by
  unfold Register.perform at refused
  rcases demoteOtherPrimaries_cases transaction.pending.row.company (transaction.found.getD []) register.rows with
    ⟨rows, done, demoted⟩ | ⟨_, id, mem, gone⟩
  · rw [Register.demoted, done] at refused
    exact write_refused demoted refused
  · exact Or.inr (Or.inr ⟨id, mem, find_eq_none gone⟩)

theorem mem_otherPrimaries {company customer id : Nat} {keep : Option Nat} {rows : Rows Contact} :
    id ∈ otherPrimaries company customer keep rows ↔ ∃ r ∈ rows, r.1 = id ∧ visible company r.2 = true ∧
      r.2.customer = customer ∧ r.2.isPrimary = true ∧ some r.1 ≠ keep := by
  unfold otherPrimaries
  simp only [List.mem_map, List.mem_filter, Bool.and_eq_true, decide_eq_true_eq]
  constructor
  · rintro ⟨r, ⟨mem, ⟨⟨live, own⟩, primary⟩, other⟩, same⟩
    exact ⟨r, mem, same, live, own, primary, other⟩
  · rintro ⟨r, mem, same, live, own, primary, other⟩
    exact ⟨r, ⟨mem, ⟨⟨live, own⟩, primary⟩, other⟩, same⟩

/-- A transaction that has just read is not outrun. -/
theorem not_outrun_select (sound : register.Sound world) {pending : Pending} (fit : pending.Sound world) :
    ¬ (register.select pending).Outrun register := by
  have owner : world.companyOf pending.customer = pending.row.company := by
    cases pending with
    | insert row => exact fit.company
    | update id record row => exact fit.1.company.trans fit.2.2.symm
  rintro (⟨_, r, mem, primary, live, own, other, unknown⟩ | ⟨id, mem, gone⟩)
  · apply unknown
    refine mem_otherPrimaries.mpr ⟨r, mem, rfl, ?_, own, primary, other⟩
    have same : r.2.company = pending.row.company := by
      rw [← (sound.rows r mem).company, own]
      exact owner
    unfold visible
    rw [same, live, decide_eq_true rfl]
    rfl
  · rcases mem_otherPrimaries.mp mem with ⟨r, there, rfl, seen, _⟩
    have here : register.find pending.row.company r.1 = some r.2 :=
      Option.filter_eq_some_iff.mpr ⟨Rows.get?_of_mem sound.distinct there, seen⟩
    have impossible := gone.symm.trans here
    cases impossible

/-- Marking a contact is refused only when it is outrun, or of a contact that was primary already,
is moved or is gone; and nothing that was written before it has read the others is in its way. -/
theorem refused_only (world : World) (events : List Event) (transaction : Transaction)
    (listed : transaction ∈ (reached world events).pending) :
    ((reached world events).perform transaction = none ->
      transaction.pending.Exposed (reached world events) ∨ transaction.Outrun (reached world events)) ∧
    ((reached world events).perform ((reached world events).select transaction.pending) = none ->
      transaction.pending.Exposed (reached world events)) := by
  have sound : (reached world events).Sound world := sound_reached events
  refine ⟨perform_refused, ?_⟩
  intro refused
  rcases perform_refused refused with exposed | outrun
  · exact exposed
  · exact absurd outrun (not_outrun_select sound (sound.pending transaction listed))

/-- The firm of one customer, whose contacts are Ayla and Bora. -/
def oneCustomer : World := ⟨⟨id, Char.isAlphanum⟩, fun _ => 1⟩

/-- Both are marked, and have read that nobody is, when Ayla is written. -/
def markedTwice : List Event :=
  [.create 1 { customer := some 7, fullName := some "Ayla", isPrimary := some true },
    .create 1 { customer := some 7, fullName := some "Bora", isPrimary := some true },
    .advance 0, .advance 1, .advance 0]

/-- Bora is refused. -/
theorem refused_only_twice : ∃ transaction ∈ (reached oneCustomer markedTwice).pending,
    (reached oneCustomer markedTwice).perform transaction = none ∧
      (transaction.pending.Exposed (reached oneCustomer markedTwice) ∨
        transaction.Outrun (reached oneCustomer markedTwice)) := by
  have waiting : (reached oneCustomer markedTwice).pending.any
      (fun transaction => ((reached oneCustomer markedTwice).perform transaction).isNone) = true := by
    decide +kernel
  rcases List.any_eq_true.mp waiting with ⟨transaction, listed, refused⟩
  have refused := Option.isNone_iff_eq_none.mp refused
  exact ⟨transaction, listed, refused, (refused_only oneCustomer markedTwice transaction listed).1 refused⟩

/-! ## Who is left alone -/

def Pending.touches (id : Nat) : Pending -> Bool
  | .insert _ => false
  | .update id' _ _ => decide (id' = id)

/-- The event neither is about the contact nor begins to mark another one of the customer. -/
def leaves (id customer : Nat) (register : Register) : Event -> Bool
  | .advance index =>
      match register.pending[index]? with
      | none => true
      | some transaction =>
          !transaction.pending.touches id && (transaction.found.isSome ||
            !(transaction.pending.demotes && decide (transaction.pending.customer = customer)))
  | .destroy _ id' => decide (id' ≠ id)
  | _ => true

/-- A contact that is there, and that nobody is about to demote. -/
structure Settled (register : Register) (r : Nat × Contact) : Prop where
  stored : r ∈ register.rows
  unfound : ∀ transaction ∈ register.pending, r.1 ∉ transaction.found.getD []

theorem mem_perform {transaction : Transaction} {r : Nat × Contact} (mem : r ∈ register.rows)
    (unfound : r.1 ∉ transaction.found.getD []) (apart : transaction.pending.touches r.1 = false) {register' : Register}
    (done : register.perform transaction = some register') : r ∈ register'.rows := by
  rcases Option.bind_eq_some_iff.mp done with ⟨rows, demoted, written⟩
  have kept : r ∈ rows := by
    rcases demoteOtherPrimaries_cases transaction.pending.row.company (transaction.found.getD []) register.rows with
      ⟨rows', done, becomes⟩ | ⟨refused, _⟩
    · rw [Option.some.inj (demoted.symm.trans done)]
      exact becomes.spared r mem unfound
    · have impossible := demoted.symm.trans refused
      cases impossible
  unfold Register.write at written
  cases asked : transaction.pending with
  | insert row =>
      rw [asked] at written
      dsimp only at written
      split at written
      · cases written
      · cases written
        exact List.mem_append_left _ kept
  | update id record row =>
      rw [asked] at written apart
      dsimp only at written
      split at written
      · cases written
      · rcases Option.map_eq_some_iff.mp written with ⟨rows', saved, rfl⟩
        have there : r ∈ rows.update id (fun _ => row) :=
          Rows.mem_update.mpr (Or.inl ⟨kept, fun same => of_decide_eq_false apart same.symm⟩)
        rw [← save_eq_some saved] at there
        exact there

theorem pending_perform {transaction : Transaction} {register' : Register}
    (done : register.perform transaction = some register') : register'.pending = register.pending := by
  rcases Option.bind_eq_some_iff.mp done with ⟨rows, _, written⟩
  unfold Register.write at written
  split at written
  · split at written
    · cases written
    · cases written
      rfl
  · split at written
    · cases written
    · rcases Option.map_eq_some_iff.mp written with ⟨_, _, rfl⟩
      rfl

theorem Settled.advance {r : Nat × Contact} (settled : Settled register r) (distinct : register.rows.Distinct)
    {index : Nat} {transaction : Transaction} (listed : register.pending[index]? = some transaction)
    (left : leaves r.1 r.2.customer register (.advance index) = true) :
    Settled (register.advance index transaction) r := by
  simp only [leaves, listed, Bool.and_eq_true, Bool.not_eq_true'] at left
  have mem := List.mem_of_getElem? listed
  have ended : Settled (register.ends index) r :=
    ⟨settled.stored, fun transaction mem => settled.unfound transaction (List.mem_of_mem_eraseIdx mem)⟩
  unfold Register.advance
  split
  · rename_i begins
    rw [Bool.and_eq_true, Option.isNone_iff_eq_none] at begins
    refine ⟨settled.stored, ?_⟩
    intro transaction' mem'
    rcases List.mem_or_eq_of_mem_set mem' with before | rfl
    · exact settled.unfound transaction' before
    · intro found
      rcases mem_otherPrimaries.mp found with ⟨r', there, same, _, own, _⟩
      rw [Rows.unique distinct there settled.stored same] at own
      have marks := left.2
      rw [begins.2, begins.1, decide_eq_true own.symm] at marks
      cases marks
  · cases done : (register.ends index).perform transaction with
    | none => exact ended
    | some register' =>
        refine ⟨mem_perform ended.stored (settled.unfound transaction mem) left.1 done, ?_⟩
        intro transaction' mem'
        rw [Option.getD_some, pending_perform done] at mem'
        exact ended.unfound transaction' mem'

theorem Settled.await {r : Nat × Contact} (settled : Settled register r) (pending : Pending) :
    Settled (register.await pending) r := by
  refine ⟨settled.stored, ?_⟩
  intro transaction mem
  rcases List.mem_append.mp mem with before | last
  · exact settled.unfound transaction before
  · rw [List.mem_singleton.mp last]
    exact List.not_mem_nil

theorem Settled.step {r : Nat × Contact} (settled : Settled register r) (distinct : register.rows.Distinct)
    {event : Event}
    (left : leaves r.1 r.2.customer register event = true) : Settled (step world register event) r := by
  cases event with
  | create company body =>
      simp only [Contacts.step]
      split
      · exact settled.await _
      · exact settled
  | update company id body =>
      simp only [Contacts.step]
      split
      · exact settled
      · split
        · exact settled.await _
        · exact settled
  | advance index =>
      simp only [Contacts.step]
      split
      · exact settled
      · rename_i transaction listed
        exact settled.advance distinct listed left
  | destroy company id =>
      simp only [Contacts.step]
      split
      · exact ⟨Rows.mem_update.mpr (Or.inl ⟨settled.stored, fun same => of_decide_eq_true left same.symm⟩), settled.unfound⟩
      · exact settled

/-- A contact, primary or not, stays as it is through any run in which no request is about it
and none begins to mark another contact of its customer, once nobody who has found it is left. -/
theorem contact_kept (world : World) (before later : List Event) (id : Nat) (row : Contact)
    (mem : (id, row) ∈ (reached world before).rows)
    (unfound : ∀ transaction ∈ (reached world before).pending, id ∉ transaction.found.getD [])
    (undisturbed : Transitions.everyStep (step world) (leaves id row.customer) (reached world before) later = true) :
    (id, row) ∈ (reached world (before ++ later)).rows := by
  unfold reached
  rw [List.foldl_append]
  change (id, row) ∈ (later.foldl (step world) (reached world before)).rows
  have sound : (reached world before).Sound world := sound_reached before
  have settled : Settled (reached world before) (id, row) := ⟨mem, unfound⟩
  generalize reached world before = register at undisturbed sound settled
  clear mem unfound
  induction later generalizing register with
  | nil => exact settled.stored
  | cons event later ih =>
      rw [Transitions.everyStep_cons, Bool.and_eq_true] at undisturbed
      exact ih _ undisturbed.2 (sound.step event) (settled.step sound.distinct undisturbed.1)

/-- Ayla, while a contact of another customer is marked. -/
theorem contact_kept_ayla : (1, { blankContact 1 with customer := 7, fullName := "Ayla", isPrimary := true }) ∈
    (reached oneCustomer ([.create 1 { customer := some 7, fullName := some "Ayla", isPrimary := some true },
      .advance 0, .advance 0] ++ [.create 1 { customer := some 8, fullName := some "Cem", isPrimary := some true },
        .advance 0, .advance 0])).rows :=
  contact_kept oneCustomer _ _ 1 _ (by decide +kernel) (by decide +kernel) (by decide +kernel)

end Sound

end Contacts
end Customers
end Shiftlush
