import Shiftlush.Customers.Records

namespace Shiftlush
namespace Customers

/-!
# What holds of every record of the register

What a valid request is to write is fit to be written whatever happens before it is, since it
is the whole row of a record that was fit and what the body sets over it.  That no two records
have one number is up to the constraints; the check alone says so only when nothing comes
between it and the write.
-/

/-- What belongs to a customer follows from its type. -/
def Customer.TypeRules (row : Customer) : Prop :=
  match row.type with
  | .individual => row.taxNumber = "" ∧ row.taxOffice = "" ∧ row.nationalId ≠ ""
  | _ => row.nationalId = ""

structure Customer.Sound (fns : Functions) (row : Customer) : Prop where
  normalized : row.legalNameNormalized = Address.normalize fns.unicode row.legalName
  fingerprint : row.nationalIdFingerprint = fingerprint fns row.nationalId
  rules : row.TypeRules
  taxNumber : row.taxNumber = "" ∨ Validators.validateTaxNumber row.taxNumber = .ok row.taxNumber
  nationalId : row.nationalId = "" ∨ Validators.validateNationalId row.nationalId = .ok row.nationalId

def Pending.row : Pending -> Customer
  | .insert row => row
  | .update _ row => row

structure Register.Sound (fns : Functions) (register : Register) : Prop where
  below : register.rows.Below register.next
  tax : Rows.Unique taxKey register.rows
  national : Rows.Unique nationalKey register.rows
  rows : ∀ r ∈ register.rows, r.2.Sound fns
  pending : ∀ pending ∈ register.pending, pending.row.Sound fns

section Code

variable {fns : Functions}

theorem fingerprint_eq_empty {value : String} : fingerprint fns value = "" ↔ value = "" := by
  unfold fingerprint
  split
  · rename_i empty
    exact ⟨fun _ => empty, fun _ => rfl⟩
  · rename_i given
    exact ⟨fun same => absurd same (fns.digest_ne value), fun empty => absurd empty given⟩

theorem taxKey_eq_some {row : Customer} {k : Nat × String} :
    taxKey row = some k ↔ row.isDeleted = false ∧ row.taxNumber ≠ "" ∧ (row.company, row.taxNumber) = k := by
  unfold taxKey
  cases row.isDeleted with
  | true => simp
  | false => by_cases none_ : row.taxNumber = "" <;> simp [none_]

theorem nationalKey_eq_some {row : Customer} {k : Nat × String} : nationalKey row = some k ↔
    row.isDeleted = false ∧ row.nationalIdFingerprint ≠ "" ∧ (row.company, row.nationalIdFingerprint) = k := by
  unfold nationalKey
  cases row.isDeleted with
  | true => simp
  | false => by_cases none_ : row.nationalIdFingerprint = "" <;> simp [none_]

/-! ## One request -/

theorem isOk_iff {ε α : Type} {result : Except ε α} : result.isOk = true ↔ ∃ a, result = .ok a := by
  cases result with
  | error failure => simp [Except.isOk, Except.toBool]
  | ok a => simp [Except.isOk, Except.toBool]

/-- A number that a request leaves has been checked by it, or by an earlier one. -/
theorem number_checked {check : String -> Except Validators.ErrorCode String}
    (same : ∀ value out, check value = .ok out -> out = value) {value : Option String} {stored : String}
    (passes : refused check value = false) (before : stored = "" ∨ check stored = .ok stored) :
    value.getD stored = "" ∨ check (value.getD stored) = .ok (value.getD stored) := by
  cases value with
  | none => exact before
  | some text =>
      by_cases empty : text = ""
      · exact Or.inl empty
      · have checked : (check text).isOk = true := by simpa [refused, empty] using passes
        rcases isOk_iff.mp checked with ⟨out, accepted⟩
        have out_eq := same text out accepted
        rw [out_eq] at accepted
        exact Or.inr accepted

theorem nationalId_same (value out : String) (ok : Validators.validateNationalId value = .ok out) : out = value :=
  (Validators.validateNationalId_iff.mp ok).1

theorem taxNumber_same (value out : String) (ok : Validators.validateTaxNumber value = .ok out) : out = value := by
  rcases Validators.validateTaxNumber_iff.mp ok with national | ten
  · exact nationalId_same value out national
  · exact ten.1

/-- What the type rules leave of a record that kept them, or of a new one. -/
theorem typeRules_checked {record : Option Customer} {attrs : Attrs} {base : Customer}
    (read : ∀ row, record = some row -> row = base ∧ row.TypeRules)
    (none_ : typeErrors record attrs (attrs.onto base) = []) : (attrs.onto base).TypeRules := by
  unfold Customer.TypeRules
  unfold typeErrors at none_
  cases type : (attrs.onto base).type with
  | individual =>
      simp only [type, List.append_eq_nil_iff, ite_eq_right_iff, List.cons_ne_nil, imp_false, ne_eq, not_not,
        Bool.and_eq_true, decide_eq_true_eq, not_and] at none_
      refine ⟨none_.1.1, none_.1.2, fun empty => ?_⟩
      have untouched : mustBePresent record attrs = false := by
        cases asked : mustBePresent record attrs with
        | false => rfl
        | true => exact absurd empty (none_.2 asked)
      cases record with
      | none => cases untouched
      | some row =>
          rcases read row rfl with ⟨rfl, rules⟩
          simp only [mustBePresent, Bool.or_eq_false_iff] at untouched
          have given : attrs.nationalId = none := by simpa using untouched.1
          have kept : row.type = .individual := by
            rw [← type]
            cases at_type : attrs.type with
            | none => simp [Attrs.onto, at_type]
            | some type' =>
                have same : type' = row.type := by simpa [at_type] using untouched.2
                simp [Attrs.onto, at_type, same]
          have national : (attrs.onto row).nationalId = row.nationalId := by simp [Attrs.onto, given]
          unfold Customer.TypeRules at rules
          rw [kept] at rules
          exact rules.2.2 (national.symm.trans empty)
  | complexManagement =>
      simp only [type, ite_eq_right_iff, List.cons_ne_nil, imp_false, ne_eq, not_not] at none_
      exact none_
  | buildingManagement =>
      simp only [type, ite_eq_right_iff, List.cons_ne_nil, imp_false, ne_eq, not_not] at none_
      exact none_
  | corporate =>
      simp only [type, ite_eq_right_iff, List.cons_ne_nil, imp_false, ne_eq, not_not] at none_
      exact none_
  | public_ =>
      simp only [type, ite_eq_right_iff, List.cons_ne_nil, imp_false, ne_eq, not_not] at none_
      exact none_

/-- A request that is valid, taken apart. -/
structure Valid (fns : Functions) (rows : Rows Customer) (company : Nat) (record : Option (Nat × Customer))
    (attrs : Attrs) (row : Customer) : Prop where
  row : row = (attrs.onto
    ((record.map Prod.snd).getD (blankRecord company (attrs.type.getD .individual)))).derived fns
  tax : refused Validators.validateTaxNumber attrs.taxNumber = false
  national : refused Validators.validateNationalId attrs.nationalId = false
  rules : typeErrors (record.map Prod.snd) attrs (attrs.onto
    ((record.map Prod.snd).getD (blankRecord company (attrs.type.getD .individual)))) = []
  free : identifierError fns rows company (record.map Prod.fst) (attrs.onto
    ((record.map Prod.snd).getD (blankRecord company (attrs.type.getD .individual)))) = none

theorem valid_of_validate {rows : Rows Customer} {company : Nat} {record : Option (Nat × Customer)} {attrs : Attrs}
    {row : Customer} (ok : validate fns rows company record attrs = .ok row) :
    Valid fns rows company record attrs row := by
  unfold validate at ok
  dsimp only at ok
  split at ok
  · cases ok
  rename_i fields
  split at ok
  · cases ok
  rename_i errors
  split at ok
  · cases ok
  rename_i free
  cases ok
  have fields := not_not.mp fields
  unfold fieldErrors at fields
  simp only [List.append_eq_nil_iff, ite_eq_right_iff, List.cons_ne_nil, imp_false, Bool.not_eq_true] at fields
  exact ⟨rfl, fields.1.2, fields.2, not_not.mp errors, free⟩

/-- The row a valid request is to write. -/
theorem sound_of_validate {rows : Rows Customer} {company : Nat} {record : Option (Nat × Customer)} {attrs : Attrs}
    {row : Customer} (before : ∀ r, record = some r -> r.2.Sound fns)
    (ok : validate fns rows company record attrs = .ok row) : row.Sound fns := by
  have valid := valid_of_validate ok
  rw [valid.row]
  have base : ∀ r, record.map Prod.snd = some r ->
      r = (record.map Prod.snd).getD (blankRecord company (attrs.type.getD .individual)) ∧ r.TypeRules := by
    intro r found
    rcases Option.map_eq_some_iff.mp found with ⟨r', listed, rfl⟩
    rw [found]
    exact ⟨rfl, (before r' listed).rules⟩
  refine ⟨rfl, rfl, typeRules_checked base valid.rules, ?_, ?_⟩
  · apply number_checked taxNumber_same valid.tax
    cases record with
    | none => exact Or.inl rfl
    | some r => exact (before r rfl).taxNumber
  · apply number_checked nationalId_same valid.national
    cases record with
    | none => exact Or.inl rfl
    | some r => exact (before r rfl).nationalId

/-! ## One event -/

section Steps

variable {register : Register}

theorem accepted_iff {rows : Rows Customer} {id : Nat} {row : Customer} : accepted rows id row = true ↔
    Rows.clashes taxKey rows id row = false ∧ Rows.clashes nationalKey rows id row = false := by
  unfold accepted
  rw [Bool.and_eq_true, Bool.not_eq_true', Bool.not_eq_true']

theorem Register.Sound.await (sound : register.Sound fns) {pending : Pending} (fit : pending.row.Sound fns) :
    (register.await pending).Sound fns := by
  refine ⟨sound.below, sound.tax, sound.national, sound.rows, ?_⟩
  intro pending' mem
  rcases List.mem_append.mp mem with before | last
  · exact sound.pending pending' before
  · rw [List.mem_singleton.mp last]
    exact fit

theorem Register.Sound.perform (sound : register.Sound fns) {pending : Pending} (fit : pending.row.Sound fns) :
    (register.perform pending).Sound fns := by
  cases pending with
  | insert row =>
      simp only [Register.perform]
      split
      · rename_i free
        have free := accepted_iff.mp free
        have absent : ∀ r ∈ register.rows, r.1 ≠ register.next := fun r mem => Nat.ne_of_lt (sound.below.of_mem mem)
        refine ⟨sound.below.insert row, sound.tax.insert absent free.1, sound.national.insert absent free.2, ?_,
          sound.pending⟩
        intro r mem
        rcases List.mem_append.mp mem with before | last
        · exact sound.rows r before
        · rw [List.mem_singleton.mp last]
          exact fit
      · exact sound
  | update id row =>
      simp only [Register.perform]
      split
      · exact sound
      split
      · rename_i free
        have free := accepted_iff.mp free
        refine ⟨?_, sound.tax.update (fun _ _ => free.1), sound.national.update (fun _ _ => free.2), ?_, sound.pending⟩
        · apply sound.below.of_isSome
          intro id'
          change ((register.rows.update id (fun _ => row)).get? id').isSome = _
          rw [Rows.isSome_get?_update]
        · intro r mem
          rcases Rows.mem_update.mp (show r ∈ register.rows.update id (fun _ => row) from mem) with
            ⟨before, _⟩ | ⟨_, _, rfl⟩
          · exact sound.rows r before
          · exact fit
      · exact sound

theorem taxKey_deleted (row : Customer) : taxKey row.deleted = none := rfl

theorem nationalKey_deleted (row : Customer) : nationalKey row.deleted = none := rfl

/-- A deleted record holds no number, and is otherwise as it was. -/
theorem Register.Sound.delete (sound : register.Sound fns) (id : Nat) : (register.delete id).Sound fns := by
  have tax : Rows.Unique taxKey (register.rows.update id Customer.deleted) := by
    refine sound.tax.update (fun row _ => Rows.clashes_eq_false.mpr (fun k keyed => ?_))
    rw [taxKey_deleted] at keyed
    cases keyed
  have national : Rows.Unique nationalKey (register.rows.update id Customer.deleted) := by
    refine sound.national.update (fun row _ => Rows.clashes_eq_false.mpr (fun k keyed => ?_))
    rw [nationalKey_deleted] at keyed
    cases keyed
  refine ⟨?_, tax, national, ?_, sound.pending⟩
  · apply sound.below.of_isSome
    exact fun id' => Rows.isSome_get?_update _ id id' _
  · intro r mem
    rcases Rows.mem_update.mp (show r ∈ register.rows.update id Customer.deleted from mem) with
      ⟨before, _⟩ | ⟨row, before, rfl⟩
    · exact sound.rows r before
    · have fit := sound.rows _ before
      exact ⟨fit.normalized, fit.fingerprint, fit.rules, fit.taxNumber, fit.nationalId⟩

theorem mem_of_find {company id : Nat} {record : Customer} (found : register.find company id = some record) :
    (id, record) ∈ register.rows ∧ record.company = company ∧ record.isDeleted = false := by
  rcases Option.filter_eq_some_iff.mp found with ⟨listed, seen⟩
  simp only [visible, Bool.and_eq_true, decide_eq_true_eq, Bool.not_eq_true'] at seen
  exact ⟨Rows.mem_of_get? listed, seen.1, seen.2⟩

theorem Register.Sound.step (sound : register.Sound fns) (event : Event) :
    (Customers.step fns register event).Sound fns := by
  cases event with
  | create company attrs =>
      simp only [Customers.step]
      split
      · rename_i row valid
        exact sound.await (sound_of_validate (fun _ none_ => by cases none_) valid)
      · exact sound
  | update company id attrs =>
      simp only [Customers.step]
      split
      · exact sound
      · rename_i record found
        split
        · rename_i row valid
          refine sound.await (sound_of_validate ?_ valid)
          intro r same
          cases same
          exact sound.rows _ (mem_of_find found).1
        · exact sound
  | write index =>
      simp only [Customers.step]
      split
      · exact sound
      · rename_i pending listed
        have fit := sound.pending pending (List.mem_of_getElem? listed)
        have rest : ({ register with pending := register.pending.eraseIdx index } : Register).Sound fns :=
          ⟨sound.below, sound.tax, sound.national, sound.rows,
            fun pending mem => sound.pending pending (List.mem_of_mem_eraseIdx mem)⟩
        exact rest.perform fit
  | destroy company id inUse =>
      simp only [Customers.step]
      split
      · exact sound.delete id
      · exact sound

end Steps

theorem sound_empty : Register.empty.Sound fns :=
  ⟨fun _ here => absurd here Bool.false_ne_true, Rows.unique_nil, Rows.unique_nil,
    fun _ mem => absurd mem List.not_mem_nil, fun _ mem => absurd mem List.not_mem_nil⟩

theorem sound_reached (events : List Event) : (reached fns events).Sound fns := by
  unfold reached
  induction events using List.reverseRecOn with
  | nil => exact sound_empty
  | append_singleton events event ih =>
      rw [List.foldl_append]
      exact ih.step event

/-! ## The register's rules -/

/-- Whatever requests were checked and written in whatever order, no two live customers of a
company have one tax number or one national number, and every record has the columns derived
from its own, numbers with their check digits, and what its type asks for. -/
theorem register_sound (fns : Functions) (events : List Event) :
    (∀ r ∈ (reached fns events).rows, ∀ r' ∈ (reached fns events).rows,
      r.2.isDeleted = false -> r'.2.isDeleted = false -> r.2.company = r'.2.company ->
      (r.2.taxNumber = r'.2.taxNumber ∧ r.2.taxNumber ≠ "") ∨
        (r.2.nationalId = r'.2.nationalId ∧ r.2.nationalId ≠ "") ->
      r.1 = r'.1) ∧
      ∀ r ∈ (reached fns events).rows, r.2.Sound fns := by
  have sound : (reached fns events).Sound fns := sound_reached events
  refine ⟨?_, sound.rows⟩
  rintro r mem r' mem' live live' company (⟨same, given⟩ | ⟨same, given⟩)
  · apply sound.tax r mem r' mem' (r.2.company, r.2.taxNumber)
    · exact taxKey_eq_some.mpr ⟨live, given, rfl⟩
    · exact taxKey_eq_some.mpr ⟨live', by rwa [← same], by rw [company, same]⟩
  · have print : r'.2.nationalIdFingerprint = r.2.nationalIdFingerprint := by
      rw [(sound.rows r mem).fingerprint, (sound.rows r' mem').fingerprint, same]
    have some_ : r.2.nationalIdFingerprint ≠ "" := by
      rw [(sound.rows r mem).fingerprint]
      exact fun empty => given (fingerprint_eq_empty.mp empty)
    apply sound.national r mem r' mem' (r.2.company, r.2.nationalIdFingerprint)
    · exact nationalKey_eq_some.mpr ⟨live, some_, rfl⟩
    · exact nationalKey_eq_some.mpr ⟨live', by rwa [print], by rw [company, print]⟩

/-- Both requests were valid when neither had been written: the second to write is refused. -/
example : (reached ⟨⟨id, Char.isAlphanum⟩, fun value => "v1" ++ value, fun value => by simp⟩
    [.create 1 { type := some .corporate, legalName := some "A", taxNumber := some "1234567890" },
      .create 1 { type := some .corporate, legalName := some "B", taxNumber := some "1234567890" },
      .write 0, .write 0]).rows.map (fun r => r.2.legalName) = ["A"] := by
  decide +kernel

/-! ## With nothing in between -/

section AtOnce

variable {register : Register} {company : Nat} {attrs : Attrs} {row : Customer}

theorem taken_of_clash {rows : Rows Customer} {own : Option Nat} {r : Nat × Customer} (has : Customer -> Bool)
    (mem : r ∈ rows) (other : some r.1 ≠ own) (inside : r.2.company = company) (live : r.2.isDeleted = false)
    (found : has r.2 = true) : taken rows company own has = true := by
  refine List.any_eq_true.mpr ⟨r, mem, ?_⟩
  simp [visible, inside, live, found, other]

/-- What the check lets through the constraints let through, in the tables that it read. -/
theorem accepted_of_identifiers {rows : Rows Customer} {own : Option Nat} {id : Nat} {effective : Customer}
    (owner : ∀ r ∈ rows, r.1 ≠ id -> some r.1 ≠ own) (inside : effective.company = company)
    (free : identifierError fns rows company own effective = none) :
    accepted rows id (effective.derived fns) = true := by
  unfold identifierError at free
  split at free
  · cases free
  rename_i taxFree
  split at free
  · cases free
  rename_i nationalFree
  rw [accepted_iff, Rows.clashes_eq_false, Rows.clashes_eq_false]
  constructor
  · intro k keyed r mem same
    by_contra other
    rcases taxKey_eq_some.mp keyed with ⟨_, given, rfl⟩
    rcases taxKey_eq_some.mp same with ⟨live, _, both⟩
    have given : effective.taxNumber ≠ "" := given
    have there := taken_of_clash (fun row => decide (row.taxNumber = effective.taxNumber)) mem
      (owner r mem other) ((Prod.mk.inj both).1.trans inside) live (decide_eq_true (Prod.mk.inj both).2)
    simp [there, given] at taxFree
  · intro k keyed r mem same
    by_contra other
    rcases nationalKey_eq_some.mp keyed with ⟨_, given, rfl⟩
    rcases nationalKey_eq_some.mp same with ⟨live, _, both⟩
    have given : effective.nationalId ≠ "" := fun empty => given (fingerprint_eq_empty.mpr empty)
    have there := taken_of_clash
      (fun row => decide (row.nationalIdFingerprint = fingerprint fns effective.nationalId)) mem
      (owner r mem other) ((Prod.mk.inj both).1.trans inside) live (decide_eq_true (Prod.mk.inj both).2)
    simp [there, given] at nationalFree

theorem accepted_insert (valid : validate fns register.rows company none attrs = .ok row) :
    accepted register.rows register.next row = true := by
  have parts := valid_of_validate valid
  rw [parts.row]
  exact accepted_of_identifiers (fun _ _ _ same => by cases same) rfl parts.free

theorem accepted_update {id : Nat} {record : Customer} (found : register.find company id = some record)
    (valid : validate fns register.rows company (some (id, record)) attrs = .ok row) :
    accepted register.rows id row = true := by
  have parts := valid_of_validate valid
  rw [parts.row]
  exact accepted_of_identifiers (fun _ _ other same => other (Option.some.inj same)) (mem_of_find found).2.1 parts.free

/-- The company sees the record that is to be written. -/
theorem write_update {id : Nat} {record : Customer} (found : register.find company id = some record)
    (valid : validate fns register.rows company (some (id, record)) attrs = .ok row) :
    Saves.write (visible row.company) .whole (register.rows.get? id) = .ok .update := by
  have parts := Option.filter_eq_some_iff.mp found
  have same : row.company = company := by
    rw [(valid_of_validate valid).row]
    exact (mem_of_find found).2.1
  rw [same, parts.1]
  exact Saves.write_of_shows (by decide) parts.2

theorem write_last (pending : Pending) : step fns (register.await pending) (.write register.pending.length) =
    register.perform pending := by
  have last : (register.pending ++ [pending])[register.pending.length]? = some pending := by simp
  have rest : (register.pending ++ [pending]).eraseIdx register.pending.length = register.pending := by
    rw [List.eraseIdx_append_of_length_le (Nat.le_refl _)]
    simp
  simp only [step, Register.await, last, rest]

end AtOnce

/-- A request that is valid and is written before anything else happens is written: no constraint
refuses what the check let through. -/
theorem written_at_once (fns : Functions) (register : Register) (company : Nat) (attrs : Attrs) :
    (∀ row, validate fns register.rows company none attrs = .ok row ->
      [Event.create company attrs, .write register.pending.length].foldl (step fns) register =
        { register with rows := register.rows.insert register.next row, next := register.next + 1 }) ∧
      ∀ id record row, register.find company id = some record ->
        validate fns register.rows company (some (id, record)) attrs = .ok row ->
        [Event.update company id attrs, .write register.pending.length].foldl (step fns) register =
          { register with rows := register.rows.update id (fun _ => row) } := by
  constructor
  · intro row valid
    have checked : step fns register (.create company attrs) = register.await (.insert row) := by
      simp only [step, valid]
    rw [List.foldl_cons, List.foldl_cons, List.foldl_nil, checked, write_last, Register.perform,
      if_pos (accepted_insert valid)]
  · intro id record row found valid
    have checked : step fns register (.update company id attrs) = register.await (.update id row) := by
      simp only [step, found, valid]
    rw [List.foldl_cons, List.foldl_cons, List.foldl_nil, checked, write_last, Register.perform,
      write_update found valid]
    exact if_pos (accepted_update found valid)

end Code

end Customers
end Shiftlush
