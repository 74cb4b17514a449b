import Shiftlush.Fleet.ContractNumbers
import Mathlib.Data.Int.ModEq

namespace Shiftlush
namespace Validators

open Fleet (digit?)

/-!
# Telephone and identity numbers

`core.validators`.  The patterns ask for `\d`, which is any decimal digit there is,
and `int` reads any of them.  What is kept are the characters as they were typed.
-/

inductive ErrorCode where
  | invalidNationalId
  | invalidTaxNumber
  | invalidPhone
  deriving DecidableEq, Repr

/-- `\d` -/
def isDecimal (c : Char) : Bool := (digit? c).isSome

/-- `re.fullmatch` of so many `\d`. -/
def fullmatch (count : Nat) (value : String) : Bool :=
  decide (value.toList.length = count) && value.toList.all isDecimal

/-- `[int(char) for char in value]`, of the decimal digits. -/
def digitsOf (value : String) : List Nat := value.toList.filterMap digit?

/-- `digits[start:stop:2]` -/
def everyOther (start stop : Nat) (digits : List Nat) : List Nat :=
  ((List.range stop).filter (fun i => decide (start ≤ i ∧ (i - start) % 2 = 0))).map (fun i => digits.getD i 0)

def validateNationalId (value : String) : Except ErrorCode String :=
  if !fullmatch 11 value then .error .invalidNationalId
  else
    let digits := digitsOf value
    if digits.getD 0 0 = 0 then .error .invalidNationalId
    else
      let oddSum := (everyOther 0 9 digits).sum
      let evenSum := (everyOther 1 8 digits).sum
      if ((oddSum * 7 : Nat) - (evenSum : Int)) % 10 ≠ (digits.getD 9 0 : Nat) then .error .invalidNationalId
      else if (digits.take 10).sum % 10 ≠ digits.getD 10 0 then .error .invalidNationalId
      else .ok value

/-- What the digit at an index adds to the total. -/
def share (digits : List Nat) (index : Nat) : Nat :=
  let temp := (digits.getD index 0 + 10 - (index + 1)) % 10
  if temp = 9 then temp else temp * 2 ^ (9 - index) % 9

def validateTaxNumber (value : String) : Except ErrorCode String :=
  if value.toList.length = 11 then validateNationalId value
  else if !fullmatch 10 value then .error .invalidTaxNumber
  else
    let digits := digitsOf value
    let total := (List.range 9).foldl (fun total index => total + share digits index) 0
    if (10 - total % 10) % 10 ≠ digits.getD 9 0 then .error .invalidTaxNumber else .ok value

/-- What is left of the digits without the country's code or a leading zero. -/
def withoutPrefix (digits : List Char) : List Char :=
  if ['9', '0'].isPrefixOf digits ∧ digits.length = 12 then digits.drop 2
  else if ['0'].isPrefixOf digits ∧ digits.length = 11 then digits.drop 1
  else digits

/-- `re.sub(r"\D", "", value)`, its prefix taken off. -/
def phoneDigits (value : String) : List Char := withoutPrefix (value.toList.filter isDecimal)

def normalizePhone (value : String) : Except ErrorCode String :=
  if (phoneDigits value).length ≠ 10 then .error .invalidPhone
  else .ok ("+90" ++ .ofList (phoneDigits value))

/-! ## What the numbers are -/

/-- Ten digits, whatever they are typed in. -/
structure PhoneNumber where
  digits : List Nat
  length : digits.length = 10
  small : ∀ d ∈ digits, d < 10

/-- The one form a number is kept in. -/
def PhoneNumber.e164 (number : PhoneNumber) : String := "+90" ++ .ofList (number.digits.map Nat.digitChar)

/-- The text gives the number, with or without a prefix, and anything but digits between. -/
def Spells (value : String) (number : PhoneNumber) : Prop :=
  digitsOf value = number.digits ∨ digitsOf value = 0 :: number.digits ∨ digitsOf value = 9 :: 0 :: number.digits

/-- The check digits of a national number: the tenth from the places, the eleventh from all before it. -/
structure NationalDigits (d : Nat -> Nat) : Prop where
  first : d 0 ≠ 0
  tenth : 7 * (d 0 + d 2 + d 4 + d 6 + d 8) ≡ d 1 + d 3 + d 5 + d 7 + d 9 [MOD 10]
  eleventh : d 0 + d 1 + d 2 + d 3 + d 4 + d 5 + d 6 + d 7 + d 8 + d 9 ≡ d 10 [MOD 10]

/-- The tenth digit of a tax number makes the shares of the others a multiple of ten. -/
def TaxDigits (digits : List Nat) : Prop := 10 ∣ ((List.range 9).map (share digits)).sum + digits.getD 9 0

/-- Digits of ASCII alone. -/
def IsAscii (value : String) : Prop := ∀ c ∈ value.toList, c.isDigit = true

/-- Whatever decimal digits the text has are of ASCII. -/
def AsciiDecimals (value : String) : Prop := ∀ c ∈ value.toList, isDecimal c = true -> c.isDigit = true

/-! ## Digits -/

theorem digit?_lt {c : Char} {d : Nat} (digit : digit? c = some d) : d < 10 := by
  unfold digit? at digit
  rw [Option.map_eq_some_iff] at digit
  obtain ⟨first, found, rfl⟩ := digit
  have inRun := List.find?_some found
  have range : first ≤ c.toNat ∧ c.toNat ≤ first + 9 := of_decide_eq_true inRun
  omega

theorem toNat_of_isDigit {c : Char} (ascii : c.isDigit = true) : 48 ≤ c.toNat ∧ c.toNat ≤ 48 + 9 := by
  simp only [Char.isDigit, Bool.and_eq_true, decide_eq_true_eq, ge_iff_le, UInt32.le_iff_toNat_le] at ascii
  exact ascii

theorem digit?_of_isDigit {c : Char} (ascii : c.isDigit = true) : digit? c = some (c.toNat - 48) := by
  have found : Fleet.digitZeros.find? (fun first => decide (first ≤ c.toNat ∧ c.toNat ≤ first + 9)) = some 48 :=
    List.find?_cons_of_pos (decide_eq_true (toNat_of_isDigit ascii))
  unfold digit?
  rw [found]
  rfl

theorem digitChar_eq : ∀ d < 10, Char.ofNat (48 + d) = Nat.digitChar d := by decide

theorem isDigit_digitChar : ∀ d < 10, (Nat.digitChar d).isDigit = true := by decide

theorem digit?_digitChar : ∀ d < 10, digit? (Nat.digitChar d) = some d := by decide

/-- A digit of ASCII is the digit of its value. -/
theorem eq_digitChar {c : Char} {d : Nat} (ascii : c.isDigit = true) (digit : digit? c = some d) :
    c = Nat.digitChar d := by
  have value : c.toNat - 48 = d := Option.some.inj ((digit?_of_isDigit ascii).symm.trans digit)
  have range := toNat_of_isDigit ascii
  have code : 48 + d = c.toNat := by omega
  rw [← digitChar_eq d (digit?_lt digit), code, Char.ofNat_toNat]

theorem isDecimal_iff {c : Char} : isDecimal c = true ↔ ∃ d, digit? c = some d := Option.isSome_iff_exists

/-- The values of a text are those of its decimal digits. -/
theorem digitsOf_eq (value : String) : digitsOf value = (value.toList.filter isDecimal).filterMap digit? := by
  unfold digitsOf
  rw [List.filterMap_filter]
  congr 1
  funext c
  unfold isDecimal
  cases digit? c <;> rfl

/-- Decimal digits of ASCII are written with the digits of their values. -/
theorem map_digitChar {digits : List Char} (ascii : ∀ c ∈ digits, c.isDigit = true) :
    (digits.filterMap digit?).map Nat.digitChar = digits := by
  induction digits with
  | nil => rfl
  | cons c digits ih =>
      have digit := digit?_of_isDigit (ascii c List.mem_cons_self)
      rw [List.filterMap_cons_some digit, List.map_cons, ih (fun c mem => ascii c (List.mem_cons_of_mem _ mem)),
        ← eq_digitChar (ascii c List.mem_cons_self) digit]

theorem filterMap_digitChar {digits : List Nat} (small : ∀ d ∈ digits, d < 10) :
    (digits.map Nat.digitChar).filterMap digit? = digits := by
  induction digits with
  | nil => rfl
  | cons d digits ih =>
      rw [List.map_cons, List.filterMap_cons_some (digit?_digitChar d (small d List.mem_cons_self)),
        ih (fun d mem => small d (List.mem_cons_of_mem _ mem))]

theorem length_digits {digits : List Char} (decimal : ∀ c ∈ digits, isDecimal c = true) :
    (digits.filterMap digit?).length = digits.length := by
  induction digits with
  | nil => rfl
  | cons c digits ih =>
      obtain ⟨d, digit⟩ := isDecimal_iff.mp (decimal c List.mem_cons_self)
      rw [List.filterMap_cons_some digit, List.length_cons, List.length_cons,
        ih (fun c mem => decimal c (List.mem_cons_of_mem _ mem))]

theorem mem_decimals {value : String} {c : Char} (mem : c ∈ value.toList.filter isDecimal) :
    c ∈ value.toList ∧ isDecimal c = true := List.mem_filter.mp mem

/-! ## Telephone numbers -/

theorem withoutPrefix_subset {digits : List Char} {c : Char} (mem : c ∈ withoutPrefix digits) : c ∈ digits := by
  unfold withoutPrefix at mem
  split at mem
  · exact List.mem_of_mem_drop mem
  · split at mem
    · exact List.mem_of_mem_drop mem
    · exact mem

/-- What is taken off is of ASCII. -/
theorem mem_withoutPrefix {digits : List Char} {c : Char} (mem : c ∈ digits) :
    c ∈ withoutPrefix digits ∨ c.isDigit = true := by
  unfold withoutPrefix
  split
  · rename_i code
    obtain ⟨rest, rfl⟩ := List.isPrefixOf_iff_prefix.mp code.1
    simp only [List.cons_append, List.nil_append, List.mem_cons] at mem
    rcases mem with rfl | rfl | mem
    · exact .inr rfl
    · exact .inr rfl
    · exact .inl mem
  · split
    · rename_i zero
      obtain ⟨rest, rfl⟩ := List.isPrefixOf_iff_prefix.mp zero.1
      simp only [List.cons_append, List.nil_append, List.mem_cons] at mem
      rcases mem with rfl | mem
      · exact .inr rfl
      · exact .inl mem
    · exact .inl mem

theorem withoutPrefix_code {digits : List Char} (ten : digits.length = 10) :
    withoutPrefix ('9' :: '0' :: digits) = digits := by
  unfold withoutPrefix
  rw [if_pos ⟨rfl, by rw [List.length_cons, List.length_cons, ten]⟩]
  rfl

theorem withoutPrefix_zero {digits : List Char} (ten : digits.length = 10) :
    withoutPrefix ('0' :: digits) = digits := by
  have eleven : ('0' :: digits).length = 11 := by rw [List.length_cons, ten]
  unfold withoutPrefix
  rw [eleven, if_neg (fun code => absurd code.2 (by decide)), if_pos ⟨rfl, rfl⟩]
  rfl

theorem withoutPrefix_ten {digits : List Char} (ten : digits.length = 10) : withoutPrefix digits = digits := by
  unfold withoutPrefix
  rw [ten, if_neg (fun code => absurd code.2 (by decide)), if_neg (fun zero => absurd zero.2 (by decide))]

theorem normalizePhone_iff {value out : String} :
    normalizePhone value = .ok out ↔
      (phoneDigits value).length = 10 ∧ out = "+90" ++ .ofList (phoneDigits value) := by
  unfold normalizePhone
  split
  · rename_i refused
    constructor
    · intro impossible
      cases impossible
    · rintro ⟨ten, _⟩
      exact absurd ten refused
  · rename_i ten
    constructor
    · intro same
      cases same
      exact ⟨not_not.mp ten, rfl⟩
    · rintro ⟨_, rfl⟩
      rfl

/-- A number of ten decimal digits with the country's code is its own normal form. -/
theorem normalizePhone_again {digits : List Char} (decimal : ∀ c ∈ digits, isDecimal c = true)
    (ten : digits.length = 10) :
    normalizePhone ("+90" ++ .ofList digits) = .ok ("+90" ++ .ofList digits) := by
  have cleaned : ("+90" ++ String.ofList digits).toList.filter isDecimal = '9' :: '0' :: digits := by
    rw [String.toList_append, List.filter_append, String.toList_ofList (l := digits), List.filter_eq_self.mpr decimal]
    rfl
  have rest : phoneDigits ("+90" ++ .ofList digits) = digits := by
    unfold phoneDigits
    rw [cleaned, withoutPrefix_code ten]
  exact normalizePhone_iff.mpr ⟨by rw [rest, ten], by rw [rest]⟩

theorem phoneDigits_decimal {value : String} : ∀ c ∈ phoneDigits value, isDecimal c = true :=
  fun _ mem => (mem_decimals (withoutPrefix_subset mem)).2

theorem e164_inj {number number' : PhoneNumber} : number.e164 = number'.e164 ↔ number = number' := by
  constructor
  · intro same
    have chars : number.digits.map Nat.digitChar = number'.digits.map Nat.digitChar := by
      have lists := congrArg String.toList same
      unfold PhoneNumber.e164 at lists
      rw [String.toList_append, String.toList_append, List.append_cancel_left_eq] at lists
      exact String.ofList_injective (String.toList_injective lists)
    have values := congrArg (List.filterMap digit?) chars
    rw [filterMap_digitChar number.small, filterMap_digitChar number'.small] at values
    cases number
    cases number'
    cases values
    rfl
  · rintro rfl
    rfl

/-- A number typed with digits of ASCII normalises to its one form. -/
theorem normalizePhone_spells {value : String} {number : PhoneNumber} (ascii : AsciiDecimals value)
    (spells : Spells value number) : normalizePhone value = .ok number.e164 := by
  have written : (digitsOf value).map Nat.digitChar = value.toList.filter isDecimal := by
    rw [digitsOf_eq]
    exact map_digitChar (fun c mem => ascii c (mem_decimals mem).1 (mem_decimals mem).2)
  have ten : (number.digits.map Nat.digitChar).length = 10 := by rw [List.length_map, number.length]
  have rest : phoneDigits value = number.digits.map Nat.digitChar := by
    unfold phoneDigits
    rw [← written]
    rcases spells with plain | zero | code
    · rw [plain, withoutPrefix_ten ten]
    · rw [zero]
      exact withoutPrefix_zero ten
    · rw [code]
      exact withoutPrefix_code ten
  exact normalizePhone_iff.mpr ⟨by rw [rest, ten], by rw [rest]; rfl⟩

/-- What is accepted is in the one form only if its digits are of ASCII. -/
theorem asciiDecimals_of_canonical {value out : String} {number : PhoneNumber}
    (accepted : normalizePhone value = .ok out) (canonical : out = number.e164) : AsciiDecimals value := by
  have written := (normalizePhone_iff.mp accepted).2
  have chars : phoneDigits value = number.digits.map Nat.digitChar := by
    have lists := congrArg String.toList (written.symm.trans canonical)
    unfold PhoneNumber.e164 at lists
    rw [String.toList_append, String.toList_append, List.append_cancel_left_eq] at lists
    exact String.ofList_injective (String.toList_injective lists)
  intro c mem decimal
  rcases mem_withoutPrefix (List.mem_filter.mpr ⟨mem, decimal⟩) with kept | ascii
  · have kept : c ∈ phoneDigits value := kept
    rw [chars] at kept
    obtain ⟨d, digit, rfl⟩ := List.mem_map.mp kept
    exact isDigit_digitChar d (number.small d digit)
  · exact ascii

/-- The number that an accepted text of ASCII digits gives. -/
theorem canonical_of_asciiDecimals {value out : String} (accepted : normalizePhone value = .ok out)
    (ascii : AsciiDecimals value) : ∃ number : PhoneNumber, out = number.e164 := by
  obtain ⟨ten, rfl⟩ := normalizePhone_iff.mp accepted
  have chars : ∀ c ∈ phoneDigits value, c.isDigit = true := fun c mem =>
    ascii c (mem_decimals (withoutPrefix_subset mem)).1 (phoneDigits_decimal c mem)
  refine ⟨⟨(phoneDigits value).filterMap digit?, ?_, ?_⟩, ?_⟩
  · rw [length_digits phoneDigits_decimal, ten]
  · intro d mem
    obtain ⟨c, _, digit⟩ := List.mem_filterMap.mp mem
    exact digit?_lt digit
  · unfold PhoneNumber.e164
    rw [map_digitChar chars]

/-! ## Identity numbers -/

theorem fullmatch_iff {count : Nat} {value : String} :
    fullmatch count value = true ↔ value.toList.length = count ∧ ∀ c ∈ value.toList, isDecimal c = true := by
  unfold fullmatch
  rw [Bool.and_eq_true, decide_eq_true_eq, List.all_eq_true]

theorem digitsOf_length {count : Nat} {value : String} (full : fullmatch count value = true) :
    (digitsOf value).length = count := by
  unfold digitsOf
  rw [length_digits (fullmatch_iff.mp full).2, (fullmatch_iff.mp full).1]

theorem getD_lt (value : String) (index : Nat) : (digitsOf value).getD index 0 < 10 := by
  rw [List.getD_eq_getElem?_getD]
  cases entry : (digitsOf value)[index]? with
  | none => exact Nat.zero_lt_succ 9
  | some d =>
      obtain ⟨c, _, digit⟩ := List.mem_filterMap.mp (List.mem_of_getElem? entry)
      exact digit?_lt digit

theorem take_eq_range {digits : List Nat} {count : Nat} (enough : count ≤ digits.length) :
    digits.take count = (List.range count).map (fun i => digits.getD i 0) := by
  refine List.ext_getElem (by rw [List.length_take, List.length_map, List.length_range, Nat.min_eq_left enough]) ?_
  intro i below _
  rw [List.length_take] at below
  rw [List.getElem_take, List.getElem_map, List.getElem_range]
  exact List.getElem_eq_getD 0

theorem sum_odd (digits : List Nat) :
    (everyOther 0 9 digits).sum = digits.getD 0 0 + digits.getD 2 0 + digits.getD 4 0 + digits.getD 6 0 +
      digits.getD 8 0 := by
  have picked : everyOther 0 9 digits = [0, 2, 4, 6, 8].map (fun i => digits.getD i 0) := rfl
  simp only [picked, List.map_cons, List.map_nil, List.sum_cons, List.sum_nil]
  omega

theorem sum_even (digits : List Nat) :
    (everyOther 1 8 digits).sum = digits.getD 1 0 + digits.getD 3 0 + digits.getD 5 0 + digits.getD 7 0 := by
  have picked : everyOther 1 8 digits = [1, 3, 5, 7].map (fun i => digits.getD i 0) := rfl
  simp only [picked, List.map_cons, List.map_nil, List.sum_cons, List.sum_nil]
  omega

theorem sum_first {digits : List Nat} (enough : 10 ≤ digits.length) :
    (digits.take 10).sum = digits.getD 0 0 + digits.getD 1 0 + digits.getD 2 0 + digits.getD 3 0 + digits.getD 4 0 +
      digits.getD 5 0 + digits.getD 6 0 + digits.getD 7 0 + digits.getD 8 0 + digits.getD 9 0 := by
  have range : List.range 10 = [0, 1, 2, 3, 4, 5, 6, 7, 8, 9] := rfl
  simp only [take_eq_range enough, range, List.map_cons, List.map_nil, List.sum_cons, List.sum_nil]
  omega

theorem validateNationalId_iff {value out : String} :
    validateNationalId value = .ok out ↔
      out = value ∧ fullmatch 11 value = true ∧ NationalDigits (fun i => (digitsOf value).getD i 0) := by
  unfold validateNationalId
  cases full : fullmatch 11 value with
  | false =>
      constructor
      · intro impossible
        cases impossible
      · rintro ⟨_, impossible, _⟩
        cases impossible
  | true =>
      have tenth := getD_lt value 9
      have eleventh := getD_lt value 10
      have enough : 10 ≤ (digitsOf value).length := by
        rw [digitsOf_length full]
        exact Nat.le_succ 10
      dsimp only
      rw [sum_odd, sum_even, sum_first enough]
      constructor
      · intro accepted
        split at accepted
        · cases accepted
        · split at accepted
          · cases accepted
          · split at accepted
            · cases accepted
            · split at accepted
              · cases accepted
              · rename_i first places sum
                cases accepted
                refine ⟨rfl, rfl, first, ?_, ?_⟩
                · unfold Nat.ModEq
                  omega
                · unfold Nat.ModEq
                  omega
      · rintro ⟨rfl, _, first, places, sum⟩
        unfold Nat.ModEq at places sum
        rw [Bool.not_true, if_neg Bool.false_ne_true, if_neg first, if_neg (by omega), if_neg (by omega)]

theorem validateTaxNumber_iff {value out : String} :
    validateTaxNumber value = .ok out ↔
      validateNationalId value = .ok out ∨
        out = value ∧ fullmatch 10 value = true ∧ TaxDigits (digitsOf value) := by
  unfold validateTaxNumber
  split
  · rename_i eleven
    constructor
    · exact .inl
    · rintro (national | ⟨_, ten, _⟩)
      · exact national
      · rw [(fullmatch_iff.mp ten).1] at eleven
        exact absurd eleven (by decide)
  · rename_i other
    have notNational : validateNationalId value ≠ .ok out := fun national =>
      other (fullmatch_iff.mp (validateNationalId_iff.mp national).2.1).1
    cases full : fullmatch 10 value with
    | false =>
        constructor
        · intro impossible
          cases impossible
        · rintro (national | ⟨_, impossible, _⟩)
          · exact absurd national notNational
          · cases impossible
    | true =>
        have tenth := getD_lt value 9
        have total : (List.range 9).foldl (fun total index => total + share (digitsOf value) index) 0 =
            ((List.range 9).map (share (digitsOf value))).sum := by
          rw [List.sum_eq_foldl, List.foldl_map]
        dsimp only
        rw [total]
        constructor
        · intro accepted
          split at accepted
          · cases accepted
          · split at accepted
            · cases accepted
            · rename_i check
              cases accepted
              refine .inr ⟨rfl, rfl, ?_⟩
              unfold TaxDigits
              omega
        · rintro (national | ⟨rfl, _, check⟩)
          · exact absurd national notNational
          · unfold TaxDigits at check
            rw [Bool.not_true, if_neg Bool.false_ne_true, if_neg (by omega)]

/-! ## One form for each number -/

/-- Eleven digits of ASCII with their check digits. -/
structure IsNationalId (value : String) : Prop where
  ascii : IsAscii value
  length : value.toList.length = 11
  check : NationalDigits (fun i => (digitsOf value).getD i 0)

/-- Ten digits of ASCII with their check digit. -/
structure IsTaxNumber (value : String) : Prop where
  ascii : IsAscii value
  length : value.toList.length = 10
  check : TaxDigits (digitsOf value)

/-- What the one form of a number asks for, of two texts. -/
structure Lawful (value value' : String) : Prop where
  canonical : ∀ text ∈ [value, value'], ∀ out, normalizePhone text = .ok out ->
    (∃ number : PhoneNumber, out = number.e164) ∧ normalizePhone out = .ok out
  spellings : ∀ out out' number number', normalizePhone value = .ok out -> normalizePhone value' = .ok out' ->
    Spells value number -> Spells value' number' -> (out = out' ↔ number = number')
  nationalId : ∀ text ∈ [value, value'], ∀ out, validateNationalId text = .ok out -> IsNationalId text
  taxNumber : ∀ text ∈ [value, value'], ∀ out, validateTaxNumber text = .ok out ->
    IsNationalId text ∨ IsTaxNumber text

/-- The decimal digits are of ASCII, or neither their number nor their check digits would do. -/
def Plain (value : String) : Prop :=
  AsciiDecimals value ∨
    (phoneDigits value).length ≠ 10 ∧
      ¬(fullmatch 11 value = true ∧ NationalDigits (fun i => (digitsOf value).getD i 0))

theorem Plain.ascii_of_phone {value out : String} (plain : Plain value) (accepted : normalizePhone value = .ok out) :
    AsciiDecimals value := by
  rcases plain with ascii | ⟨other, _⟩
  · exact ascii
  · exact absurd (normalizePhone_iff.mp accepted).1 other

theorem Plain.nationalId {value out : String} (plain : Plain value) (accepted : validateNationalId value = .ok out) :
    IsNationalId value := by
  obtain ⟨_, full, check⟩ := validateNationalId_iff.mp accepted
  obtain ⟨length, decimal⟩ := fullmatch_iff.mp full
  refine ⟨fun c mem => ?_, length, check⟩
  rcases plain with ascii | ⟨_, other⟩
  · exact ascii c mem (decimal c mem)
  · exact absurd ⟨full, check⟩ other

/-- Ten decimal digits are a telephone number too. -/
theorem phoneDigits_of_fullmatch {value : String} (full : fullmatch 10 value = true) :
    phoneDigits value = value.toList := by
  obtain ⟨length, decimal⟩ := fullmatch_iff.mp full
  unfold phoneDigits
  rw [List.filter_eq_self.mpr decimal, withoutPrefix_ten length]

theorem Plain.taxNumber {value out : String} (plain : Plain value) (accepted : validateTaxNumber value = .ok out) :
    IsNationalId value ∨ IsTaxNumber value := by
  rcases validateTaxNumber_iff.mp accepted with national | ⟨_, full, check⟩
  · exact .inl (plain.nationalId national)
  · obtain ⟨length, decimal⟩ := fullmatch_iff.mp full
    refine .inr ⟨fun c mem => ?_, length, check⟩
    rcases plain with ascii | ⟨other, _⟩
    · exact ascii c mem (decimal c mem)
    · rw [phoneDigits_of_fullmatch full] at other
      exact absurd length other

theorem lawful_iff_plain (value value' : String) : Lawful value value' ↔ Plain value ∧ Plain value' := by
  constructor
  · intro lawful
    have each : ∀ text ∈ [value, value'], Plain text := by
      intro text mem
      by_cases ten : (phoneDigits text).length = 10
      · have accepted := normalizePhone_iff.mpr ⟨ten, rfl⟩
        obtain ⟨number, canonical⟩ := (lawful.canonical text mem _ accepted).1
        exact .inl (asciiDecimals_of_canonical accepted canonical)
      · by_cases national : fullmatch 11 text = true ∧ NationalDigits (fun i => (digitsOf text).getD i 0)
        · have accepted := validateNationalId_iff.mpr ⟨rfl, national⟩
          exact .inl (fun c mem' _ => (lawful.nationalId text mem _ accepted).ascii c mem')
        · exact .inr ⟨ten, national⟩
    exact ⟨each value List.mem_cons_self, each value' (List.mem_cons_of_mem _ List.mem_cons_self)⟩
  · rintro ⟨plain, plain'⟩
    have each : ∀ text ∈ [value, value'], Plain text := by
      intro text mem
      rcases List.mem_cons.mp mem with rfl | mem
      · exact plain
      · rw [List.mem_singleton.mp mem]
        exact plain'
    refine ⟨?_, ?_, fun text mem _ accepted => (each text mem).nationalId accepted,
      fun text mem _ accepted => (each text mem).taxNumber accepted⟩
    · intro text mem out accepted
      refine ⟨canonical_of_asciiDecimals accepted ((each text mem).ascii_of_phone accepted), ?_⟩
      obtain ⟨ten, rfl⟩ := normalizePhone_iff.mp accepted
      exact normalizePhone_again phoneDigits_decimal ten
    · intro out out' number number' accepted accepted' spells spells'
      have form := normalizePhone_spells (plain.ascii_of_phone accepted) spells
      have form' := normalizePhone_spells (plain'.ascii_of_phone accepted') spells'
      rw [accepted] at form
      rw [accepted'] at form'
      cases form
      cases form'
      exact e164_inj

/-- A number typed with other digits is kept as typed, beside itself. -/
theorem fullwidth_digits_kept :
    normalizePhone "５５５ １２３ ４５ ６７" = .ok "+90５５５１２３４５６７" ∧
      normalizePhone "555 123 45 67" = .ok "+905551234567" ∧
      validateNationalId "１０００００００１４６" = .ok "１０００００００１４６" ∧
      validateTaxNumber "４５４０５３６９２０" = .ok "４５４０５３６９２０" ∧
      ¬Lawful "５５５ １２３ ４５ ６７" "555 123 45 67" := by
  have kept : normalizePhone "５５５ １２３ ４５ ６７" = .ok "+90５５５１２３４５６７" := by decide +kernel
  refine ⟨kept, by decide +kernel, by decide +kernel, by decide +kernel, fun lawful => ?_⟩
  obtain ⟨number, canonical⟩ := (lawful.canonical _ List.mem_cons_self _ kept).1
  have ascii := asciiDecimals_of_canonical kept canonical
  exact absurd (ascii '５' (by decide +kernel) (by decide +kernel)) (by decide)

end Validators
end Shiftlush
