import Shiftlush.Outcomes
import Shiftlush.Text
import Mathlib.Data.List.MinMax
import Mathlib.Data.Nat.Digits.Defs
import Mathlib.Data.String.Basic

namespace Shiftlush
namespace Fleet

/-!
# Contract numbers

`next_contract_number` takes the number of the year that the database orders last as
text, reads what follows its dash as a whole number and counts on.  Numbers may be
typed by hand, so that the last in text order need not be the highest, or a number.
-/

/-! ## Python's `int` of a text -/

/-- The zeros of the decimal digits, ten to a run. -/
def digitZeros : List Nat :=
  [0x30, 0x660, 0x6f0, 0x7c0, 0x966, 0x9e6, 0xa66, 0xae6, 0xb66, 0xbe6, 0xc66, 0xce6, 0xd66, 0xde6, 0xe50, 0xed0,
    0xf20, 0x1040, 0x1090, 0x17e0, 0x1810, 0x1946, 0x19d0, 0x1a80, 0x1a90, 0x1b50, 0x1bb0, 0x1c40, 0x1c50, 0xa620,
    0xa8d0, 0xa900, 0xa9d0, 0xa9f0, 0xaa50, 0xabf0, 0xff10, 0x104a0, 0x10d30, 0x11066, 0x110f0, 0x11136, 0x111d0,
    0x112f0, 0x11450, 0x114d0, 0x11650, 0x116c0, 0x11730, 0x118e0, 0x11950, 0x11c50, 0x11d50, 0x11da0, 0x11f50,
    0x16a60, 0x16ac0, 0x16b50, 0x1d7ce, 0x1d7d8, 0x1d7e2, 0x1d7ec, 0x1d7f6, 0x1e140, 0x1e2f0, 0x1e4f0, 0x1e950,
    0x1fbf0]

def digit? (c : Char) : Option Nat :=
  (digitZeros.find? (fun first => decide (first ≤ c.toNat ∧ c.toNat ≤ first + 9))).map (fun first => c.toNat - first)

/-- Digits after a digit, which single underscores may part. -/
def readDigits (sofar : Nat) : List Char -> Option Nat
  | [] => some sofar
  | '_' :: c :: rest => (digit? c).bind (fun d => readDigits (10 * sofar + d) rest)
  | c :: rest => (digit? c).bind (fun d => readDigits (10 * sofar + d) rest)

def readNat : List Char -> Option Nat
  | [] => none
  | c :: rest => (digit? c).bind (fun d => readDigits d rest)

/-- What `int` skips at either end: the separators 28 to 31 are no white space to it. -/
def isIntSpace (c : Char) : Bool := isSpace c && !decide (28 ≤ c.toNat ∧ c.toNat ≤ 31)

/-- `int` of a text, or its `ValueError`. -/
def readInt (text : List Char) : Option Int :=
  match ((text.dropWhile isIntSpace).reverse.dropWhile isIntSpace).reverse with
  | '+' :: rest => (readNat rest).map (fun n => (n : Int))
  | '-' :: rest => (readNat rest).map (fun n => -(n : Int))
  | rest => (readNat rest).map (fun n => (n : Int))

/-! ## `apps.contracts.services` -/

/-- A row's number, of a firm's contracts. -/
structure Numbered where
  number : String
  isDeleted : Bool
  deriving DecidableEq

inductive NumberFailure where
  | valueError
  | integrityError
  | dataError
  deriving DecidableEq, Repr

/-- `timezone.now().year` -/
abbrev Year := Fin 10000

def yearPrefix (year : Year) : String := year.val.repr ++ "-"

/-- The format `04d`. -/
def padded (n : Int) : String :=
  if 0 ≤ n then .ofList (n.natAbs.repr.toList.leftpad 4 '0') else "-" ++ .ofList (n.natAbs.repr.toList.leftpad 3 '0')

def numbered (year : Year) (sequence : Int) : String := yearPrefix year ++ padded sequence

/-- `number.split("-")[1]` -/
def segment (number : String) : List Char := ((number.toList.dropWhile (· ≠ '-')).drop 1).takeWhile (· ≠ '-')

/-- What the number counts. -/
def countOf (number : String) : Option Int := readInt (segment number)

section Next

variable {κ : Type} [LinearOrder κ] (collation : String -> κ) (year : Year) (contracts : List Numbered)

/-- The numbers of the year, those of deleted contracts among them. -/
def ofYear : List String :=
  (contracts.map Numbered.number).filter (fun number => (yearPrefix year).toList.isPrefixOf number.toList)

/-- `Max("contract_number")`, in the order of the database. -/
def lastNumber : Option String := (ofYear year contracts).argmax collation

/-- `next_contract_number` -/
def nextContractNumber : Except NumberFailure String :=
  match lastNumber collation year contracts with
  | none => .ok (numbered year 1)
  | some highest =>
      match countOf highest with
      | some n => .ok (numbered year (n + 1))
      | none => .error .valueError

/-- The insert of a contract: the column's `max_length` and `uq_contract_number_active`. -/
def insertNumber (number : String) : Except NumberFailure (List Numbered) :=
  if 30 < number.length then .error .dataError
  else if contracts.any (fun c => decide (c.number = number) && !c.isDeleted) then .error .integrityError
  else .ok (contracts ++ [⟨number, false⟩])

/-- `perform_create` without a number, and `renew`. -/
def createUnnumbered : Except NumberFailure (List Numbered) := do
  let number ← nextContractNumber collation year contracts
  insertNumber contracts number

/-! ## The law -/

/-- The number that comes next is carried by no contract, and a contract can be made. -/
def NumberIsFresh : Prop := ∃ number, nextContractNumber collation year contracts = .ok number ∧
  (∀ c ∈ contracts, c.number ≠ number) ∧
  createUnnumbered collation year contracts = .ok (contracts ++ [⟨number, false⟩])

/-- The last number of the year counts something, what it counts plus one has a place in the
column, and the order of the texts puts no contract of that number before it. -/
def LastCounts : Prop := ∀ last, lastNumber collation year contracts = some last ->
  ∃ n, countOf last = some n ∧ (numbered year (n + 1)).length ≤ 30 ∧
    ∀ c ∈ contracts, collation c.number ≤ collation last -> c.number ≠ numbered year (n + 1)

variable {collation year contracts}

theorem mem_ofYear {number : String} : number ∈ ofYear year contracts ↔
    (∃ c ∈ contracts, c.number = number) ∧ (yearPrefix year).toList <+: number.toList := by
  unfold ofYear
  rw [List.mem_filter, List.mem_map, List.isPrefixOf_iff_prefix]

theorem prefix_numbered (year : Year) (sequence : Int) :
    (yearPrefix year).toList <+: (numbered year sequence).toList := by
  unfold numbered
  rw [String.toList_append]
  exact List.prefix_append _ _

/-- No number of the year is ordered after the last. -/
theorem le_lastNumber {last : String} (found : lastNumber collation year contracts = some last) {c : Numbered}
    (listed : c ∈ contracts) {sequence : Int} (same : c.number = numbered year sequence) :
    collation c.number ≤ collation last := by
  apply List.le_of_mem_argmax _ found
  refine mem_ofYear.mpr ⟨⟨c, listed, rfl⟩, ?_⟩
  rw [same]
  exact prefix_numbered year sequence

theorem unused_of_lastNumber_none (none : lastNumber collation year contracts = none) (sequence : Int) :
    ∀ c ∈ contracts, c.number ≠ numbered year sequence := by
  intro c listed same
  have empty := List.argmax_eq_none.mp none
  have mem : c.number ∈ ofYear year contracts := by
    refine mem_ofYear.mpr ⟨⟨c, listed, rfl⟩, ?_⟩
    rw [same]
    exact prefix_numbered year sequence
  rw [empty] at mem
  cases mem

theorem length_first (year : Year) : (numbered year 1).length ≤ 30 := by
  have digits := Nat.repr_length year.val 4 (by decide) year.isLt
  have one : (padded 1).length = 4 := by decide
  unfold numbered yearPrefix
  rw [String.length_append, String.length_append, one]
  have dash : "-".length = 1 := rfl
  omega

theorem insertNumber_of_unused {number : String} (unused : ∀ c ∈ contracts, c.number ≠ number) :
    insertNumber contracts number = .ok (contracts ++ [⟨number, false⟩]) ↔ number.length ≤ 30 := by
  have free : contracts.any (fun c => decide (c.number = number) && !c.isDeleted) = false := by
    rw [List.any_eq_false]
    intro c listed taken
    exact unused c listed (of_decide_eq_true (Bool.and_eq_true_iff.mp taken).1)
  unfold insertNumber
  rw [free, if_neg Bool.false_ne_true]
  by_cases long : 30 < number.length
  · rw [if_pos long]
    exact iff_of_false (fun impossible => by cases impossible) (not_le.mpr long)
  · rw [if_neg long]
    exact iff_of_true rfl (not_lt.mp long)

/-- A number that comes next is fresh when no contract carries it and the column has a place for it. -/
theorem numberIsFresh_of_next {number : String} (next : nextContractNumber collation year contracts = .ok number) :
    NumberIsFresh collation year contracts ↔ (∀ c ∈ contracts, c.number ≠ number) ∧ number.length ≤ 30 := by
  have made : createUnnumbered collation year contracts = insertNumber contracts number := by
    unfold createUnnumbered
    rw [next, ok_bind]
  unfold NumberIsFresh
  rw [made, next]
  constructor
  · rintro ⟨number', same, unused, inserted⟩
    rw [← Except.ok.inj same] at unused inserted
    exact ⟨unused, (insertNumber_of_unused unused).mp inserted⟩
  · rintro ⟨unused, short⟩
    exact ⟨number, rfl, unused, (insertNumber_of_unused unused).mpr short⟩

/-- **A fresh contract number** comes next if and only if the year has no number yet or
the last of its numbers counts. -/
theorem numberIsFresh_iff {κ : Type} [LinearOrder κ] (collation : String -> κ) (year : Year)
    (contracts : List Numbered) : NumberIsFresh collation year contracts ↔ LastCounts collation year contracts := by
  cases found : lastNumber collation year contracts with
  | none =>
      have next : nextContractNumber collation year contracts = .ok (numbered year 1) := by
        unfold nextContractNumber
        rw [found]
      rw [numberIsFresh_of_next next]
      apply iff_of_true ⟨unused_of_lastNumber_none found 1, length_first year⟩
      intro last impossible
      rw [found] at impossible
      cases impossible
  | some last =>
      cases counted : countOf last with
      | none =>
          have refused : nextContractNumber collation year contracts = .error .valueError := by
            unfold nextContractNumber
            rw [found]
            dsimp only
            rw [counted]
          apply iff_of_false
          · rintro ⟨number, next, _⟩
            rw [refused] at next
            cases next
          · intro counts
            rcases counts last found with ⟨n, impossible, _⟩
            rw [counted] at impossible
            cases impossible
      | some n =>
          have next : nextContractNumber collation year contracts = .ok (numbered year (n + 1)) := by
            unfold nextContractNumber
            rw [found]
            dsimp only
            rw [counted]
          rw [numberIsFresh_of_next next]
          constructor
          · rintro ⟨unused, short⟩ last' same
            rw [found] at same
            cases same
            exact ⟨n, counted, short, fun c listed _ => unused c listed⟩
          · intro counts
            rcases counts last found with ⟨n', counted', short, unused⟩
            rw [counted] at counted'
            cases counted'
            refine ⟨?_, short⟩
            intro c listed same
            exact unused c listed (le_lastNumber found listed same) same

/-- A number typed by hand, which `int` does not read. -/
theorem typed_number_breaks : ¬ ∀ (year : Year) (contracts : List Numbered), NumberIsFresh id year contracts := by
  intro fresh
  rcases fresh 2026 [⟨"2026-A12", false⟩] with ⟨number, next, _⟩
  have refused : nextContractNumber id 2026 [⟨"2026-A12", false⟩] = .error .valueError := by decide +kernel
  rw [refused] at next
  cases next

end Next

end Fleet
end Shiftlush
