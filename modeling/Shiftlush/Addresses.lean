import Mathlib.Data.List.Basic
import Mathlib.Tactic.Common

namespace Shiftlush
namespace Addresses

/-!
# Internet addresses, as Python reads them

`ipaddress.ip_address`, as far as whether it raises.  An address of the sixth version
may name a zone after a percent sign, and a zone is any text without another.
-/

/-! ## The fourth version -/

def octetValue (text : List Char) : Nat := text.foldl (fun n c => 10 * n + (c.toNat - '0'.toNat)) 0

/-- `_parse_octet` -/
def isOctet (text : List Char) : Bool :=
  !text.isEmpty && text.all Char.isDigit && decide (text.length ≤ 3) &&
    (decide (text = ['0']) || decide (text.head? ≠ some '0')) && decide (octetValue text ≤ 255)

/-- `IPv4Address` -/
def isIPv4 (text : List Char) : Bool :=
  decide ((text.splitOn '.').length = 4) && (text.splitOn '.').all isOctet

/-! ## The sixth version -/

def isHexDigit (c : Char) : Bool := c.isDigit || decide ('a' ≤ c ∧ c ≤ 'f') || decide ('A' ≤ c ∧ c ≤ 'F')

/-- `_parse_hextet` -/
def isHextet (text : List Char) : Bool := !text.isEmpty && text.all isHexDigit && decide (text.length ≤ 4)

/-- The parts between the colons, an address of the fourth version at the end as two of them. -/
def hextets (parts : List (List Char)) : Option (List (List Char)) :=
  match parts.getLast? with
  | none => none
  | some last =>
      if '.' ∈ last then
        if isIPv4 last then
          let ip := (last.splitOn '.').foldl (fun n octet => 256 * n + octetValue octet) 0
          some (parts.dropLast ++ [Nat.toDigits 16 (ip / 65536 % 65536), Nat.toDigits 16 (ip % 65536)])
        else none
      else some parts

/-- The second half of `_ip_int_from_string`: one run of zeros may be left out. -/
def isAbridged (parts : List (List Char)) : Bool :=
  let part := fun i => parts.getD i []
  match (List.range parts.length).filter (fun i => decide (1 ≤ i ∧ i + 1 < parts.length ∧ part i = [])) with
  | [] =>
      decide (parts.length = 8 ∧ part 0 ≠ [] ∧ part 7 ≠ []) && (List.range 8).all (fun i => isHextet (part i))
  | [skip] =>
      let high := if part 0 = [] then skip - 1 else skip
      let low := if part (parts.length - 1) = [] then parts.length - skip - 2 else parts.length - skip - 1
      decide (part 0 = [] -> high = 0) && decide (part (parts.length - 1) = [] -> low = 0) &&
        decide (high + low < 8) && (List.range high).all (fun i => isHextet (part i)) &&
        (List.range low).all (fun i => isHextet (part (parts.length - low + i)))
  | _ => false

/-- `IPv6Address` -/
def isIPv6 (text : List Char) : Bool :=
  let address := text.takeWhile (fun c => decide (c ≠ '%'))
  let zone := text.drop address.length
  (zone.isEmpty || (decide (1 < zone.length) && !zone.tail.contains '%')) && !text.contains '/' &&
    decide (3 ≤ (address.splitOn ':').length) &&
    match hextets (address.splitOn ':') with
    | none => false
    | some parts => decide (parts.length ≤ 9) && isAbridged parts

/-- `ipaddress.ip_address` does not raise. -/
def isAddress (text : String) : Bool := isIPv4 text.toList || isIPv6 text.toList

/-! ## What an address is made of -/

/-- A character of an address but for its zone. -/
def isAddressChar (c : Char) : Bool := isHexDigit c || decide (c = '.' ∨ c = ':')

theorem mem_splitOn (sep : Char) {c : Char} {text : List Char} (mem : c ∈ text) :
    c = sep ∨ ∃ part ∈ text.splitOn sep, c ∈ part := by
  induction text with
  | nil => cases mem
  | cons x text ih =>
      rw [List.splitOn_cons_eq_if_modifyHead]
      split
      · rename_i same
        rcases List.mem_cons.mp mem with rfl | mem
        · exact .inl (eq_of_beq same)
        · rcases ih mem with here | ⟨part, inside, mem⟩
          · exact .inl here
          · exact .inr ⟨part, List.mem_cons_of_mem _ inside, mem⟩
      · obtain ⟨head, tail, pieces⟩ := List.exists_cons_of_ne_nil (List.splitOn_ne_nil sep text)
        rw [pieces] at ih ⊢
        rw [List.modifyHead_cons]
        rcases List.mem_cons.mp mem with rfl | mem
        · exact .inr ⟨_, List.mem_cons_self, List.mem_cons_self⟩
        · rcases ih mem with here | ⟨part, inside, mem⟩
          · exact .inl here
          · rcases List.mem_cons.mp inside with rfl | inside
            · exact .inr ⟨_, List.mem_cons_self, List.mem_cons_of_mem _ mem⟩
            · exact .inr ⟨part, List.mem_cons_of_mem _ inside, mem⟩

theorem isAddressChar_of_isIPv4 {text : List Char} (valid : isIPv4 text = true) {c : Char} (mem : c ∈ text) :
    isAddressChar c = true := by
  unfold isIPv4 at valid
  rw [Bool.and_eq_true, List.all_eq_true] at valid
  unfold isAddressChar
  rcases mem_splitOn '.' mem with rfl | ⟨octet, inside, mem⟩
  · rfl
  · have octet := valid.2 octet inside
    unfold isOctet at octet
    simp only [Bool.and_eq_true, List.all_eq_true] at octet
    have digit : isHexDigit c = true := by
      unfold isHexDigit
      rw [octet.1.1.1.2 c mem, Bool.true_or, Bool.true_or]
    rw [digit, Bool.true_or]

theorem isAddressChar_of_isHextet {text : List Char} (valid : isHextet text = true) {c : Char} (mem : c ∈ text) :
    isAddressChar c = true := by
  unfold isHextet at valid
  simp only [Bool.and_eq_true, List.all_eq_true] at valid
  unfold isAddressChar
  rw [valid.1.2 c mem, Bool.true_or]

/-- The parts of an address are empty or numbers. -/
theorem part_of_isAbridged {parts : List (List Char)} (valid : isAbridged parts = true) {part : List Char}
    (mem : part ∈ parts) : part = [] ∨ isHextet part = true := by
  obtain ⟨i, below, rfl⟩ := List.getElem_of_mem mem
  rw [List.getElem_eq_getD []]
  unfold isAbridged at valid
  dsimp only at valid
  split at valid
  · simp only [Bool.and_eq_true, decide_eq_true_eq, List.all_eq_true, List.mem_range] at valid
    exact .inr (valid.2 i (by omega))
  · rename_i skip skipped
    have inner : skip ∈ [skip] := List.mem_singleton.mpr rfl
    rw [← skipped, List.mem_filter, decide_eq_true_eq] at inner
    simp only [Bool.and_eq_true, decide_eq_true_eq, List.all_eq_true, List.mem_range] at valid
    obtain ⟨⟨⟨⟨leading, trailing⟩, _⟩, high⟩, low⟩ := valid
    rcases Nat.lt_trichotomy i skip with before | rfl | after
    · by_cases first : parts.getD 0 [] = []
      · rw [if_pos first] at leading
        have zero : i = 0 := by
          have := leading first
          omega
        rw [zero]
        exact .inl first
      · rw [if_neg first] at high
        exact .inr (high i before)
    · exact .inl inner.2.2.2
    · by_cases last : parts.getD (parts.length - 1) [] = []
      · rw [if_pos last] at trailing
        have here : i = parts.length - 1 := by
          have := trailing last
          omega
        rw [here]
        exact .inl last
      · rw [if_neg last] at low
        have there := low (i - skip - 1) (by omega)
        have same : parts.length - (parts.length - skip - 1) + (i - skip - 1) = i := by omega
        rw [same] at there
        exact .inr there
  · cases valid

theorem isAddressChar_of_hextets {parts numbers : List (List Char)} (read : hextets parts = some numbers)
    (valid : isAbridged numbers = true) {part : List Char} (inside : part ∈ parts) {c : Char} (mem : c ∈ part) :
    isAddressChar c = true := by
  have each : ∀ part ∈ numbers, c ∈ part -> isAddressChar c = true := by
    intro part inside mem
    rcases part_of_isAbridged valid inside with rfl | number
    · cases mem
    · exact isAddressChar_of_isHextet number mem
  unfold hextets at read
  split at read
  · cases read
  · rename_i last final
    split at read
    · split at read
      · rename_i fourth
        cases read
        rw [← List.dropLast_append_getLast? last final] at inside
        rcases List.mem_append.mp inside with before | here
        · exact each part (List.mem_append_left _ before) mem
        · rw [List.mem_singleton.mp here] at mem
          exact isAddressChar_of_isIPv4 fourth mem
      · cases read
    · cases read
      exact each part inside mem

/-- An address that names no zone has nothing else in it. -/
theorem isAddressChar_of_isAddress {text : String} (valid : isAddress text = true) {c : Char}
    (mem : c ∈ text.toList.takeWhile (fun c => decide (c ≠ '%'))) : isAddressChar c = true := by
  unfold isAddress at valid
  rcases Bool.or_eq_true_iff.mp valid with fourth | sixth
  · exact isAddressChar_of_isIPv4 fourth ((List.takeWhile_sublist _).subset mem)
  · unfold isIPv6 at sixth
    dsimp only at sixth
    rw [Bool.and_eq_true] at sixth
    rcases mem_splitOn ':' mem with rfl | ⟨part, inside, mem⟩
    · rfl
    · cases read : hextets ((text.toList.takeWhile (fun c => decide (c ≠ '%'))).splitOn ':') with
      | none =>
          rw [read] at sixth
          exact absurd sixth.2 Bool.false_ne_true
      | some numbers =>
          rw [read] at sixth
          exact isAddressChar_of_hextets read (Bool.and_eq_true_iff.mp sixth.2).2 inside mem

/-- An address begins with a character of its own. -/
theorem head_of_isAddress {text : String} (valid : isAddress text = true) :
    ∃ c rest, text.toList = c :: rest ∧ isAddressChar c = true := by
  cases chars : text.toList with
  | nil =>
      unfold isAddress at valid
      rw [chars] at valid
      exact absurd valid (by decide)
  | cons c rest =>
      refine ⟨c, rest, rfl, ?_⟩
      by_cases zone : c = '%'
      · subst zone
        have nothing : ('%' :: rest).takeWhile (fun c => decide (c ≠ '%')) = [] := rfl
        unfold isAddress at valid
        rw [chars] at valid
        rcases Bool.or_eq_true_iff.mp valid with fourth | sixth
        · exact isAddressChar_of_isIPv4 fourth List.mem_cons_self
        · unfold isIPv6 at sixth
          dsimp only at sixth
          rw [nothing, Bool.and_eq_true, Bool.and_eq_true] at sixth
          exact absurd sixth.1.2 (by decide)
      · refine isAddressChar_of_isAddress valid ?_
        have kept : (c :: rest).takeWhile (fun c => decide (c ≠ '%')) = c :: rest.takeWhile (fun c => decide (c ≠ '%')) :=
          List.takeWhile_cons_of_pos (decide_eq_true zone)
        rw [chars, kept]
        exact List.mem_cons_self

end Addresses
end Shiftlush
