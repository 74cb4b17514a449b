import Shiftlush.Addresses
import Shiftlush.Text
import Mathlib.Data.Bool.AllAny
import Mathlib.Data.List.TakeWhile

namespace Shiftlush
namespace ClientIp

open Addresses (isAddress isAddressChar)

/-!
# Where a request came from

`core.client_ip`.  Each proxy adds the address it was reached from to the end of a list
between commas, and what stands before the first of them is the caller's own writing.
-/

/-- What is read of `request.META`. -/
structure Request where
  remoteAddr : Option String
  forwardedFor : Option String
  deriving DecidableEq

/-- `_usable` -/
def usable : Option String -> Option String
  | none => none
  | some value => if !value.isEmpty && isAddress value then some value else none

/-- The entries of the list that say anything. -/
def hopsOf (forwarded : List Char) : List String :=
  ((forwarded.splitOn ',').map (fun part => strip (.ofList part))).filter (fun part => !part.isEmpty)

def clientIp (trusted : Int) (request : Request) : Option String :=
  let remoteAddr := usable request.remoteAddr
  if trusted ≤ 0 then remoteAddr
  else
    let hops := hopsOf (request.forwardedFor.getD "").toList
    if hops.isEmpty then remoteAddr
    else (usable hops[hops.length - min trusted.toNat hops.length]?).or remoteAddr

/-! ## Proxies -/

/-- What a proxy adds: the address of its peer, after a comma and perhaps blanks. -/
structure Proxy where
  gap : List Char
  blank : ∀ c ∈ gap, isSpace c = true
  address : String
  valid : isAddress address = true

/-- One entry of a list: no zone with a comma or a blank in it. -/
def Proxy.IsEntry (proxy : Proxy) : Prop := ∀ c ∈ proxy.address.toList, c ≠ ',' ∧ isSpace c = false

def Proxy.append (proxy : Proxy) : Option String -> String
  | none => proxy.address
  | some header => header ++ .ofList (',' :: (proxy.gap ++ proxy.address.toList))

/-- The header behind the proxies, the outermost first. -/
def through (header : Option String) : List Proxy -> Option String
  | [] => header
  | proxy :: inner => through (some (proxy.append header)) inner

/-! ## The entries -/

theorem isSpace_of_isAddressChar {c : Char} (own : isAddressChar c = true) : c ≠ ',' ∧ isSpace c = false := by
  have code : 45 < c.toNat ∧ c.toNat < 103 := by
    unfold isAddressChar Addresses.isHexDigit Char.isDigit at own
    simp only [Bool.or_eq_true, Bool.and_eq_true, decide_eq_true_eq, ge_iff_le, UInt32.le_iff_toNat_le,
      Char.le_def] at own
    rcases own with ((digit | lower) | upper) | rfl | rfl
    · have range : 48 ≤ c.toNat ∧ c.toNat ≤ 57 := digit
      omega
    · have range : 97 ≤ c.toNat ∧ c.toNat ≤ 102 := lower
      omega
    · have range : 65 ≤ c.toNat ∧ c.toNat ≤ 70 := upper
      omega
    · decide
    · decide
  constructor
  · rintro rfl
    exact absurd code.1 (by decide)
  · unfold isSpace
    dsimp only
    rw [decide_eq_false_iff_not]
    omega

theorem hopsOf_append (before after : List Char) : hopsOf (before ++ ',' :: after) = hopsOf before ++ hopsOf after := by
  unfold hopsOf
  rw [List.splitOn_append_cons_self, List.map_append, List.filter_append]

theorem strip_cons {c : Char} (blank : isSpace c = true) (text : List Char) :
    strip (.ofList (c :: text)) = strip (.ofList text) := by
  unfold strip
  rw [String.toList_ofList, String.toList_ofList, List.dropWhile_cons_of_pos blank]

/-- Blanks before an entry are trimmed. -/
theorem hopsOf_gap {gap : List Char} (blank : ∀ c ∈ gap, isSpace c = true) (text : List Char) :
    hopsOf (gap ++ text) = hopsOf text := by
  induction gap with
  | nil => rfl
  | cons c gap ih =>
      have space := blank c List.mem_cons_self
      have noComma : (c == ',') = false := by
        refine beq_false_of_ne ?_
        rintro rfl
        exact absurd space (by decide)
      rw [← ih (fun c mem => blank c (List.mem_cons_of_mem _ mem)), List.cons_append]
      unfold hopsOf
      rw [List.splitOn_cons_eq_if_modifyHead, noComma, if_neg Bool.false_ne_true]
      obtain ⟨head, tail, pieces⟩ := List.exists_cons_of_ne_nil (List.splitOn_ne_nil ',' (gap ++ text))
      rw [pieces, List.modifyHead_cons, List.map_cons, List.map_cons, strip_cons space]

/-- A text with something in it is not trimmed to nothing. -/
theorem strip_ne_empty {c : Char} {text : List Char} (mem : c ∈ text) (solid : isSpace c = false) :
    (strip (.ofList text)).isEmpty = false := by
  rw [Bool.eq_false_iff, ne_eq, String.isEmpty_iff]
  intro empty
  unfold strip at empty
  rw [String.toList_ofList, String.ofList_eq_empty_iff, List.reverse_eq_nil_iff, List.dropWhile_eq_nil_iff] at empty
  have kept : c ∈ text.dropWhile isSpace := by
    have parts := List.takeWhile_append_dropWhile (p := isSpace) (l := text)
    rw [← parts] at mem
    rcases List.mem_append.mp mem with taken | kept
    · rw [List.mem_takeWhile_imp taken] at solid
      cases solid
    · exact kept
  rw [empty c (List.mem_reverse.mpr kept)] at solid
  cases solid

theorem strip_eq {text : List Char} (solid : ∀ c ∈ text, isSpace c = false) : strip (.ofList text) = .ofList text := by
  have kept : ∀ text : List Char, (∀ c ∈ text, isSpace c = false) -> text.dropWhile isSpace = text := by
    intro text solid
    cases text with
    | nil => rfl
    | cons c text => exact List.dropWhile_cons_of_neg (by rw [solid c List.mem_cons_self]; exact Bool.false_ne_true)
  unfold strip
  rw [String.toList_ofList, kept text solid, kept text.reverse (fun c mem => solid c (List.mem_reverse.mp mem)),
    List.reverse_reverse]

theorem Proxy.address_ne (proxy : Proxy) : proxy.address.isEmpty = false := by
  obtain ⟨c, rest, chars, _⟩ := Addresses.head_of_isAddress proxy.valid
  rw [Bool.eq_false_iff, ne_eq, String.isEmpty_iff]
  intro empty
  rw [empty] at chars
  cases chars

/-- What a proxy adds is one entry at least. -/
theorem Proxy.length_hops (proxy : Proxy) : 1 ≤ (hopsOf proxy.address.toList).length := by
  obtain ⟨c, rest, chars, own⟩ := Addresses.head_of_isAddress proxy.valid
  obtain ⟨noComma, solid⟩ := isSpace_of_isAddressChar own
  obtain ⟨head, tail, pieces⟩ := List.exists_cons_of_ne_nil (List.splitOn_ne_nil ',' rest)
  unfold hopsOf
  rw [chars, List.splitOn_cons_eq_if_modifyHead, beq_false_of_ne noComma, if_neg Bool.false_ne_true, pieces,
    List.modifyHead_cons, List.map_cons, List.filter_cons_of_pos]
  · exact Nat.succ_pos _
  · rw [strip_ne_empty List.mem_cons_self solid]
    rfl

theorem Proxy.IsEntry.hops {proxy : Proxy} (entry : proxy.IsEntry) :
    hopsOf proxy.address.toList = [proxy.address] := by
  unfold hopsOf
  rw [List.splitOn_eq_singleton (fun comma => (entry ',' comma).1 rfl), List.map_singleton,
    strip_eq (fun c mem => (entry c mem).2), String.ofList_toList, List.filter_cons_of_pos]
  · rfl
  · rw [proxy.address_ne]
    rfl

/-- An address without a zone is one entry. -/
theorem Proxy.isEntry_of_no_zone {proxy : Proxy} (plain : '%' ∉ proxy.address.toList) : proxy.IsEntry := by
  intro c mem
  refine isSpace_of_isAddressChar (Addresses.isAddressChar_of_isAddress proxy.valid ?_)
  have whole : proxy.address.toList.takeWhile (fun c => decide (c ≠ '%')) = proxy.address.toList := by
    rw [List.takeWhile_eq_self_iff]
    intro c mem
    exact decide_eq_true (fun zone => plain (zone ▸ mem))
  rw [whole]
  exact mem

/-- The list behind the proxies: what the caller sent, then what each of them added. -/
theorem hops_through (header : Option String) (chain : List Proxy) :
    hopsOf ((through header chain).getD "").toList =
      hopsOf (header.getD "").toList ++ chain.flatMap (fun proxy => hopsOf proxy.address.toList) := by
  induction chain generalizing header with
  | nil => exact (List.append_nil _).symm
  | cons proxy inner ih =>
      have added : hopsOf (proxy.append header).toList =
          hopsOf (header.getD "").toList ++ hopsOf proxy.address.toList := by
        cases header with
        | none =>
            have nothing : hopsOf "".toList = [] := by decide +kernel
            exact (congrArg (· ++ hopsOf proxy.address.toList) nothing).symm
        | some header =>
            unfold Proxy.append
            dsimp only [Option.getD_some]
            rw [String.toList_append, String.toList_ofList, hopsOf_append, hopsOf_gap proxy.blank]
      unfold through
      rw [ih, Option.getD_some, added, List.flatMap_cons, List.append_assoc]

theorem length_added (chain : List Proxy) :
    chain.length ≤ (chain.flatMap (fun proxy => hopsOf proxy.address.toList)).length := by
  induction chain with
  | nil => exact Nat.le_refl 0
  | cons proxy inner ih =>
      have one := proxy.length_hops
      rw [List.flatMap_cons, List.length_append, List.length_cons]
      omega

/-! ## The trusted entry -/

/-- The entry that is read is the proxies', whatever stands before theirs. -/
theorem clientIp_through (outermost : Proxy) (inner : List Proxy) (header remoteAddr : Option String) :
    clientIp (inner.length + 1 : Nat) ⟨remoteAddr, through header (outermost :: inner)⟩ =
      let added := (outermost :: inner).flatMap (fun proxy => hopsOf proxy.address.toList)
      (usable added[added.length - (inner.length + 1)]?).or (usable remoteAddr) := by
  have enough := length_added (outermost :: inner)
  have positive : ¬((inner.length + 1 : Nat) : Int) ≤ 0 := by omega
  unfold clientIp
  dsimp only
  rw [if_neg positive, hops_through, Int.toNat_natCast]
  rw [List.length_cons] at enough
  generalize (outermost :: inner).flatMap (fun proxy => hopsOf proxy.address.toList) = added at enough
  generalize hopsOf (header.getD "").toList = before
  have nonempty : (before ++ added).isEmpty = false := by
    rw [List.isEmpty_eq_false_iff]
    intro empty
    rw [(List.append_eq_nil_iff.mp empty).2] at enough
    exact absurd enough (Nat.not_succ_le_zero _)
  have short : min (inner.length + 1) (before ++ added).length = inner.length + 1 := by
    rw [List.length_append]
    omega
  rw [nonempty, if_neg Bool.false_ne_true, short]
  have place : (before ++ added).length - (inner.length + 1) = before.length + (added.length - (inner.length + 1)) := by
    rw [List.length_append]
    omega
  rw [place, List.getElem?_append_right (Nat.le_add_right _ _), Nat.add_sub_cancel_left]

theorem clientIp_of_entries (outermost : Proxy) (inner : List Proxy) (header remoteAddr : Option String)
    (entries : ∀ proxy ∈ outermost :: inner, proxy.IsEntry) :
    clientIp (inner.length + 1 : Nat) ⟨remoteAddr, through header (outermost :: inner)⟩ = some outermost.address := by
  have added : (outermost :: inner).flatMap (fun proxy => hopsOf proxy.address.toList) =
      (outermost :: inner).map Proxy.address := by
    rw [List.map_eq_flatMap]
    exact List.flatMap_congr (fun proxy mem => (entries proxy mem).hops)
  rw [clientIp_through, added]
  dsimp only
  rw [List.length_map, List.length_cons, Nat.sub_self, List.map_cons, List.getElem?_cons_zero]
  have read : usable (some outermost.address) = some outermost.address := by
    unfold usable
    dsimp only
    rw [outermost.address_ne, outermost.valid]
    rfl
  rw [read]
  rfl

/-- Two requests of one peer.  Where an address names a zone that is no entry of a list, they come the same way. -/
theorem clientIp_same_peer (outermost outermost' : Proxy) (inner inner' : List Proxy)
    (header header' remoteAddr remoteAddr' : Option String) (same : outermost.address = outermost'.address)
    (count : inner.length = inner'.length)
    (way : (∀ proxy ∈ (outermost :: inner) ++ (outermost' :: inner'), proxy.IsEntry) ∨
      inner.map Proxy.address = inner'.map Proxy.address ∧ remoteAddr = remoteAddr') :
    clientIp (inner.length + 1 : Nat) ⟨remoteAddr, through header (outermost :: inner)⟩ =
        clientIp (inner'.length + 1 : Nat) ⟨remoteAddr', through header' (outermost' :: inner')⟩ ∧
      ((∀ proxy ∈ outermost :: inner, proxy.IsEntry) ->
        clientIp (inner.length + 1 : Nat) ⟨remoteAddr, through header (outermost :: inner)⟩ =
          some outermost.address) := by
  refine ⟨?_, clientIp_of_entries outermost inner header remoteAddr⟩
  rcases way with entries | ⟨addresses, rfl⟩
  · rw [clientIp_of_entries outermost inner header remoteAddr
        (fun proxy mem => entries proxy (List.mem_append_left _ mem)),
      clientIp_of_entries outermost' inner' header' remoteAddr'
        (fun proxy mem => entries proxy (List.mem_append_right _ mem)), same]
  · have flat : ∀ chain : List Proxy, chain.flatMap (fun proxy => hopsOf proxy.address.toList) =
        (chain.map Proxy.address).flatMap (fun address => hopsOf address.toList) := by
      intro chain
      rw [List.flatMap_map]
    rw [clientIp_through, clientIp_through, flat, flat, List.map_cons, List.map_cons, addresses, same, count]

def caddy : Proxy where
  gap := [' ']
  blank := List.all_eq_true.mp (by decide)
  address := "203.0.113.5"
  valid := by decide +kernel

def edge : Proxy where
  gap := []
  blank := fun _ mem => absurd mem List.not_mem_nil
  address := "fe80::1%eth0"
  valid := by decide +kernel

/-- A header of any form makes no difference. -/
theorem clientIp_same_peer_forged :
    clientIp 2 ⟨some "10.0.0.2", through (some "1.2.3.4,, unknown ,") [caddy, edge]⟩ =
        clientIp 2 ⟨none, through none [caddy, caddy]⟩ ∧
      ((∀ proxy ∈ [caddy, edge], proxy.IsEntry) ->
        clientIp 2 ⟨some "10.0.0.2", through (some "1.2.3.4,, unknown ,") [caddy, edge]⟩ = some "203.0.113.5") := by
  have entries : ∀ proxy ∈ [caddy, edge] ++ [caddy, caddy], proxy.IsEntry := by
    have plain : caddy.IsEntry := Proxy.isEntry_of_no_zone (by decide +kernel)
    have zone : edge.IsEntry := List.all_iff_forall_prop.mp (by decide +kernel)
    intro proxy mem
    simp only [List.cons_append, List.nil_append, List.mem_cons, List.not_mem_nil, or_false] at mem
    rcases mem with rfl | rfl | rfl | rfl
    · exact plain
    · exact zone
    · exact plain
    · exact plain
  exact clientIp_same_peer caddy caddy [edge] [caddy] (some "1.2.3.4,, unknown ,") none (some "10.0.0.2") none rfl rfl
    (.inl entries)

end ClientIp
end Shiftlush
