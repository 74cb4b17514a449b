import Shiftlush.Estate.Standing
import Shiftlush.Uniqueness

namespace Shiftlush
namespace Estate

open References (alive alive_iff find? isDeleted strike)
open Transitions (run run_append run_invariant)

/-!
# Stickers

The token on a lift's label.  The unique indexes keep tokens and registration numbers apart, so that
a scan opens one lift; and a label that has been replaced opens nothing.
-/

/-- One of the request's attempts draws the token. -/
def Event.draws (token : String) : Event -> Bool
  | .createElevator _ _ _ draw => (List.range maxAttempts).any (fun k => decide (draw k = token))
  | .regenerateQr _ draw => (List.range maxAttempts).any (fun k => decide (draw k = token))
  | _ => false

/-- The request may end what the lift's label opens. -/
def Event.retires (id : Nat) : Event -> Bool
  | .regenerateQr other _ => decide (other = id)
  | .deleteElevator other => decide (other = id)
  | _ => false

namespace Register

/-- What a request makes of the lifts. -/
inductive Labels (s s' : Register) (event : Event) : Prop where
  | same (lifts : s'.lifts = s.lifts) (elsewhere : s'.elsewhere = s.elsewhere)
  | new (row : Lift) (checked : s.checkLift s.fleet.nextId row = .ok row)
      (drawn : event.draws row.qrToken = true) (lifts : s'.lifts = s.lifts.insert s.fleet.nextId row)
      (elsewhere : s'.elsewhere = s.elsewhere)
  /-- A live row is written: its token stays, or is drawn for its label. -/
  | edited (id : Nat) (row : Lift) (f : Lift -> Lift) (found : find? s.lifts id = some row)
      (checked : ∃ written, s.checkLift id (f row) = .ok written)
      (keeps : ∀ row, isDeleted (f row) = isDeleted row)
      (token : (∀ row, (f row).qrToken = row.qrToken) ∨
        (event.retires id = true ∧ ∀ row, event.draws (f row).qrToken = true))
      (lifts : s'.lifts = s.lifts.update id f) (elsewhere : s'.elsewhere = s.elsewhere)
  | gone (id : Nat) (retired : event.retires id = true) (lifts : s'.lifts = strike s.lifts id)
      (elsewhere : s'.elsewhere = s.elsewhere)
  | foreign (token : String) (absent : ∀ r ∈ s.lifts, r.2.qrToken ≠ token) (lifts : s'.lifts = s.lifts)
      (elsewhere : s'.elsewhere = token :: s.elsewhere)

variable {s s' : Register} {event : Event}

theorem drawn_within {draw : Nat -> String} {j : Nat} (within : j ≤ 0 + (maxAttempts - 1)) :
    (List.range maxAttempts).any (fun k => decide (draw k = draw j)) = true := by
  refine List.any_eq_true.mpr ⟨j, List.mem_range.mpr ?_, decide_eq_true rfl⟩
  have three : maxAttempts = 3 := rfl
  omega

theorem labels_attempt (done : s.attempt event = .ok s') : Labels s s' event := by
  cases event with
  | createCustomer =>
      cases done
      exact .same rfl rfl
  | deleteCustomer id =>
      rcases bind_ok.mp done with ⟨_, _, rest⟩
      rcases unlessInUse_ok.mp rest with ⟨_, rfl⟩
      exact .same rfl rfl
  | createComplex customer =>
      rcases bind_ok.mp done with ⟨_, _, rest⟩
      cases rest
      exact .same rfl rfl
  | editComplex id customer =>
      rcases bind_ok.mp done with ⟨_, _, named⟩
      rcases bind_ok.mp named with ⟨_, _, rest⟩
      cases rest
      exact .same rfl rfl
  | deleteComplex id =>
      rcases bind_ok.mp done with ⟨_, _, rest⟩
      rcases unlessInUse_ok.mp rest with ⟨_, rfl⟩
      exact .same rfl rfl
  | createBuilding customer complex =>
      rcases bind_ok.mp done with ⟨_, _, checked⟩
      rcases bind_ok.mp checked with ⟨_, _, agreed⟩
      rcases bind_ok.mp agreed with ⟨_, _, rest⟩
      cases rest
      exact .same rfl rfl
  | editBuilding id customer complex =>
      rcases bind_ok.mp done with ⟨_, _, named⟩
      rcases bind_ok.mp named with ⟨_, _, checked⟩
      rcases bind_ok.mp checked with ⟨_, _, agreed⟩
      rcases bind_ok.mp agreed with ⟨_, _, rest⟩
      cases rest
      exact .same rfl rfl
  | deleteBuilding id =>
      rcases bind_ok.mp done with ⟨_, _, rest⟩
      rcases unlessInUse_ok.mp rest with ⟨_, rfl⟩
      exact .same rfl rfl
  | createElevator building registrationNumber status draw =>
      rcases createElevator_ok done with ⟨fleet, row, _, _, _, checked, ⟨j, within, drawn⟩, rfl⟩
      refine .new row checked ?_ rfl rfl
      rw [drawn]
      exact drawn_within within
  | editElevator id building registrationNumber status =>
      rcases editElevator_ok done with ⟨fleet, row, found, _, _, checked, rfl⟩
      exact .edited id row
        (fun row => { row with
          building := building.getD row.building
          registrationNumber := registrationNumber.getD row.registrationNumber })
        found checked (fun _ => rfl) (Or.inl (fun _ => rfl)) rfl rfl
  | regenerateQr id draw =>
      rcases regenerateQr_ok done with ⟨row, j, within, found, checked, rfl⟩
      refine .edited id row (fun row => { row with qrToken := draw j }) found ⟨_, checked⟩ (fun row => ?_)
        (Or.inr ⟨decide_eq_true rfl, fun row => ?_⟩) rfl rfl
      · rfl
      · exact drawn_within within
  | deleteElevator id =>
      rcases bind_ok.mp done with ⟨_, _, rest⟩
      rcases unlessInUse_ok.mp rest with ⟨_, rfl⟩
      exact .gone id (decide_eq_true rfl) rfl rfl
  | deleteContract id =>
      rcases deleteContract_ok done with ⟨_, _, rfl⟩
      exact .same rfl rfl
  | fleet event =>
      rcases fleet_ok done with ⟨fleet, _, _, _, _, rfl⟩
      exact .same rfl rfl
  | elsewhere token =>
      rcases unlessInUse_ok.mp done with ⟨unused, rfl⟩
      refine .foreign token ?_ rfl rfl
      intro r mem same
      exact List.any_eq_false.mp unused r mem (decide_eq_true same)

/-! ## What the indexes keep apart -/

/-- The column that is unique for every row, deleted or not. -/
def tokenKey (row : Lift) : Option String := some row.qrToken

def numberKey (row : Lift) : Option String :=
  if isDeleted row = false ∧ row.registrationNumber ≠ "" then some row.registrationNumber else none

theorem numberKey_eq_some {row : Lift} {number : String} : numberKey row = some number ↔
    isDeleted row = false ∧ number ≠ "" ∧ row.registrationNumber = number := by
  unfold numberKey
  split
  · rename_i keyed
    rw [Option.some.injEq]
    constructor
    · rintro rfl
      exact ⟨keyed.1, keyed.2, rfl⟩
    · exact fun ⟨_, _, same⟩ => same
  · rename_i unkeyed
    refine iff_of_false (by simp) ?_
    rintro ⟨kept, named, rfl⟩
    exact unkeyed ⟨kept, named⟩

/-- What the unique indexes keep. -/
structure Marked (s : Register) : Prop where
  tokens : Rows.Unique tokenKey s.lifts
  foreign : ∀ r ∈ s.lifts, r.2.qrToken ∉ s.elsewhere
  numbers : Rows.Unique numberKey s.lifts

theorem marked_empty : empty.Marked where
  tokens := Rows.unique_nil
  foreign := by
    intro r mem
    cases mem
  numbers := Rows.unique_nil

/-- What the indexes accept clashes with no other row. -/
theorem accepted {id : Nat} {row written : Lift} (checked : s.checkLift id row = .ok written) :
    Rows.clashes tokenKey s.lifts id row = false ∧ Rows.clashes numberKey s.lifts id row = false ∧
      row.qrToken ∉ s.elsewhere := by
  rcases checkLift_ok checked with ⟨_, free, unused⟩
  unfold tokenTaken at free
  unfold numberTaken at unused
  rw [Bool.or_eq_false_iff, List.any_eq_false] at free
  rw [Bool.and_eq_false_iff, decide_eq_false_iff_not, not_not, List.any_eq_false] at unused
  refine ⟨?_, ?_, ?_⟩
  · apply Rows.clashes_eq_false.mpr
    intro token named r mem same
    by_contra other
    cases named
    have taken := free.1 r mem
    rw [decide_eq_true other, decide_eq_true (Option.some.inj same)] at taken
    exact taken rfl
  · apply Rows.clashes_eq_false.mpr
    intro number named r mem same
    by_contra other
    rcases numberKey_eq_some.mp named with ⟨_, filled, rfl⟩
    rcases numberKey_eq_some.mp same with ⟨kept, _, equal⟩
    rcases unused with blank | unused
    · exact filled blank
    · have taken := unused r mem
      rw [alive_iff.mpr kept, decide_eq_true other, decide_eq_true equal] at taken
      exact taken rfl
  · intro taken
    rw [List.contains_iff_mem.mpr taken] at free
    cases free.2

theorem Marked.labels (marked : s.Marked) (sound : s.Sound) (labels : Labels s s' event) : s'.Marked := by
  cases labels with
  | same lifts elsewhere =>
      refine ⟨lifts ▸ marked.tokens, ?_, lifts ▸ marked.numbers⟩
      rw [lifts, elsewhere]
      exact marked.foreign
  | new row checked drawn lifts elsewhere =>
      rcases accepted checked with ⟨token, number, free⟩
      have absent : ∀ r ∈ s.lifts, r.1 ≠ s.fleet.nextId := fun r mem => Nat.ne_of_lt (sound.liftsBelow.of_mem mem)
      refine ⟨lifts ▸ marked.tokens.insert absent token, ?_, lifts ▸ marked.numbers.insert absent number⟩
      rw [lifts, elsewhere]
      intro r mem
      rcases List.mem_append.mp mem with old | last
      · exact marked.foreign r old
      · rw [List.mem_singleton.mp last]
        exact free
  | edited id row f found checked keeps token lifts elsewhere =>
      rcases checked with ⟨written, checked⟩
      rcases accepted checked with ⟨token, number, free⟩
      have only : ∀ row', (id, row') ∈ s.lifts -> row' = row := by
        intro row' mem
        have there := Rows.get?_of_mem sound.lifts mem
        rw [(References.find?_eq_some.mp found).1] at there
        exact (Option.some.inj there).symm
      have tokens := marked.tokens.update (fun row' mem => only row' mem ▸ token)
      have numbers := marked.numbers.update (fun row' mem => only row' mem ▸ number)
      refine ⟨lifts ▸ tokens, ?_, lifts ▸ numbers⟩
      rw [lifts, elsewhere]
      intro r mem
      rcases Rows.mem_update.mp mem with ⟨old, _⟩ | ⟨row', old, rfl⟩
      · exact marked.foreign r old
      · rw [only row' old]
        exact free
  | gone id retired lifts elsewhere =>
      have tokens : Rows.Unique tokenKey (strike s.lifts id) := marked.tokens.fade (fun _ _ same => same)
      have numbers : Rows.Unique numberKey (strike s.lifts id) := by
        apply marked.numbers.fade
        intro row number named
        cases (numberKey_eq_some.mp named).1
      refine ⟨lifts ▸ tokens, ?_, lifts ▸ numbers⟩
      rw [lifts, elsewhere]
      intro r mem
      rcases Rows.mem_update.mp mem with ⟨old, _⟩ | ⟨row, old, rfl⟩
      · exact marked.foreign r old
      · exact marked.foreign (id, row) old
  | foreign token absent lifts elsewhere =>
      refine ⟨lifts ▸ marked.tokens, ?_, lifts ▸ marked.numbers⟩
      rw [lifts, elsewhere]
      intro r mem taken
      rcases List.mem_cons.mp taken with same | before
      · exact absent r mem same
      · exact marked.foreign r mem before

theorem both_step (sound : s.Sound) (marked : s.Marked) (event : Event) :
    (s.step event).Sound ∧ (s.step event).Marked := by
  refine ⟨sound.step event, ?_⟩
  unfold step
  cases done : s.attempt event with
  | ok next => exact marked.labels sound (labels_attempt done)
  | error _ => exact marked

theorem sound_marked (events : List Event) : (run step empty events).Sound ∧ (run step empty events).Marked :=
  run_invariant (J := fun s : Register => s.Sound ∧ s.Marked) (fun _ event both => both_step both.1 both.2 event) events
    ⟨sound_empty, marked_empty⟩

/-- One lift to a sticker and to a number, deleted lifts' stickers included, and no other firm's. -/
theorem one_lift_a_sticker (events : List Event) :
    (∀ r ∈ (run step empty events).lifts, ∀ r' ∈ (run step empty events).lifts,
      r.2.qrToken = r'.2.qrToken -> r = r') ∧
    (∀ r ∈ (run step empty events).lifts, r.2.qrToken ∉ (run step empty events).elsewhere) ∧
    (∀ r ∈ (run step empty events).lifts, ∀ r' ∈ (run step empty events).lifts, alive r = true -> alive r' = true ->
      r.2.registrationNumber ≠ "" -> r.2.registrationNumber = r'.2.registrationNumber -> r = r') := by
  have ⟨sound, marked⟩ := sound_marked events
  refine ⟨?_, marked.foreign, ?_⟩
  · intro r mem r' mem' same
    exact Rows.unique sound.lifts mem mem' (marked.tokens r mem r' mem' r'.2.qrToken (congrArg some same) rfl)
  · intro r mem r' mem' here here' named same
    have keyed := numberKey_eq_some.mpr ⟨alive_iff.mp here, named, rfl⟩
    have keyed' := numberKey_eq_some.mpr ⟨alive_iff.mp here', named, same.symm⟩
    exact Rows.unique sound.lifts mem mem' (marked.numbers r mem r' mem' _ keyed keyed')

/-! ## What a scan opens -/

theorem byQr_eq_some (sound : s.Sound) (marked : s.Marked) {assigned : Option (List Nat)} {token : String} {id : Nat} :
    s.byQr assigned token = some id ↔
      ∃ row, find? s.lifts id = some row ∧ s.sees assigned row = true ∧ row.qrToken = token := by
  have bears {r : Nat × Lift}
      (first : List.find? (fun r => alive r && s.sees assigned r.2 && decide (r.2.qrToken = token)) s.lifts = some r) :
      find? s.lifts r.1 = some r.2 ∧ s.sees assigned r.2 = true ∧ r.2.qrToken = token := by
    have passes := List.find?_some first
    rw [Bool.and_eq_true, Bool.and_eq_true, decide_eq_true_eq] at passes
    rcases passes with ⟨⟨kept, seen⟩, same⟩
    have there := Rows.get?_of_mem sound.lifts (List.mem_of_find?_eq_some first)
    exact ⟨References.find?_eq_some.mpr ⟨there, alive_iff.mp kept⟩, seen, same⟩
  unfold byQr
  constructor
  · intro opened
    rcases Option.map_eq_some_iff.mp opened with ⟨r, first, rfl⟩
    exact ⟨r.2, bears first⟩
  · rintro ⟨row, found, seen, same⟩
    rcases References.find?_eq_some.mp found with ⟨there, kept⟩
    have mem := Rows.mem_of_get? there
    have listed : (List.find? (fun r => alive r && s.sees assigned r.2 && decide (r.2.qrToken = token))
        s.lifts).isSome = true := by
      rw [List.find?_isSome]
      refine ⟨(id, row), mem, ?_⟩
      rw [Bool.and_eq_true, Bool.and_eq_true, decide_eq_true_eq]
      exact ⟨⟨alive_iff.mpr kept, seen⟩, same⟩
    rcases Option.isSome_iff_exists.mp listed with ⟨r, first⟩
    have key := marked.tokens r (List.mem_of_find?_eq_some first) (id, row) mem token
      (congrArg some (bears first).2.2) (congrArg some same)
    rw [first, Option.map_some, key]

/-- Who sees the whole firm finds whatever bears the token. -/
theorem byQr_none (sound : s.Sound) (marked : s.Marked) {token : String} {id : Nat} :
    s.byQr none token = some id ↔ ∃ row, find? s.lifts id = some row ∧ row.qrToken = token := by
  rw [byQr_eq_some sound marked]
  constructor
  · rintro ⟨row, found, _, same⟩
    exact ⟨row, found, same⟩
  · rintro ⟨row, found, same⟩
    exact ⟨row, found, rfl, same⟩

/-- A technician finds the same lift, if it is one of theirs. -/
theorem byQr_some (sound : s.Sound) (marked : s.Marked) (customers : List Nat) (token : String) :
    s.byQr (some customers) token =
      (s.byQr none token).filter (fun id => (find? s.lifts id).any (s.sees (some customers))) := by
  apply Option.ext
  intro id
  rw [byQr_eq_some sound marked, Option.filter_eq_some_iff, byQr_none sound marked]
  constructor
  · rintro ⟨row, found, seen, same⟩
    refine ⟨⟨row, found, same⟩, ?_⟩
    rw [found]
    exact seen
  · rintro ⟨⟨row, found, same⟩, seen⟩
    rw [found] at seen
    exact ⟨row, found, seen, same⟩

/-- A sticker nobody prints anew was there before. -/
theorem Labels.before (labels : Labels s s' event) {token : String} (undrawn : event.draws token = false)
    {id : Nat} (bears : ∃ row, find? s'.lifts id = some row ∧ row.qrToken = token) :
    ∃ row, find? s.lifts id = some row ∧ row.qrToken = token := by
  rcases bears with ⟨row', found', same⟩
  cases labels with
  | same lifts _ => exact ⟨row', lifts ▸ found', same⟩
  | foreign _ _ lifts _ => exact ⟨row', lifts ▸ found', same⟩
  | new row _ drawn lifts _ =>
      rw [lifts] at found'
      rcases References.find?_insert found' with old | ⟨_, rfl⟩
      · exact ⟨row', old, same⟩
      · rw [same, undrawn] at drawn
        cases drawn
  | edited key row f _ _ keeps kept lifts _ =>
      rw [lifts, References.find?_update keeps] at found'
      split at found'
      · rcases Option.map_eq_some_iff.mp found' with ⟨old, found, rfl⟩
        rcases kept with stays | ⟨_, drawn⟩
        · exact ⟨old, found, (stays old).symm.trans same⟩
        · have drawn := drawn old
          rw [same, undrawn] at drawn
          cases drawn
      · exact ⟨row', found', same⟩
  | gone key _ lifts _ =>
      rw [lifts, References.find?_strike] at found'
      split at found'
      · cases found'
      · exact ⟨row', found', same⟩

/-- A lift that keeps its label still bears it. -/
theorem Labels.after (labels : Labels s s' event) {token : String} {id : Nat} (unretired : event.retires id = false)
    (bears : ∃ row, find? s.lifts id = some row ∧ row.qrToken = token) :
    ∃ row, find? s'.lifts id = some row ∧ row.qrToken = token := by
  rcases bears with ⟨row', found', same⟩
  cases labels with
  | same lifts _ => exact ⟨row', lifts ▸ found', same⟩
  | foreign _ _ lifts _ => exact ⟨row', lifts ▸ found', same⟩
  | new row _ _ lifts _ =>
      rcases References.find?_eq_some.mp found' with ⟨there, kept⟩
      refine ⟨row', References.find?_eq_some.mpr ⟨?_, kept⟩, same⟩
      rw [lifts]
      exact Rows.get?_insert_of_some there
  | edited key row f _ _ keeps kept lifts _ =>
      rw [lifts, References.find?_update keeps, found']
      split
      · rename_i here
        rcases kept with stays | ⟨retired, _⟩
        · exact ⟨f row', rfl, (stays row').trans same⟩
        · rw [← here, unretired] at retired
          cases retired
      · exact ⟨row', rfl, same⟩
  | gone key retired lifts _ =>
      rw [lifts, References.find?_strike]
      split
      · rename_i here
        rw [← here, unretired] at retired
        cases retired
      · exact ⟨row', found', same⟩

theorem byQr_step (sound : s.Sound) (marked : s.Marked) {token : String} (undrawn : event.draws token = false) :
    ((s.step event).byQr none token = none ∨ (s.step event).byQr none token = s.byQr none token) ∧
      ∀ id, s.byQr none token = some id -> event.retires id = false -> (s.step event).byQr none token = some id := by
  unfold step
  cases done : s.attempt event with
  | error _ => exact ⟨Or.inr rfl, fun id opened _ => opened⟩
  | ok next =>
      have labels := labels_attempt done
      have sound' := sound.attempt done
      have marked' := marked.labels sound labels
      refine ⟨?_, ?_⟩
      · cases opened : next.byQr none token with
        | none => exact Or.inl rfl
        | some id =>
            have bears := labels.before undrawn ((byQr_none sound' marked').mp opened)
            exact Or.inr ((byQr_none sound marked).mpr bears).symm
      · intro id opened unretired
        exact (byQr_none sound' marked').mpr (labels.after unretired ((byQr_none sound marked).mp opened))

theorem byQr_run (sound : s.Sound) (marked : s.Marked) {token : String} (later : List Event)
    (undrawn : ∀ event ∈ later, event.draws token = false) :
    ((run step s later).byQr none token = none ∨ (run step s later).byQr none token = s.byQr none token) ∧
      ∀ id, s.byQr none token = some id -> (∀ event ∈ later, event.retires id = false) ->
        (run step s later).byQr none token = some id := by
  induction later generalizing s with
  | nil => exact ⟨Or.inr rfl, fun id opened _ => opened⟩
  | cons event later ih =>
      have ⟨sound', marked'⟩ : (s.step event).Sound ∧ (s.step event).Marked := both_step sound marked event
      have first := byQr_step sound marked (undrawn event List.mem_cons_self)
      have rest := ih sound' marked' (fun other mem => undrawn other (List.mem_cons_of_mem _ mem))
      refine ⟨?_, ?_⟩
      · rcases rest.1 with ended | stays
        · exact Or.inl ended
        · rcases first.1 with ended | same
          · exact Or.inl (stays.trans ended)
          · exact Or.inr (stays.trans same)
      · intro id opened unretired
        exact rest.2 id (first.2 id opened (unretired event List.mem_cons_self))
          (fun other mem => unretired other (List.mem_cons_of_mem _ mem))

/-- A printed sticker opens its own lift until that lift is deleted or relabelled, and then nothing;
to a technician, only while it is a lift of theirs. -/
theorem sticker_resolves (before later : List Event) (token : String)
    (undrawn : ∀ event ∈ later, event.draws token = false) :
    ((run step empty (before ++ later)).byQr none token = none ∨
      (run step empty (before ++ later)).byQr none token = (run step empty before).byQr none token) ∧
    (∀ id, (run step empty before).byQr none token = some id -> (∀ event ∈ later, event.retires id = false) ->
      (run step empty (before ++ later)).byQr none token = some id) ∧
    ∀ customers, (run step empty (before ++ later)).byQr (some customers) token =
      ((run step empty (before ++ later)).byQr none token).filter (fun id =>
        (find? (run step empty (before ++ later)).lifts id).any
          ((run step empty (before ++ later)).sees (some customers))) := by
  have ⟨sound, marked⟩ := sound_marked before
  have ⟨sound', marked'⟩ := sound_marked (before ++ later)
  have stays := byQr_run sound marked later undrawn
  rw [← run_append] at stays
  exact ⟨stays.1, stays.2, fun customers => byQr_some sound' marked' customers token⟩

/-- The lift keeps its sticker when its number is corrected and another lift is labelled. -/
theorem sticker_resolves_renumbered :
    (run step empty ([.createCustomer, .createBuilding 0 none, .createElevator 1 "" none (fun _ => "h7Kq")] ++
      [.editElevator 0 none (some "34-1071") none, .createElevator 1 "" none (fun _ => "Wd3x")])).byQr none "h7Kq" =
        some 0 :=
  (sticker_resolves [.createCustomer, .createBuilding 0 none, .createElevator 1 "" none (fun _ => "h7Kq")]
    [.editElevator 0 none (some "34-1071") none, .createElevator 1 "" none (fun _ => "Wd3x")] "h7Kq"
    (by decide)).2.1 0 (by decide) (by decide)

/-- A lift that is relabelled bears what was drawn. -/
theorem regenerateQr_drawn {id : Nat} {draw : Nat -> String} (done : s.regenerateQr id draw = .ok s') {row : Lift}
    (found : find? s'.lifts id = some row) : (Event.regenerateQr id draw).draws row.qrToken = true := by
  rcases regenerateQr_ok done with ⟨old, j, within, before, _, rfl⟩
  have written : find? (s.lifts.update id (fun row => { row with qrToken := draw j })) id =
      some { old with qrToken := draw j } := by
    rw [References.find?_update, if_pos rfl, before, Option.map_some]
    intro row
    rfl
  have same := written.symm.trans found
  rw [← Option.some.inj same]
  exact drawn_within within

/-- What opens nothing for the whole firm opens nothing for anybody. -/
theorem byQr_dead (sound : s.Sound) (marked : s.Marked) {token : String} (dead : s.byQr none token = none)
    (assigned : Option (List Nat)) : s.byQr assigned token = none := by
  cases assigned with
  | none => exact dead
  | some customers =>
      rw [byQr_some sound marked, dead]
      rfl

/-- A copied label is dead once the lift has another, whoever scans it and whatever is asked later. -/
theorem copied_label_dead (before later : List Event) (token : String) (id : Nat) (draw : Nat -> String)
    (scanner : Option (List Nat))
    (relabelled : ∃ s', (run step empty before).attempt (.regenerateQr id draw) = .ok s')
    (opened : (run step empty before).byQr scanner token = some id)
    (undrawn : ∀ event ∈ Event.regenerateQr id draw :: later, event.draws token = false) :
    ∀ assigned, (run step empty (before ++ Event.regenerateQr id draw :: later)).byQr assigned token = none := by
  have ⟨sound, marked⟩ := sound_marked before
  have ⟨soundAfter, markedAfter⟩ := sound_marked (before ++ Event.regenerateQr id draw :: later)
  apply byQr_dead soundAfter markedAfter
  rcases relabelled with ⟨s', done⟩
  rcases (byQr_eq_some sound marked).mp opened with ⟨row, found, _, same⟩
  have bore := (byQr_none sound marked).mpr ⟨row, found, same⟩
  have ⟨sound', marked'⟩ := both_step sound marked (.regenerateQr id draw)
  have dead : ((run step empty before).step (.regenerateQr id draw)).byQr none token = none := by
    have labels := labels_attempt done
    rw [step_ok done] at sound' marked' ⊢
    cases still : s'.byQr none token with
    | none => rfl
    | some other =>
        have here := undrawn _ List.mem_cons_self
        have bears := (byQr_none sound' marked').mp still
        have was := (byQr_none sound marked).mpr (labels.before here bears)
        rw [bore] at was
        cases was
        rcases bears with ⟨row, found, same⟩
        have drawn := regenerateQr_drawn done found
        rw [same, here] at drawn
        cases drawn
  rw [run_append]
  have rest := byQr_run sound' marked' later (fun event mem => undrawn event (List.mem_cons_of_mem _ mem))
  rcases rest.1 with ended | stays
  · exact ended
  · exact stays.trans dead

/-- A technician's scan opened it; neither the office's nor theirs does any more. -/
theorem copied_label_dead_redrawn :
    (run step empty ([.createCustomer, .createBuilding 0 none, .createElevator 1 "" none (fun _ => "h7Kq")] ++
      Event.regenerateQr 0 (fun _ => "Wd3x") :: [.deleteElevator 0])).byQr none "h7Kq" = none ∧
    (run step empty ([.createCustomer, .createBuilding 0 none, .createElevator 1 "" none (fun _ => "h7Kq")] ++
      Event.regenerateQr 0 (fun _ => "Wd3x") :: [.deleteElevator 0])).byQr (some [0]) "h7Kq" = none := by
  have dead := copied_label_dead
    [.createCustomer, .createBuilding 0 none, .createElevator 1 "" none (fun _ => "h7Kq")]
    [.deleteElevator 0] "h7Kq" 0 (fun _ => "Wd3x") (some [0]) ⟨_, rfl⟩ (by decide) (by decide)
  exact ⟨dead none, dead (some [0])⟩

end Register

end Estate
end Shiftlush
