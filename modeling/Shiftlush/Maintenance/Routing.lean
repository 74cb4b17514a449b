import Shiftlush.Paths
import Mathlib.Algebra.Order.Field.Basic
import Mathlib.Data.List.FinRange
import Mathlib.Data.List.MinMax
import Mathlib.Logic.Relation
import Mathlib.Tactic.Linarith
import Mathlib.Tactic.Positivity

namespace Shiftlush
namespace Maintenance

open Paths (link length length_sub_reverse)

/-!
# A day's stops in driving order

`apps.maintenance.routing` over any exact symmetric distance.  2-opt looks at the two
edges a reversal replaces, and what it gains there is what the whole path gains.
-/

/-- `haversine_km` -/
structure Distance (L K : Type) where
  km : L × L -> L × L -> K
  symm : ∀ a b, km a b = km b a

structure Stop (ι L : Type) where
  id : ι
  latitude : Option L
  longitude : Option L

structure Route (ι K : Type) where
  order : List ι
  totalKm : K
  /-- A dict, in the order of its keys. -/
  legs : List (ι × Option K)
  unplaced : List ι

variable {ι L K : Type}

def Stop.point (stop : Stop ι L) : Option (L × L) :=
  match stop.latitude, stop.longitude with
  | some latitude, some longitude => some (latitude, longitude)
  | _, _ => none

/-- `MAX_IMPROVEMENT_PASSES` -/
def maxImprovementPasses : Nat := 200

/-- `MAX_FIRST_STOPS` -/
def maxFirstStops : Nat := 12

/-- The 1e-9 of every comparison. -/
def tolerance [Field K] : K := 1 / 10 ^ 9

section Code

variable [Field K] [LinearOrder K] (d : Distance L K) (start : Option (L × L))

def pathKm (points : List (L × L)) : K := length d.km (start.toList ++ points)

variable {n : Nat} (points : Fin n -> L × L)

/-- The loop of `_nearest_neighbour`: `min` keeps the first of equals. -/
def nearestFrom : Nat -> List (Fin n) -> L × L -> List (Fin n)
  | 0, _, _ => []
  | fuel + 1, remaining, origin =>
      match remaining.argmin (fun i => d.km origin (points i)) with
      | none => []
      | some nearest => nearest :: nearestFrom fuel (remaining.erase nearest) (points nearest)

/-- `_nearest_neighbour`, or its failed assertion. -/
def nearestNeighbour (first : Option (Fin n)) : Option (List (Fin n)) :=
  match first, start with
  | some first, _ =>
      some (first :: nearestFrom d points (n - 1) ((List.finRange n).eraseIdx first) (points first))
  | none, some origin => some (nearestFrom d points n (List.finRange n) origin)
  | none, none => if n = 0 then some [] else none

/-- `edge` of `_two_opt` -/
def edge (a b : Option (Fin n)) : K :=
  match a, b with
  | _, none => 0
  | none, some b => (start.map (fun origin => d.km origin (points b))).getD 0
  | some a, some b => d.km (points a) (points b)

/-- What precedes a position. -/
def beforeOf (best : List (Fin n)) (i : Nat) : Option (Fin n) := if 0 < i then best[i - 1]? else none

/-- `gain`, where `before` was read at the start of the scan. -/
def gain (before : Option (Fin n)) (best : List (Fin n)) (i j : Nat) : K :=
  edge d start points before best[i]? + edge d start points best[j]? best[j + 1]? -
    edge d start points before best[j]? - edge d start points best[i]? best[j + 1]?

/-- `best[i : j + 1] = best[i : j + 1][::-1]` -/
def reversed (best : List (Fin n)) (i j : Nat) : List (Fin n) :=
  best.take i ++ (((best.drop i).take (j + 1 - i)).reverse ++ best.drop (j + 1))

/-- One turn of the inner loop. -/
def tryReversal (before : Option (Fin n)) (i : Nat) (state : List (Fin n) × Bool) (j : Nat) : List (Fin n) × Bool :=
  if tolerance < gain d start points before state.1 i j then (reversed state.1 i j, true) else state

/-- One turn of the outer loop. -/
def scanFrom (state : List (Fin n) × Bool) (i : Nat) : List (Fin n) × Bool :=
  (List.range' (i + 1) (state.1.length - (i + 1))).foldl (tryReversal d start points (beforeOf state.1 i) i) state

/-- One pass of `_two_opt`. -/
def improve (best : List (Fin n)) : List (Fin n) × Bool :=
  (List.range (best.length - 1)).foldl (scanFrom d start points) (best, false)

def passes : Nat -> List (Fin n) -> List (Fin n)
  | 0, best => best
  | fuel + 1, best =>
      let next := improve d start points best
      if next.2 then passes fuel next.1 else next.1

/-- `_two_opt` -/
def twoOpt (order : List (Fin n)) : List (Fin n) := passes d start points maxImprovementPasses order

/-- One turn of the loop over the first stops. -/
def consider (best : List (Fin n) × K) (first : Option (Fin n)) : Option (List (Fin n) × K) := do
  let near ← nearestNeighbour d start points first
  let order := twoOpt d start points near
  let km := pathKm d start (order.map points)
  return if km < best.2 - tolerance then (order, km) else best

/-- The first stops that are tried. -/
def firsts (n : Nat) : List (Option (Fin n)) :=
  if start.isSome then [none] else ((List.finRange n).take maxFirstStops).map some

end Code

section Planning

variable [DecidableEq ι] [Field K] [LinearOrder K] (d : Distance L K) (start : Option (L × L)) (stops : List (Stop ι L))

/-- The placed stops, and their points. -/
def placed : List (Stop ι L × (L × L)) := stops.filterMap (fun stop => stop.point.map (fun point => (stop, point)))

def unplaced : List ι := (stops.filter (fun stop => stop.point.isNone)).map Stop.id

/-- `legs[id] = leg` -/
def setLeg (legs : List (ι × Option K)) (id : ι) (leg : Option K) : List (ι × Option K) :=
  if id ∈ legs.map Prod.fst then legs.map (fun r => if r.1 = id then (id, leg) else r) else legs ++ [(id, leg)]

/-- One turn of the loop that measures the legs. -/
def measure (state : Option (L × L) × List (ι × Option K)) (stop : Stop ι L × (L × L)) :
    Option (L × L) × List (ι × Option K) :=
  (some stop.2, setLeg state.2 stop.1.id (state.1.map (fun previous => d.km previous stop.2)))

/-- `plan_route` -/
def planRoute : Option (Route ι K) := do
  let placed := placed stops
  let points := fun i : Fin placed.length => (placed.get i).2
  let given := List.finRange placed.length
  let best ← (if 1 < placed.length then
      (firsts start placed.length).foldlM (consider d start points) (given, pathKm d start (given.map points))
    else some (given, pathKm d start (given.map points)))
  let legs := ((best.1.map placed.get).foldl (measure d) (start, [])).2
  return {
    order := best.1.map (fun i => (placed.get i).1.id) ++ unplaced stops
    totalKm := best.2
    legs := (unplaced stops).foldl (fun legs id => setLeg legs id none) legs
    unplaced := unplaced stops }

end Planning

section Nearest

variable [LinearOrder K] (d : Distance L K) {start : Option (L × L)} {n : Nat} (points : Fin n -> L × L)

/-- The nearest stop leaves the rest to be visited. -/
theorem nearestFrom_perm (fuel : Nat) (remaining : List (Fin n)) (origin : L × L) (enough : remaining.length ≤ fuel) :
    (nearestFrom d points fuel remaining origin).Perm remaining := by
  induction fuel generalizing remaining origin with
  | zero =>
      rw [List.length_eq_zero_iff.mp (Nat.le_zero.mp enough)]
      exact List.Perm.refl _
  | succ fuel ih =>
      unfold nearestFrom
      cases found : remaining.argmin (fun i => d.km origin (points i)) with
      | none =>
          rw [List.argmin_eq_none.mp found]
      | some nearest =>
          have mem : nearest ∈ remaining := List.argmin_mem found
          have shorter := List.length_erase_of_mem mem
          have rest := ih (remaining.erase nearest) (points nearest) (by omega)
          exact (rest.cons nearest).trans (List.perm_cons_erase mem).symm

theorem nearestNeighbour_perm {first : Option (Fin n)} (tried : first ∈ firsts start n) :
    ∃ order, nearestNeighbour d start points first = some order ∧ order.Perm (List.finRange n) := by
  have all : (List.finRange n).length = n := List.length_finRange
  cases first with
  | none =>
      cases start with
      | none =>
          have among : none ∈ ((List.finRange n).take maxFirstStops).map some := tried
          rcases List.mem_map.mp among with ⟨_, _, never⟩
          cases never
      | some origin => exact ⟨_, rfl, nearestFrom_perm d points n _ origin all.le⟩
  | some first =>
      have there : (first : Nat) < (List.finRange n).length := all.symm ▸ first.isLt
      have rest := nearestFrom_perm d points (n - 1) ((List.finRange n).eraseIdx first) (points first)
        (by rw [List.length_eraseIdx_of_lt there, all])
      have removed := List.getElem_cons_eraseIdx_perm there
      rw [List.getElem_finRange] at removed
      exact ⟨_, rfl, (rest.cons first).trans removed⟩

end Nearest

section Gain

variable [Field K] {d : Distance L K} {start : Option (L × L)} {n : Nat} {points : Fin n -> L × L}

theorem edge_eq_link (a b : Option (Fin n)) :
    edge d start points a b = link d.km ((a.map points).or start) (b.map points) := by
  cases b with
  | none => cases a <;> exact (Paths.link_none_right _).symm
  | some b =>
      cases a with
      | some a => rfl
      | none => cases start <;> rfl

section Stretch

variable {best : List (Fin n)} {i j : Nat}

theorem getLast?_take_eq (best : List (Fin n)) (within : i ≤ best.length) :
    (best.take i).getLast? = beforeOf best i := by
  rw [List.getLast?_take, beforeOf]
  rcases Nat.eq_zero_or_pos i with zero | pos
  · rw [if_pos zero, if_neg (Nat.not_lt.mpr zero.le)]
  · have there : i - 1 < best.length := by omega
    rw [if_neg pos.ne', if_pos pos, List.getElem?_eq_getElem there]
    rfl

theorem split_stretch (i j : Nat) (ordered : i < j) (best : List (Fin n)) :
    best = best.take i ++ ((best.drop i).take (j + 1 - i) ++ best.drop (j + 1)) := by
  have rest : best.drop (j + 1) = (best.drop i).drop (j + 1 - i) := by
    rw [List.drop_drop]
    congr 1
    omega
  rw [rest, List.take_append_drop, List.take_append_drop]

theorem head?_stretch (ordered : i < j) : ((best.drop i).take (j + 1 - i)).head? = best[i]? := by
  have some_left : j + 1 - i ≠ 0 := by omega
  rw [List.head?_take, if_neg some_left, List.head?_drop]

theorem getLast?_stretch (ordered : i < j) (within : j < best.length) :
    ((best.drop i).take (j + 1 - i)).getLast? = best[j]? := by
  have some_left : j + 1 - i ≠ 0 := by omega
  have last : i + (j + 1 - i - 1) = j := by omega
  rw [List.getLast?_take, if_neg some_left, List.getElem?_drop, last, List.getElem?_eq_getElem within]
  rfl

/-- The two edges a reversal replaces carry the whole change of the open path, also at its ends. -/
theorem gain_eq (ordered : i < j) (within : j < best.length) :
    gain d start points (beforeOf best i) best i j =
      pathKm d start (best.map points) - pathKm d start ((reversed best i j).map points) := by
  have there : i < best.length := ordered.trans within
  have came : (start.toList ++ (best.take i).map points).getLast? = ((beforeOf best i).map points).or start := by
    rw [List.getLast?_append, List.getLast?_map, getLast?_take_eq best there.le]
    cases start <;> rfl
  have kept : best.map points =
      (best.take i).map points ++ (((best.drop i).take (j + 1 - i)).map points ++ (best.drop (j + 1)).map points) := by
    rw [← List.map_append, ← List.map_append, ← split_stretch i j ordered best]
  have turned : (reversed best i j).map points = (best.take i).map points ++
      ((((best.drop i).take (j + 1 - i)).map points).reverse ++ (best.drop (j + 1)).map points) := by
    rw [reversed, List.map_append, List.map_append, List.map_reverse]
  have change := length_sub_reverse d.symm (start.toList ++ (best.take i).map points)
    (((best.drop i).take (j + 1 - i)).map points) ((best.drop (j + 1)).map points)
  rw [List.append_assoc, List.append_assoc, ← kept, ← turned, came, List.head?_append, List.head?_append,
    List.head?_reverse, List.getLast?_map, List.head?_map, List.head?_map, head?_stretch ordered,
    getLast?_stretch ordered within, List.head?_drop, List.getElem?_eq_getElem there,
    List.getElem?_eq_getElem within] at change
  rw [pathKm, pathKm, change, gain, List.getElem?_eq_getElem there, List.getElem?_eq_getElem within]
  simp only [edge_eq_link, Option.map_some, Option.some_or]

variable [LinearOrder K]

/-- What an accepted reversal does to the order. -/
def Shortens (d : Distance L K) (start : Option (L × L)) (points : Fin n -> L × L) (best next : List (Fin n)) : Prop :=
  ∃ i j, i < j ∧ j < best.length ∧ tolerance < gain d start points (beforeOf best i) best i j ∧ next = reversed best i j

theorem reversed_perm (ordered : i < j) (best : List (Fin n)) : (reversed best i j).Perm best := by
  have turned : (reversed best i j).Perm (best.take i ++ ((best.drop i).take (j + 1 - i) ++ best.drop (j + 1))) :=
    ((List.reverse_perm _).append_right _).append_left _
  rwa [← split_stretch i j ordered best] at turned

theorem beforeOf_reversed (within : i ≤ best.length) (ordered : i < j) :
    beforeOf (reversed best i j) i = beforeOf best i := by
  have same_length := (reversed_perm ordered best).length_eq
  rw [← getLast?_take_eq best within, ← getLast?_take_eq _ (same_length ▸ within), reversed,
    List.take_append_of_le_length (by rw [List.length_take_of_le within]), List.take_take, min_self]

section Accepted

variable {next : List (Fin n)}

theorem Shortens.perm (shortens : Shortens d start points best next) : next.Perm best := by
  rcases shortens with ⟨i, j, ordered, -, -, rfl⟩
  exact reversed_perm ordered best

theorem Shortens.pathKm_lt [IsStrictOrderedRing K] (shortens : Shortens d start points best next) :
    pathKm d start (next.map points) < pathKm d start (best.map points) - tolerance := by
  rcases shortens with ⟨i, j, ordered, within, gained, rfl⟩
  rw [gain_eq ordered within] at gained
  linarith

end Accepted

section Scan

variable (d start points)

/-- The order when the inner loop reaches a position. -/
def scanned (state : List (Fin n) × Bool) (i j : Nat) : List (Fin n) × Bool :=
  (List.range' (i + 1) (j - (i + 1))).foldl (tryReversal d start points (beforeOf state.1 i) i) state

/-- The loop that scans from a position keeps what precedes it, and every change is an accepted reversal. -/
structure Scanning (i : Nat) (state next : List (Fin n) × Bool) : Prop where
  before : beforeOf next.1 i = beforeOf state.1 i
  shortened : Relation.ReflTransGen (Shortens d start points) state.1 next.1

variable {d start points}

theorem perm_of_shortened {next : List (Fin n)} (shortened : Relation.ReflTransGen (Shortens d start points) best next) :
    next.Perm best := by
  induction shortened with
  | refl => exact List.Perm.refl _
  | tail _ shortens ih => exact shortens.perm.trans ih

variable {state next : List (Fin n) × Bool}

theorem Scanning.tryReversal (scanning : Scanning d start points i state next) (ordered : i < j)
    (within : j < state.1.length) :
    Scanning d start points i state (tryReversal d start points (beforeOf state.1 i) i next j) := by
  have same_length := (perm_of_shortened scanning.shortened).length_eq
  have there : j < next.1.length := same_length ▸ within
  unfold Maintenance.tryReversal
  split
  · rename_i gained
    rw [← scanning.before] at gained
    refine ⟨?_, scanning.shortened.tail ⟨i, j, ordered, there, gained, rfl⟩⟩
    rw [beforeOf_reversed (ordered.trans there).le ordered, scanning.before]
  · exact scanning

theorem scanned_scanning (state : List (Fin n) × Bool) (i j : Nat) (within : j ≤ state.1.length) :
    Scanning d start points i state (scanned d start points state i j) := by
  refine List.foldlRecOn _ _ ⟨rfl, .refl⟩ ?_
  intro next scanning k looked
  rw [List.mem_range'_1] at looked
  exact scanning.tryReversal (by omega) (by omega)

/-- Wherever the two loops stand, the gain they compute is what the whole path loses. -/
theorem gain_scanned (state : List (Fin n) × Bool) (ordered : i < j) (within : j < state.1.length) :
    gain d start points (beforeOf state.1 i) (scanned d start points state i j).1 i j =
      pathKm d start ((scanned d start points state i j).1.map points) -
        pathKm d start ((reversed (scanned d start points state i j).1 i j).map points) := by
  have scanning : Scanning d start points i state (scanned d start points state i j) :=
    scanned_scanning state i j within.le
  have same_length := (perm_of_shortened scanning.shortened).length_eq
  rw [← scanning.before]
  exact gain_eq ordered (same_length ▸ within)

theorem scanFrom_shortened (state : List (Fin n) × Bool) (i : Nat) :
    Relation.ReflTransGen (Shortens d start points) state.1 (scanFrom d start points state i).1 :=
  (scanned_scanning state i state.1.length le_rfl).shortened

theorem improve_shortened (best : List (Fin n)) :
    Relation.ReflTransGen (Shortens d start points) best (improve d start points best).1 := by
  refine List.foldlRecOn
    (motive := fun state : List (Fin n) × Bool => Relation.ReflTransGen (Shortens d start points) best state.1)
    _ _ .refl ?_
  intro state shortened i _
  exact shortened.trans (scanFrom_shortened state i)

theorem passes_shortened (fuel : Nat) (best : List (Fin n)) :
    Relation.ReflTransGen (Shortens d start points) best (passes d start points fuel best) := by
  induction fuel generalizing best with
  | zero => exact .refl
  | succ fuel ih =>
      have pass : Relation.ReflTransGen (Shortens d start points) best (improve d start points best).1 :=
        improve_shortened best
      unfold passes
      dsimp only
      split
      · exact pass.trans (ih _)
      · exact pass

/-- 2-opt is a row of accepted reversals. -/
theorem twoOpt_shortened (order : List (Fin n)) :
    Relation.ReflTransGen (Shortens d start points) order (twoOpt d start points order) :=
  passes_shortened maxImprovementPasses order

end Scan
end Stretch

section Best

variable [LinearOrder K]

variable (d start points) in
/-- The shortest order so far, and its length. -/
structure Best (state : List (Fin n) × K) : Prop where
  perm : state.1.Perm (List.finRange n)
  km : state.2 = pathKm d start (state.1.map points)
  le : state.2 ≤ pathKm d start ((List.finRange n).map points)

theorem best_given : Best d start points (List.finRange n, pathKm d start ((List.finRange n).map points)) :=
  ⟨List.Perm.refl _, rfl, le_rfl⟩

variable [IsStrictOrderedRing K]

theorem consider_best {state : List (Fin n) × K} {first : Option (Fin n)} (best : Best d start points state)
    (tried : first ∈ firsts start n) :
    ∃ next, consider d start points state first = some next ∧ Best d start points next := by
  rcases nearestNeighbour_perm d points tried with ⟨near, nearest, perm⟩
  have reordered : (twoOpt d start points near).Perm near := perm_of_shortened (twoOpt_shortened near)
  refine ⟨_, by rw [consider, nearest]; rfl, ?_⟩
  split
  · rename_i shorter
    have slack : (0 : K) ≤ tolerance := by unfold tolerance; positivity
    exact ⟨reordered.trans perm, rfl, by have given := best.le; linarith⟩
  · exact best

theorem considered_best (tries : List (Option (Fin n))) (among : ∀ first ∈ tries, first ∈ firsts start n)
    {state : List (Fin n) × K} (best : Best d start points state) :
    ∃ next, tries.foldlM (consider d start points) state = some next ∧ Best d start points next := by
  induction tries generalizing state with
  | nil => exact ⟨state, rfl, best⟩
  | cons first tries ih =>
      rcases consider_best best (among first List.mem_cons_self) with ⟨next, considered, kept⟩
      rw [List.foldlM_cons, considered]
      exact ih (fun first mem => among first (List.mem_cons_of_mem _ mem)) kept

end Best
end Gain

section Legs

variable {d : Distance L K}

/-- The legs of a drive, each stop's from the one before it. -/
def drivenLegs (d : Distance L K) : Option (L × L) -> List (Stop ι L × (L × L)) -> List (ι × Option K)
  | _, [] => []
  | previous, stop :: rest => (stop.1.id, previous.map (fun point => d.km point stop.2)) :: drivenLegs d (some stop.2) rest

theorem drivenLegs_keys (previous : Option (L × L)) (driven : List (Stop ι L × (L × L))) :
    (drivenLegs d previous driven).map Prod.fst = driven.map (fun stop => stop.1.id) := by
  induction driven generalizing previous with
  | nil => rfl
  | cons stop driven ih => rw [drivenLegs, List.map_cons, List.map_cons, ih]

/-- What is measured adds up to the whole drive. -/
theorem drivenLegs_sum [Field K] (previous : Option (L × L)) (driven : List (Stop ι L × (L × L))) :
    ((drivenLegs d previous driven).filterMap Prod.snd).sum = pathKm d previous (driven.map Prod.snd) := by
  induction driven generalizing previous with
  | nil => cases previous <;> rfl
  | cons stop driven ih =>
      have rest := ih (some stop.2)
      rw [drivenLegs, List.map_cons]
      cases previous with
      | none => exact rest
      | some point =>
          have longer := Paths.length_cons (w := d.km) point (stop.2 :: driven.map Prod.snd)
          exact (congrArg (d.km point stop.2 + ·) rest).trans longer.symm

variable [DecidableEq ι]

theorem setLeg_new {legs : List (ι × Option K)} {id : ι} {leg : Option K} (new : id ∉ legs.map Prod.fst) :
    setLeg legs id leg = legs ++ [(id, leg)] := if_neg new

/-- Distinct stops are measured once each. -/
theorem measure_eq {driven : List (Stop ι L × (L × L))} {previous : Option (L × L)} {legs : List (ι × Option K)}
    (distinct : (legs.map Prod.fst ++ driven.map (fun stop => stop.1.id)).Nodup) :
    (driven.foldl (measure d) (previous, legs)).2 = legs ++ drivenLegs d previous driven := by
  induction driven generalizing previous legs with
  | nil => exact (List.append_nil _).symm
  | cons stop driven ih =>
      have new : stop.1.id ∉ legs.map Prod.fst := by
        intro mem
        exact List.nodup_append.mp distinct |>.2.2 _ mem _ List.mem_cons_self rfl
      rw [List.foldl_cons, measure, setLeg_new new, ih (by simpa using distinct), drivenLegs, List.append_assoc]
      rfl

theorem setLeg_unplaced {ids : List ι} {legs : List (ι × Option K)} (distinct : (legs.map Prod.fst ++ ids).Nodup) :
    ids.foldl (fun legs id => setLeg legs id none) legs = legs ++ ids.map (fun id => (id, none)) := by
  induction ids generalizing legs with
  | nil => exact (List.append_nil _).symm
  | cons id ids ih =>
      have new : id ∉ legs.map Prod.fst := by
        intro mem
        exact List.nodup_append.mp distinct |>.2.2 _ mem _ List.mem_cons_self rfl
      rw [List.foldl_cons, setLeg_new new, ih (by simpa using distinct), List.append_assoc]
      rfl

/-- Legs set one by one are the legs driven, then the unplaced stops without any. -/
theorem legs_eq (d : Distance L K) (start : Option (L × L)) {driven : List (Stop ι L × (L × L))} {ids : List ι}
    (once : (driven.map (fun stop => stop.1.id) ++ ids).Nodup) :
    ids.foldl (fun legs id => setLeg legs id none) (driven.foldl (measure d) (start, [])).2 =
      drivenLegs d start driven ++ ids.map (fun id => (id, none)) := by
  have keys : (drivenLegs d start driven).map Prod.fst = driven.map (fun stop => stop.1.id) :=
    drivenLegs_keys start driven
  have measured : (driven.foldl (measure d) (start, [])).2 = [] ++ drivenLegs d start driven :=
    measure_eq (List.nodup_append.mp once).1
  rw [measured, List.nil_append]
  exact setLeg_unplaced (keys.symm ▸ once)

end Legs

section Day

variable (ι L) in
/-- A day's stops, each under its own id. -/
structure Day where
  stops : List (Stop ι L)
  distinct : (stops.map Stop.id).Nodup

theorem placed_stops (stops : List (Stop ι L)) :
    (placed stops).map Prod.fst = stops.filter (fun stop => stop.point.isSome) := by
  induction stops with
  | nil => rfl
  | cons stop stops ih =>
      cases there : stop.point with
      | none =>
          rw [List.filter_cons_of_neg (by simp [there]), ← ih, placed, List.filterMap_cons_none (by rw [there]; rfl)]
          rfl
      | some point =>
          rw [List.filter_cons_of_pos (by simp [there]), ← ih, placed,
            List.filterMap_cons_some (b := (stop, point)) (by rw [there]; rfl)]
          rfl

/-- Nobody's visit drops out of the day. -/
theorem placed_append_unplaced (stops : List (Stop ι L)) :
    ((placed stops).map (fun stop => stop.1.id) ++ unplaced stops).Perm (stops.map Stop.id) := by
  have ids : (placed stops).map (fun stop => stop.1.id) = ((placed stops).map Prod.fst).map Stop.id :=
    (List.map_map ..).symm
  have parted := List.filter_append_perm (fun stop : Stop ι L => stop.point.isSome) stops
  have missing : stops.filter (fun stop => stop.point.isNone) = stops.filter (fun stop => !stop.point.isSome) := by
    congr 1
    funext stop
    cases stop.point <;> rfl
  rw [ids, placed_stops, unplaced, missing, ← List.map_append]
  exact parted.map Stop.id

section Plan

variable [DecidableEq ι] [Field K] [LinearOrder K] {d : Distance L K} {start : Option (L × L)} {stops : List (Stop ι L)}

variable (d start stops) in
/-- A route that drives the placed stops in some order, measured as a whole and leg by leg. -/
structure Planned (route : Route ι K) (driven : List (Stop ι L × (L × L))) : Prop where
  placed : driven.Perm (placed stops)
  order : route.order = driven.map (fun stop => stop.1.id) ++ unplaced stops
  perm : route.order.Perm (stops.map Stop.id)
  unplaced : route.unplaced = Maintenance.unplaced stops
  keys : route.legs.map Prod.fst = route.order
  totalKm : route.totalKm = pathKm d start (driven.map Prod.snd)
  measured : route.totalKm = (route.legs.filterMap Prod.snd).sum
  le : route.totalKm ≤ pathKm d start ((Maintenance.placed stops).map Prod.snd)

theorem best_found [IsStrictOrderedRing K] (d : Distance L K) (start : Option (L × L)) {n : Nat} (points : Fin n -> L × L) :
    ∃ best, (if 1 < n then (firsts start n).foldlM (consider d start points)
      (List.finRange n, pathKm d start ((List.finRange n).map points))
      else some (List.finRange n, pathKm d start ((List.finRange n).map points))) = some best ∧
      Best d start points best := by
  split
  · exact considered_best (firsts start n) (fun _ tried => tried) best_given
  · exact ⟨_, rfl, best_given⟩

theorem planRoute_planned [IsStrictOrderedRing K] (distinct : (stops.map Stop.id).Nodup) :
    ∃ route driven, planRoute d start stops = some route ∧ Planned d start stops route driven := by
  rcases best_found d start (fun i : Fin (placed stops).length => ((placed stops).get i).2) with ⟨best, found, good⟩
  have all : (List.finRange (placed stops).length).map (placed stops).get = placed stops :=
    List.map_get_finRange _
  have driven := good.perm.map (placed stops).get
  rw [all] at driven
  have perm := ((driven.map (fun stop => stop.1.id)).append_right (unplaced stops)).trans (placed_append_unplaced stops)
  have legs := legs_eq d start (perm.nodup_iff.mpr distinct)
  have ids : best.1.map (fun i => ((placed stops).get i).1.id) =
      (best.1.map (placed stops).get).map (fun stop => stop.1.id) :=
    (List.map_map (g := fun stop : Stop ι L × (L × L) => stop.1.id)).symm
  have points : best.1.map (fun i => ((placed stops).get i).2) =
      (best.1.map (placed stops).get).map Prod.snd := (List.map_map ..).symm
  have given : (List.finRange (placed stops).length).map (fun i => ((placed stops).get i).2) =
      (placed stops).map Prod.snd := by
    rw [← congrArg (List.map Prod.snd) all, List.map_map]
    rfl
  have km := good.km.trans (congrArg (pathKm d start) points)
  refine ⟨_, best.1.map (placed stops).get, by rw [planRoute, found]; rfl, ?_⟩
  rw [legs, ids]
  refine ⟨driven, rfl, perm, rfl, ?_, km, ?_, given ▸ good.le⟩
  · have names : ((unplaced stops).map (fun id => (id, (none : Option K)))).map Prod.fst = unplaced stops :=
      List.map_map.trans (List.map_id _)
    rw [List.map_append, drivenLegs_keys, names]
  · have unmeasured : ((unplaced stops).map (fun id => (id, (none : Option K)))).filterMap Prod.snd = [] := by
      rw [List.filterMap_map, List.filterMap_eq_nil_iff]
      exact fun _ _ => rfl
    rw [List.filterMap_append, unmeasured, List.append_nil, drivenLegs_sum]
    exact km

/-- `plan_route` keeps every stop, measures what it drives and never drives further than the given order, and its
2-opt, wherever its loops stand, gains exactly what the whole path loses. -/
theorem planRoute_shortens [IsStrictOrderedRing K] (d : Distance L K) (start : Option (L × L)) (day : Day ι L) :
    (∃ route driven, planRoute d start day.stops = some route ∧ Planned d start day.stops route driven) ∧
    ∀ (n : Nat) (points : Fin n -> L × L),
      (∀ order, Relation.ReflTransGen (Shortens d start points) order (twoOpt d start points order)) ∧
      (∀ state i j, i < j -> j < state.1.length ->
        gain d start points (beforeOf state.1 i) (scanned d start points state i j).1 i j =
          pathKm d start ((scanned d start points state i j).1.map points) -
            pathKm d start ((reversed (scanned d start points state i j).1 i j).map points)) ∧
      ∀ best next, Shortens d start points best next ->
        next.Perm best ∧ pathKm d start (next.map points) < pathKm d start (best.map points) - tolerance :=
  ⟨planRoute_planned day.distinct, fun _ _ => ⟨twoOpt_shortened, fun state _ _ => gain_scanned state,
    fun _ _ shortens => ⟨shortens.perm, shortens.pathKm_lt⟩⟩⟩

/-- Along the streets of a grid. -/
def streets : Distance ℚ ℚ where
  km a b := |a.1 - b.1| + |a.2 - b.2|
  symm a b := by rw [abs_sub_comm, abs_sub_comm a.2]

/-- The second stop is the furthest, and the third has no position. -/
def monday : Day Nat ℚ where
  stops := [⟨1, some 1, some 0⟩, ⟨2, some 9, some 0⟩, ⟨3, none, some 0⟩, ⟨4, some 4, some 1⟩]
  distinct := by decide

theorem planRoute_shortens_monday :
    (∃ route driven, planRoute streets none monday.stops = some route ∧ Planned streets none monday.stops route driven) ∧
    (planRoute streets none monday.stops).map (fun route => (route.order, route.totalKm)) = some ([1, 4, 2, 3], 10) :=
  ⟨(planRoute_shortens streets none monday).1, by decide +kernel⟩

end Plan

end Day
end Maintenance
end Shiftlush
