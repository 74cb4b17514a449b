import Shiftlush.Decimals
import Shiftlush.Text
import Mathlib.Data.Finset.Card
import Mathlib.Order.Bounds.Basic

namespace Shiftlush
namespace Address

/-!
# A provider's place names, turned into rows

`apps.address.matching` with exact scores.  The row a level answers with is the one
that scores best, with nothing else beside it, and each level is looked up only under
the row the level above it answered with.
-/

/-- What the code asks of Unicode: `str.lower`, and the characters of a word. -/
structure Unicode where
  lower : String -> String
  isAlnum : Char -> Bool

structure Match where
  id : Int
  name : String
  confidence : ℚ
  deriving DecidableEq

structure AddressMatch where
  province : Option Match := none
  district : Option Match := none
  neighborhood : Option Match := none
  deriving DecidableEq

structure Province where
  id : Int
  name : String

structure District where
  id : Int
  provinceId : Int
  name : String

structure Neighborhood where
  id : Int
  districtId : Int
  name : String

/-- The three tables, each under its primary key. -/
structure Tables where
  provinces : List Province
  districts : List District
  neighborhoods : List Neighborhood
  provinces_distinct : (provinces.map Province.id).Nodup
  districts_distinct : (districts.map District.id).Nodup
  neighborhoods_distinct : (neighborhoods.map Neighborhood.id).Nodup

/-- `apps.address.geocoding.Place` -/
structure Place where
  countryCode : String
  provinces : List String
  districts : List String
  neighborhoods : List String

/-- `TR_TRANSLATION` -/
def translate (c : Char) : Char :=
  match c with
  | 'İ' => 'I'
  | 'ı' => 'i'
  | 'Ş' => 'S'
  | 'ş' => 's'
  | 'Ğ' => 'G'
  | 'ğ' => 'g'
  | 'Ü' => 'U'
  | 'ü' => 'u'
  | 'Ö' => 'O'
  | 'ö' => 'o'
  | 'Ç' => 'C'
  | 'ç' => 'c'
  | c => c

/-- `GENERIC_WORDS` -/
def genericWords : List String :=
  ["mah", "mahalle", "mahallesi", "koy", "koyu", "belde", "beldesi", "mezra", "mezrasi", "ili", "ilcesi", "belediye",
    "belediyesi", "buyuksehir"]

section Code

variable (u : Unicode)

/-- `core.text.normalize` -/
def normalize (text : String) : String := strip (u.lower (.ofList (text.toList.map translate)))

/-- `_WORD.findall` -/
def wordsOf (text : String) : List (List Char) :=
  (text.toList.splitOnP (fun c => !u.isAlnum c)).filter (fun word => !word.isEmpty)

/-- The threes of a padded word. -/
def grams (word : List Char) : List (List Char) :=
  let padded := [' ', ' '] ++ word ++ [' ']
  (List.range (padded.length - 2)).map (fun index => (padded.drop index).take 3)

def trigrams (text : String) : Finset (List Char) := ((wordsOf u (u.lower text)).flatMap grams).toFinset

def similarity {α : Type} [DecidableEq α] (left right : Finset α) : ℚ :=
  if left = ∅ ∨ right = ∅ then 0
  else
    let shared := (left ∩ right).card
    shared / (left.card + right.card - shared)

def comparisonKey (name : String) : String :=
  let words := ((wordsOf u (normalize u name)).map String.ofList).filter (fun word => !genericWords.contains word)
  let joined := " ".intercalate words
  if joined = "" then normalize u name else joined

/-- The score of a row's name against the keys, of which there is one at least. -/
def scoreOf (key : Finset (List Char)) (keys : List (Finset (List Char))) (name : String) : ℚ :=
  (keys.map (similarity (trigrams u (comparisonKey u name)))).foldl max
    (similarity (trigrams u (comparisonKey u name)) key)

/-- A row with its score. -/
structure Scored where
  score : ℚ
  id : Int
  name : String
  deriving DecidableEq

/-- `key=lambda row: (-row[0], row[1])` -/
def Scored.sorts (a b : Scored) : Bool := decide (b.score < a.score ∨ (a.score = b.score ∧ a.id ≤ b.id))

/-- The double nearest to a positive ratio of two counts, of 53 bits. -/
def double (ratio : ℚ) : ℚ :=
  let lastBit := (2 : ℚ) ^ (Int.log 2 ratio - 52)
  Decimals.halfEven (ratio / lastBit) * lastBit

/-- `round(score, 2)`, of the double: 37/40 is 0.93, as its double is above it. -/
def confidenceOf (score : ℚ) : ℚ := Decimals.ofUnits 2 (Decimals.halfEven (double score * 100))

def Scored.found (row : Scored) : Match := { id := row.id, name := row.name, confidence := confidenceOf row.score }

/-- What `_best` does once the rows are scored. -/
def pick (threshold : ℚ) (scored : List Scored) : Option Match :=
  match scored.mergeSort Scored.sorts with
  | [] => none
  | first :: rest =>
      if first.score < threshold then none
      else if rest.head?.map Scored.score = some first.score then none
      else some first.found

/-- The candidates' keys. -/
def keysOf (candidates : List String) : List (Finset (List Char)) :=
  (candidates.filter (fun name => !isBlank name)).map (fun name => trigrams u (comparisonKey u name))

/-- `_best` -/
def best (threshold : ℚ) (rows : List (Int × String)) (candidates : List String) : Option Match :=
  match keysOf u candidates with
  | [] => none
  | key :: keys => pick threshold (rows.map (fun row => ⟨scoreOf u key keys row.2, row.1, row.2⟩))

/-- `Province.objects.all()` -/
def Tables.provinceRows (t : Tables) : List (Int × String) := t.provinces.map (fun row => (row.id, row.name))

/-- `District.objects.filter(province_id=...)` -/
def Tables.districtRows (t : Tables) (province : Int) : List (Int × String) :=
  (t.districts.filter (fun row => row.provinceId = province)).map (fun row => (row.id, row.name))

/-- `Neighborhood.objects.filter(district_id=...)` -/
def Tables.neighborhoodRows (t : Tables) (district : Int) : List (Int × String) :=
  (t.neighborhoods.filter (fun row => row.districtId = district)).map (fun row => (row.id, row.name))

/-- `match_place` -/
def matchPlace (threshold : ℚ) (t : Tables) (place : Option Place) : AddressMatch :=
  match place with
  | none => {}
  | some place =>
      if u.lower place.countryCode ≠ "tr" then {}
      else
        match best u threshold t.provinceRows place.provinces with
        | none => {}
        | some province =>
            match best u threshold (t.districtRows province.id) place.districts with
            | none => { province := some province }
            | some district =>
                { province := some province
                  district := some district
                  neighborhood := best u threshold (t.neighborhoodRows district.id) place.neighborhoods }

end Code

section Similarity

variable {α : Type} [DecidableEq α] {left right : Finset α}

/-- What is shared over what there is. -/
theorem similarity_eq (left right : Finset α) : similarity left right = (left ∩ right).card / (left ∪ right).card := by
  unfold similarity
  split
  · rename_i empty
    rcases empty with rfl | rfl
    · simp
    · simp
  · have parts : ((left ∪ right).card : ℚ) + (left ∩ right).card = left.card + right.card :=
      mod_cast Finset.card_union_add_card_inter left right
    dsimp only
    rw [← parts, add_sub_cancel_right]

theorem similarity_comm (left right : Finset α) : similarity left right = similarity right left := by
  rw [similarity_eq, similarity_eq, Finset.inter_comm, Finset.union_comm]

theorem similarity_nonneg (left right : Finset α) : 0 ≤ similarity left right := by
  rw [similarity_eq]
  positivity

theorem similarity_le_one (left right : Finset α) : similarity left right ≤ 1 := by
  have fewer : ((left ∩ right).card : ℚ) ≤ (left ∪ right).card :=
    mod_cast Finset.card_le_card Finset.inter_subset_union
  rw [similarity_eq]
  exact div_le_one_of_le₀ fewer (Nat.cast_nonneg _)

theorem similarity_eq_one_iff : similarity left right = 1 ↔ left = right ∧ left.Nonempty := by
  rw [similarity_eq]
  constructor
  · intro one
    have some_left : ((left ∪ right).card : ℚ) ≠ 0 := by
      intro none
      rw [none, div_zero] at one
      exact zero_ne_one one
    have all : (left ∩ right).card = (left ∪ right).card := mod_cast (div_eq_one_iff_eq some_left).mp one
    have same := Finset.eq_of_subset_of_card_le Finset.inter_subset_union all.ge
    have equal : left = right := inf_eq_sup.mp same
    subst equal
    rw [Finset.union_self, Nat.cast_ne_zero, Finset.card_ne_zero] at some_left
    exact ⟨rfl, some_left⟩
  · rintro ⟨rfl, some_left⟩
    rw [Finset.inter_self, Finset.union_self]
    exact div_self (mod_cast some_left.card_ne_zero)

end Similarity

section Picking

variable {threshold : ℚ} {scored : List Scored}

theorem pairwise_sorts (scored : List Scored) :
    (scored.mergeSort Scored.sorts).Pairwise (fun a b => Scored.sorts a b = true) := by
  refine List.pairwise_mergeSort ?_ ?_ scored
  · intro a b c
    unfold Scored.sorts
    grind
  · intro a b
    unfold Scored.sorts
    grind

theorem score_le_of_sorts {a b : Scored} (sorts : Scored.sorts a b = true) : b.score ≤ a.score := by
  rcases of_decide_eq_true sorts with lower | ⟨same, -⟩
  · exact lower.le
  · exact same.ge

/-- A row is picked when it reaches the threshold and no other row scores as well. -/
def Leads (threshold : ℚ) (scored : List Scored) (row : Scored) : Prop :=
  row ∈ scored ∧ threshold ≤ row.score ∧ ∀ other ∈ scored, other ≠ row -> other.score < row.score

theorem leads_congr {scored' : List Scored} (same : ∀ row, row ∈ scored ↔ row ∈ scored') (row : Scored) :
    Leads threshold scored row ↔ Leads threshold scored' row := by
  simp only [Leads, same]

/-- Where the second row does not tie with the first, no other row does. -/
theorem behind {first : Scored} {rest : List Scored}
    (sorted : (first :: rest).Pairwise (fun a b => Scored.sorts a b = true))
    (alone : rest.head?.map Scored.score ≠ some first.score) : ∀ other ∈ rest, other.score < first.score := by
  intro other mem
  cases rest with
  | nil => cases mem
  | cons second rest =>
      have first_second := score_le_of_sorts (List.rel_of_pairwise_cons sorted List.mem_cons_self)
      have second_behind : second.score < first.score :=
        lt_of_le_of_ne first_second (fun same => alone (congrArg some same))
      rcases List.mem_cons.mp mem with rfl | later
      · exact second_behind
      · have second_other := score_le_of_sorts (List.rel_of_pairwise_cons sorted.of_cons later)
        exact second_other.trans_lt second_behind

theorem pick_eq_some_iff (distinct : scored.Nodup) (found : Match) :
    pick threshold scored = some found ↔ ∃ row, Leads threshold scored row ∧ row.found = found := by
  have perm := List.mergeSort_perm scored Scored.sorts
  have sorted := pairwise_sorts scored
  have once := perm.nodup_iff.mpr distinct
  rw [exists_congr (fun row => and_congr_left (fun _ => leads_congr (fun row => perm.mem_iff.symm) row))]
  unfold pick
  generalize scored.mergeSort Scored.sorts = ordered at sorted once ⊢
  cases ordered with
  | nil => simp [Leads]
  | cons first rest =>
      have fresh : first ∉ rest := (List.nodup_cons.mp once).1
      dsimp only
      constructor
      · intro picked
        split at picked
        · cases picked
        · rename_i enough
          split at picked
          · cases picked
          · rename_i alone
            refine ⟨first, ⟨List.mem_cons_self, not_lt.mp enough, ?_⟩, Option.some.inj picked⟩
            intro other mem ne
            exact behind sorted alone other ((List.mem_cons.mp mem).resolve_left ne)
      · rintro ⟨row, ⟨mem, enough, above⟩, rfl⟩
        have row_first : row = first := by
          rcases List.mem_cons.mp mem with same | later
          · exact same
          · have before := score_le_of_sorts (List.rel_of_pairwise_cons sorted later)
            have ne : first ≠ row := fun same => fresh (same ▸ later)
            exact absurd (above first List.mem_cons_self ne) (not_lt.mpr before)
        subst row_first
        rw [if_neg (not_lt.mpr enough), if_neg]
        intro tie
        rcases Option.map_eq_some_iff.mp tie with ⟨second, found, same⟩
        have later := List.mem_of_mem_head? found
        exact (above second (List.mem_cons_of_mem _ later) (fun same => fresh (same ▸ later))).ne same

end Picking

section Scores

variable {u : Unicode}

theorem isGreatest_foldl_max (x : ℚ) (xs : List ℚ) : IsGreatest {y | y ∈ x :: xs} (xs.foldl max x) := by
  induction xs generalizing x with
  | nil => exact ⟨List.mem_cons_self, fun y mem => (List.mem_singleton.mp mem).le⟩
  | cons z xs ih =>
      rcases ih (max x z) with ⟨mem, above⟩
      refine ⟨?_, ?_⟩
      · rcases List.mem_cons.mp mem with same | later
        · rcases max_choice x z with left | right
          · exact List.mem_cons.mpr (.inl (same.trans left))
          · exact List.mem_cons_of_mem _ (List.mem_cons.mpr (.inl (same.trans right)))
        · exact List.mem_cons_of_mem _ (List.mem_cons_of_mem _ later)
      · intro y mem
        have least := above List.mem_cons_self
        rcases List.mem_cons.mp mem with rfl | mem
        · exact (le_max_left _ _).trans least
        rcases List.mem_cons.mp mem with rfl | mem
        · exact (le_max_right _ _).trans least
        · exact above (List.mem_cons_of_mem _ mem)

variable (u) in
/-- How a row's name compares with each candidate that says something. -/
def comparisons (candidates : List String) (name : String) : Set ℚ :=
  {x | ∃ candidate ∈ candidates, isBlank candidate = false ∧
    x = similarity (trigrams u (comparisonKey u name)) (trigrams u (comparisonKey u candidate))}

theorem comparisons_congr {candidates candidates' : List String} (same : candidates.Perm candidates') (name : String) :
    comparisons u candidates name = comparisons u candidates' name := by
  simp only [comparisons, same.mem_iff]

theorem comparisons_eq (candidates : List String) (name : String) :
    comparisons u candidates name =
      {x | x ∈ (keysOf u candidates).map (similarity (trigrams u (comparisonKey u name)))} := by
  ext x
  constructor
  · rintro ⟨candidate, there, blank, rfl⟩
    have kept : candidate ∈ candidates.filter (fun name => !isBlank name) :=
      List.mem_filter.mpr ⟨there, by rw [blank]; rfl⟩
    exact List.mem_map_of_mem (List.mem_map_of_mem kept)
  · intro mem
    rcases List.mem_map.mp mem with ⟨_, key, rfl⟩
    rcases List.mem_map.mp key with ⟨candidate, kept, rfl⟩
    rcases List.mem_filter.mp kept with ⟨there, blank⟩
    exact ⟨candidate, there, Bool.not_eq_true' _ |>.mp blank, rfl⟩

theorem isGreatest_scoreOf {candidates : List String} {key : Finset (List Char)} {keys : List (Finset (List Char))}
    (keyed : keysOf u candidates = key :: keys) (name : String) :
    IsGreatest (comparisons u candidates name) (scoreOf u key keys name) := by
  rw [comparisons_eq, keyed, List.map_cons]
  exact isGreatest_foldl_max _ _

variable (u) in
/-- What a level may answer with: a row whose best comparison reaches the threshold and stays above every other's. -/
def Clear (threshold : ℚ) (rows : List (Int × String)) (candidates : List String) (found : Match) : Prop :=
  ∃ row ∈ rows, ∃ score, IsGreatest (comparisons u candidates row.2) score ∧ threshold ≤ score ∧
    (∀ other ∈ rows, other ≠ row -> ∀ less, IsGreatest (comparisons u candidates other.2) less -> less < score) ∧
    found = { id := row.1, name := row.2, confidence := confidenceOf score }

/-- `_best` answers with the clear row, and with no other. -/
theorem best_eq_some_iff {threshold : ℚ} {rows : List (Int × String)} (distinct : (rows.map Prod.fst).Nodup)
    (candidates : List String) (found : Match) :
    best u threshold rows candidates = some found ↔ Clear u threshold rows candidates found := by
  unfold best
  cases keyed : keysOf u candidates with
  | nil =>
      constructor
      · intro picked
        cases picked
      · rintro ⟨row, _, score, best, _⟩
        have among := best.1
        rw [comparisons_eq, keyed] at among
        cases among
  | cons key keys =>
      have greatest := isGreatest_scoreOf (u := u) keyed
      have once : (rows.map (fun row => (⟨scoreOf u key keys row.2, row.1, row.2⟩ : Scored))).Nodup := by
        refine List.Nodup.of_map Scored.id ?_
        rw [List.map_map]
        exact distinct
      dsimp only
      rw [pick_eq_some_iff once]
      constructor
      · rintro ⟨_, ⟨mem, enough, above⟩, rfl⟩
        rcases List.mem_map.mp mem with ⟨row, there, rfl⟩
        refine ⟨row, there, _, greatest row.2, enough, ?_, rfl⟩
        intro other listed ne less best
        rw [best.unique (greatest other.2)]
        refine above _ (List.mem_map_of_mem listed) ?_
        intro same
        exact ne (Prod.ext (congrArg Scored.id same) (congrArg Scored.name same))
      · rintro ⟨row, there, score, best, enough, above, rfl⟩
        cases best.unique (greatest row.2)
        refine ⟨_, ⟨List.mem_map_of_mem there, enough, ?_⟩, rfl⟩
        intro scored listed ne
        rcases List.mem_map.mp listed with ⟨other, among, rfl⟩
        refine above other among ?_ _ (greatest other.2)
        rintro rfl
        exact ne rfl

theorem best_congr {threshold : ℚ} {rows rows' : List (Int × String)} (distinct : (rows.map Prod.fst).Nodup)
    (reordered : rows.Perm rows') {candidates candidates' : List String} (shuffled : candidates.Perm candidates') :
    best u threshold rows candidates = best u threshold rows' candidates' := by
  have distinct' := (reordered.map Prod.fst).nodup_iff.mp distinct
  ext found
  rw [best_eq_some_iff distinct, best_eq_some_iff distinct']
  simp only [Clear, reordered.mem_iff, comparisons_congr shuffled]

end Scores

section Cascade

variable {u : Unicode} {threshold : ℚ} {t t' : Tables} {place place' : Place}

theorem Tables.provinceRows_distinct (t : Tables) : (t.provinceRows.map Prod.fst).Nodup := by
  rw [provinceRows, List.map_map]
  exact t.provinces_distinct

theorem Tables.districtRows_distinct (t : Tables) (province : Int) : ((t.districtRows province).map Prod.fst).Nodup := by
  rw [districtRows, List.map_map]
  exact t.districts_distinct.sublist (List.filter_sublist.map District.id)

theorem Tables.neighborhoodRows_distinct (t : Tables) (district : Int) :
    ((t.neighborhoodRows district).map Prod.fst).Nodup := by
  rw [neighborhoodRows, List.map_map]
  exact t.neighborhoods_distinct.sublist (List.filter_sublist.map Neighborhood.id)

/-- The same rows, in any order. -/
structure Tables.Reordered (t t' : Tables) : Prop where
  provinces : t.provinces.Perm t'.provinces
  districts : t.districts.Perm t'.districts
  neighborhoods : t.neighborhoods.Perm t'.neighborhoods

/-- The same names, in any order. -/
structure Place.Shuffled (place place' : Place) : Prop where
  countryCode : place.countryCode = place'.countryCode
  provinces : place.provinces.Perm place'.provinces
  districts : place.districts.Perm place'.districts
  neighborhoods : place.neighborhoods.Perm place'.neighborhoods

theorem matchPlace_congr (reordered : t.Reordered t') (shuffled : place.Shuffled place') :
    matchPlace u threshold t (some place) = matchPlace u threshold t' (some place') := by
  have provinces : best u threshold t.provinceRows place.provinces = best u threshold t'.provinceRows place'.provinces :=
    best_congr t.provinceRows_distinct (reordered.provinces.map _) shuffled.provinces
  have districts : ∀ province, best u threshold (t.districtRows province) place.districts =
      best u threshold (t'.districtRows province) place'.districts := fun province =>
    best_congr (t.districtRows_distinct province) ((reordered.districts.filter _).map _) shuffled.districts
  have neighborhoods : ∀ district, best u threshold (t.neighborhoodRows district) place.neighborhoods =
      best u threshold (t'.neighborhoodRows district) place'.neighborhoods := fun district =>
    best_congr (t.neighborhoodRows_distinct district) ((reordered.neighborhoods.filter _).map _) shuffled.neighborhoods
  simp only [matchPlace, shuffled.countryCode, provinces, districts, neighborhoods]

/-- An answer whose levels are each clear among the rows under the level above. -/
structure Answers (u : Unicode) (threshold : ℚ) (t : Tables) (place : Place) (answer : AddressMatch) : Prop where
  province : ∀ province, answer.province = some province -> Clear u threshold t.provinceRows place.provinces province
  district : ∀ district, answer.district = some district -> ∃ province, answer.province = some province ∧
    (∃ row ∈ t.districts, row.id = district.id ∧ row.provinceId = province.id) ∧
      Clear u threshold (t.districtRows province.id) place.districts district
  neighborhood : ∀ neighborhood, answer.neighborhood = some neighborhood -> ∃ district, answer.district = some district ∧
    (∃ row ∈ t.neighborhoods, row.id = neighborhood.id ∧ row.districtId = district.id) ∧
      Clear u threshold (t.neighborhoodRows district.id) place.neighborhoods neighborhood

theorem Clear.mem {rows : List (Int × String)} {candidates : List String} {found : Match}
    (clear : Clear u threshold rows candidates found) : (found.id, found.name) ∈ rows := by
  rcases clear with ⟨row, there, score, -, -, -, rfl⟩
  exact there

theorem Tables.mem_districtRows {province : Int} {row : Int × String} (mem : row ∈ t.districtRows province) :
    ∃ district ∈ t.districts, district.id = row.1 ∧ district.provinceId = province := by
  rcases List.mem_map.mp mem with ⟨district, kept, rfl⟩
  rcases List.mem_filter.mp kept with ⟨there, under⟩
  exact ⟨district, there, rfl, of_decide_eq_true under⟩

theorem Tables.mem_neighborhoodRows {district : Int} {row : Int × String} (mem : row ∈ t.neighborhoodRows district) :
    ∃ neighborhood ∈ t.neighborhoods, neighborhood.id = row.1 ∧ neighborhood.districtId = district := by
  rcases List.mem_map.mp mem with ⟨neighborhood, kept, rfl⟩
  rcases List.mem_filter.mp kept with ⟨there, under⟩
  exact ⟨neighborhood, there, rfl, of_decide_eq_true under⟩

theorem answers_nothing : Answers u threshold t place {} := by
  constructor
  all_goals
    intro found none
    cases none

theorem matchPlace_answers (u : Unicode) (threshold : ℚ) (t : Tables) (place : Place) :
    Answers u threshold t place (matchPlace u threshold t (some place)) := by
  unfold matchPlace
  dsimp only
  split
  · exact answers_nothing
  · cases first : best u threshold t.provinceRows place.provinces with
    | none => exact answers_nothing
    | some province =>
        have clear := (best_eq_some_iff t.provinceRows_distinct _ _).mp first
        dsimp only
        cases second : best u threshold (t.districtRows province.id) place.districts with
        | none =>
            dsimp only
            refine ⟨?_, ?_, ?_⟩
            · rintro _ ⟨⟩
              exact clear
            · rintro _ ⟨⟩
            · rintro _ ⟨⟩
        | some district =>
            have under := (best_eq_some_iff (t.districtRows_distinct province.id) _ _).mp second
            dsimp only
            refine ⟨?_, ?_, ?_⟩
            · rintro _ ⟨⟩
              exact clear
            · rintro _ ⟨⟩
              exact ⟨province, rfl, Tables.mem_districtRows under.mem, under⟩
            · intro neighborhood third
              have last := (best_eq_some_iff (t.neighborhoodRows_distinct district.id) _ _).mp third
              exact ⟨district, rfl, Tables.mem_neighborhoodRows last.mem, last⟩

/-- Every level answers with its clear row under the level above, whatever the order of rows and names, and what rows
are compared by is a measure of sameness. -/
theorem matchPlace_clear (u : Unicode) (threshold : ℚ) :
    (∀ t place, Answers u threshold t place (matchPlace u threshold t (some place))) ∧
    (∀ t, matchPlace u threshold t none = {}) ∧
    (∀ t t' place place', Tables.Reordered t t' -> Place.Shuffled place place' ->
      matchPlace u threshold t (some place) = matchPlace u threshold t' (some place')) ∧
    ∀ left right : Finset (List Char),
      similarity left right = similarity right left ∧ 0 ≤ similarity left right ∧ similarity left right ≤ 1 ∧
        (similarity left right = 1 ↔ left = right ∧ left.Nonempty) :=
  ⟨matchPlace_answers u threshold, fun _ => rfl, fun _ _ _ _ => matchPlace_congr, fun left right =>
    ⟨similarity_comm left right, similarity_nonneg left right, similarity_le_one left right, similarity_eq_one_iff⟩⟩

/-- ASCII as an alphabet. -/
def ascii : Unicode where
  lower := String.toLower
  isAlnum := Char.isAlphanum

/-- Two provinces, and a district of one name in each. -/
def centres : Tables where
  provinces := [⟨1, "Adana"⟩, ⟨6, "Ankara"⟩]
  districts := [⟨11, 1, "Merkez"⟩, ⟨61, 6, "Merkez"⟩]
  neighborhoods := []
  provinces_distinct := by decide
  districts_distinct := by decide
  neighborhoods_distinct := by decide

def centresReversed : Tables where
  provinces := [⟨6, "Ankara"⟩, ⟨1, "Adana"⟩]
  districts := [⟨61, 6, "Merkez"⟩, ⟨11, 1, "Merkez"⟩]
  neighborhoods := []
  provinces_distinct := by decide
  districts_distinct := by decide
  neighborhoods_distinct := by decide

theorem matchPlace_clear_centres :
    matchPlace ascii (2 / 5) centres (some ⟨"TR", ["Ankara", "Angora"], ["Merkez"], []⟩) =
      matchPlace ascii (2 / 5) centresReversed (some ⟨"TR", ["Angora", "Ankara"], ["Merkez"], []⟩) :=
  (matchPlace_clear ascii (2 / 5)).2.2.1 centres centresReversed _ _
    ⟨List.Perm.swap .., List.Perm.swap .., .refl _⟩ ⟨rfl, List.Perm.swap .., .refl _, .refl _⟩

end Cascade

end Address
end Shiftlush
