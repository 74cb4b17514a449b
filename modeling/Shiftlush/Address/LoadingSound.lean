import Shiftlush.Address.Loading
import Shiftlush.Outcomes

namespace Shiftlush
namespace Address

/-!
# What a load leaves behind

A load is first described stage by stage, each by the rows its lines write, and the loop of
the pruning by one filter over each table.  From that come the tables after a deliberate run,
which a second run leaves as they are, and what holds over any history of runs and records.
-/

/-! ## Rows of the last lines -/

/-- The row of the last line that has an identifier. -/
def lastRow {α ρ : Type} (key : α -> Nat) (row : α -> Option (Nat × ρ)) (lines : List α) (id : Nat) : Option ρ :=
  (lines.reverse.find? (fun line => decide (key line = id))).bind (fun line => (row line).map Prod.snd)

section Written

variable {α ρ : Type} {key : α -> Nat} {row : α -> Option (Nat × ρ)}

theorem mem_of_mapM {lines : List α} {new : Rows ρ} (read : lines.mapM row = some new) :
    ∀ line ∈ lines, ∃ r ∈ new, row line = some r := by
  induction lines generalizing new with
  | nil => exact fun line mem => absurd mem List.not_mem_nil
  | cons line lines ih =>
      rw [List.mapM_cons] at read
      rcases Option.bind_eq_some_iff.mp read with ⟨r, first, rest⟩
      rcases Option.bind_eq_some_iff.mp rest with ⟨new', others, whole⟩
      cases whole
      intro line' mem
      rcases List.mem_cons.mp mem with rfl | later
      · exact ⟨r, List.mem_cons_self, first⟩
      · rcases ih others line' later with ⟨r', listed, read'⟩
        exact ⟨r', List.mem_cons_of_mem _ listed, read'⟩

theorem get?_written (keyed : ∀ line r, row line = some r -> r.1 = key line) {lines : List α} {new : Rows ρ}
    (read : lines.mapM row = some new) (id : Nat) : Rows.get? new.reverse id = lastRow key row lines id := by
  induction lines generalizing new with
  | nil =>
      rw [List.mapM_nil] at read
      cases read
      rfl
  | cons line lines ih =>
      rw [List.mapM_cons] at read
      rcases Option.bind_eq_some_iff.mp read with ⟨r, first, rest⟩
      rcases Option.bind_eq_some_iff.mp rest with ⟨new', others, whole⟩
      cases whole
      have last : Rows.get? (r :: new').reverse id =
          (Rows.get? new'.reverse id).or (if r.1 = id then some r.2 else none) := by
        rw [List.reverse_cons]
        exact Rows.get?_insert new'.reverse r.1 id r.2
      rw [last, ih others, keyed line r first]
      unfold lastRow
      rw [List.reverse_cons, List.find?_append]
      cases found : lines.reverse.find? (fun line => decide (key line = id)) with
      | some line' =>
          rcases mem_of_mapM others line' (List.mem_reverse.mp (List.mem_of_find?_eq_some found)) with ⟨r', _, stored⟩
          simp [stored]
      | none =>
          by_cases same : key line = id <;> simp [same, first]

theorem lastRow_mem {lines : List α} {id : Nat} {r : ρ} (keyed : ∀ line r, row line = some r -> r.1 = key line)
    (found : lastRow key row lines id = some r) : ∃ line ∈ lines, key line = id ∧ row line = some (id, r) := by
  rcases Option.bind_eq_some_iff.mp found with ⟨line, listed, read⟩
  rcases Option.map_eq_some_iff.mp read with ⟨r', some_r', rfl⟩
  have at_id : key line = id := by simpa using List.find?_some listed
  have same := keyed line r' some_r'
  refine ⟨line, List.mem_reverse.mp (List.mem_of_find?_eq_some listed), at_id, ?_⟩
  rw [some_r', ← at_id, ← same]

/-- What one `bulk_create` writes. -/
theorem bulkCreate_ok (keyed : ∀ line r, row line = some r -> r.1 = key line) {size : Nat} (positive : 0 < size)
    {rows after : Rows ρ} {lines : List α} (ok : bulkCreate size row rows lines = .ok after) :
    ∃ new, after = rows.upsertAll new ∧ (∀ id, Rows.get? new.reverse id = lastRow key row lines id) ∧
      (∀ line ∈ lines, ∃ r ∈ new, row line = some r) ∧
      ∀ rows' : Rows ρ, rows'.Distinct -> (∀ id r, lastRow key row lines id = some r -> rows'.get? id = some r) ->
        bulkCreate size row rows' lines = .ok rows' := by
  unfold bulkCreate at ok
  cases written : (lines.mapM row).bind (Rows.upsertBatches size rows) with
  | none =>
      rw [written] at ok
      cases ok
  | some after' =>
      rw [written] at ok
      cases ok
      rcases Option.bind_eq_some_iff.mp written with ⟨new, read, batches⟩
      have last := get?_written keyed read
      refine ⟨new, Rows.upsertBatches_eq positive batches, last, mem_of_mapM read, ?_⟩
      intro rows' distinct there
      have accepted : (Rows.upsertBatches size rows' new).isSome = true := by
        rw [Rows.isSome_upsertBatches size rows' rows, batches, Option.isSome_some]
      rcases Option.isSome_iff_exists.mp accepted with ⟨same, again⟩
      have unchanged : same = rows' := by
        rw [Rows.upsertBatches_eq positive again]
        apply Rows.upsertAll_eq_self distinct
        intro id r found
        exact there id r (by rw [← last]; exact found)
      unfold bulkCreate
      rw [read, Option.bind_some, again, unchanged]

theorem isSome_lastRow {lines : List α} (read : ∀ line ∈ lines, (row line).isSome = true) {line : α}
    (mem : line ∈ lines) : (lastRow key row lines (key line)).isSome = true := by
  unfold lastRow
  cases found : lines.reverse.find? (fun line' => decide (key line' = key line)) with
  | none =>
      have other := List.find?_eq_none.mp found line (List.mem_reverse.mpr mem)
      simp at other
  | some line' =>
      rw [Option.bind_some, Option.isSome_map]
      exact read line' (List.mem_reverse.mp (List.mem_of_find?_eq_some found))

end Written

/-! ## What the files say -/

section Files

variable (u : Unicode) (directory : Directory) (scope : List Nat)

def Directory.provinceIds : List Nat := wanted scope (directory.provinces.getD [])

def Directory.districtLines : List DistrictLine :=
  districtsIn (directory.provinceIds scope) (directory.districts.getD [])

/-- The row the files give a province of the scope. -/
def Directory.provinceRow (id : Nat) : Option ProvinceRow :=
  lastRow ProvinceLine.id (ProvinceLine.row u)
    (provincesIn (directory.provinceIds scope) (directory.provinces.getD [])) id

/-- The row the files give a district of such a province. -/
def Directory.districtRow (id : Nat) : Option DistrictRow :=
  lastRow DistrictLine.id (DistrictLine.row u) (directory.districtLines scope) id

/-- The row the files give a neighbourhood of such a district. -/
def Directory.neighborhoodRow (id : Nat) : Option NeighborhoodRow :=
  lastRow NeighborhoodLine.id (NeighborhoodLine.row u)
    (neighborhoodsIn ((directory.districtLines scope).map (·.id)) (directory.neighborhoods.getD [])) id

end Files

section Lines

variable {u : Unicode}

theorem bounded_some {bound id id' : Nat} (ok : bounded bound id = some id') : id' = id := by
  unfold bounded at ok
  split at ok
  · exact (Option.some.inj ok).symm
  · cases ok

theorem ProvinceLine.row_key (line : ProvinceLine) (r : Nat × ProvinceRow) (read : line.row u = some r) :
    r.1 = line.id := by
  rcases Option.bind_eq_some_iff.mp read with ⟨id, inside, rest⟩
  rcases Option.bind_eq_some_iff.mp rest with ⟨name, _, rest⟩
  rcases Option.bind_eq_some_iff.mp rest with ⟨normalized, _, whole⟩
  cases whole
  exact bounded_some inside

theorem DistrictLine.row_eq (line : DistrictLine) (r : Nat × DistrictRow) (read : line.row u = some r) :
    r.1 = line.id ∧ r.2.provinceId = line.provinceId := by
  rcases Option.bind_eq_some_iff.mp read with ⟨id, inside, rest⟩
  rcases Option.bind_eq_some_iff.mp rest with ⟨name, _, rest⟩
  rcases Option.bind_eq_some_iff.mp rest with ⟨normalized, _, whole⟩
  cases whole
  exact ⟨bounded_some inside, rfl⟩

theorem NeighborhoodLine.row_eq (line : NeighborhoodLine) (r : Nat × NeighborhoodRow) (read : line.row u = some r) :
    r.1 = line.id ∧ r.2.districtId = line.districtId := by
  rcases Option.bind_eq_some_iff.mp read with ⟨id, inside, rest⟩
  rcases Option.bind_eq_some_iff.mp rest with ⟨name, _, rest⟩
  rcases Option.bind_eq_some_iff.mp rest with ⟨normalized, _, rest⟩
  rcases Option.bind_eq_some_iff.mp rest with ⟨postalCode, _, rest⟩
  rcases Option.bind_eq_some_iff.mp rest with ⟨type, _, whole⟩
  cases whole
  exact ⟨bounded_some inside, rfl⟩

end Lines

/-! ## The stages of a load -/

/-- The tables with the rows of the files written over them. -/
structure Written (u : Unicode) (directory : Directory) (scope : List Nat) (before after : Country) : Prop where
  provinces : ∀ id, after.provinces.get? id = (directory.provinceRow u scope id).or (before.provinces.get? id)
  districts : ∀ id, after.districts.get? id = (directory.districtRow u scope id).or (before.districts.get? id)
  neighborhoods : ∀ id,
    after.neighborhoods.get? id = (directory.neighborhoodRow u scope id).or (before.neighborhoods.get? id)
  records : after.records = before.records

/-- The keys are distinct and every foreign key has its row. -/
structure Country.Sound (c : Country) : Prop where
  provinces : c.provinces.Distinct
  districts : c.districts.Distinct
  neighborhoods : c.neighborhoods.Distinct
  district : ∀ id row, c.districts.get? id = some row -> (c.provinces.get? row.provinceId).isSome = true
  neighborhood : ∀ id row, c.neighborhoods.get? id = some row -> (c.districts.get? row.districtId).isSome = true
  record : ∀ r ∈ c.records, ∀ id, r.2.neighborhood = some id -> (c.neighborhoods.get? id).isSome = true

/-- What the files say holds together, and each of its rows is in the tables. -/
structure Directory.Accepted (u : Unicode) (directory : Directory) (scope : List Nat) : Prop where
  listed : ∀ id row, directory.provinceRow u scope id = some row -> scope = [] ∨ id ∈ scope
  covers : ∀ code ∈ scope, (directory.provinceRow u scope code).isSome = true
  within : ∀ id row, directory.districtRow u scope id = some row -> scope = [] ∨ row.provinceId ∈ scope
  province : ∀ id row, directory.districtRow u scope id = some row ->
    (directory.provinceRow u scope row.provinceId).isSome = true
  district : ∀ id row, directory.neighborhoodRow u scope id = some row ->
    (directory.districtRow u scope row.districtId).isSome = true

/-- The tables that have what the files say. -/
structure Country.Has (u : Unicode) (directory : Directory) (scope : List Nat) (c : Country) : Prop where
  provinces : ∀ id row, directory.provinceRow u scope id = some row -> c.provinces.get? id = some row
  districts : ∀ id row, directory.districtRow u scope id = some row -> c.districts.get? id = some row
  neighborhoods : ∀ id row, directory.neighborhoodRow u scope id = some row -> c.neighborhoods.get? id = some row

section Stages

variable {u : Unicode} {directory : Directory} {scope : List Nat}

theorem rows_ok {α : Type} {name : String} {file : Option (List α)} {lines : List α}
    (ok : directory.rows name file = .ok lines) : file = some lines := by
  cases file with
  | none => cases ok
  | some lines' =>
      cases ok
      rfl

theorem unknownCodes_nil {known : List Nat} (none_ : unknownCodes scope known = []) : ∀ code ∈ scope, code ∈ known := by
  intro code mem
  by_contra other
  have listed : code ∈ unknownCodes scope known := by
    unfold unknownCodes
    rw [List.mem_insertionSort, List.mem_filter]
    exact ⟨List.mem_dedup.mpr mem, by simpa using other⟩
  rw [none_] at listed
  exact absurd listed List.not_mem_nil

theorem loadProvinces_ok {rows after : Rows ProvinceRow} {ids : List Nat}
    (ok : loadProvinces u directory scope rows = .ok (after, ids)) :
    ids = directory.provinceIds scope ∧
      (∃ new, after = rows.upsertAll new ∧ ∀ id, Rows.get? new.reverse id = directory.provinceRow u scope id) ∧
      (∀ id ∈ ids, (directory.provinceRow u scope id).isSome = true) ∧
      ∀ rows' : Rows ProvinceRow, rows'.Distinct ->
        (∀ id row, directory.provinceRow u scope id = some row -> rows'.get? id = some row) ->
        loadProvinces u directory scope rows' = .ok (rows', ids) := by
  unfold loadProvinces at ok
  rcases bind_ok.mp ok with ⟨lines, file, rest⟩
  have lines_eq : directory.provinces = some lines := rows_ok file
  dsimp only at rest
  split at rest
  · cases rest
  · rename_i accepted
    have known := unknownCodes_nil (not_not.mp accepted)
    rcases bind_ok.mp rest with ⟨after', stored, whole⟩
    cases whole
    have ids_eq : directory.provinceIds scope = wanted scope lines := by
      unfold Directory.provinceIds
      rw [lines_eq, Option.getD_some]
    have row_eq : ∀ id, directory.provinceRow u scope id =
        lastRow ProvinceLine.id (ProvinceLine.row u) (provincesIn (wanted scope lines) lines) id := by
      intro id
      unfold Directory.provinceRow
      rw [ids_eq, lines_eq, Option.getD_some]
    rcases bulkCreate_ok ProvinceLine.row_key (Nat.lt_of_lt_of_le Nat.zero_lt_one (le_max_right _ 1)) stored with
      ⟨new, upserted, last, read, again⟩
    refine ⟨ids_eq.symm, ⟨new, upserted, fun id => (last id).trans (row_eq id).symm⟩, ?_, ?_⟩
    · intro id mem
      have listed : id ∈ lines.map (·.id) := by
        unfold wanted at mem
        split at mem
        · exact mem
        · exact known id mem
      rcases List.mem_map.mp listed with ⟨line, at_line, rfl⟩
      rw [row_eq]
      apply isSome_lastRow
      · intro line' mem'
        rcases read line' mem' with ⟨r, _, some_r⟩
        rw [some_r, Option.isSome_some]
      · exact List.mem_filter.mpr ⟨at_line, by simpa using mem⟩
    · intro rows' distinct there
      have same := again rows' distinct (fun id row found => there id row (by rw [row_eq]; exact found))
      unfold loadProvinces
      rw [file, ok_bind]
      dsimp only
      rw [if_neg accepted, same]
      rfl

theorem loadDistricts_ok {rows after : Rows DistrictRow} {ids : List Nat}
    (ok : loadDistricts u directory (directory.provinceIds scope) rows = .ok (after, ids)) :
    ids = (directory.districtLines scope).map (·.id) ∧
      (∃ new, after = rows.upsertAll new ∧ ∀ id, Rows.get? new.reverse id = directory.districtRow u scope id) ∧
      (∀ id ∈ ids, (directory.districtRow u scope id).isSome = true) ∧
      ∀ rows' : Rows DistrictRow, rows'.Distinct ->
        (∀ id row, directory.districtRow u scope id = some row -> rows'.get? id = some row) ->
        loadDistricts u directory (directory.provinceIds scope) rows' = .ok (rows', ids) := by
  unfold loadDistricts at ok
  rcases bind_ok.mp ok with ⟨lines, file, rest⟩
  have lines_eq : directory.districtLines scope = districtsIn (directory.provinceIds scope) lines := by
    unfold Directory.districtLines
    rw [rows_ok file, Option.getD_some]
  dsimp only at rest
  rcases bind_ok.mp rest with ⟨after', stored, whole⟩
  cases whole
  rw [← lines_eq] at stored ⊢
  rcases bulkCreate_ok (fun line r read => (line.row_eq r read).1) (by decide : 0 < batchSize) stored with
    ⟨new, upserted, last, read, again⟩
  refine ⟨rfl, ⟨new, upserted, last⟩, ?_, ?_⟩
  · intro id mem
    rcases List.mem_map.mp mem with ⟨line, at_line, rfl⟩
    apply isSome_lastRow
    · intro line' mem'
      rcases read line' mem' with ⟨r, _, some_r⟩
      rw [some_r, Option.isSome_some]
    · exact at_line
  · intro rows' distinct there
    unfold loadDistricts
    rw [file, ok_bind]
    dsimp only
    rw [← lines_eq, again rows' distinct there]
    rfl

theorem loadNeighborhoods_ok {rows after : Rows NeighborhoodRow}
    (ok : loadNeighborhoods u directory ((directory.districtLines scope).map (·.id)) rows = .ok after) :
    (∃ new, after = rows.upsertAll new ∧ ∀ id, Rows.get? new.reverse id = directory.neighborhoodRow u scope id) ∧
      ∀ rows' : Rows NeighborhoodRow, rows'.Distinct ->
        (∀ id row, directory.neighborhoodRow u scope id = some row -> rows'.get? id = some row) ->
        loadNeighborhoods u directory ((directory.districtLines scope).map (·.id)) rows' = .ok rows' := by
  unfold loadNeighborhoods at ok
  rcases bind_ok.mp ok with ⟨lines, file, stored⟩
  have row_eq : ∀ id, directory.neighborhoodRow u scope id = lastRow NeighborhoodLine.id (NeighborhoodLine.row u)
      (neighborhoodsIn ((directory.districtLines scope).map (·.id)) lines) id := by
    intro id
    unfold Directory.neighborhoodRow
    rw [rows_ok file, Option.getD_some]
  rcases bulkCreate_ok (fun line r read => (line.row_eq r read).1) (by decide : 0 < batchSize) stored with
    ⟨new, upserted, last, _, again⟩
  refine ⟨⟨new, upserted, fun id => (last id).trans (row_eq id).symm⟩, ?_⟩
  intro rows' distinct there
  unfold loadNeighborhoods
  rw [file, ok_bind]
  exact again rows' distinct (fun id row found => there id row (by rw [row_eq]; exact found))

theorem provinceIds_scope {code : Nat} (mem : code ∈ directory.provinceIds scope) : scope = [] ∨ code ∈ scope := by
  unfold Directory.provinceIds wanted at mem
  split at mem
  · exact Or.inl ‹_›
  · exact Or.inr mem

/-- Every row the files give a district is of a province they give a row. -/
theorem districtRow_province {id : Nat} {row : DistrictRow} (found : directory.districtRow u scope id = some row) :
    row.provinceId ∈ directory.provinceIds scope := by
  rcases lastRow_mem (fun line r read => (line.row_eq r read).1) found with ⟨line, mem, _, read⟩
  have inside := (List.mem_filter.mp mem).2
  rw [(line.row_eq _ read).2]
  simpa using inside

theorem neighborhoodRow_district {id : Nat} {row : NeighborhoodRow}
    (found : directory.neighborhoodRow u scope id = some row) :
    row.districtId ∈ (directory.districtLines scope).map (·.id) := by
  rcases lastRow_mem (fun line r read => (line.row_eq r read).1) found with ⟨line, mem, _, read⟩
  have inside := (List.mem_filter.mp mem).2
  rw [(line.row_eq _ read).2]
  simpa using inside

/-- A load that succeeds, before the pruning: what it wrote, and that it would write nothing
over tables that have it. -/
theorem load_ok {pruned : Bool} {c c' : Country} (sound : c.Sound) (ok : load u directory scope pruned c = .ok c') :
    directory.Accepted u scope ∧
      (∃ loaded : Country, Written u directory scope c loaded ∧ loaded.Sound ∧
        (if pruned then prune scope loaded else .ok loaded) = .ok c') ∧
      ∀ (again : Bool) (d : Country), d.Sound -> d.Has u directory scope ->
        load u directory scope again d = if again then prune scope d else .ok d := by
  unfold load at ok
  rcases bind_ok.mp ok with ⟨⟨provinces, provinceIds⟩, first, rest⟩
  rcases loadProvinces_ok first with ⟨rfl, ⟨newProvinces, rfl, ofProvinces⟩, covered, provincesAgain⟩
  rcases bind_ok.mp rest with ⟨⟨districts, districtIds⟩, second, rest⟩
  rcases loadDistricts_ok second with ⟨rfl, ⟨newDistricts, rfl, ofDistricts⟩, districted, districtsAgain⟩
  rcases bind_ok.mp rest with ⟨neighborhoods, third, rest⟩
  rcases loadNeighborhoods_ok third with ⟨⟨newNeighborhoods, rfl, ofNeighborhoods⟩, neighborhoodsAgain⟩
  have accepted : directory.Accepted u scope := by
    refine ⟨?_, ?_, ?_, ?_, ?_⟩
    · intro id row found
      rcases lastRow_mem ProvinceLine.row_key found with ⟨line, mem, rfl, _⟩
      exact provinceIds_scope (by simpa using (List.mem_filter.mp mem).2)
    · intro code mem
      apply covered
      unfold Directory.provinceIds wanted
      rw [if_neg (List.ne_nil_of_mem mem)]
      exact mem
    · exact fun id row found => provinceIds_scope (districtRow_province found)
    · exact fun id row found => covered _ (districtRow_province found)
    · exact fun id row found => districted _ (neighborhoodRow_district found)
  refine ⟨accepted, ⟨_, ?_, ?_, rest⟩, ?_⟩
  · refine ⟨?_, ?_, ?_, rfl⟩
    · exact fun id => by rw [← ofProvinces, Rows.get?_upsertAll]
    · exact fun id => by rw [← ofDistricts, Rows.get?_upsertAll]
    · exact fun id => by rw [← ofNeighborhoods, Rows.get?_upsertAll]
  · refine ⟨sound.provinces.upsertAll _, sound.districts.upsertAll _, sound.neighborhoods.upsertAll _, ?_, ?_, ?_⟩
    · intro id row found
      rw [Rows.get?_upsertAll, ofDistricts] at found
      rcases Option.or_eq_some_iff.mp found with written | ⟨_, kept⟩
      · rw [Rows.get?_upsertAll, ofProvinces, Option.isSome_or, accepted.province id row written, Bool.true_or]
      · exact Rows.isSome_upsertAll _ (sound.district id row kept)
    · intro id row found
      rw [Rows.get?_upsertAll, ofNeighborhoods] at found
      rcases Option.or_eq_some_iff.mp found with written | ⟨_, kept⟩
      · rw [Rows.get?_upsertAll, ofDistricts, Option.isSome_or, accepted.district id row written, Bool.true_or]
      · exact Rows.isSome_upsertAll _ (sound.neighborhood id row kept)
    · intro r mem id at_id
      exact Rows.isSome_upsertAll _ (sound.record r mem id at_id)
  · intro again d dSound has
    unfold load
    rw [provincesAgain _ dSound.provinces has.provinces, ok_bind]
    dsimp only
    rw [districtsAgain _ dSound.districts has.districts, ok_bind]
    dsimp only
    rw [neighborhoodsAgain _ dSound.neighborhoods has.neighborhoods, ok_bind]

end Stages

/-! ## Pruning -/

/-- The tables inside a scope; with no scope, all of them. -/
def Country.within (scope : List Nat) (c : Country) : Country :=
  if scope = [] then c
  else
    { c with
      provinces := c.provinces.filter (fun r => scope.contains r.1)
      districts := c.districts.filter (fun r => scope.contains r.2.provinceId)
      neighborhoods := c.neighborhoods.filter (fun r => (c.provinceOf r.2).any scope.contains) }

theorem provinceOf_removeUnder {c : Country} (distinct : c.districts.Distinct) (province : Nat)
    (row : NeighborhoodRow) :
    (c.removeUnder province).provinceOf row = (c.provinceOf row).filter (fun id => decide (id ≠ province)) := by
  unfold Country.provinceOf Country.removeUnder
  dsimp only
  rw [Rows.get?_filter distinct]
  cases c.districts.get? row.districtId with
  | none => rfl
  | some district => by_cases here : district.provinceId = province <;> simp [Option.filter, here]

/-- One province after another comes to one filter over each table. -/
theorem foldl_removeUnder {c : Country} (distinct : c.districts.Distinct) (ids : List Nat) :
    ids.foldl Country.removeUnder c =
      { c with
        neighborhoods := c.neighborhoods.filter (fun r => !(c.provinceOf r.2).any ids.contains)
        districts := c.districts.filter (fun r => !ids.contains r.2.provinceId) } := by
  induction ids generalizing c with
  | nil =>
      have districts : c.districts.filter (fun r => !([] : List Nat).contains r.2.provinceId) = c.districts :=
        List.filter_eq_self.mpr (fun r _ => by simp)
      have neighborhoods : c.neighborhoods.filter (fun r => !(c.provinceOf r.2).any ([] : List Nat).contains) =
          c.neighborhoods := by
        refine List.filter_eq_self.mpr (fun r _ => ?_)
        cases c.provinceOf r.2 with
        | none => rfl
        | some province => rfl
      rw [districts, neighborhoods]
      rfl
  | cons id ids ih =>
      have rest := @ih (c.removeUnder id) (distinct.filter _)
      rw [List.foldl_cons, rest]
      unfold Country.removeUnder
      simp only [Country.mk.injEq, List.filter_filter, true_and]
      refine ⟨?_, ?_, trivial⟩
      · apply List.filter_congr
        intro r _
        by_cases here : r.2.provinceId = id <;> simp [here]
      · apply List.filter_congr
        intro r _
        have reached := provinceOf_removeUnder distinct id r.2
        unfold Country.removeUnder at reached
        rw [reached]
        cases c.provinceOf r.2 with
        | none => simp
        | some province => by_cases here : province = id <;> simp [Option.filter, here]

section Pruned

variable {scope : List Nat} {c : Country}

theorem Country.Sound.provinceOf (sound : c.Sound) {id : Nat} {row : NeighborhoodRow}
    (found : c.neighborhoods.get? id = some row) :
    ∃ province, c.provinceOf row = some province ∧ (c.provinces.get? province).isSome = true := by
  rcases Option.isSome_iff_exists.mp (sound.neighborhood id row found) with ⟨district, listed⟩
  refine ⟨district.provinceId, ?_, sound.district _ district listed⟩
  unfold Country.provinceOf
  rw [listed, Option.map_some]

theorem contains_doomed {rows : Rows ProvinceRow} {id : Nat} (here : (rows.get? id).isSome = true) :
    ((rows.map Prod.fst).filter (fun id => !scope.contains id)).contains id = !scope.contains id := by
  rcases Option.isSome_iff_exists.mp here with ⟨row, found⟩
  have listed : id ∈ rows.map Prod.fst := List.mem_map_of_mem (f := Prod.fst) (Rows.mem_of_get? found)
  apply Bool.eq_iff_iff.mpr
  rw [List.contains_iff_mem, List.mem_filter]
  exact ⟨fun both => both.2, fun outside => ⟨listed, outside⟩⟩

/-- Every record with an address has it inside the scope. -/
def Country.Served (scope : List Nat) (c : Country) : Prop :=
  ∀ r ∈ c.records, ∀ id row, r.2.neighborhood = some id -> c.neighborhoods.get? id = some row ->
    (c.provinceOf row).any scope.contains = true

theorem references_eq_zero {ids : List Nat} (unblocked : c.blocking ids = []) (holder : Holder) :
    c.references ids holder = 0 := by
  by_contra some_
  have listed : holder ∈ Holder.all.filter (fun holder => decide (c.references ids holder ≠ 0)) := by
    rw [List.mem_filter]
    refine ⟨?_, by simpa using some_⟩
    cases holder <;> decide
  unfold Country.blocking at unblocked
  rw [List.map_eq_nil_iff.mp unblocked] at listed
  exact absurd listed List.not_mem_nil

/-- The provinces of a scope's complement. -/
def Country.doomed (scope : List Nat) (c : Country) : List Nat :=
  (c.provinces.map Prod.fst).filter (fun id => !scope.contains id)

theorem any_doomed (sound : c.Sound) {id : Nat} {row : NeighborhoodRow} (found : c.neighborhoods.get? id = some row) :
    (c.provinceOf row).any (c.doomed scope).contains = !(c.provinceOf row).any scope.contains := by
  rcases sound.provinceOf found with ⟨province, reached, here⟩
  rw [reached, Option.any_some, Option.any_some]
  exact contains_doomed here

/-- What is taken away is what lies outside the scope. -/
theorem removed_eq_within (sound : c.Sound) (narrowed : scope ≠ []) :
    ((c.doomed scope).foldl Country.removeUnder c).removeProvinces (c.doomed scope) = c.within scope := by
  rw [foldl_removeUnder sound.districts]
  unfold Country.within Country.removeProvinces
  rw [if_neg narrowed]
  congr 1
  · refine List.filter_congr (fun r mem => ?_)
    have here : (c.provinces.get? r.1).isSome = true := by
      rw [Rows.get?_of_mem sound.provinces (show (r.1, r.2) ∈ c.provinces from mem), Option.isSome_some]
    rw [Country.doomed, contains_doomed here, Bool.not_not]
  · refine List.filter_congr (fun r mem => ?_)
    have here := sound.district r.1 r.2 (Rows.get?_of_mem sound.districts mem)
    rw [Country.doomed, contains_doomed here, Bool.not_not]
  · refine List.filter_congr (fun r mem => ?_)
    rw [any_doomed sound (Rows.get?_of_mem (show c.neighborhoods.Distinct from sound.neighborhoods) mem), Bool.not_not]

theorem served_of_references (sound : c.Sound)
    (unreferenced : ∀ holder, c.references (c.doomed scope) holder = 0) : c.Served scope := by
  intro r mem id row at_id found
  have counted := List.countP_eq_zero.mp (unreferenced r.2.holder) r mem
  rw [at_id, Option.bind_some, found, Option.bind_some, any_doomed sound found] at counted
  simpa using counted

/-- A pruning that is not refused leaves the tables inside the scope, with every record there. -/
theorem prune_ok {c' : Country} (sound : c.Sound) (ok : prune scope c = .ok c') :
    c' = c.within scope ∧ (scope ≠ [] -> c.Served scope) := by
  unfold prune at ok
  by_cases whole : scope = []
  · rw [if_pos whole] at ok
    cases ok
    exact ⟨(if_pos whole).symm, fun narrowed => absurd whole narrowed⟩
  rw [if_neg whole] at ok
  have removed := removed_eq_within sound whole
  change (if c.doomed scope = [] then _ else refuseIfReferenced c (c.doomed scope) >>= _) = _ at ok
  by_cases none_ : c.doomed scope = []
  · rw [if_pos none_] at ok
    cases ok
    have kept : c.removeProvinces [] = c := by
      unfold Country.removeProvinces
      rw [List.filter_eq_self.mpr (fun r _ => by simp)]
    rw [none_, List.foldl_nil, kept] at removed
    refine ⟨removed, fun _ => served_of_references sound (fun holder => ?_)⟩
    rw [none_]
    refine List.countP_eq_zero.mpr (fun r _ => ?_)
    cases (r.2.neighborhood.bind c.neighborhoods.get?).bind c.provinceOf with
    | none => simp
    | some province => simp
  · rw [if_neg none_] at ok
    rcases bind_ok.mp ok with ⟨_, unblocked, done⟩
    cases done
    refine ⟨removed, fun _ => served_of_references sound (references_eq_zero ?_)⟩
    unfold refuseIfReferenced at unblocked
    split at unblocked
    · assumption
    · cases unblocked

theorem get?_provinces_within (sound : c.Sound) (id : Nat) : (c.within scope).provinces.get? id =
    (c.provinces.get? id).filter (fun _ => decide (scope = []) || scope.contains id) := by
  unfold Country.within
  by_cases whole : scope = []
  · rw [if_pos whole]
    cases c.provinces.get? id <;> simp [whole, Option.filter]
  · rw [if_neg whole, Rows.get?_filter sound.provinces]
    simp [whole]

theorem get?_districts_within (sound : c.Sound) (id : Nat) : (c.within scope).districts.get? id =
    (c.districts.get? id).filter (fun row => decide (scope = []) || scope.contains row.provinceId) := by
  unfold Country.within
  by_cases whole : scope = []
  · rw [if_pos whole]
    cases c.districts.get? id <;> simp [whole, Option.filter]
  · rw [if_neg whole, Rows.get?_filter sound.districts]
    simp [whole]

theorem get?_neighborhoods_within (sound : c.Sound) (id : Nat) : (c.within scope).neighborhoods.get? id =
    (c.neighborhoods.get? id).filter (fun row => decide (scope = []) || (c.provinceOf row).any scope.contains) := by
  unfold Country.within
  by_cases whole : scope = []
  · rw [if_pos whole]
    cases c.neighborhoods.get? id <;> simp [whole, Option.filter]
  · rw [if_neg whole, Rows.get?_filter sound.neighborhoods]
    simp [whole]

theorem records_within : (c.within scope).records = c.records := by
  unfold Country.within
  split
  · rfl
  · rfl

/-- The tables inside a scope that every record is in. -/
theorem sound_within (sound : c.Sound) (served : scope ≠ [] -> c.Served scope) : (c.within scope).Sound := by
  by_cases whole : scope = []
  · rw [Country.within, if_pos whole]
    exact sound
  refine ⟨?_, ?_, ?_, ?_, ?_, ?_⟩
  · rw [Country.within, if_neg whole]
    exact sound.provinces.filter _
  · rw [Country.within, if_neg whole]
    exact sound.districts.filter _
  · rw [Country.within, if_neg whole]
    exact sound.neighborhoods.filter _
  · intro id row found
    rw [get?_districts_within sound] at found
    rcases Option.filter_eq_some_iff.mp found with ⟨listed, inside⟩
    rcases Option.isSome_iff_exists.mp (sound.district id row listed) with ⟨province, here⟩
    rw [get?_provinces_within sound, here, Option.filter_some, if_pos inside, Option.isSome_some]
  · intro id row found
    rw [get?_neighborhoods_within sound] at found
    rcases Option.filter_eq_some_iff.mp found with ⟨listed, inside⟩
    rcases Option.isSome_iff_exists.mp (sound.neighborhood id row listed) with ⟨district, here⟩
    have reached : c.provinceOf row = some district.provinceId := by rw [Country.provinceOf, here, Option.map_some]
    rw [reached, Option.any_some] at inside
    rw [get?_districts_within sound, here, Option.filter_some, if_pos inside, Option.isSome_some]
  · intro r mem id at_id
    rw [records_within] at mem
    rcases Option.isSome_iff_exists.mp (sound.record r mem id at_id) with ⟨row, found⟩
    have inside := served whole r mem id row at_id found
    rw [get?_neighborhoods_within sound, found, Option.filter_some, if_pos (by rw [inside, Bool.or_true]),
      Option.isSome_some]

end Pruned

/-! ## A deliberate run -/

/-- What a run without `--if-missing` makes of the tables. -/
structure Reconciled (u : Unicode) (directory : Directory) (scope : List Nat) (before after : Country) : Prop where
  provinces : ∀ id, after.provinces.get? id = (directory.provinceRow u scope id).or
    ((before.provinces.get? id).filter (fun _ => decide (scope = []) || scope.contains id))
  districts : ∀ id, after.districts.get? id = (directory.districtRow u scope id).or
    ((before.districts.get? id).filter (fun row => decide (scope = []) || scope.contains row.provinceId))
  neighborhoods : ∀ id, after.neighborhoods.get? id = (directory.neighborhoodRow u scope id).or
    ((before.neighborhoods.get? id).filter (fun row => (after.districts.get? row.districtId).isSome))
  records : after.records = before.records

theorem filter_or {ρ : Type} {first second : Option ρ} {p : ρ -> Bool}
    (passes : ∀ row, first = some row -> p row = true) :
    (first.or second).filter p = first.or (second.filter p) := by
  cases first with
  | none => rw [Option.none_or, Option.none_or]
  | some row => rw [Option.some_or, Option.filter_some, if_pos (passes row rfl), Option.some_or]

section Deliberate

variable {u : Unicode} {directory : Directory} {scope : List Nat} {before loaded : Country}

theorem inside_iff {id : Nat} : (decide (scope = []) || scope.contains id) = true ↔ scope = [] ∨ id ∈ scope := by
  simp

/-- A neighbourhood stays where its district does. -/
theorem isSome_district_within (sound : loaded.Sound) {id : Nat} {row : NeighborhoodRow}
    (found : loaded.neighborhoods.get? id = some row) : ((loaded.within scope).districts.get? row.districtId).isSome =
      (decide (scope = []) || (loaded.provinceOf row).any scope.contains) := by
  rcases Option.isSome_iff_exists.mp (sound.neighborhood id row found) with ⟨district, here⟩
  rw [get?_districts_within sound, Country.provinceOf, here, Option.map_some, Option.any_some, Option.filter_some]
  cases decide (scope = []) || scope.contains district.provinceId with
  | false => rfl
  | true => rfl

theorem reconciled_within (accepted : directory.Accepted u scope) (written : Written u directory scope before loaded)
    (sound : loaded.Sound) : Reconciled u directory scope before (loaded.within scope) := by
  have districts : ∀ id, (loaded.within scope).districts.get? id = (directory.districtRow u scope id).or
      ((before.districts.get? id).filter (fun row => decide (scope = []) || scope.contains row.provinceId)) := by
    intro id
    rw [get?_districts_within sound, written.districts, filter_or]
    exact fun row found => inside_iff.mpr (accepted.within id row found)
  refine ⟨?_, districts, ?_, records_within.trans written.records⟩
  · intro id
    rw [get?_provinces_within sound, written.provinces, filter_or]
    exact fun row found => inside_iff.mpr (accepted.listed id row found)
  · intro id
    have kept : (loaded.within scope).neighborhoods.get? id = (loaded.neighborhoods.get? id).filter
        (fun row => ((loaded.within scope).districts.get? row.districtId).isSome) := by
      rw [get?_neighborhoods_within sound]
      cases found : loaded.neighborhoods.get? id with
      | none => rfl
      | some row => rw [Option.filter_some, Option.filter_some, isSome_district_within sound found]
    rw [kept, written.neighborhoods, filter_or]
    intro row found
    rw [districts, Option.isSome_or, accepted.district id row found, Bool.true_or]

theorem Reconciled.has {after : Country} (reconciled : Reconciled u directory scope before after) :
    after.Has u directory scope := by
  refine ⟨?_, ?_, ?_⟩
  · intro id row found
    rw [reconciled.provinces, found, Option.some_or]
  · intro id row found
    rw [reconciled.districts, found, Option.some_or]
  · intro id row found
    rw [reconciled.neighborhoods, found, Option.some_or]

theorem prune_within (c : Country) : prune scope (c.within scope) = .ok (c.within scope) := by
  unfold prune
  by_cases whole : scope = []
  · rw [if_pos whole]
  have none_ : (c.within scope).doomed scope = [] := by
    refine List.filter_eq_nil_iff.mpr (fun id mem => ?_)
    rcases List.mem_map.mp mem with ⟨r, at_r, rfl⟩
    rw [Country.within, if_neg whole] at at_r
    simpa using (List.mem_filter.mp at_r).2
  rw [if_neg whole]
  exact if_pos none_

/-- A run that gets past its first questions loads. -/
theorem handle_ok {ifMissing : Bool} {c c' : Country} (ok : handle u scope ifMissing directory c = .ok c') :
    c' = c ∧ (ifMissing && alreadyLoaded scope c) = true ∨
      directory.exists_ = true ∧ load u directory scope (!ifMissing) c = .ok c' := by
  unfold handle at ok
  split at ok
  · cases ok
    exact Or.inl ⟨rfl, ‹_›⟩
  · split at ok
    · cases ok
    · rename_i there
      exact Or.inr ⟨by simpa using there, ok⟩

end Deliberate

/-! ## Histories -/

/-- A run of the command, or a record saved or removed for good. -/
inductive Event
  | command (scope : List Nat) (ifMissing : Bool) (directory : Directory)
  | save (id : Nat) (record : Record)
  | remove (id : Nat)

/-- A container start, or work on the records. -/
def Event.Ordinary : Event -> Prop
  | command _ ifMissing _ => ifMissing = true
  | save _ _ => True
  | remove _ => True

section Histories

variable (u : Unicode)

/-- A command that fails leaves the tables as they were, and no record points nowhere. -/
def step (c : Country) : Event -> Country
  | .command scope ifMissing directory => (handle u scope ifMissing directory c).toOption.getD c
  | .save id record =>
      if record.neighborhood.all (fun n => (c.neighborhoods.get? n).isSome) then
        { c with records := c.records.upsert id record }
      else c
  | .remove id => { c with records := c.records.filter (fun r => decide (r.1 ≠ id)) }

def run (c : Country) (events : List Event) : Country := events.foldl (step u) c

def Country.empty : Country := ⟨[], [], [], []⟩

variable {u}

theorem sound_handle {scope : List Nat} {ifMissing : Bool} {directory : Directory} {c c' : Country} (sound : c.Sound)
    (ok : handle u scope ifMissing directory c = .ok c') : c'.Sound := by
  rcases handle_ok ok with ⟨rfl, _⟩ | ⟨_, done⟩
  · exact sound
  rcases load_ok sound done with ⟨_, ⟨loaded, _, loadedSound, pruned⟩, _⟩
  cases ifMissing with
  | true =>
      cases pruned
      exact loadedSound
  | false =>
      rcases prune_ok loadedSound pruned with ⟨rfl, served⟩
      exact sound_within loadedSound served

theorem mem_upsert_records {c : Country} {id : Nat} {record : Record} {r : Nat × Record}
    (mem : r ∈ c.records.upsert id record) : r ∈ c.records ∨ r.2 = record := by
  unfold Rows.upsert at mem
  split at mem
  · rcases Rows.mem_update.mp mem with ⟨before, _⟩ | ⟨_, _, rfl⟩
    · exact Or.inl before
    · exact Or.inr rfl
  · rcases List.mem_append.mp mem with before | new
    · exact Or.inl before
    · rw [List.mem_singleton.mp new]
      exact Or.inr rfl

theorem sound_step {c : Country} (sound : c.Sound) (e : Event) : (step u c e).Sound := by
  cases e with
  | command scope ifMissing directory =>
      simp only [step]
      cases ok : handle u scope ifMissing directory c with
      | error failure => exact sound
      | ok c' => exact sound_handle sound ok
  | save id record =>
      simp only [step]
      split
      · rename_i there
        refine ⟨sound.provinces, sound.districts, sound.neighborhoods, sound.district, sound.neighborhood, ?_⟩
        intro r mem n at_n
        rcases mem_upsert_records mem with before | rfl
        · exact sound.record r before n at_n
        · rw [at_n, Option.all_some] at there
          exact there
      · exact sound
  | remove id =>
      refine ⟨sound.provinces, sound.districts, sound.neighborhoods, sound.district, sound.neighborhood, ?_⟩
      exact fun r mem => sound.record r (List.mem_of_mem_filter mem)

theorem sound_run {c : Country} (sound : c.Sound) (events : List Event) : (run u c events).Sound := by
  induction events generalizing c with
  | nil => exact sound
  | cons e events ih => exact ih (sound_step sound e)

theorem sound_empty : Country.empty.Sound :=
  ⟨List.nodup_nil, List.nodup_nil, List.nodup_nil, fun _ _ found => absurd (Rows.mem_of_get? found) List.not_mem_nil,
    fun _ _ found => absurd (Rows.mem_of_get? found) List.not_mem_nil, fun _ mem => absurd mem List.not_mem_nil⟩

/-- The keys of one country are keys of another. -/
structure Country.Keeps (c c' : Country) : Prop where
  provinces : ∀ id, (c.provinces.get? id).isSome = true -> (c'.provinces.get? id).isSome = true
  districts : ∀ id, (c.districts.get? id).isSome = true -> (c'.districts.get? id).isSome = true
  neighborhoods : ∀ id, (c.neighborhoods.get? id).isSome = true -> (c'.neighborhoods.get? id).isSome = true

theorem Country.Keeps.refl (c : Country) : c.Keeps c := ⟨fun _ => id, fun _ => id, fun _ => id⟩

theorem Country.Keeps.trans {c c' c'' : Country} (first : c.Keeps c') (second : c'.Keeps c'') : c.Keeps c'' :=
  ⟨fun id here => second.provinces id (first.provinces id here),
    fun id here => second.districts id (first.districts id here),
    fun id here => second.neighborhoods id (first.neighborhoods id here)⟩

theorem Written.keeps {directory : Directory} {scope : List Nat} {before after : Country}
    (written : Written u directory scope before after) : before.Keeps after := by
  refine ⟨?_, ?_, ?_⟩
  · intro id here
    rw [written.provinces, Option.isSome_or, here, Bool.or_true]
  · intro id here
    rw [written.districts, Option.isSome_or, here, Bool.or_true]
  · intro id here
    rw [written.neighborhoods, Option.isSome_or, here, Bool.or_true]

theorem keeps_step {c : Country} (sound : c.Sound) {e : Event} (ordinary : e.Ordinary) : c.Keeps (step u c e) := by
  cases e with
  | command scope ifMissing directory =>
      have boots : ifMissing = true := ordinary
      simp only [step]
      cases ok : handle u scope ifMissing directory c with
      | error failure => exact Country.Keeps.refl c
      | ok c' =>
          rcases handle_ok ok with ⟨rfl, _⟩ | ⟨_, done⟩
          · exact Country.Keeps.refl _
          rcases load_ok sound done with ⟨_, ⟨loaded, written, _, pruned⟩, _⟩
          rw [boots] at pruned
          cases pruned
          exact written.keeps
  | save key record =>
      simp only [step]
      split
      · exact ⟨fun _ => id, fun _ => id, fun _ => id⟩
      · exact Country.Keeps.refl c
  | remove key => exact ⟨fun _ => id, fun _ => id, fun _ => id⟩

end Histories

/-! ## What runs leave -/

/-- Unicode as far as ASCII goes, without upper case. -/
def plain : Unicode := ⟨id, Char.isAlphanum⟩

def twoProvinces : Directory where
  path := "data"
  exists_ := true
  provinces := some [⟨6, "Ankara"⟩, ⟨25, "Erzurum"⟩]
  districts := some [⟨61, 6, "Mamak"⟩, ⟨251, 25, "Yakutiye"⟩]
  neighborhoods := some [⟨611, 61, "Ege", some "06480", none⟩, ⟨2511, 251, "Köşk", some "25100", some "village"⟩]

def wholeCountry : Country := run plain .empty [.command [] false twoProvinces, .save 1 ⟨.building, some 2511⟩]

variable {u : Unicode}

/-- A run without `--if-missing` that succeeds leaves under each key the row of the files, or
what was there inside the scope, and has every record inside the scope; no run over the same
files changes anything after it. -/
theorem deliberate_run {directory : Directory} {scope : List Nat} {c c' : Country} (sound : c.Sound)
    (ok : handle u scope false directory c = .ok c') :
    Reconciled u directory scope c c' ∧ (scope ≠ [] -> c'.Served scope) ∧
      ∀ ifMissing, handle u scope ifMissing directory c' = .ok c' := by
  rcases handle_ok ok with ⟨_, skipped⟩ | ⟨there, done⟩
  · cases skipped
  rcases load_ok sound done with ⟨accepted, ⟨loaded, written, loadedSound, pruned⟩, again⟩
  rcases prune_ok loadedSound pruned with ⟨rfl, served⟩
  have reconciled := reconciled_within accepted written loadedSound
  have after := sound_within loadedSound served
  have reload := fun pruned => again pruned _ after reconciled.has
  refine ⟨reconciled, ?_, ?_⟩
  · intro narrowed r mem id row at_id found
    rcases after.provinceOf found with ⟨province, reached, here⟩
    rcases Option.isSome_iff_exists.mp here with ⟨row', listed⟩
    rw [get?_provinces_within loadedSound] at listed
    have inside := (Option.filter_eq_some_iff.mp listed).2
    rw [reached, Option.any_some]
    simpa [narrowed] using inside
  · intro ifMissing
    unfold handle
    split
    · rfl
    · rw [there, reload]
      cases ifMissing with
      | false => exact prune_within loaded
      | true => rfl

/-- The deployment of Erzurum, narrowed from the whole country. -/
theorem deliberate_run_erzurum : ∃ c' : Country, c'.provinces.map Prod.fst = [25] ∧ c'.districts.map Prod.fst = [251] ∧
    c'.neighborhoods.map Prod.fst = [2511] ∧ c'.Served [25] ∧
    handle plain [25] true twoProvinces c' = .ok c' := by
  have facts : (handle plain [25] false twoProvinces wholeCountry).toOption.any (fun c' =>
      decide (c'.provinces.map Prod.fst = [25]) && decide (c'.districts.map Prod.fst = [251]) &&
        decide (c'.neighborhoods.map Prod.fst = [2511])) = true := by
    decide +kernel
  rcases (Option.any_eq_true _ _).mp facts with ⟨c', done, facts⟩
  have ok : handle plain [25] false twoProvinces wholeCountry = .ok c' := by
    cases result : handle plain [25] false twoProvinces wholeCountry with
    | error failure => simp [result, Except.toOption] at done
    | ok c'' => simpa [result, Except.toOption] using done
  have sound : wholeCountry.Sound := sound_run sound_empty _
  have after := deliberate_run sound ok
  simp only [Bool.and_eq_true, decide_eq_true_eq] at facts
  exact ⟨c', facts.1.1, facts.1.2, facts.2, after.2.1 (by decide), after.2.2 true⟩

/-- After any history every record's neighbourhood is there, with its district and its province,
and container starts and work on the records never take a row of the tables away. -/
theorem addresses_kept (events later : List Event) (ordinary : ∀ e ∈ later, e.Ordinary) :
    (∀ r ∈ (run u .empty events).records, ∀ id, r.2.neighborhood = some id ->
      ∃ row province, (run u .empty events).neighborhoods.get? id = some row ∧
        (run u .empty events).provinceOf row = some province ∧
        ((run u .empty events).provinces.get? province).isSome = true) ∧
      (run u .empty events).Keeps (run u (run u .empty events) later) := by
  have sound : (run u .empty events).Sound := sound_run sound_empty events
  constructor
  · intro r mem id at_id
    rcases Option.isSome_iff_exists.mp (sound.record r mem id at_id) with ⟨row, found⟩
    rcases sound.provinceOf found with ⟨province, reached, here⟩
    exact ⟨row, province, found, reached, here⟩
  · generalize run u .empty events = c at sound
    induction later generalizing c with
    | nil => exact Country.Keeps.refl c
    | cons e later ih =>
        have first := keeps_step (u := u) sound (ordinary e List.mem_cons_self)
        have rest := ih (fun e mem => ordinary e (List.mem_cons_of_mem _ mem)) (step u c e) (sound_step sound e)
        exact first.trans rest

theorem addresses_kept_erzurum :
    wholeCountry.Keeps (run plain wholeCountry [.command [25] true twoProvinces, .remove 1]) := by
  refine (addresses_kept [.command [] false twoProvinces, .save 1 ⟨.building, some 2511⟩]
    [.command [25] true twoProvinces, .remove 1] ?_).2
  intro e mem
  rcases List.mem_cons.mp mem with rfl | last
  · rfl
  · rw [List.mem_singleton.mp last]
    trivial

end Address
end Shiftlush
