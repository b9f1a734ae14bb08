/-
LMCache.StorageControllers.Cells — from the cells of a grid to keys and back.

A request is a grid of keys. `gatherKeys` reads off the keys of the set cells
in row-major order, `scatterBitmaps` puts a result over those keys back on
the grid. Locks are counted per key: `tally` is the weight a key has in a
grid, the sum over the set cells it stands in, and it is additive over
disjoint grids. Gathering a grid and counting the keys gives the tally.
-/
import LMCache.StorageControllers.PrefetchPolicy

namespace LMCache.StorageControllers

open List Lib Native Bitmap2D

variable {Key : Type} {m n : Nat}

/-! ## Gathering and scattering -/

section

variable (groups : List (GroupedObjectKeys Key))

/-- `get_flattened_keys`. -/
def flattenedKeys : List Key :=
  groups.flatMap GroupedObjectKeys.keys

/-- `_gather_keys_by_row`. The checks of the source compare shapes that agree
by type here. -/
def gatherKeysByRow (bitmaps : Bitmap2D m n) : List (GroupedObjectKeys Key × List Key) :=
  zipWith (fun group row => (group, row.gather group.keys)) groups bitmaps.rows

/-- `_gather_keys`. -/
def gatherKeys (bitmaps : Bitmap2D m n) : List Key :=
  (gatherKeysByRow groups bitmaps).flatMap Prod.snd

end

/-- Set the cells at the given row-major positions. -/
def setCells (indices : List Nat) : Bitmap2D m n :=
  indices.foldl (fun ret idx => ret.set (idx / n) (idx % n)) (.zeros m n)

/-- The row-major positions of the set cells. -/
def selectedIndices (globalIndices : Bitmap2D m n) : List Nat :=
  globalIndices.rows.zipIdx.flatMap fun (row, i) => row.getIndices.map (· + i * n)

/-- `_scatter_bitmaps`. -/
def scatterBitmaps (globalIndices : Bitmap2D m n) (localBitmap : Bitmap) :
    Except ValueError (Bitmap2D m n) :=
  if m = 0 then .ok (.zeros m n)
  else if (selectedIndices globalIndices).length ≠ localBitmap.size then
    .error ⟨"Length of local_bitmap does not match the total number of 1s in global_indices"⟩
  else .ok (setCells (localBitmap.gather (selectedIndices globalIndices)))

/-- `_scatter_bitmaps_full_global`. -/
def scatterBitmapsFullGlobal (localBitmap : Bitmap) (m n : Nat) :
    Except ValueError (Bitmap2D m n) :=
  if localBitmap.size ≠ m * n then
    .error
      ⟨"Length of local_bitmap does not match the total number of bits in the global bitmap"⟩
  else .ok (setCells localBitmap.getIndices)

lemma setCells_test (indices : List Nat) (i j : Nat) :
    (setCells indices : Bitmap2D m n).test i j ↔ j + i * n ∈ indices ∧ i < m ∧ j < n := by
  suffices hloop : ∀ g : Bitmap2D m n,
      (indices.foldl (fun ret idx => ret.set (idx / n) (idx % n)) g).test i j ↔
        g.test i j ∨ j + i * n ∈ indices ∧ i < m ∧ j < n by
    simpa [setCells] using hloop (.zeros m n)
  induction indices with
  | nil => intro g; simp
  | cons idx indices ih =>
    intro g
    have hcell : j < n → (idx / n = i ∧ idx % n = j ↔ j + i * n = idx) := fun hj => by
      rw [Nat.div_mod_unique (by omega), mul_comm i, and_iff_left hj]
    rw [foldl_cons, ih, test_set]
    simp only [Bool.or_eq_true, Bool.and_eq_true, decide_eq_true_eq, mem_cons]
    tauto

/-- The set cells, row by row. -/
def gatheredCells (grid : Bitmap2D m n) : List (Nat × Nat) :=
  (range m).flatMap fun i => ((range n).filter (grid.test i)).map (Prod.mk i)

lemma mem_gatheredCells {grid : Bitmap2D m n} {i j : Nat} :
    (i, j) ∈ gatheredCells grid ↔ grid.test i j := by
  simp only [gatheredCells, mem_flatMap, mem_range, mem_map, mem_filter, Prod.mk.injEq]
  constructor
  · rintro ⟨_, -, _, ⟨-, htest⟩, rfl, rfl⟩
    exact htest
  · intro htest
    exact ⟨i, (lt_of_test htest).1, j, ⟨(lt_of_test htest).2, htest⟩, rfl, rfl⟩

/-- The set cells of a row are those that its bitmap lists. -/
lemma getIndices_row {grid : Bitmap2D m n} {i : Nat} (hi : i < grid.rows.length) :
    grid.rows[i].getIndices = (range n).filter (grid.test i) := by
  rw [Bitmap.getIndices, grid.size_rows _ (getElem_mem hi)]
  exact filter_congr fun j _ => (grid.test_eq (getElem?_eq_getElem hi) j).symm

lemma selectedIndices_eq (grid : Bitmap2D m n) :
    selectedIndices grid = (gatheredCells grid).map fun cell => cell.2 + cell.1 * n := by
  rw [selectedIndices, gatheredCells, map_flatMap, flatMap_def, flatMap_def]
  refine congrArg List.flatten (ext_getElem (by simp [grid.length_rows]) fun i hi _ => ?_)
  simp only [length_map, length_zipIdx] at hi
  simp [getIndices_row hi, Function.comp_def]

lemma cell_inj {i j i' j' : Nat} (hj : j < n) (hj' : j' < n) (h : j + i * n = j' + i' * n) :
    i = i' ∧ j = j' := by
  have hdiv := congrArg (· / n) h
  simp only [Nat.add_mul_div_right _ _ (show 0 < n by omega), Nat.div_eq_of_lt hj,
    Nat.div_eq_of_lt hj', zero_add] at hdiv
  subst hdiv
  exact ⟨rfl, by omega⟩

variable {result : Bitmap}

/-- Scattering sets the cells whose bits are set. -/
lemma scatterBitmaps_test {g loaded : Bitmap2D m n} (h : scatterBitmaps g result = .ok loaded)
    {i j : Nat} : loaded.test i j ↔
      ∃ k, (gatheredCells g)[k]? = some (i, j) ∧ result.test k := by
  unfold scatterBitmaps at h
  split at h
  · rename_i hm
    subst hm
    cases h
    simp [gatheredCells]
  split at h
  · cases h
  cases h
  rw [setCells_test, selectedIndices_eq]
  simp only [Bitmap.gather, mem_filterMap, Bitmap.mem_getIndices, getElem?_map,
    Option.map_eq_some_iff]
  have hin : ∀ {k : Nat} {i j}, (gatheredCells g)[k]? = some (i, j) → i < m ∧ j < n := fun hk =>
    lt_of_test (mem_gatheredCells.mp (mem_of_getElem? hk))
  constructor
  · rintro ⟨⟨k, hk, cell, hcell, heq⟩, -, hj⟩
    obtain ⟨rfl, rfl⟩ := cell_inj (hin hcell).2 hj heq
    exact ⟨k, hcell, hk⟩
  · rintro ⟨k, hcell, hk⟩
    exact ⟨⟨k, hk, (i, j), hcell, rfl⟩, hin hcell⟩

lemma scatterBitmapsFullGlobal_test {found : Bitmap2D m n}
    (h : scatterBitmapsFullGlobal result m n = .ok found) {i j : Nat} (hi : i < m) (hj : j < n) :
    found.test i j = result.test (i * n + j) := by
  unfold scatterBitmapsFullGlobal at h
  split at h
  · cases h
  · cases h
    rw [Bool.eq_iff_iff, setCells_test, Bitmap.mem_getIndices, add_comm]
    simp [hi, hj]

/-! ## Keys of cells -/

/-- The key of row `i` and column `j`. -/
def keyAt (groups : List (GroupedObjectKeys Key)) (i j : Nat) : Option Key :=
  groups[i]?.bind fun group => group.keys[j]?

section

variable {groups : List (GroupedObjectKeys Key)}

lemma flattenedKeys_getElem? (hwidth : ∀ g ∈ groups, g.keys.length = n) (i : Nat) {j : Nat}
    (hj : j < n) : (flattenedKeys groups)[i * n + j]? = keyAt groups i j := by
  induction groups generalizing i with
  | nil => simp [flattenedKeys, keyAt]
  | cons g groups ih =>
    have hg : g.keys.length = n := hwidth g mem_cons_self
    simp only [flattenedKeys, flatMap_cons]
    cases i with
    | zero =>
      rw [getElem?_append_left (by omega)]
      simp [keyAt]
    | succ i =>
      rw [getElem?_append_right (by rw [Nat.succ_mul]; omega), hg,
        show (i + 1) * n + j - n = i * n + j by rw [Nat.succ_mul]; omega]
      simpa [keyAt, flattenedKeys] using
        ih (fun g' h' => hwidth g' (mem_cons_of_mem _ h')) i

lemma flattenedKeys_length (hrows : Rows groups m n) : (flattenedKeys groups).length = m * n := by
  have hsum : ∀ gs : List (GroupedObjectKeys Key), (∀ g ∈ gs, g.keys.length = n) →
      (flattenedKeys gs).length = gs.length * n := by
    intro gs
    induction gs with
    | nil => intro _; simp [flattenedKeys]
    | cons g gs ih =>
      intro hwidth
      have htail := ih fun g' h' => hwidth g' (mem_cons_of_mem _ h')
      rw [flattenedKeys] at htail ⊢
      rw [flatMap_cons, length_append, htail, hwidth g mem_cons_self,
        length_cons, Nat.succ_mul, add_comm]
  rw [hsum groups hrows.width, hrows.length]

/-- A result with one bit per key scatters. -/
lemma scatterBitmapsFullGlobal_ok (hrows : Rows groups m n)
    (hsize : result.size = (flattenedKeys groups).length) :
    ∃ found, scatterBitmapsFullGlobal result m n = .ok found := by
  refine ⟨setCells result.getIndices, ?_⟩
  unfold scatterBitmapsFullGlobal
  rw [if_neg]
  rw [hsize, flattenedKeys_length hrows]
  exact fun h => h rfl

end

variable {grid : Bitmap2D m n}

lemma mem_gatherKeysByRow {groups : List (GroupedObjectKeys Key)} {group : GroupedObjectKeys Key}
    {key : Key} : (∃ row ∈ gatherKeysByRow groups grid, row.1 = group ∧ key ∈ row.2) ↔
      ∃ i j, grid.test i j ∧ groups[i]? = some group ∧ group.keys[j]? = some key := by
  simp only [gatherKeysByRow, mem_iff_getElem? (l := zipWith _ _ _), getElem?_zipWith_eq_some]
  constructor
  · rintro ⟨_, ⟨i, g, row, hg, hrow, rfl⟩, rfl, hkey⟩
    obtain ⟨j, hj, hkeyj⟩ := mem_filterMap.mp hkey
    exact ⟨i, j, (grid.test_eq hrow j).trans (Bitmap.mem_getIndices.mp hj), hg, hkeyj⟩
  · rintro ⟨i, j, hij, hg, hkeyj⟩
    obtain ⟨row, hrow, -⟩ := grid.exists_row (lt_of_test hij).1
    exact ⟨_, ⟨i, group, row, hg, hrow, rfl⟩, rfl, mem_filterMap.mpr
      ⟨j, Bitmap.mem_getIndices.mpr ((grid.test_eq hrow j).symm.trans hij), hkeyj⟩⟩

lemma mem_gatherKeys {groups : List (GroupedObjectKeys Key)} {key : Key} :
    key ∈ gatherKeys groups grid ↔ ∃ i j, grid.test i j ∧ keyAt groups i j = some key := by
  simp only [gatherKeys, mem_flatMap, keyAt, Option.bind_eq_some_iff]
  constructor
  · rintro ⟨row, hrow, hkey⟩
    obtain ⟨i, j, hij, hg⟩ := mem_gatherKeysByRow.mp ⟨row, hrow, rfl, hkey⟩
    exact ⟨i, j, hij, row.1, hg⟩
  · rintro ⟨i, j, hij, g, hg⟩
    obtain ⟨row, hrow, -, hkey⟩ := mem_gatherKeysByRow.mpr ⟨i, j, hij, hg⟩
    exact ⟨row, hrow, hkey⟩

/-- The gathered keys are those of the set cells, in their order. -/
lemma map_some_gatherKeys {groups : List (GroupedObjectKeys Key)} (hlength : groups.length = m)
    (hwidth : ∀ g ∈ groups, g.keys.length = n) : (gatherKeys groups grid).map some
      = (gatheredCells grid).map fun cell => keyAt groups cell.1 cell.2 := by
  have hsome : ∀ (keys : List Key) (l : List Nat), (∀ j ∈ l, j < keys.length) →
      (l.filterMap (keys[·]?)).map some = l.map (keys[·]?) := by
    intro keys l hl
    induction l with
    | nil => rfl
    | cons j l ih =>
      obtain ⟨hj, hl⟩ := forall_mem_cons.mp hl
      rw [filterMap_cons, getElem?_eq_getElem hj, map_cons, map_cons, ih hl, getElem?_eq_getElem hj]
  rw [gatherKeys, gatherKeysByRow, gatheredCells, map_flatMap, map_flatMap, flatMap_def, flatMap_def]
  refine congrArg List.flatten (ext_getElem (by simp [grid.length_rows, hlength]) fun i hi _ => ?_)
  simp only [length_map, length_zipWith, lt_min_iff] at hi
  obtain ⟨hgroup, hrow⟩ := hi
  simp only [getElem_map, getElem_zipWith, getElem_range, Bitmap.gather, getIndices_row hrow]
  rw [hsome _ _ fun j hj => ?_]
  · simp [keyAt, hgroup, Function.comp_def]
  · rw [hwidth _ (getElem_mem hgroup)]
    exact mem_range.mp (mem_filter.mp hj).1

/-- A result over the gathered keys, scattered back, sets the cells of the keys
whose bits are set. -/
theorem scatter_gathered (groups : List (GroupedObjectKeys Key)) (hlength : groups.length = m)
    (hwidth : ∀ g ∈ groups, g.keys.length = n) (grid : Bitmap2D m n) (result : Bitmap)
    (hsize : result.size = (gatheredCells grid).length) :
    (gatherKeys groups grid).map some
      = (gatheredCells grid).map (fun cell => keyAt groups cell.1 cell.2) ∧
    ∃ loaded, scatterBitmaps grid result = .ok loaded ∧ ∀ i j, loaded.test i j ↔
      ∃ k, (gatheredCells grid)[k]? = some (i, j) ∧ result.test k := by
  refine ⟨map_some_gatherKeys hlength hwidth, ?_⟩
  have hok : ∃ loaded, scatterBitmaps grid result = .ok loaded := by
    unfold scatterBitmaps
    split
    · exact ⟨_, rfl⟩
    · exact ⟨_, if_neg (by simp [selectedIndices_eq, hsize])⟩
  obtain ⟨loaded, hloaded⟩ := hok
  exact ⟨loaded, hloaded, fun i j => scatterBitmaps_test hloaded⟩

/-- Two keys in the first row, none in the second, one in the third. -/
def threeRows : Bitmap2D 3 2 := (((zeros 3 2).set 0 0).set 0 1).set 2 1

theorem scatter_threeRows : ∃ loaded, scatterBitmaps threeRows ⟨[true, false, true]⟩ = .ok loaded ∧
    loaded.test 0 0 ∧ loaded.test 0 1 = false ∧ loaded.test 2 1 := by
  obtain ⟨loaded, hok, htest⟩ := (scatter_gathered ([[4, 5], [6, 7], [8, 9]].map
    fun keys => ⟨keys, 1, -1, 1, .inl rfl, le_rfl⟩) rfl (by simp) threeRows ⟨[true, false, true]⟩
    (by decide)).2
  refine ⟨loaded, hok, (htest 0 0).mpr ⟨0, by decide, by decide⟩, ?_,
    (htest 2 1).mpr ⟨2, by decide, by decide⟩⟩
  rw [Bool.eq_false_iff, ne_eq, htest]
  rintro ⟨_ | _ | _ | k, hk, hbit⟩
  · exact absurd hk (by decide)
  · exact absurd hbit (by decide)
  · exact absurd hk (by decide)
  · cases hk

section

variable {groups : List (GroupedObjectKeys Key)}

lemma gatherKeys_zeros : gatherKeys groups (zeros m n) = [] := by
  rw [eq_nil_iff_forall_not_mem]
  intro key h
  obtain ⟨i, j, hij, -⟩ := mem_gatherKeys.mp h
  simp at hij

lemma exists_keyAt (hrows : Rows groups m n) {i j : Nat} (h : grid.test i j) :
    ∃ key, keyAt groups i j = some key := by
  obtain ⟨hi, hj⟩ := lt_of_test h
  have hlen : i < groups.length := by rw [hrows.length]; exact hi
  have hwidth : j < groups[i].keys.length := by
    rw [hrows.width _ (getElem_mem hlen)]; exact hj
  exact ⟨groups[i].keys[j], by simp [keyAt, hlen]⟩

lemma test_of_gatherKeys_eq_nil (hrows : Rows groups m n)
    (h : (gatherKeys groups grid).isEmpty) (i j : Nat) : grid.test i j = false := by
  by_contra hij
  have hij : grid.test i j := by simpa using hij
  obtain ⟨key, hkey⟩ := exists_keyAt hrows hij
  have hmem := mem_gatherKeys.mpr ⟨i, j, hij, hkey⟩
  rw [isEmpty_iff.mp h] at hmem
  exact absurd hmem not_mem_nil

end

/-- Gathering by a property of the keys is filtering. -/
lemma gather_eq_filter {row : Bitmap} {keys : List Key} {p : Key → Bool}
    (hsize : row.size = keys.length) (h : ∀ j key, keys[j]? = some key → row.test j = p key) :
    row.gather keys = keys.filter p := by
  have hkeys : ∀ l : List Key, (range l.length).filterMap (l[·]?) = l := by
    intro l
    induction l with
    | nil => rfl
    | cons k l ih =>
      rw [length_cons, range_succ_eq_map, filterMap_cons, filterMap_map]
      exact congrArg (k :: ·) ih
  conv_rhs => rw [← hkeys keys]
  rw [Bitmap.gather, Bitmap.getIndices, hsize, filterMap_filter, filter_filterMap]
  refine filterMap_congr fun j hj => ?_
  rw [mem_range] at hj
  rw [getElem?_eq_getElem hj, h j _ (getElem?_eq_getElem hj)]
  cases hp : p keys[j] <;> simp [Option.filter_some, hp]

/-! ## Counting keys -/

section Tally

variable [DecidableEq Key] (weight : GroupedObjectKeys Key → Int)
  (groups : List (GroupedObjectKeys Key)) (key : Key)

/-- What the cell in row `i` and column `j` counts for `key`. -/
def cellWeight (i j : Nat) : Int :=
  groups[i]?.elim 0 fun group => if group.keys[j]? = some key then weight group else 0

/-- The weight of `key` in the set cells of a grid. -/
def tally (grid : Bitmap2D m n) : Int :=
  ∑ i ∈ Finset.range m, ∑ j ∈ Finset.range n,
    if grid.test i j = true then cellWeight weight groups key i j else 0

variable {weight groups key} {a : Bitmap2D m n}

lemma tally_split {b c : Bitmap2D m n} (hsplit : ∀ i j, c.test i j = (a.test i j || b.test i j))
    (hdisj : ∀ i j, a.test i j → b.test i j = false) :
    tally weight groups key c = tally weight groups key a + tally weight groups key b := by
  simp only [tally, ← Finset.sum_add_distrib]
  refine Finset.sum_congr rfl fun i _ => Finset.sum_congr rfl fun j _ => ?_
  rw [hsplit]
  cases ha : a.test i j with
  | false => simp
  | true => simp [hdisj i j ha]

lemma tally_eq_zero (h : ∀ i j, a.test i j = false) : tally weight groups key a = 0 := by
  simp [tally, h]

lemma tally_of_not_mem (h : key ∉ flattenedKeys groups) (grid : Bitmap2D m n) :
    tally weight groups key grid = 0 := by
  have hcell : ∀ i j, cellWeight weight groups key i j = 0 := by
    intro i j
    unfold cellWeight
    cases hg : groups[i]? with
    | none => rfl
    | some g =>
      rw [Option.elim_some, if_neg]
      exact fun hkey => h (mem_flatMap.mpr
        ⟨g, mem_of_getElem? hg, mem_of_getElem? hkey⟩)
  simp [tally, hcell]

lemma tally_sub {b : Bitmap2D m n} (h : ∀ i j, b.test i j → a.test i j) :
    tally weight groups key (a - b) = tally weight groups key a - tally weight groups key b := by
  have hsplit : tally weight groups key a
      = tally weight groups key (a - b) + tally weight groups key b := by
    refine tally_split (fun i j => ?_) (fun i j hij => ?_)
    · cases hb : b.test i j with
      | false => simp [hb]
      | true => simp [h i j hb]
    · simp only [test_sub, Bool.and_eq_true, Bool.not_eq_true'] at hij
      exact hij.2
  omega

lemma list_sum_eq_sum_range (l : List Int) : l.sum = ∑ i ∈ Finset.range l.length, l.getD i 0 := by
  induction l with
  | nil => simp
  | cons x l ih =>
    rw [length_cons, Finset.sum_range_succ', sum_cons, ih, add_comm]
    simp

lemma count_gather (row : Bitmap) (keys : List Key) : ((row.gather keys).count key : Int)
      = ∑ j ∈ Finset.range row.size,
      if row.test j = true then (if keys[j]? = some key then 1 else 0) else 0 := by
  have hrange : ∀ k, ((((range k).filter row.test).filterMap (keys[·]?)).count key : Int)
      = ∑ j ∈ Finset.range k,
          if row.test j = true then (if keys[j]? = some key then 1 else 0) else 0 := by
    intro k
    induction k with
    | zero => simp
    | succ k ih =>
      rw [range_succ, filter_append, filterMap_append, count_append, Nat.cast_add,
        Finset.sum_range_succ]
      congr 1
      cases ht : row.test k with
      | false => simp [ht]
      | true =>
        cases hk : keys[k]? with
        | none => simp [ht, hk]
        | some key' => simp [ht, hk, count_singleton]
  exact hrange row.size

section

variable (hrows : Rows groups m n)
include hrows

/-- Gathering row by row and weighing each row's keys gives the tally. -/
lemma sum_gatherKeysByRow (grid : Bitmap2D m n) :
    ((gatherKeysByRow groups grid).map fun p => (p.2.count key : Int) * weight p.1).sum
      = tally weight groups key grid := by
  rw [list_sum_eq_sum_range]
  have hlen : ((gatherKeysByRow groups grid).map
      fun p => (p.2.count key : Int) * weight p.1).length = m := by
    simp [gatherKeysByRow, hrows.length, grid.length_rows]
  rw [hlen]
  refine Finset.sum_congr rfl fun i hi => ?_
  obtain ⟨row, hrow, hsize⟩ := grid.exists_row (Finset.mem_range.mp hi)
  have hlt : i < groups.length := by rw [hrows.length]; exact Finset.mem_range.mp hi
  have hg := getElem?_eq_getElem hlt
  have helem : ((gatherKeysByRow groups grid).map
      fun p => (p.2.count key : Int) * weight p.1).getD i 0
      = ((row.gather groups[i].keys).count key : Int) * weight groups[i] := by
    simp [gatherKeysByRow, getElem?_zipWith, hg, hrow]
  rw [helem, count_gather, hsize, Finset.sum_mul]
  refine Finset.sum_congr rfl fun j _ => ?_
  simp only [cellWeight, hg, Option.elim_some, grid.test_eq hrow]
  split
  · split <;> simp
  · simp

lemma count_gatherKeys (grid : Bitmap2D m n) :
    ((gatherKeys groups grid).count key : Int) = tally (fun _ => 1) groups key grid := by
  rw [← sum_gatherKeysByRow hrows]
  simp only [gatherKeys, count_flatMap, mul_one]
  push_cast
  rw [map_map]
  simp only [Function.comp_def]

/-- The tally of the cells whose key has a property. -/
lemma tally_of_keys {grid : Bitmap2D m n} {p : Key → Bool}
    (h : ∀ i j k, keyAt groups i j = some k → grid.test i j = p k) : tally weight groups key grid
      = (groups.map fun g => if p key = true then (g.keys.count key : Int) * weight g else 0).sum := by
  have hgather : gatherKeysByRow groups grid = groups.map fun g => (g, g.keys.filter p) := by
    refine ext_getElem? fun i => ?_
    rw [gatherKeysByRow, getElem?_zipWith, getElem?_map]
    cases hg : groups[i]? with
    | none => rfl
    | some g =>
      obtain ⟨hi, -⟩ := List.getElem?_eq_some_iff.mp hg
      obtain ⟨row, hrow, hsize⟩ := grid.exists_row (hrows.length ▸ hi)
      have hfilter : row.gather g.keys = g.keys.filter p := by
        refine gather_eq_filter (hsize.trans (hrows.width g (mem_of_getElem? hg)).symm) ?_
        intro j k hk
        rw [← grid.test_eq hrow j]
        exact h i j k (by simp [keyAt, hg, hk])
      simp [hrow, hfilter]
  rw [← sum_gatherKeysByRow hrows, hgather, map_map]
  congr 1
  refine map_congr_left fun g _ => ?_
  by_cases hp : p key
  · simp [hp]
  · have hnot : key ∉ g.keys.filter p := fun hmem => hp (mem_filter.mp hmem).2
    simp [hp, count_eq_zero_of_not_mem hnot]

/-- The keys a full-grid result marks are those of the grid it scatters to. -/
lemma count_gather_flattenedKeys {result : Bitmap} {found : Bitmap2D m n}
    (h : scatterBitmapsFullGlobal result m n = .ok found) :
    ((result.gather (flattenedKeys groups)).count key : Int)
      = tally (fun _ => 1) groups key found := by
  have hsize : result.size = m * n := by
    unfold scatterBitmapsFullGlobal at h
    split at h
    · cases h
    · rename_i hs
      simpa using hs
  have hgrid : ∀ (f : Nat → Int) k, ∑ x ∈ Finset.range (k * n), f x
      = ∑ i ∈ Finset.range k, ∑ j ∈ Finset.range n, f (i * n + j) := by
    intro f k
    induction k with
    | zero => simp
    | succ k ih => rw [Nat.succ_mul, Finset.sum_range_add, ih, Finset.sum_range_succ]
  rw [count_gather, hsize, hgrid]
  refine Finset.sum_congr rfl fun i hi => Finset.sum_congr rfl fun j hj => ?_
  rw [Finset.mem_range] at hi hj
  rw [flattenedKeys_getElem? hrows.width i hj, scatterBitmapsFullGlobal_test h hi hj]
  cases hg : groups[i]? with
  | none => simp [keyAt, cellWeight, hg]
  | some g => simp [keyAt, cellWeight, hg]

end

section

variable (hwidth : ∀ g ∈ groups, g.keys.length = n)
include hwidth

section

variable (hnodup : (flattenedKeys groups).Nodup)
include hnodup

omit [DecidableEq Key] in
/-- Among pairwise distinct keys a key stands in one cell only. -/
lemma keyAt_inj {i j i' j' : Nat} (h : keyAt groups i j = some key)
    (h' : keyAt groups i' j' = some key) : i = i' ∧ j = j' := by
  have hlt : ∀ {i j}, keyAt groups i j = some key → j < n := by
    intro i j h
    obtain ⟨g, hg, hkey⟩ := Option.bind_eq_some_iff.mp h
    rw [← hwidth g (mem_of_getElem? hg)]
    exact (List.getElem?_eq_some_iff.mp hkey).1
  have hj := hlt h
  have hj' := hlt h'
  have heq : i * n + j = i' * n + j' := by
    rw [← flattenedKeys_getElem? hwidth i hj] at h
    rw [← flattenedKeys_getElem? hwidth i' hj'] at h'
    exact (List.getElem?_inj (List.getElem?_eq_some_iff.mp h).1 hnodup).mp (h.trans h'.symm)
  exact cell_inj hj hj' (by omega)

omit [DecidableEq Key] in
/-- Among pairwise distinct keys, taking cells away takes their keys away. -/
lemma mem_gatherKeys_sub {b : Bitmap2D m n} :
    key ∈ gatherKeys groups (a - b) ↔ key ∈ gatherKeys groups a ∧ key ∉ gatherKeys groups b := by
  simp only [mem_gatherKeys, test_sub, Bool.and_eq_true, Bool.not_eq_true']
  constructor
  · rintro ⟨i, j, ⟨ha, hb⟩, hkey⟩
    refine ⟨⟨i, j, ha, hkey⟩, ?_⟩
    rintro ⟨i', j', hb', hkey'⟩
    obtain ⟨rfl, rfl⟩ := keyAt_inj hwidth hnodup hkey hkey'
    rw [hb] at hb'
    cases hb'
  · rintro ⟨⟨i, j, ha, hkey⟩, hb⟩
    exact ⟨i, j, ⟨ha, by simpa using fun hbt => hb ⟨i, j, hbt, hkey⟩⟩, hkey⟩

lemma tally_of_keyAt {i j : Nat} {g : GroupedObjectKeys Key} (hg : groups[i]? = some g)
    (hkey : g.keys[j]? = some key) (grid : Bitmap2D m n) :
    tally weight groups key grid = if grid.test i j = true then weight g else 0 := by
  have hat : keyAt groups i j = some key := by simp [keyAt, hg, hkey]
  have hcell : ∀ i' j', grid.test i' j' →
      cellWeight weight groups key i' j' ≠ 0 → i' = i ∧ j' = j := by
    intro i' j' _ hne
    cases hg' : groups[i']? with
    | none => simp [cellWeight, hg'] at hne
    | some g' =>
      simp only [cellWeight, hg', Option.elim_some] at hne
      split_ifs at hne with hk
      · exact keyAt_inj hwidth hnodup (by simp [keyAt, hg', hk]) hat
      · exact absurd rfl hne
  have hzero : ∀ i' j', ¬ (i' = i ∧ j' = j) →
      (if grid.test i' j' = true then cellWeight weight groups key i' j' else 0) = 0 := by
    intro i' j' hne
    by_cases ht : grid.test i' j'
    · rw [if_pos ht]
      by_contra hw
      exact hne (hcell i' j' ht hw)
    · rw [if_neg ht]
  have hself : cellWeight weight groups key i j = weight g := by simp [cellWeight, hg, hkey]
  by_cases ht : grid.test i j
  · obtain ⟨hi, hj⟩ := lt_of_test ht
    rw [tally, Finset.sum_eq_single_of_mem i (Finset.mem_range.mpr hi),
      Finset.sum_eq_single_of_mem j (Finset.mem_range.mpr hj), hself]
    · exact fun j' _ hne => hzero i j' (fun h => hne h.2)
    · exact fun i' _ hne => Finset.sum_eq_zero fun j' _ => hzero i' j' (fun h => hne h.1)
  · rw [if_neg ht]
    refine Finset.sum_eq_zero fun i' _ => Finset.sum_eq_zero fun j' _ => ?_
    by_cases he : i' = i ∧ j' = j
    · rw [he.1, he.2, if_neg ht]
    · exact hzero i' j' he

end

end

/-- Among pairwise distinct keys a grid gathers no key twice. -/
lemma gatherKeys_nodup (hrows : Rows groups m n) (hnodup : (flattenedKeys groups).Nodup)
    (grid : Bitmap2D m n) : (gatherKeys groups grid).Nodup := by
  rw [nodup_iff_count_le_one]
  intro k
  by_cases hk : k ∈ gatherKeys groups grid
  · obtain ⟨i, j, -, hkey⟩ := mem_gatherKeys.mp hk
    obtain ⟨g, hg, hkeyj⟩ := Option.bind_eq_some_iff.mp hkey
    have hcount : ((gatherKeys groups grid).count k : Int) ≤ 1 := by
      rw [count_gatherKeys hrows, tally_of_keyAt hrows.width hnodup hg hkeyj]
      split <;> decide
    exact_mod_cast hcount
  · rw [count_eq_zero_of_not_mem hk]
    exact Nat.zero_le _

end Tally

end LMCache.StorageControllers
