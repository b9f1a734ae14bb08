/-
LMCache.StorageControllers.MapState — grids of cells, and maps of grids.

Row `i` of a grid is key group `i` of a prefetch request, column `j` is chunk
`j`. The source checks at run time that two grids have one shape before it
combines them; here the shape is part of the type, so grids of different
shapes cannot be combined at all. A `MapState` holds one grid per L1 manager
or L2 adapter index; `has` is its meaning, a set of (index, cell) pairs, and
every operation is stated as the operation on that set.
-/
import LMCache.Lib.Dict
import LMCache.Native.Fold

namespace LMCache.StorageControllers

open List Lib Native Bitmap Dict

/-! ## Grids -/

/-- `class Bitmap2D`, with its shape. -/
structure Bitmap2D (numRows numCols : Nat) where
  rows : List Bitmap
  length_rows : rows.length = numRows
  size_rows : ∀ row ∈ rows, row.size = numCols

namespace Bitmap2D

variable {m n : Nat}

/-- The bit in row `i` and column `j`. -/
def test (g : Bitmap2D m n) (i j : Nat) : Bool := (g.rows.getD i (.zeros 0)).test j

/-- `Bitmap2D.zeros`, also `zeros_like`. -/
def zeros (m n : Nat) : Bitmap2D m n :=
  ⟨replicate m (.zeros n), length_replicate, by
    intro row h
    rw [eq_of_mem_replicate h, size_zeros]⟩

variable {f : Bitmap → Bitmap → Bitmap}

lemma size_zipWith (hf : ∀ a b : Bitmap, a.size = n → b.size = n → (f a b).size = n)
    {as bs : List Bitmap} (has : ∀ a ∈ as, a.size = n) (hbs : ∀ b ∈ bs, b.size = n) :
    ∀ c ∈ zipWith f as bs, c.size = n := by
  intro c hc
  rw [mem_iff_getElem?] at hc
  obtain ⟨i, hi⟩ := hc
  rw [getElem?_zipWith_eq_some] at hi
  obtain ⟨a, b, ha, hb, rfl⟩ := hi
  exact hf a b (has a (mem_of_getElem? ha)) (hbs b (mem_of_getElem? hb))

variable (f) in
/-- Combine two grids row by row. -/
def zipRows (hf : ∀ a b : Bitmap, a.size = n → b.size = n → (f a b).size = n) (g h : Bitmap2D m n) :
    Bitmap2D m n :=
  ⟨zipWith f g.rows h.rows, by simp [g.length_rows, h.length_rows],
    size_zipWith hf g.size_rows h.size_rows⟩

lemma size_or_row (a b : Bitmap) (ha : a.size = n) (hb : b.size = n) : (a.or b).size = n := by
  simp [ha, hb]

lemma size_and_row (a b : Bitmap) (ha : a.size = n) (hb : b.size = n) : (a.and b).size = n := by
  simp [ha, hb]

lemma size_sub_row (a b : Bitmap) (ha : a.size = n) (hb : b.size = n) : (a.and b.not).size = n := by
  simp [ha, hb]

/-- `__add__`: the union. -/
def add (g h : Bitmap2D m n) : Bitmap2D m n := zipRows or size_or_row g h

/-- `__sub__`: the bits of `g` that are not in `h`. -/
def sub (g h : Bitmap2D m n) : Bitmap2D m n :=
  zipRows (fun a b => a.and b.not) size_sub_row g h

/-- `__and__`: the intersection. -/
def and (g h : Bitmap2D m n) : Bitmap2D m n := zipRows Bitmap.and size_and_row g h

instance : Add (Bitmap2D m n) := ⟨add⟩
instance : Sub (Bitmap2D m n) := ⟨sub⟩

/-- `popcount()`. -/
def popcount (g : Bitmap2D m n) : Nat := (g.rows.map Bitmap.popcount).sum

/-- `ret[row].set(col)`. -/
def set (g : Bitmap2D m n) (i j : Nat) : Bitmap2D m n :=
  ⟨g.rows.modify i (·.set j), by simp [g.length_rows], by
    intro row h
    rw [mem_iff_getElem?] at h
    obtain ⟨k, hk⟩ := h
    rw [getElem?_modify, Option.map_eq_map, Option.map_eq_some_iff] at hk
    obtain ⟨old, hold, rfl⟩ := hk
    have hsize := g.size_rows old (mem_of_getElem? hold)
    split
    · simpa using hsize
    · exact hsize⟩

variable {i : Nat} (g : Bitmap2D m n)

lemma test_eq {row : Bitmap} (h : g.rows[i]? = some row) (j : Nat) : g.test i j = row.test j := by
  simp [test, h]

lemma test_eq_false_of_le (h : m ≤ i) (j : Nat) : g.test i j = false := by
  have hnone : g.rows[i]? = none := getElem?_eq_none (by rw [g.length_rows]; exact h)
  simp [test, hnone]

lemma exists_row (h : i < m) : ∃ row, g.rows[i]? = some row ∧ row.size = n := by
  have hlt : i < g.rows.length := by rw [g.length_rows]; exact h
  refine ⟨g.rows[i], getElem?_eq_getElem hlt, g.size_rows _ (getElem_mem hlt)⟩

lemma lt_of_test {g : Bitmap2D m n} {j : Nat} (h : g.test i j) : i < m ∧ j < n := by
  by_cases hi : i < m
  · obtain ⟨row, hrow, hsize⟩ := g.exists_row hi
    rw [g.test_eq hrow] at h
    exact ⟨hi, hsize ▸ lt_size_of_test h⟩
  · rw [g.test_eq_false_of_le (Nat.le_of_not_lt hi)] at h
    cases h

lemma ext_test {g h : Bitmap2D m n} (hgh : ∀ i j, g.test i j = h.test i j) : g = h := by
  obtain ⟨gs, hgl, hgs⟩ := g
  obtain ⟨hs, hhl, hhs⟩ := h
  congr 1
  refine ext_getElem (hgl.trans hhl.symm) fun i hi hi' => ?_
  refine Bitmap.ext_test ((hgs _ (getElem_mem hi)).trans (hhs _ (getElem_mem hi')).symm)
    fun j => ?_
  have hij := hgh i j
  rwa [test_eq _ (getElem?_eq_getElem hi), test_eq _ (getElem?_eq_getElem hi')] at hij

@[simp] lemma test_zeros (i j : Nat) : (zeros m n).test i j = false := by
  simp only [test, zeros, getD_eq_getElem?_getD, getElem?_replicate]
  split <;> simp

lemma test_zipRows (hf : ∀ a b : Bitmap, a.size = n → b.size = n → (f a b).size = n)
    (op : Bool → Bool → Bool) (hop : ∀ a b : Bitmap, a.size = n → b.size = n → ∀ j, j < n →
      (f a b).test j = op (a.test j) (b.test j)) (hfalse : op false false = false)
    (g h : Bitmap2D m n) (i j : Nat) :
    (zipRows f hf g h).test i j = op (g.test i j) (h.test i j) := by
  by_cases hi : i < m
  · obtain ⟨row, hrow, hsize⟩ := g.exists_row hi
    obtain ⟨row', hrow', hsize'⟩ := h.exists_row hi
    have hz : (zipRows f hf g h).rows[i]? = some (f row row') := by
      simp [zipRows, getElem?_zipWith, hrow, hrow']
    rw [test_eq _ hz, test_eq _ hrow, test_eq _ hrow']
    by_cases hj : j < n
    · exact hop row row' hsize hsize' j hj
    · have hout := hf row row' hsize hsize'
      rw [test_eq_false_of_size_le (by omega), test_eq_false_of_size_le (by omega),
        test_eq_false_of_size_le (by omega), hfalse]
  · have hi := Nat.le_of_not_lt hi
    rw [test_eq_false_of_le _ hi, test_eq_false_of_le _ hi, test_eq_false_of_le _ hi, hfalse]

@[simp] lemma test_add (h : Bitmap2D m n) (i j : Nat) :
    (g + h).test i j = (g.test i j || h.test i j) :=
  test_zipRows size_or_row or (fun _ _ ha hb j _ => test_or (ha.trans hb.symm) j) rfl g h i j

@[simp] lemma test_sub (h : Bitmap2D m n) (i j : Nat) :
    (g - h).test i j = (g.test i j && !h.test i j) :=
  test_zipRows size_sub_row (fun a b => a && !b)
    (fun a b _ hb j hj => by rw [test_and, test_not (hb ▸ hj)]) rfl g h i j

@[simp] lemma test_and (h : Bitmap2D m n) (i j : Nat) :
    (g.and h).test i j = (g.test i j && h.test i j) :=
  test_zipRows size_and_row Bool.and (fun a b _ _ j _ => Bitmap.test_and a b j) rfl g h i j

lemma test_set (i j k l : Nat) : (g.set i j).test k l
      = (g.test k l || (decide (i = k) && decide (j = l) && decide (k < m) && decide (l < n))) := by
  by_cases hk : k < m
  · obtain ⟨row, hrow, hsize⟩ := g.exists_row hk
    by_cases hik : i = k
    · subst hik
      have hset : (g.set i j).rows[i]? = some (row.set j) := by
        simp [set, hrow]
      rw [test_eq _ hset, test_eq _ hrow, Bitmap.test_set, hsize]
      simp [hk]
    · have hset : (g.set i j).rows[k]? = some row := by
        simp [set, hrow, hik]
      rw [test_eq _ hset, test_eq _ hrow]
      simp [hik]
  · rw [test_eq_false_of_le _ (Nat.le_of_not_lt hk), test_eq_false_of_le _ (Nat.le_of_not_lt hk)]
    simp [hk]

lemma popcount_eq_zero_iff {g : Bitmap2D m n} : g.popcount = 0 ↔ ∀ i j, g.test i j = false := by
  simp only [popcount, List.sum_eq_zero_iff_forall_eq_nat, List.mem_map, forall_exists_index,
    and_imp, forall_apply_eq_imp_iff₂, Bitmap.popcount_eq_zero_iff]
  constructor
  · intro h i j
    by_cases hi : i < m
    · obtain ⟨row, hrow, -⟩ := g.exists_row hi
      rw [g.test_eq hrow]
      exact h row (List.mem_of_getElem? hrow) j
    · exact g.test_eq_false_of_le (Nat.le_of_not_lt hi) j
  · intro h row hrow j
    obtain ⟨i, hi⟩ := List.mem_iff_getElem?.mp hrow
    rw [← g.test_eq hi]
    exact h i j

/-- `Bitmap2D(all_grouped(rows))`: the columns set in every row. -/
def wholeColumns (g : Bitmap2D m n) : Bitmap2D m n :=
  ⟨allGrouped g.rows, (length_allGrouped g.rows).trans g.length_rows,
    fun row h => (allGrouped_spec g.size_rows row h).1⟩

/-- A cell of a whole column is set. -/
lemma test_of_wholeColumns {g : Bitmap2D m n} {j : Nat} (h : g.wholeColumns.test i j) :
    g.test i j := by
  obtain ⟨hi, -⟩ := lt_of_test h
  obtain ⟨row, hrow, -⟩ := g.exists_row hi
  obtain ⟨c, hc, -⟩ := g.wholeColumns.exists_row hi
  rw [test_eq _ hc] at h
  rw [test_eq _ hrow]
  exact ((allGrouped_spec g.size_rows c (mem_of_getElem? hc)).2 j).mp h row (mem_of_getElem? hrow)

end Bitmap2D

/-! ## Maps -/

/-- `class MapState`: index to grid, in insertion order. -/
structure MapState (numRows numCols : Nat) where
  state : Dict Nat (Bitmap2D numRows numCols)

namespace MapState

variable {m n : Nat}

instance : EmptyCollection (MapState m n) := ⟨⟨∅⟩⟩
instance : Membership Nat (MapState m n) := ⟨fun s idx => idx ∈ s.state⟩

instance (s : MapState m n) (idx : Nat) : Decidable (idx ∈ s) :=
  inferInstanceAs (Decidable (idx ∈ s.state))

section

variable (s : MapState m n) (idx : Nat)

/-- Whether `idx` holds the cell. -/
def has (i j : Nat) : Bool :=
  (s.state.get? idx).any (·.test i j)

/-- `s[idx] = grid`. -/
def set (grid : Bitmap2D m n) : MapState m n :=
  ⟨s.state.set idx grid⟩

/-- `del s[idx]`. -/
def erase : MapState m n := ⟨s.state.erase idx⟩

/-- Add cells to those of `idx`. -/
def addCells (cells : Bitmap2D m n) : MapState m n :=
  s.set idx (match s.state.get? idx with
    | some grid => grid + cells
    | none => cells)

/-- The grid of `idx`, all zeros when there is none. -/
def grid : Bitmap2D m n := (s.state.get? idx).getD (.zeros m n)

/-- `items()`. -/
def items : List (Nat × Bitmap2D m n) := s.state.entries

/-- `merge()`: the union over all indices. -/
def merge : Bitmap2D m n := s.state.values.foldl (· + ·) (.zeros m n)

/-- `__sub__`: every grid of `s` without the bits `t` has at its index. -/
def sub (t : MapState m n) : MapState m n :=
  ⟨s.state.mapValues fun idx grid => grid - t.grid idx⟩

end

instance : Sub (MapState m n) := ⟨sub⟩

variable (s : MapState m n) (idx idx' i j : Nat)

lemma grid_test : (s.grid idx).test i j = s.has idx i j := by
  simp only [grid, has]
  cases s.state.get? idx <;> simp

lemma sum_items (f : Bitmap2D m n → Int) (hzero : f (.zeros m n) = 0) :
    (s.items.map fun item => if idx = item.1 then f item.2 else 0).sum = f (s.grid idx) := by
  rw [items, sum_entries, grid]
  cases s.state.get? idx with
  | none => exact hzero.symm
  | some g => rfl

lemma any_items (p : Bitmap2D m n → Bool) (hzero : p (.zeros m n) = false) :
    (s.items.any fun item => decide (idx = item.1) && p item.2) = p (s.grid idx) := by
  rw [Bool.eq_iff_iff, any_eq_true]
  simp only [Bool.and_eq_true, decide_eq_true_eq, Prod.exists, items, mem_entries, grid]
  constructor
  · rintro ⟨idx', g, hg, rfl, hp⟩
    simpa [hg] using hp
  · intro h
    cases hg : s.state.get? idx with
    | none => simp [hg, hzero] at h
    | some g => exact ⟨idx, g, hg, rfl, by simpa [hg] using h⟩

lemma mem_of_has {s : MapState m n} {idx i j : Nat} (h : s.has idx i j) : idx ∈ s := by
  cases hg : s.state.get? idx with
  | none => simp [has, hg] at h
  | some g => exact mem_iff_get?.mpr ⟨g, hg⟩

lemma has_iff_items {s : MapState m n} {idx i j : Nat} :
    s.has idx i j ↔ ∃ g, (idx, g) ∈ s.items ∧ g.test i j := by
  simp [has, items, mem_entries, Option.any_eq_true]

@[simp] lemma has_empty : (∅ : MapState m n).has idx i j = false := rfl

lemma has_set (g : Bitmap2D m n) :
    (s.set idx g).has idx' i j = if idx' = idx then g.test i j else s.has idx' i j := by
  simp only [has, set, get?_set]
  split <;> rfl

lemma has_erase : (s.erase idx).has idx' i j = if idx' = idx then false else s.has idx' i j := by
  simp only [has, erase, get?_erase]
  split <;> rfl

@[simp] lemma grid_empty : (∅ : MapState m n).grid idx = .zeros m n := rfl

lemma grid_set (g : Bitmap2D m n) :
    (s.set idx g).grid idx' = if idx' = idx then g else s.grid idx' := by
  simp only [grid, set, get?_set]
  split <;> rfl

lemma grid_erase : (s.erase idx).grid idx' = if idx' = idx then .zeros m n else s.grid idx' := by
  simp only [grid, erase, get?_erase]
  split <;> rfl

lemma has_addCells (cells : Bitmap2D m n) : (s.addCells idx cells).has idx' i j
      = (s.has idx' i j || (decide (idx' = idx) && cells.test i j)) := by
  rw [addCells, has_set]
  by_cases hidx : idx' = idx
  · subst hidx
    cases hget : s.state.get? idx' with
    | none => simp [has, hget]
    | some grid => simp [has, hget]
  · simp [hidx]

lemma grid_addCells (cells : Bitmap2D m n) :
    (s.addCells idx cells).grid idx' = if idx' = idx then s.grid idx + cells else s.grid idx' := by
  refine Bitmap2D.ext_test fun i j => ?_
  rw [grid_test, has_addCells]
  split_ifs with hidx
  · simp [hidx, grid_test]
  · simp [hidx, grid_test]

lemma mem_set {s : MapState m n} {idx idx' : Nat} {g : Bitmap2D m n} :
    idx' ∈ s.set idx g ↔ idx' = idx ∨ idx' ∈ s := Dict.mem_set

lemma mem_erase {s : MapState m n} {idx idx' : Nat} :
    idx' ∈ s.erase idx ↔ idx' ≠ idx ∧ idx' ∈ s := Dict.mem_erase

@[simp] lemma has_sub (t : MapState m n) (idx i j : Nat) :
    (s - t).has idx i j = (s.has idx i j && !t.has idx i j) := by
  show (sub s t).has idx i j = _
  simp only [has, sub, get?_mapValues]
  cases s.state.get? idx with
  | none => rfl
  | some g => simp [grid_test, has]

lemma grid_sub (t : MapState m n) (idx : Nat) : (s - t).grid idx = s.grid idx - t.grid idx :=
  Bitmap2D.ext_test fun i j => by
    rw [grid_test, has_sub, Bitmap2D.test_sub, grid_test, grid_test]

lemma foldl_add_test (gs : List (Bitmap2D m n)) (g : Bitmap2D m n) (i j : Nat) :
    (gs.foldl (· + ·) g).test i j ↔ g.test i j ∨ ∃ h ∈ gs, h.test i j := by
  induction gs generalizing g with
  | nil => simp
  | cons h gs ih =>
    rw [foldl_cons, ih, Bitmap2D.test_add, Bool.or_eq_true]
    simp only [mem_cons, exists_eq_or_imp, or_assoc]

lemma merge_test : s.merge.test i j ↔ ∃ idx, s.has idx i j := by
  rw [merge, foldl_add_test]
  simp only [Bitmap2D.test_zeros, Bool.false_eq_true, false_or, mem_values, has]
  constructor
  · rintro ⟨g, ⟨idx, hg⟩, ht⟩
    exact ⟨idx, by simp [hg, ht]⟩
  · rintro ⟨idx, h⟩
    obtain ⟨g, hg, ht⟩ := (Option.any_eq_true _ _).mp h
    exact ⟨g, ⟨idx, hg⟩, ht⟩

end MapState

end LMCache.StorageControllers
