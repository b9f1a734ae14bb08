/-
LMCache.Native.FoldRanked — folding over one flat bitmap of all ranks.

The flat layout is chunk-major: bit `j * (groups * ranks) + g * ranks + r` is
chunk `j` of object group `g` on rank `r`. There are two implementations of
`fold` and `unfold` over it, the kernels of `fold.cpp` (a rank loop that breaks,
whole cells set as ranges) and the Python reference (`all`, bit by bit); their
loops over groups and chunks are the same, so that loop is one definition with
the presence test as its parameter (`foldPresent`).

Each pair of a group and a rank is a row in the sense of the grouped functions
(`rankCells`), and everything about the flat layout is proved by going over to
these rows: the flat fold is the grouped fold (`nativeFold_eq`), and the rows of
the flat retain mask are the grouped retain rows (`rankCells_nativeUnfold`).
-/
import LMCache.Native.Fold

namespace LMCache.Native

open List Bitmap

/-! ## The loops over groups and chunks -/

/-- The body of the chunk loop, for a presence test. -/
def foldPresent (window : Nat) (present : Nat → Bool) (acc : Nat × List Bool) (j : Nat) :
    Nat × List Bool :=
  let run := if present j then acc.1 + 1 else 0
  (run,
    if acc.2.getD j false && decide (run < min window (j + 1)) then acc.2.set j false else acc.2)

/-- The chunk loop of one group. -/
def foldGroup (numChunks : Nat) (window : Int) (present : Nat → Bool) (servable : List Bool) :
    List Bool :=
  ((List.range numChunks).foldl (foldPresent (effWindow numChunks window) present) (0, servable)).2

/-- `servable_lengths`, set bit by bit. -/
def servableLengths (numChunks : Nat) (servable : List Bool) : Bitmap :=
  (List.range numChunks).foldl (fun b j => if servable.getD j false then b.set j else b)
    (zeros numChunks)

/-- The group loop, with the presence test for chunks of a group. -/
def foldGroups (present : Nat → Nat → Bool) (numChunks : Nat) (groupWindows : List Int) : Bitmap :=
  servableLengths numChunks <|
    groupWindows.zipIdx.foldl (fun servable g => foldGroup numChunks g.1 (present g.2) servable)
      (List.replicate numChunks true)

/-- The first bit of a chunk of a group. -/
def cellBase (numRanks numGroups g j : Nat) : Nat := j * (numGroups * numRanks) + g * numRanks

/-! ## The kernels -/

/-- The rank loop of the kernel, which breaks at the first missing shard. -/
def rankLoop (found : Bitmap) : Nat → Nat → Bool
  | _, 0 => true
  | index, ranks + 1 => if found.test index then rankLoop found (index + 1) ranks else false

section

variable (found : Bitmap)

/-- `fold` of `fold.cpp`. -/
def nativeFold (numChunks numRanks : Nat) (groupWindows : List Int) : Bitmap :=
  foldGroups (fun g j => rankLoop found (cellBase numRanks groupWindows.length g j) numRanks)
    numChunks groupWindows

/-- `unfold` of `fold.cpp`: each retained cell is one range. -/
def nativeUnfold (hitLength numChunks numRanks : Nat) (groupWindows : List Int) : Bitmap :=
  let hitLength := min hitLength numChunks
  let retainMask := zeros (numChunks * (groupWindows.length * numRanks))
  if hitLength = 0 then retainMask
  else
    groupWindows.zipIdx.foldl (fun mask g =>
      let lo := windowStart g.1 hitLength
      (List.range' lo (hitLength - lo)).foldl (fun mask j =>
        let base := cellBase numRanks groupWindows.length g.2 j
        mask.setRange base (base + numRanks)) mask) retainMask

/-! ## The Python reference -/

/-- `_fold_python`. -/
def foldPython (numChunks numRanks : Nat) (groupWindows : List Int) : Bitmap :=
  foldGroups (fun g j => (List.range numRanks).all fun r =>
      found.test (cellBase numRanks groupWindows.length g j + r)) numChunks groupWindows

/-- `unfold_range`. -/
def unfoldRange (prefixLen : Nat) (window : Int) : Nat × Nat :=
  if prefixLen = 0 then (0, 0)
  else (if window ≤ 0 then 0 else (max 0 ((prefixLen : Int) - window)).toNat, prefixLen)

/-- `_unfold_python`. -/
def unfoldPython (hitLength numChunks numRanks : Nat) (groupWindows : List Int) : Bitmap :=
  let hitLength := min hitLength numChunks
  let retainMask := zeros (numChunks * (groupWindows.length * numRanks))
  if hitLength = 0 then retainMask
  else
    groupWindows.zipIdx.foldl (fun mask g =>
      let range := unfoldRange hitLength g.1
      (List.range' range.1 (range.2 - range.1)).foldl (fun mask j =>
        (List.range numRanks).foldl (fun mask r =>
          mask.set (cellBase numRanks groupWindows.length g.2 j + r)) mask) mask) retainMask

/-! ## The public functions -/

/-- The checks of `fold` and `unfold`. -/
def checkRanked (numRanks : Nat) (groupWindows : List Int) : Except ValueError Unit :=
  if numRanks < 1 then .error ⟨s!"num_ranks must be >= 1 (got {numRanks})"⟩
  else if groupWindows.isEmpty then .error ⟨"group_windows must be non-empty"⟩
  else .ok ()

/-- `fold`. -/
def fold (numChunks numRanks : Nat) (groupWindows : List Int) : Except ValueError Bitmap := do
  checkRanked numRanks groupWindows
  return nativeFold found numChunks numRanks groupWindows

/-- `unfold`. -/
def unfold (hitLength numChunks numRanks : Nat) (groupWindows : List Int) :
    Except ValueError Bitmap := do
  checkRanked numRanks groupWindows
  return nativeUnfold hitLength numChunks numRanks groupWindows

/-- `fold`, then `highest_set_bit`, then `unfold`: the hit length and the retain mask. -/
def foldUnfold (numChunks numRanks : Nat) (groupWindows : List Int) :
    Except ValueError (Nat × Bitmap) := do
  let servable ← fold found numChunks numRanks groupWindows
  let hitLength := (servable.highestSetBit + 1).toNat
  let mask ← unfold hitLength numChunks numRanks groupWindows
  return (hitLength, mask)

end

/-! ## Rows of a flat bitmap -/

/-- The row of one group on one rank. -/
def rankRow (flat : Bitmap) (numChunks numRanks numGroups g r : Nat) : Bitmap :=
  ofFn numChunks fun j => flat.test (cellBase numRanks numGroups g j + r)

/-- The rows of a flat bitmap with their windows, rank by rank in each group. -/
def rankCells (flat : Bitmap) (numChunks numRanks : Nat) (groupWindows : List Int) :
    List (Bitmap × Int) :=
  groupWindows.zipIdx.flatMap fun g => (List.range numRanks).map fun r =>
    (rankRow flat numChunks numRanks groupWindows.length g.2 r, g.1)

/-! ## The loops over flat rows -/

section Fold

variable {found : Bitmap} {n numRanks : Nat} {windows : List Int}

lemma rankLoop_eq (found : Bitmap) (index ranks : Nat) :
    rankLoop found index ranks = (range ranks).all fun r => found.test (index + r) := by
  induction ranks generalizing index with
  | zero => rfl
  | succ ranks ih =>
    rw [rankLoop, range_succ_eq_map]
    cases h : found.test index with
    | false => simp [h]
    | true => simp [h, ih, Function.comp_def, add_assoc, add_comm 1]

/-- The row of the chunks that a group has on all ranks. -/
def groupRow (found : Bitmap) (n numRanks numGroups g : Nat) : Bitmap :=
  ofFn n fun j => rankLoop found (cellBase numRanks numGroups g j) numRanks

/-- The chunk loop sees a group as a row. -/
lemma foldGroup_eq_foldRow (window : Int) (present : Nat → Bool) (servable : List Bool) :
    foldGroup n window present servable = foldRow n servable (ofFn n present, window) := by
  unfold foldGroup foldRow
  congr 1
  refine foldl_ext _ _ _ fun acc j hj => ?_
  have htest : (ofFn n present).test j = present j := by
    simp [test_ofFn, mem_range.mp hj]
  simp only [foldPresent, foldChunk, htest]

lemma foldl_set_spec (f : Nat → Bool) (b : Bitmap) (k : Nat) :
    ((range k).foldl (fun b j => if f j then b.set j else b) b).size = b.size ∧
      ∀ i, ((range k).foldl (fun b j => if f j then b.set j else b) b).test i
      = (b.test i || (decide (i < k) && f i && decide (i < b.size))) := by
  induction k with
  | zero => simp
  | succ k ih =>
    obtain ⟨hsize, htest⟩ := ih
    rw [range_succ, foldl_append]
    simp only [foldl_cons, foldl_nil]
    cases hk : f k with
    | false =>
      refine ⟨by simpa using hsize, fun i => ?_⟩
      by_cases hik : i = k
      · subst hik
        simp [htest, hk]
      · have hlt : i < k + 1 ↔ i < k := by omega
        simp [htest, hlt]
    | true =>
      refine ⟨by simpa using hsize, fun i => ?_⟩
      simp only [if_true, test_set, htest, hsize]
      by_cases hik : i = k
      · subst hik
        simp [hk]
      · have hlt : i < k + 1 ↔ i < k := by omega
        simp [hlt, Ne.symm hik]

lemma servableLengths_eq {servable : List Bool} (hlen : servable.length = n) :
    servableLengths n servable = ⟨servable⟩ := by
  obtain ⟨hsize, htest⟩ := foldl_set_spec (servable.getD · false) (zeros n) n
  rw [size_zeros] at hsize
  refine ext_test (hsize.trans hlen.symm) fun i => (htest i).trans ?_
  rw [test_zeros]
  by_cases hi : i < n
  · simp [hi, test]
  · rw [test_eq_false_of_size_le (by rw [size, hlen]; omega)]
    simp [hi]

variable (found n numRanks windows) in
/-- The flat fold marks the lengths that every group serves. -/
lemma test_nativeFold : (nativeFold found n numRanks windows).size = n ∧
      ∀ k, (nativeFold found n numRanks windows).test k ↔ k < n ∧
      ∀ g ∈ windows.zipIdx, Serves g.1 (groupRow found n numRanks windows.length g.2) (k + 1) := by
  have hrows := foldRow_loop n (windows.zipIdx.map fun g =>
    (groupRow found n numRanks windows.length g.2, g.1)) (replicate n true)
    length_replicate
  have heq : nativeFold found n numRanks windows
      = ⟨(windows.zipIdx.map fun g => (groupRow found n numRanks windows.length g.2, g.1)).foldl
          (foldRow n) (replicate n true)⟩ := by
    unfold nativeFold foldGroups
    simp only [foldGroup_eq_foldRow]
    rw [← servableLengths_eq hrows.1, foldl_map]
    rfl
  rw [heq]
  refine ⟨hrows.1, fun k => (hrows.2 k).trans ?_⟩
  rw [forall_mem_map]
  by_cases hk : k < n
  · simp [hk]
  · simp [hk]

/-- A group serves a length iff each of its ranks does. -/
lemma serves_groupRow_iff {window : Int} {g length numGroups : Nat} (hle : length ≤ n) :
    Serves window (groupRow found n numRanks numGroups g) length ↔
      ∀ r < numRanks, Serves window (rankRow found n numRanks numGroups g r) length := by
  simp only [Serves, groupRow, rankRow, test_ofFn, rankLoop_eq, Bool.and_eq_true,
    decide_eq_true_eq, all_eq_true, mem_range]
  exact ⟨fun h r hr j hlo hj => ⟨by omega, (h j hlo hj).2 r hr⟩,
    fun h j hlo hj => ⟨by omega, fun r hr => (h r hr j hlo hj).2⟩⟩

lemma mem_rankCells {p : Bitmap × Int} : p ∈ rankCells found n numRanks windows ↔
    ∃ g ∈ windows.zipIdx, ∃ r < numRanks,
      (rankRow found n numRanks windows.length g.2 r, g.1) = p := by
  simp [rankCells]

lemma size_rankCells : ∀ row ∈ (rankCells found n numRanks windows).map Prod.fst, row.size = n := by
  intro row hrow
  obtain ⟨p, hp, rfl⟩ := mem_map.mp hrow
  obtain ⟨g, -, r, -, rfl⟩ := mem_rankCells.mp hp
  exact size_ofFn n _

/-- There are rows iff there are ranks and groups. -/
lemma rankCells_eq_nil_iff :
    rankCells found n numRanks windows = [] ↔ ¬(1 ≤ numRanks ∧ windows ≠ []) := by
  cases windows with
  | nil => simp [rankCells]
  | cons w ws =>
    cases numRanks with
    | zero => simp [rankCells]
    | succ k => simp [rankCells]

/-- All rows of the flat bitmap serve a length iff all groups do. -/
lemma allServe_rankCells_iff {length : Nat} (hle : length ≤ n) :
    AllServe ((rankCells found n numRanks windows).map Prod.fst)
      ((rankCells found n numRanks windows).map Prod.snd) length ↔ ∀ g ∈ windows.zipIdx,
      Serves g.1 (groupRow found n numRanks windows.length g.2) length := by
  simp only [AllServe, zip_map', map_id', mem_rankCells, serves_groupRow_iff hle]
  constructor
  · intro h g hg r hr
    exact h _ ⟨g, hg, r, hr, rfl⟩
  · rintro h p ⟨g, hg, r, hr, rfl⟩
    exact h g hg r hr

end Fold

/-! ## Retain masks -/

/-- The step keeps the size and sets exactly the bits of `P` that exist. -/
def Marks (step : Bitmap → Bitmap) (P : Nat → Prop) : Prop :=
  ∀ b, (step b).size = b.size ∧ ∀ i, (step b).test i ↔ b.test i ∨ (i < b.size ∧ P i)

lemma marks_set (j : Nat) : Marks (·.set j) (· = j) := by
  intro b
  refine ⟨size_set b j, fun i => ?_⟩
  simp only [test_set, Bool.or_eq_true, Bool.and_eq_true, decide_eq_true_eq]
  rw [and_comm, eq_comm (a := j)]

lemma marks_setRange (lo hi : Nat) : Marks (·.setRange lo hi) (fun i => lo ≤ i ∧ i < hi) := by
  intro b
  simp [test_setRange, and_comm]

/-- A loop of such steps sets what one of them sets. -/
lemma marks_foldl {α : Type} {step : Bitmap → α → Bitmap} {P : α → Nat → Prop} (l : List α)
    (h : ∀ x ∈ l, Marks (step · x) (P x)) :
    Marks (fun b => l.foldl step b) (fun i => ∃ x ∈ l, P x i) := by
  induction l with
  | nil => simp [Marks]
  | cons x l ih =>
    intro b
    obtain ⟨hsize, htest⟩ := h x (by simp) b
    obtain ⟨hsizes, htests⟩ := ih (fun y hy => h y (by simp [hy])) (step b x)
    refine ⟨hsizes.trans hsize, fun i => (htests i).trans ?_⟩
    rw [htest, hsize]
    simp only [mem_cons, exists_eq_or_imp]
    tauto

section Unfold

variable {n numRanks : Nat} {windows : List Int}

/-- A bit of a cell that the retain mask has to keep. -/
def Retained (hitLength numRanks : Nat) (windows : List Int) (i : Nat) : Prop :=
  ∃ g ∈ windows.zipIdx, ∃ j ∈ List.range' (windowStart g.1 hitLength)
      (hitLength - windowStart g.1 hitLength),
    cellBase numRanks windows.length g.2 j ≤ i ∧
      i < cellBase numRanks windows.length g.2 j + numRanks

lemma test_nativeUnfold (hitLength n numRanks : Nat) (windows : List Int) :
    (nativeUnfold hitLength n numRanks windows).size = n * (windows.length * numRanks) ∧
      ∀ i, (nativeUnfold hitLength n numRanks windows).test i ↔
      i < n * (windows.length * numRanks) ∧ Retained (min hitLength n) numRanks windows i := by
  unfold nativeUnfold
  dsimp only
  split_ifs with hzero
  · simp [hzero, Retained]
  · have hmarks := marks_foldl windows.zipIdx
      (fun g _ => marks_foldl (range' (windowStart g.1 (min hitLength n))
          (min hitLength n - windowStart g.1 (min hitLength n)))
        (fun j _ => marks_setRange (cellBase numRanks windows.length g.2 j)
          (cellBase numRanks windows.length g.2 j + numRanks)))
      (zeros (n * (windows.length * numRanks)))
    simpa [Retained] using hmarks

lemma unfoldRange_eq {length : Nat} (h : length ≠ 0) (window : Int) :
    unfoldRange length window = (windowStart window length, length) := by
  simp only [unfoldRange, if_neg h, windowStart]
  congr 1
  split <;> split <;> omega

/-- The reference sets the same bits. -/
lemma unfoldPython_eq_nativeUnfold (hitLength n numRanks : Nat) (windows : List Int) :
    unfoldPython hitLength n numRanks windows = nativeUnfold hitLength n numRanks windows := by
  obtain ⟨hsize, htest⟩ := test_nativeUnfold hitLength n numRanks windows
  unfold unfoldPython
  dsimp only
  split
  · rename_i hzero
    rw [nativeUnfold, if_pos hzero]
  · rename_i hpos
    have hmarks := marks_foldl windows.zipIdx
      (fun g _ => marks_foldl (range' (windowStart g.1 (min hitLength n))
          (min hitLength n - windowStart g.1 (min hitLength n)))
        (fun j _ => marks_foldl (range numRanks)
          (fun r _ => marks_set (cellBase numRanks windows.length g.2 j + r))))
      (zeros (n * (windows.length * numRanks)))
    simp only [unfoldRange_eq hpos]
    refine ext_test (hmarks.1.trans ?_) fun i => ?_
    · rw [hsize, size_zeros]
    · rw [Bool.eq_iff_iff]
      refine (hmarks.2 i).trans (Iff.trans ?_ (htest i).symm)
      simp only [test_zeros, size_zeros, Bool.false_eq_true, false_or]
      refine and_congr_right fun _ => exists_congr fun g => and_congr_right fun _ =>
        exists_congr fun j => and_congr_right fun _ => ?_
      constructor
      · rintro ⟨r, hr, rfl⟩
        rw [mem_range] at hr
        omega
      · rintro ⟨hlo, hhi⟩
        exact ⟨i - cellBase numRanks windows.length g.2 j, mem_range.mpr (by omega), by omega⟩

lemma eq_of_mul_add_eq {a b r r' k : Nat} (hr : r < k) (hr' : r' < k)
    (h : a * k + r = b * k + r') : a = b ∧ r = r' := by
  have hdiv := congrArg (· / k) h
  have hpos : 0 < k := by omega
  simp only [mul_comm _ k, Nat.mul_add_div hpos, Nat.div_eq_of_lt hr, Nat.div_eq_of_lt hr',
    add_zero] at hdiv
  subst hdiv
  omega

lemma cellBase_inj {numGroups g g' r r' j j' : Nat} (hg : g < numGroups) (hg' : g' < numGroups)
    (hr : r < numRanks) (hr' : r' < numRanks)
    (h : cellBase numRanks numGroups g j + r = cellBase numRanks numGroups g' j' + r') :
    g = g' ∧ j = j' ∧ r = r' := by
  have hbase : ∀ g j, cellBase numRanks numGroups g j = (j * numGroups + g) * numRanks := by
    intro g j
    rw [cellBase, Nat.add_mul, Nat.mul_assoc]
  rw [hbase, hbase] at h
  obtain ⟨hcell, hrank⟩ := eq_of_mul_add_eq hr hr' h
  obtain ⟨hchunk, hgroup⟩ := eq_of_mul_add_eq hg hg' hcell
  exact ⟨hgroup, hchunk, hrank⟩

lemma cellBase_lt {numGroups g r j : Nat} (hg : g < numGroups) (hr : r < numRanks) (hj : j < n) :
    cellBase numRanks numGroups g j + r < n * (numGroups * numRanks) := by
  have hgroup : (g + 1) * numRanks ≤ numGroups * numRanks := Nat.mul_le_mul_right _ hg
  have hchunk : (j + 1) * (numGroups * numRanks) ≤ n * (numGroups * numRanks) :=
    Nat.mul_le_mul_right _ hj
  simp only [Nat.add_mul] at hgroup hchunk
  unfold cellBase
  omega

/-- In the cell of a group and a rank the mask is the retain row of the group. -/
lemma rankRow_nativeUnfold {hitLength r : Nat} (hle : hitLength ≤ n) {g : Int × Nat}
    (hg : g ∈ windows.zipIdx) (hr : r < numRanks) :
    rankRow (nativeUnfold hitLength n numRanks windows) n numRanks windows.length g.2 r
      = unfoldRow hitLength n g.1 := by
  obtain ⟨-, htest⟩ := test_nativeUnfold hitLength n numRanks windows
  have hlen : g.2 < windows.length := (mem_zipIdx' hg).1
  refine ext_test (by simp [rankRow]) fun j => ?_
  rw [Bool.eq_iff_iff, unfoldRow_test hle, rankRow, test_ofFn, Bool.and_eq_true, htest,
    Nat.min_eq_left hle, decide_eq_true_eq]
  constructor
  · rintro ⟨hj, -, g', hg', j', hj', hlo, hhi⟩
    have hlen' : g'.2 < windows.length := (mem_zipIdx' hg').1
    obtain ⟨r', hr'⟩ := Nat.exists_eq_add_of_le hlo
    obtain ⟨hgroup, hchunk, -⟩ := cellBase_inj hlen hlen' hr (by omega : r' < numRanks) hr'
    have hwindow : g.1 = g'.1 := by
      rw [(mem_zipIdx' hg).2, (mem_zipIdx' hg').2]
      simp only [hgroup]
    rw [hwindow]
    rw [mem_range'_1] at hj'
    omega
  · rintro ⟨hlo, hhi⟩
    exact ⟨by omega, cellBase_lt hlen hr (by omega), g, hg, j,
      mem_range'_1.mpr (by omega), by omega, by omega⟩

/-- The rows of the mask, with their windows. -/
lemma rankCells_nativeUnfold {hitLength : Nat} (hle : hitLength ≤ n) (found : Bitmap) :
    (rankCells (nativeUnfold hitLength n numRanks windows) n numRanks windows).map Prod.fst
      = ((rankCells found n numRanks windows).map Prod.snd).map (unfoldRow hitLength n) := by
  simp only [rankCells, map_flatMap, map_map]
  refine flatMap_congr fun g hg => ?_
  refine map_congr_left fun r hr => ?_
  exact rankRow_nativeUnfold hle hg (mem_range.mp hr)

end Unfold

/-! ## Flat and grouped -/

section Agreement

variable {found : Bitmap} {n numRanks : Nat} {windows : List Int}

variable (found n numRanks windows) in
/-- The length that `highest_set_bit` reads off the flat fold. -/
lemma hitLength_spec :
    ∃ hitLength, ((nativeFold found n numRanks windows).highestSetBit + 1).toNat = hitLength ∧
      hitLength ≤ n ∧ (∀ g ∈ windows.zipIdx,
      Serves g.1 (groupRow found n numRanks windows.length g.2) hitLength) ∧
      ∀ length ≤ n, (∀ g ∈ windows.zipIdx,
      Serves g.1 (groupRow found n numRanks windows.length g.2) length) → length ≤ hitLength := by
  obtain ⟨-, hiff⟩ := test_nativeFold found n numRanks windows
  obtain ⟨h, hh, habove, hbelow⟩ := (nativeFold found n numRanks windows).highestSetBit_spec
  refine ⟨h, by omega, ?_, ?_, fun length hle hall => ?_⟩
  · by_cases h0 : 0 < h
    · have := ((hiff (h - 1)).mp (hbelow h0)).1
      omega
    · omega
  · by_cases h0 : 0 < h
    · have hserves := ((hiff (h - 1)).mp (hbelow h0)).2
      rwa [Nat.sub_add_cancel h0] at hserves
    · rw [Nat.eq_zero_of_not_pos h0]
      exact fun g _ j _ hj => absurd hj (Nat.not_lt_zero j)
  · by_contra hgt
    have hset := (hiff (length - 1)).mpr ⟨by omega, by rwa [Nat.sub_add_cancel (by omega)]⟩
    rw [habove (length - 1) (by omega)] at hset
    cases hset

lemma foldUnfold_ok (hranks : 1 ≤ numRanks) (hwindows : windows ≠ []) :
    foldUnfold found n numRanks windows
      = .ok (((nativeFold found n numRanks windows).highestSetBit + 1).toNat,
      nativeUnfold ((nativeFold found n numRanks windows).highestSetBit + 1).toNat n numRanks
      windows) := by
  have hcheck : checkRanked numRanks windows = .ok () := by
    simp [checkRanked, hwindows]
    omega
  simp [foldUnfold, fold, unfold, hcheck, bind, Except.bind, pure, Except.pure]

/-- A retained cell is present when the rows serve the length. -/
lemma found_of_retained {hitLength i : Nat} (hle : hitLength ≤ n) (hserves : ∀ g ∈ windows.zipIdx,
      Serves g.1 (groupRow found n numRanks windows.length g.2) hitLength)
    (hi : Retained hitLength numRanks windows i) : found.test i := by
  obtain ⟨g, hg, j, hj, hlo, hhi⟩ := hi
  obtain ⟨r, rfl⟩ := Nat.exists_eq_add_of_le hlo
  rw [mem_range'_1] at hj
  have hrow := (serves_groupRow_iff hle).mp (hserves g hg) r (by omega) j hj.1 (by omega)
  rw [rankRow, test_ofFn, Bool.and_eq_true] at hrow
  exact hrow.2

/-- The flat bitmap of rows that are one rank each. -/
def flatten (n : Nat) (rows : List Bitmap) : Bitmap :=
  ofFn (n * rows.length) fun i => (rows.getD (i % rows.length) (.zeros n)).test (i / rows.length)

lemma rankRow_flatten {rows : List Bitmap} (hsize : ∀ row ∈ rows, row.size = n) {g : Nat}
    (hg : g < rows.length) : rankRow (flatten n rows) n 1 rows.length g 0 = rows.get ⟨g, hg⟩ := by
  have hrow : (rows.get ⟨g, hg⟩).size = n := hsize _ (get_mem rows _)
  refine ext_test ((size_ofFn n _).trans hrow.symm) fun j => ?_
  by_cases hj : j < n
  · have hindex : cellBase 1 rows.length g j + 0 = rows.length * j + g := by
      simp [cellBase, mul_comm]
    have hlt : rows.length * j + g < n * rows.length := by
      have := Nat.mul_le_mul_right rows.length hj
      rw [Nat.succ_mul, mul_comm] at this
      omega
    have hmod : (rows.length * j + g) % rows.length = g := by
      rw [Nat.mul_add_mod, Nat.mod_eq_of_lt hg]
    have hdiv : (rows.length * j + g) / rows.length = j := by
      rw [Nat.mul_add_div (by omega), Nat.div_eq_of_lt hg, add_zero]
    rw [rankRow, test_ofFn, hindex, flatten, test_ofFn, hmod, hdiv]
    simp [hj, hlt, hg]
  · rw [test_eq_false_of_size_le (by simp [rankRow]; omega),
      test_eq_false_of_size_le (by omega)]

/-- Every grouped input is the rows of a flat bitmap. -/
lemma rankCells_flatten {rows : List Bitmap} (hlen : rows.length = windows.length)
    (hsize : ∀ row ∈ rows, row.size = n) :
    (rankCells (flatten n rows) n 1 windows).map Prod.fst = rows ∧
      (rankCells (flatten n rows) n 1 windows).map Prod.snd = windows := by
  have hcells : rankCells (flatten n rows) n 1 windows = windows.zipIdx.map fun g =>
      (rankRow (flatten n rows) n 1 windows.length g.2 0, g.1) := by
    rw [map_eq_flatMap]
    rfl
  rw [hcells, map_map, map_map]
  constructor
  · refine ext_getElem (by simp [hlen]) fun g hg hg' => ?_
    simpa [← hlen] using rankRow_flatten hsize hg'
  · exact zipIdx_map_fst 0 windows

/-- The two implementations over the flat layout are one function. Where the
arguments are accepted, the flat and the grouped functions give the same length
and the same cells: the longest prefix for which every row has the chunks it
needs, and only cells that are present; where not, both raise. Every grouped
input is covered. -/
theorem implementations_agree (found : Bitmap) (n numRanks : Nat) (windows : List Int) :
    (foldPython found n numRanks windows = nativeFold found n numRanks windows ∧
      ∀ hitLength, unfoldPython hitLength n numRanks windows
      = nativeUnfold hitLength n numRanks windows) ∧
      (1 ≤ numRanks ∧ windows ≠ [] → ∃ hitLength mask,
      foldUnfold found n numRanks windows = .ok (hitLength, mask) ∧
      foldUnfoldGrouped ((rankCells found n numRanks windows).map Prod.fst)
      ((rankCells found n numRanks windows).map Prod.snd)
      = .ok (hitLength, (rankCells mask n numRanks windows).map Prod.fst) ∧ hitLength ≤ n ∧
      AllServe ((rankCells found n numRanks windows).map Prod.fst)
      ((rankCells found n numRanks windows).map Prod.snd) hitLength ∧
      (∀ length ≤ n, AllServe ((rankCells found n numRanks windows).map Prod.fst)
      ((rankCells found n numRanks windows).map Prod.snd) length → length ≤ hitLength) ∧
      ∀ i, mask.test i → found.test i) ∧
      (¬(1 ≤ numRanks ∧ windows ≠ []) → (∃ e, foldUnfold found n numRanks windows = .error e) ∧
      ∃ e, foldUnfoldGrouped ((rankCells found n numRanks windows).map Prod.fst)
      ((rankCells found n numRanks windows).map Prod.snd) = .error e) ∧
      ∀ rows : List Bitmap, rows.length = windows.length → (∀ row ∈ rows, row.size = n) →
      ∃ flat, (rankCells flat n 1 windows).map Prod.fst = rows ∧
      (rankCells flat n 1 windows).map Prod.snd = windows := by
  -- the breaking loop of the Python fold and the native test agree by `rankLoop_eq`
  refine ⟨⟨by simp only [foldPython, nativeFold, rankLoop_eq],
    fun _ => unfoldPython_eq_nativeUnfold ..⟩, ?_, ?_,
    fun rows hlen hsize => ⟨flatten n rows, rankCells_flatten hlen hsize⟩⟩
  · rintro ⟨hranks, hwindows⟩
    obtain ⟨hit, hhit, hle, hserves, hmax⟩ := hitLength_spec found n numRanks windows
    have hne : (rankCells found n numRanks windows).map Prod.fst ≠ [] := by
      rw [Ne, List.map_eq_nil_iff, rankCells_eq_nil_iff]
      exact not_not.mpr ⟨hranks, hwindows⟩
    have hlen : ((rankCells found n numRanks windows).map Prod.fst).length
        = ((rankCells found n numRanks windows).map Prod.snd).length := by simp
    obtain ⟨hit', hgrouped, hle', hserves', hmax'⟩ := foldUnfoldGrouped_spec hne hlen size_rankCells
    have hsame : hit' = hit :=
      Nat.le_antisymm (hmax hit' hle' ((allServe_rankCells_iff hle').mp hserves'))
        (hmax' hit hle ((allServe_rankCells_iff hle).mpr hserves))
    subst hsame
    refine ⟨hit', nativeUnfold hit' n numRanks windows, ?_, ?_, hle', hserves', hmax', fun i hi => ?_⟩
    · rw [foldUnfold_ok hranks hwindows, hhit]
    · rw [hgrouped, rankCells_nativeUnfold hle' found]
    · have hretained := ((test_nativeUnfold hit' n numRanks windows).2 i).mp hi
      rw [Nat.min_eq_left hle'] at hretained
      exact found_of_retained hle' hserves hretained.2
  · intro hbad
    rw [rankCells_eq_nil_iff.mpr hbad]
    refine ⟨?_, _, rfl⟩
    have hcheck : ∃ e, checkRanked numRanks windows = .error e := by
      unfold checkRanked
      split
      · exact ⟨_, rfl⟩
      · have hempty : windows = [] := by
          by_contra hne
          exact hbad ⟨by omega, hne⟩
        rw [hempty]
        exact ⟨_, rfl⟩
    obtain ⟨e, he⟩ := hcheck
    simp [foldUnfold, fold, he, bind, Except.bind]

end Agreement

end LMCache.Native
