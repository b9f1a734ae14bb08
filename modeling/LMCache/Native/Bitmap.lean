/-
LMCache.Native.Bitmap — the native `Bitmap` as a vector of bits.

The C++ class packs the bits into bytes; what its callers see is a vector of
`size` booleans, and that vector is what is modelled here. `test` beyond the
size is false and `set` beyond it does nothing, as in `bitmap.cpp`; a binary
operation truncates to the smaller size.
-/
import Mathlib.Algebra.BigOperators.Fin

namespace LMCache.Native

open List

/-- `class Bitmap`. -/
structure Bitmap where
  bits : List Bool
  deriving DecidableEq, Repr

namespace Bitmap

section

variable (b : Bitmap)

/-- `size()`, also `len(bitmap)`. -/
def size : Nat := b.bits.length

/-- `Bitmap(size)`. -/
def zeros (size : Nat) : Bitmap := ⟨replicate size false⟩

/-- `Bitmap(size, size)`. -/
def ones (size : Nat) : Bitmap := ⟨replicate size true⟩

/-- `test(index)`. -/
def test (index : Nat) : Bool := b.bits.getD index false

/-- `set(index)`. -/
def set (index : Nat) : Bitmap := ⟨b.bits.set index true⟩

/-- `set_range(start, end)`. -/
def setRange (start stop : Nat) : Bitmap :=
  ⟨b.bits.mapIdx fun i bit => bit || (decide (start ≤ i) && decide (i < stop))⟩

/-- `popcount()`. -/
def popcount : Nat := b.bits.count true

/-- `get_indices()`, in ascending order. -/
def getIndices : List Nat := (range b.size).filter b.test

/-- `highest_set_bit()`: `-1` when no bit is set. -/
def highestSetBit : Int :=
  match b.getIndices.getLast? with
  | some i => i
  | none => -1

end

/-- `gather(items)`: the items at the set bits. -/
def gather {α : Type} (b : Bitmap) (items : List α) : List α :=
  b.getIndices.filterMap fun i => items[i]?

section

variable (b : Bitmap)

/-- `operator&`. -/
def and (c : Bitmap) : Bitmap := ⟨zipWith (· && ·) b.bits c.bits⟩

/-- `operator|`. -/
def or (c : Bitmap) : Bitmap := ⟨zipWith (· || ·) b.bits c.bits⟩

/-- `operator~`. -/
def not : Bitmap := ⟨b.bits.map (! ·)⟩

/-- `Bitmap(size, prefix_bits)`. -/
def ofPrefix (size prefixBits : Nat) : Bitmap :=
  ⟨(range size).map fun i => decide (i < prefixBits)⟩

/-- `batched_set(indices)`. -/
def batchedSet (indices : List Nat) : Bitmap := indices.foldl set b

/-- `clear(index)`. -/
def clear (index : Nat) : Bitmap := ⟨b.bits.set index false⟩

/-- `clz()`: zeros before the first set bit. -/
def clz : Nat := (b.bits.takeWhile (! ·)).length

/-- `clo()`: ones before the first clear bit. -/
def clo : Nat := (b.bits.takeWhile (·)).length

end

/-- The bitmap with bit `i` equal to `f i`. -/
def ofFn (size : Nat) (f : Nat → Bool) : Bitmap := ⟨(range size).map f⟩

/-! ## Sizes -/

variable (b : Bitmap) (n : Nat) (i : Nat)

@[simp] lemma size_zeros : (zeros n).size = n := by simp [size, zeros]
@[simp] lemma size_ones : (ones n).size = n := by simp [size, ones]
@[simp] lemma size_set : (b.set i).size = b.size := by simp [size, set]
@[simp] lemma size_setRange (lo hi : Nat) : (b.setRange lo hi).size = b.size := by
  simp [size, setRange]
@[simp] lemma size_and (c : Bitmap) : (b.and c).size = min b.size c.size := by
  simp [size, and]
@[simp] lemma size_or (c : Bitmap) : (b.or c).size = min b.size c.size := by simp [size, or]
@[simp] lemma size_clear : (b.clear i).size = b.size := by
  simp [size, clear]
@[simp] lemma size_ofPrefix (k : Nat) : (ofPrefix n k).size = n := by simp [size, ofPrefix]
@[simp] lemma size_not : b.not.size = b.size := by simp [size, not]
@[simp] lemma size_ofFn (f : Nat → Bool) : (ofFn n f).size = n := by
  simp [size, ofFn]

/-! ## Bits -/

lemma test_eq_false_of_size_le {b : Bitmap} {i : Nat} (h : b.size ≤ i) : b.test i = false := by
  rw [test, getD_eq_getElem?_getD, getElem?_eq_none h]
  rfl

lemma lt_size_of_test {b : Bitmap} {i : Nat} (h : b.test i) : i < b.size := by
  by_contra hi
  rw [test_eq_false_of_size_le (by omega)] at h
  cases h

lemma ext_test {b c : Bitmap} (hsize : b.size = c.size) (h : ∀ i, b.test i = c.test i) :
    b = c := by
  obtain ⟨bs⟩ := b
  congr 1
  refine ext_getElem hsize fun i hb hc => ?_
  have hi := h i
  simp only [test, getD_eq_getElem?_getD, getElem?_eq_getElem hb, getElem?_eq_getElem hc] at hi
  exact hi

@[simp] lemma test_zeros : (zeros n).test i = false := by
  simp only [test, zeros, getD_eq_getElem?_getD, getElem?_replicate]
  split <;> rfl

@[simp] lemma test_ones : (ones n).test i = decide (i < n) := by
  simp only [test, ones]
  by_cases h : i < n <;> simp [h]

lemma test_set (j : Nat) :
    (b.set i).test j = (b.test j || (decide (i = j) && decide (j < b.size))) := by
  simp only [test, set, size]
  by_cases hij : i = j
  · subst hij
    by_cases hlt : i < b.bits.length <;> simp [hlt]
  · simp [hij]

lemma test_clear (j : Nat) : (b.clear i).test j = (b.test j && !decide (i = j)) := by
  simp only [test, clear]
  by_cases hij : i = j
  · subst hij
    by_cases hlt : i < b.bits.length <;> simp [hlt]
  · simp [hij]

lemma test_ofPrefix (k i : Nat) : (ofPrefix n k).test i = (decide (i < n) && decide (i < k)) := by
  simp only [test, ofPrefix]
  by_cases h : i < n <;> simp [h]

lemma test_setRange (lo hi j : Nat) : (b.setRange lo hi).test j
      = (b.test j || (decide (lo ≤ j) && decide (j < hi) && decide (j < b.size))) := by
  simp only [test, setRange, size]
  by_cases hlt : j < b.bits.length <;> simp [hlt]

@[simp] lemma test_and (c : Bitmap) (i : Nat) : (b.and c).test i = (b.test i && c.test i) := by
  simp only [test, and, getD_eq_getElem?_getD, getElem?_zipWith]
  cases b.bits[i]? <;> cases c.bits[i]? <;> simp

/-- The union has the bits of both, up to the smaller size. -/
lemma test_or_min (c : Bitmap) (i : Nat) :
    (b.or c).test i = (decide (i < min b.size c.size) && (b.test i || c.test i)) := by
  by_cases hi : i < min b.size c.size
  · have hb : i < b.size := by omega
    have hc : i < c.size := by omega
    simp only [test, or, getD_eq_getElem?_getD, getElem?_zipWith]
    rw [getElem?_eq_getElem hb, getElem?_eq_getElem hc]
    simp [hi]
  · rw [test_eq_false_of_size_le (by simp; omega)]
    simp [hi]

lemma test_or {b c : Bitmap} (h : b.size = c.size) (i : Nat) :
    (b.or c).test i = (b.test i || c.test i) := by
  rw [test_or_min, ← h]
  by_cases hi : i < b.size
  · simp [hi]
  · rw [test_eq_false_of_size_le (not_lt.mp hi), test_eq_false_of_size_le (by omega)]
    simp

lemma test_not {b : Bitmap} {i : Nat} (h : i < b.size) : b.not.test i = !b.test i := by
  simp only [test, not, getD_eq_getElem?_getD, getElem?_map]
  rw [getElem?_eq_getElem h]
  rfl

lemma test_ofFn (f : Nat → Bool) (i : Nat) : (ofFn n f).test i = (decide (i < n) && f i) := by
  simp only [test, ofFn]
  by_cases h : i < n <;> simp [h]

lemma popcount_eq_zero_iff {b : Bitmap} : b.popcount = 0 ↔ ∀ i, b.test i = false := by
  rw [popcount, count_eq_zero]
  constructor
  · intro h i
    by_contra hi
    have hlt := lt_size_of_test (Bool.not_eq_false _ ▸ hi)
    rw [test, getD_eq_getElem?_getD, getElem?_eq_getElem hlt] at hi
    exact h (by simpa using mem_of_getElem (by simpa using hi))
  · intro h hmem
    obtain ⟨i, hi⟩ := mem_iff_getElem?.mp hmem
    have := h i
    simp [test, hi] at this

/-! ## Indices -/

@[simp] lemma mem_getIndices {b : Bitmap} {i : Nat} : i ∈ b.getIndices ↔ b.test i := by
  simp only [getIndices, mem_filter, mem_range]
  exact ⟨And.right, fun h => ⟨lt_size_of_test h, h⟩⟩

lemma getIndices_pairwise : b.getIndices.Pairwise (· < ·) :=
  Pairwise.filter _ pairwise_lt_range

/-- The highest set bit, as a length: no bit at or beyond it is set, and if
it is not zero the bit just below it is. -/
lemma highestSetBit_spec : ∃ n : Nat, b.highestSetBit + 1 = n ∧ (∀ i, n ≤ i → b.test i = false) ∧
      (0 < n → b.test (n - 1)) := by
  unfold highestSetBit
  cases hl : b.getIndices.getLast? with
  | none =>
    refine ⟨0, rfl, fun i _ => ?_, fun h => absurd h (Nat.lt_irrefl 0)⟩
    have hnil := getLast?_eq_none_iff.mp hl
    by_contra hi
    have hmem := mem_getIndices.mpr (Bool.not_eq_false _ ▸ hi)
    rw [hnil] at hmem
    cases hmem
  | some m =>
    obtain ⟨init, hinit⟩ := getLast?_eq_some_iff.mp hl
    refine ⟨m + 1, rfl, fun i hi => ?_, fun _ => ?_⟩
    · by_contra htest
      have hmem := mem_getIndices.mpr (Bool.not_eq_false _ ▸ htest)
      have hsorted := b.getIndices_pairwise
      rw [hinit] at hmem hsorted
      rcases mem_append.mp hmem with h | h
      · have := (pairwise_append.mp hsorted).2.2 i h m (mem_singleton_self m)
        omega
      · rw [mem_singleton] at h
        omega
    · refine mem_getIndices.mp ?_
      rw [hinit]
      simp

end Bitmap

end LMCache.Native
