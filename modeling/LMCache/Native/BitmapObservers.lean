/-
LMCache.Native.BitmapObservers — what the observers of a packed bitmap read.

`Shows b v` says that every observer of the packed bitmap `b` answers as the
vector `v`. `popcount`, `clz` and `get_indices` walk the bytes and handle the
last one by itself; they read the vector of the bitmap in any case. Only
`highest_set_bit` scans the stored bytes as they are, so a bitmap shows its
vector iff it is clean (`shows_vec_iff`).

The last section runs any sequence of constructions and operations on packed
bitmaps and on vectors side by side. All bitmaps show their vectors in all
states iff the tails fit at every union (`always_shown_iff`); a union of
different sizes whose tails do not fit is a bitmap with a highest set bit at or
beyond its size (`union_beyond_size`).
-/
import LMCache.Lib.Run
import LMCache.Native.PackedBitmap
import Mathlib.Data.List.GetD
import Mathlib.Data.List.TakeWhile

namespace LMCache.Native

open List

namespace PackedBitmap

variable {b c : PackedBitmap}

/-! ## The bits in a row -/

lemma length_byteBits (byte : BitVec 8) : (byteBits byte).length = 8 := by simp [byteBits]

lemma length_flatMap_byteBits (l : List (BitVec 8)) : (l.flatMap byteBits).length = 8 * l.length := by
  induction l with
  | nil => rfl
  | cons byte l ih =>
    rw [flatMap_cons, length_append, length_byteBits, length_cons]
    omega

lemma getD_flatMap_byteBits (l : List (BitVec 8)) (i : Nat) :
    (l.flatMap byteBits).getD i false = (l.getD (i / 8) 0).getLsbD (i % 8) := by
  induction l generalizing i with
  | nil => simp
  | cons byte l ih =>
    rw [flatMap_cons]
    by_cases hi : i < 8
    · have hdiv : i / 8 = 0 := by omega
      have hmod : i % 8 = i := by omega
      rw [getD_append _ _ _ _ (by rwa [length_byteBits]), hdiv, hmod]
      simp [byteBits, hi]
    · obtain ⟨j, rfl⟩ := Nat.exists_eq_add_of_le (not_lt.mp hi)
      have hdiv : (8 + j) / 8 = j / 8 + 1 := by omega
      have hmod : (8 + j) % 8 = j % 8 := by omega
      rw [getD_append_right _ _ _ _ (by rw [length_byteBits]; omega), length_byteBits,
        Nat.add_sub_cancel_left, ih, hdiv, hmod, getD_cons_succ]

/-- The vector is the stored bits up to the size. -/
lemma vec_eq_take : b.vec = ⟨(b.data.flatMap byteBits).take b.size⟩ := by
  have hbytes := le_bytesFor b.size
  refine Bitmap.ext_test ?_ fun i => ?_
  · rw [size_vec, Bitmap.size, length_take, length_flatMap_byteBits, b.data_length,
      Nat.min_eq_left hbytes]
  · rw [test_vec, bit, ← getD_flatMap_byteBits, Bitmap.test]
    by_cases hi : i < b.size <;> simp [hi]

/-- The whole bytes, then the bits of the last byte that are left. -/
lemma bits_vec : b.vec.bits = (b.data.take (b.size / 8)).flatMap byteBits ++
    (byteBits (b.data.getLastD 0)).take (b.size % 8) := by
  have hbytes := le_bytesFor b.size
  have hupper := bytesFor_lt b.size
  rw [← b.data_length] at hbytes hupper
  have hfull : ((b.data.take (b.size / 8)).flatMap byteBits).length = 8 * (b.size / 8) := by
    rw [length_flatMap_byteBits, length_take, Nat.min_eq_left (by omega)]
  rw [vec_eq_take]
  nth_rewrite 1 [← take_append_drop (b.size / 8) b.data]
  rw [flatMap_append, take_append, take_of_length_le (by omega), hfull]
  congr 1
  rw [show b.size - 8 * (b.size / 8) = b.size % 8 by omega]
  by_cases hrem : b.size % 8 = 0
  · simp [hrem]
  · -- one byte is left, and it is the last one
    have hone : b.data.drop (b.size / 8) = [b.data.getLastD 0] := by
      have hlen : (b.data.drop (b.size / 8)).length = 1 := by
        rw [length_drop]
        omega
      obtain ⟨last, hlast⟩ := length_eq_one_iff.mp hlen
      have hdata := take_append_drop (b.size / 8) b.data
      rw [hlast] at hdata ⊢
      rw [← hdata, getLastD_concat]
    rw [hone, flatMap_cons, flatMap_nil, append_nil]

lemma byteBits_lastByte : byteBits b.lastByte
    = (byteBits (b.data.getLastD 0)).take (b.size % 8) ++ replicate (8 - b.size % 8) false := by
  have hrem : b.size % 8 < 8 := Nat.mod_lt _ (by omega)
  refine ext_getElem (by simp [length_byteBits]; omega) fun i hi hi' => ?_
  simp only [lastByte, byteBits, getElem_map, getElem_range, BitVec.getLsbD_and,
    getLsbD_lowMask (le_of_lt hrem) hi, getElem_append, length_take, length_map,
    length_range, Nat.min_eq_left (le_of_lt hrem)]
  split
  · rename_i hlow
    simp [hlow]
  · rename_i hhigh
    simp [hhigh]

/-! ## The observers -/

lemma test_eq (i : Nat) : b.test i = b.vec.test i := by
  rw [test_vec, test, bit]
  by_cases hi : b.size ≤ i
  · simp [not_lt.mpr hi]
  · simp [Nat.lt_of_not_le hi]

lemma count_byteBits (byte : BitVec 8) : (byteBits byte).count true = popcountByte byte := by
  simp [byteBits, popcountByte, count, Function.comp_def]

lemma popcount_eq : b.popcount = b.vec.popcount := by
  have hlast : popcountByte b.lastByte
      = ((byteBits (b.data.getLastD 0)).take (b.size % 8)).count true := by
    rw [← count_byteBits, byteBits_lastByte]
    simp [count_replicate]
  have hfull : ((b.data.take (b.size / 8)).map popcountByte).sum
      = ((b.data.take (b.size / 8)).flatMap byteBits).count true := by
    rw [count_flatMap]
    congr 1
    refine map_congr_left fun byte _ => ?_
    exact (count_byteBits byte).symm
  rw [Bitmap.popcount, bits_vec, count_append, ← hfull, ← hlast]
  unfold popcount
  split
  · rename_i hempty
    have hzero : b.size = 0 := by
      have hlen := le_bytesFor b.size
      rw [← b.data_length, isEmpty_iff.mp hempty] at hlen
      simpa using hlen
    simp [hlast, hzero]
  · split
    · rfl
    · simp [hlast, (by omega : b.size % 8 = 0)]

lemma byteBits_zero : byteBits 0 = replicate 8 false := by decide

variable {byte : BitVec 8}

lemma eq_zero_of_byteBits (h : ∀ x ∈ byteBits byte, x = false) : byte = 0 := by
  refine BitVec.eq_of_getLsbD_eq fun i hi => ?_
  rw [h (byte.getLsbD i) (mem_map.mpr ⟨i, mem_range.mpr hi, rfl⟩)]
  simp

lemma takeWhile_append_of_mem {l l' : List Bool} (h : true ∈ l) :
    (l ++ l').takeWhile (! ·) = l.takeWhile (! ·) := by
  induction l with
  | nil => cases h
  | cons x l ih =>
    cases x with
    | true => rfl
    | false =>
      have hmem : true ∈ l := by simpa using h
      simp [ih hmem]

lemma mem_byteBits_of_ne (h : byte ≠ 0) : true ∈ byteBits byte := by
  by_contra hnone
  refine h (eq_zero_of_byteBits fun x hx => ?_)
  cases x with
  | false => rfl
  | true => exact absurd hx hnone

lemma clzBytes_eq (rest : Nat) (tail : List Bool) (htail : (tail.takeWhile (! ·)).length = rest)
    (bytes : List (BitVec 8)) :
    clzBytes rest bytes = ((bytes.flatMap byteBits ++ tail).takeWhile (! ·)).length := by
  induction bytes with
  | nil => exact htail.symm
  | cons byte bytes ih =>
    rw [clzBytes, flatMap_cons, append_assoc]
    split
    · rename_i hzero
      rw [hzero, byteBits_zero]
      simp
      omega
    · rename_i hne
      rw [takeWhile_append_of_mem (mem_byteBits_of_ne hne), ctz]

lemma clz_lastByte : (((byteBits (b.data.getLastD 0)).take (b.size % 8)).takeWhile (! ·)).length
    = if b.lastByte = 0 then b.size % 8 else ctz b.lastByte := by
  have hbits := byteBits_lastByte (b := b)
  split
  · rename_i hzero
    have hall : ∀ x ∈ (byteBits (b.data.getLastD 0)).take (b.size % 8), x = false := by
      intro x hx
      have hmem : x ∈ byteBits b.lastByte := by
        rw [hbits]
        exact mem_append_left _ hx
      rw [hzero, byteBits_zero] at hmem
      exact eq_of_mem_replicate hmem
    rw [takeWhile_eq_self_iff.mpr fun x hx => by simp [hall x hx], length_take, length_byteBits]
    omega
  · rename_i hne
    have hmem := mem_byteBits_of_ne hne
    rw [hbits] at hmem
    rw [ctz, hbits, takeWhile_append_of_mem]
    simpa using hmem

lemma clz_eq : b.clz = b.vec.clz := by
  rw [Bitmap.clz, bits_vec]
  unfold clz
  split
  · rename_i hzero
    simp [hzero]
  · refine clzBytes_eq _ _ ?_ _
    split
    · exact clz_lastByte
    · simp [(by omega : b.size % 8 = 0)]

lemma clo_eq : b.clo = b.vec.clo := by
  rw [clo, clz_eq, vec_not, Bitmap.clz, Bitmap.clo, Bitmap.not, takeWhile_map]
  simp [Function.comp_def]

/-- The highest set bit of a byte. -/
lemma getLsbD_highestBit (h : byte ≠ 0) : highestBit byte < 8 ∧
    byte.getLsbD (highestBit byte) ∧
      ∀ j < 8, highestBit byte < j → byte.getLsbD j = false := by
  revert h byte
  decide +kernel

/-- The scan of the bytes from the top finds the highest of the stored bits. -/
lemma highestLoop_spec (b : PackedBitmap) (k : Nat) :
    ∃ n : Nat, highestLoop b.data k + 1 = n ∧ n ≤ 8 * k ∧
      (∀ i, n ≤ i → i < 8 * k → b.bit i = false) ∧ (0 < n → b.bit (n - 1)) := by
  induction k with
  | zero => exact ⟨0, rfl, Nat.le_refl 0, fun i _ hi => absurd hi (Nat.not_lt_zero i),
      fun h => absurd h (Nat.lt_irrefl 0)⟩
  | succ k ih =>
    rw [highestLoop]
    split
    · rename_i hne
      obtain ⟨hlt, hset, habove⟩ := getLsbD_highestBit hne
      refine ⟨k * 8 + highestBit (b.data.getD k 0) + 1, by push_cast; rfl, by omega, fun i hi hk => ?_,
        fun _ => ?_⟩
      · have hdiv : i / 8 = k := by omega
        rw [bit, hdiv]
        exact habove (i % 8) (Nat.mod_lt _ (by omega)) (by omega)
      · have hdiv : (k * 8 + highestBit (b.data.getD k 0)) / 8 = k := by omega
        have hmod : (k * 8 + highestBit (b.data.getD k 0)) % 8 = highestBit (b.data.getD k 0) := by omega
        rw [Nat.add_sub_cancel, bit, hdiv, hmod]
        exact hset
    · rename_i hzero
      obtain ⟨n, hn, hle, habove, hbelow⟩ := ih
      refine ⟨n, hn, by omega, fun i hi hk => ?_, hbelow⟩
      by_cases hik : i < 8 * k
      · exact habove i hi hik
      · have hdiv : i / 8 = k := by omega
        rw [bit, hdiv, not_not.mp hzero]
        simp

/-- The highest of the stored bits, as a length. -/
lemma highestSetBit_spec (b : PackedBitmap) :
    ∃ n : Nat, b.highestSetBit + 1 = n ∧ (∀ i, n ≤ i → b.bit i = false) ∧
      (0 < n → b.bit (n - 1)) := by
  obtain ⟨n, hn, -, habove, hbelow⟩ := highestLoop_spec b b.data.length
  refine ⟨n, hn, fun i hi => ?_, hbelow⟩
  by_cases hlt : i < 8 * b.data.length
  · exact habove i hi hlt
  · exact bit_eq_false_of_le (not_lt.mp hlt)

lemma highestSetBit_lt_iff : b.highestSetBit < b.size ↔ b.Clean := by
  obtain ⟨n, hn, habove, hbelow⟩ := highestSetBit_spec b
  constructor
  · intro hlt i hi
    exact habove i (by omega)
  · intro hclean
    by_contra hge
    have hset := hbelow (by omega)
    rw [hclean (n - 1) (by omega)] at hset
    cases hset

lemma Clean.highestSetBit_eq (h : b.Clean) : b.highestSetBit = b.vec.highestSetBit := by
  obtain ⟨n, hn, habove, hbelow⟩ := highestSetBit_spec b
  obtain ⟨m, hm, habove', hbelow'⟩ := b.vec.highestSetBit_spec
  simp only [h.test_vec] at habove' hbelow'
  have hsame : n = m := by
    by_contra hne
    rcases Nat.lt_or_gt_of_ne hne with hlt | hlt
    · have hset := hbelow' (by omega)
      rw [habove (m - 1) (by omega)] at hset
      cases hset
    · have hset := hbelow (by omega)
      rw [habove' (n - 1) (by omega)] at hset
      cases hset
  omega

/-- The positions that the loop over a byte visits. -/
def lowestBits : Nat → BitVec 8 → List Nat
  | 0, _ => []
  | turns + 1, byte => if byte = 0 then [] else ctz byte :: lowestBits turns (byte &&& (byte - 1))

/-- Clearing the lowest set bit eight times visits all set bits in order. -/
lemma lowestBits_eq (byte : BitVec 8) : lowestBits 8 byte = (range 8).filter byte.getLsbD := by
  revert byte
  decide +kernel

lemma byteIndices_eq_lowestBits (size base turns : Nat) (byte : BitVec 8) :
    byteIndices size base turns byte
      = ((lowestBits turns byte).map (base + ·)).filter (· < size) := by
  induction turns generalizing byte with
  | zero => rfl
  | succ turns ih =>
    rw [byteIndices, lowestBits]
    split
    · rfl
    · rw [ih]
      by_cases hlt : base + ctz byte < size <;> simp [hlt]

lemma byteIndices_eq (size : Nat) (k : Nat) : byteIndices size (k * 8) 8 (b.data.getD k 0)
      = ((range 8).map (8 * k + ·)).filter fun i => b.bit i && decide (i < size) := by
  rw [byteIndices_eq_lowestBits, lowestBits_eq, mul_comm]
  rw [filter_map, filter_map, filter_filter]
  congr 1
  refine filter_congr fun r hr => ?_
  have hr8 := mem_range.mp hr
  have hdiv : (8 * k + r) / 8 = k := by omega
  have hmod : (8 * k + r) % 8 = r := by omega
  simp [bit, hdiv, hmod, Bool.and_comm]

lemma getIndices_eq : b.getIndices = b.vec.getIndices := by
  have hloop : ∀ k, ((range k).flatMap fun i => byteIndices b.size (i * 8) 8 (b.data.getD i 0))
      = (range (8 * k)).filter fun i => b.bit i && decide (i < b.size) := by
    intro k
    induction k with
    | zero => rfl
    | succ k ih =>
      rw [range_succ, flatMap_append, ih, Nat.mul_succ, range_add, filter_append,
        flatMap_singleton, byteIndices_eq]
  have hbytes := le_bytesFor b.size
  rw [← b.data_length] at hbytes
  obtain ⟨tail, htail⟩ := Nat.exists_eq_add_of_le hbytes
  rw [getIndices, hloop, htail, range_add, filter_append, Bitmap.getIndices, size_vec]
  have hnone : ((range tail).map (b.size + ·)).filter
      (fun i => b.bit i && decide (i < b.size)) = [] := by
    simp
  rw [hnone, append_nil]
  refine filter_congr fun i _ => ?_
  rw [test_vec, Bool.and_comm]

/-! ## Bitmaps and vectors -/

/-- Every observer of the bitmap answers as the vector. -/
structure Shows (b : PackedBitmap) (v : Bitmap) : Prop where
  size : b.size = v.size
  test : ∀ i, b.test i = v.test i
  popcount : b.popcount = v.popcount
  clz : b.clz = v.clz
  clo : b.clo = v.clo
  highestSetBit : b.highestSetBit = v.highestSetBit
  getIndices : b.getIndices = v.getIndices

lemma Clean.shows (h : b.Clean) : b.Shows b.vec where
  size := size_vec.symm
  test := test_eq
  popcount := popcount_eq
  clz := clz_eq
  clo := clo_eq
  highestSetBit := h.highestSetBit_eq
  getIndices := getIndices_eq

/-- A bitmap shows its vector exactly if it is clean. -/
lemma shows_vec_iff : b.Shows b.vec ↔ b.Clean := by
  refine ⟨fun h => highestSetBit_lt_iff.mp ?_, Clean.shows⟩
  obtain ⟨m, hm, -, hbelow⟩ := b.vec.highestSetBit_spec
  rw [h.highestSetBit]
  by_contra hge
  have hsize := Bitmap.lt_size_of_test (hbelow (by omega))
  rw [size_vec] at hsize
  omega

end PackedBitmap

/-! ## Any sequence of operations -/

/-- A bitmap type with its constructors and operations. -/
structure BitmapImpl (β : Type) where
  zeros : Nat → β
  ofPrefix : Nat → Nat → β
  set : β → Nat → β
  batchedSet : β → List Nat → β
  setRange : β → Nat → Nat → β
  clear : β → Nat → β
  and : β → β → β
  or : β → β → β
  not : β → β

/-- The packed bitmaps. -/
def packed : BitmapImpl PackedBitmap where
  zeros := .zeros
  ofPrefix := .ofPrefix
  set := .set
  batchedSet := .batchedSet
  setRange := .setRange
  clear := .clear
  and := .and
  or := .or
  not := .not

/-- The vectors. -/
def vectors : BitmapImpl Bitmap where
  zeros := .zeros
  ofPrefix := .ofPrefix
  set := .set
  batchedSet := .batchedSet
  setRange := .setRange
  clear := .clear
  and := .and
  or := .or
  not := .not

/-- A construction, which adds a bitmap to the pool, or an operation on bitmaps of
the pool, by their index. -/
inductive BitmapOp where
  | zeros (size : Nat)
  | ofPrefix (size prefixBits : Nat)
  | copy (i : Nat)
  | set (i index : Nat)
  | batchedSet (i : Nat) (indices : List Nat)
  | setRange (i start stop : Nat)
  | clear (i index : Nat)
  | and (i j : Nat)
  | or (i j : Nat)
  | not (i : Nat)

namespace BitmapImpl

variable {β : Type}

/-- One operation on the pool. -/
def step (impl : BitmapImpl β) (pool : List β) : BitmapOp → List β
  | .zeros size => pool ++ [impl.zeros size]
  | .ofPrefix size prefixBits => pool ++ [impl.ofPrefix size prefixBits]
  | .copy i => pool ++ pool[i]?.toList
  | .set i index => pool.modify i (impl.set · index)
  | .batchedSet i indices => pool.modify i (impl.batchedSet · indices)
  | .setRange i start stop => pool.modify i (impl.setRange · start stop)
  | .clear i index => pool.modify i (impl.clear · index)
  | .and i j => pool ++ (pool[i]?.bind fun b => pool[j]?.map (impl.and b)).toList
  | .or i j => pool ++ (pool[i]?.bind fun b => pool[j]?.map (impl.or b)).toList
  | .not i => pool ++ (pool[i]?.map impl.not).toList

end BitmapImpl

namespace PackedBitmap

open BitmapImpl Lib

section

variable (pool : List PackedBitmap)

lemma map_modify_vec (i : Nat) (f : PackedBitmap → PackedBitmap) (g : Bitmap → Bitmap)
    (h : ∀ b, (f b).vec = g b.vec) : (pool.modify i f).map vec = (pool.map vec).modify i g := by
  refine ext_getElem? fun j => ?_
  simp only [getElem?_map, getElem?_modify]
  cases pool[j]? with
  | none => rfl
  | some b =>
    by_cases hij : i = j
    · simp [hij, h]
    · simp [hij]

/-- The vectors of the pool run along. -/
lemma map_vec_step (op : BitmapOp) :
    (packed.step pool op).map vec = vectors.step (pool.map vec) op := by
  cases op with
  | zeros size => simp [step, packed, vectors]
  | ofPrefix size prefixBits => simp [step, packed, vectors]
  | copy i => cases h : pool[i]? <;> simp [step, h]
  | set i index => exact map_modify_vec pool i _ _ fun b => vec_set index
  | batchedSet i indices => exact map_modify_vec pool i _ _ fun b => vec_batchedSet indices
  | setRange i start stop => exact map_modify_vec pool i _ _ fun b => vec_setRange start stop
  | clear i index => exact map_modify_vec pool i _ _ fun b => vec_clear index
  | and i j => cases h : pool[i]? <;> cases h' : pool[j]? <;> simp [step, packed, vectors, h, h']
  | or i j => cases h : pool[i]? <;> cases h' : pool[j]? <;> simp [step, packed, vectors, h, h']
  | not i => cases h : pool[i]? <;> simp [step, packed, vectors, h]

lemma map_vec_run (ops : List BitmapOp) :
    (run packed.step pool ops).map vec = run vectors.step (pool.map vec) ops := by
  induction ops generalizing pool with
  | nil => rfl
  | cons op ops ih => rw [run_cons, run_cons, ih, map_vec_step]

end

/-- The tails fit at a union. -/
def UnionFits (pool : List Bitmap) : BitmapOp → Prop
  | .or i j => ∀ v w, pool[i]? = some v → pool[j]? = some w → OrFits v w
  | _ => True

variable {pool : List PackedBitmap}

section

variable (h : ∀ b ∈ pool, b.Clean)
include h

lemma clean_modify (i : Nat) {f : PackedBitmap → PackedBitmap}
    (hf : ∀ b : PackedBitmap, b.Clean → (f b).Clean) : ∀ b ∈ pool.modify i f, b.Clean := by
  intro b hb
  obtain ⟨j, hj⟩ := mem_iff_getElem?.mp hb
  rw [getElem?_modify] at hj
  obtain ⟨c, hc, rfl⟩ := Option.map_eq_some_iff.mp hj
  have hclean := h c (mem_of_getElem? hc)
  split
  · exact hf c hclean
  · exact hclean

lemma clean_append (new : Option PackedBitmap) (hnew : ∀ b, new = some b → b.Clean) :
    ∀ b ∈ pool ++ new.toList, b.Clean := by
  intro b hb
  rcases mem_append.mp hb with hb | hb
  · exact h b hb
  · exact hnew b (Option.mem_toList.mp hb)

/-- Every operation but an unfitting union leaves clean bitmaps. -/
lemma clean_step {op : BitmapOp} (hfits : UnionFits (pool.map vec) op) :
    ∀ b ∈ packed.step pool op, b.Clean := by
  cases op with
  | zeros size => exact clean_append h (some _) fun b hb => Option.some.inj hb ▸ fun i _ => bit_zeros size i
  | ofPrefix size prefixBits =>
    exact clean_append h (some _) fun b hb => Option.some.inj hb ▸ clean_ofPrefix size prefixBits
  | copy i => exact clean_append h _ fun b hb => h b (mem_of_getElem? hb)
  | set i index => exact clean_modify h i fun b hb => hb.set index
  | batchedSet i indices =>
    refine clean_modify h i fun b hb => ?_
    exact run_always Clean (fun _ j hc => hc.set j) hb indices
  | setRange i start stop => exact clean_modify h i fun b hb => hb.setRange start stop
  | clear i index => exact clean_modify h i fun b hb => hb.clear index
  | and i j =>
    refine clean_append h _ fun b hb => ?_
    obtain ⟨c, hc, hb⟩ := Option.bind_eq_some_iff.mp hb
    obtain ⟨d, hd, rfl⟩ := Option.map_eq_some_iff.mp hb
    exact (h c (mem_of_getElem? hc)).and (h d (mem_of_getElem? hd))
  | or i j =>
    refine clean_append h _ fun b hb => ?_
    obtain ⟨c, hc, hb⟩ := Option.bind_eq_some_iff.mp hb
    obtain ⟨d, hd, rfl⟩ := Option.map_eq_some_iff.mp hb
    refine (clean_or_iff (h c (mem_of_getElem? hc)) (h d (mem_of_getElem? hd))).mpr ?_
    exact hfits c.vec d.vec (by simp [hc]) (by simp [hd])
  | not i =>
    refine clean_append h _ fun b hb => ?_
    obtain ⟨c, hc, rfl⟩ := Option.map_eq_some_iff.mp hb
    exact clean_not c

/-- A clean pool after an operation: if it was a union, its tails fitted. -/
lemma unionFits_of_clean {op : BitmapOp} (hafter : ∀ b ∈ packed.step pool op, b.Clean) :
    UnionFits (pool.map vec) op := by
  cases op with
  | or i j =>
    intro v w hv hw
    rw [getElem?_map] at hv hw
    obtain ⟨c, hc, rfl⟩ := Option.map_eq_some_iff.mp hv
    obtain ⟨d, hd, rfl⟩ := Option.map_eq_some_iff.mp hw
    refine (clean_or_iff (h c (mem_of_getElem? hc)) (h d (mem_of_getElem? hd))).mp ?_
    exact hafter _ (by simp [step, packed, hc, hd])
  | _ => trivial

end

/-- The condition reads the vectors only. -/
lemma along_map_vec {P : List Bitmap → BitmapOp → Prop} {ops : List BitmapOp} :
    Along packed.step (fun pool op => P (pool.map vec) op) pool ops ↔
      Along vectors.step P (pool.map vec) ops := by
  induction ops generalizing pool with
  | nil => rfl
  | cons op ops ih => rw [Along, Along, ih, map_vec_step]

/-- Every bitmap and its complement show the vectors of the side by side run, in
every state, exactly if the tails fit at every union. -/
theorem always_shown_iff (ops : List BitmapOp) :
    (∀ n, List.Forall₂ (fun b v => b.Shows v ∧ b.not.Shows v.not)
      (run packed.step [] (ops.take n)) (run vectors.step [] (ops.take n))) ↔
      Along vectors.step UnionFits [] ops := by
  have hshown : ∀ pool : List PackedBitmap,
      List.Forall₂ (fun b v => b.Shows v ∧ b.not.Shows v.not) pool (pool.map vec) ↔
        ∀ b ∈ pool, b.Clean := by
    intro pool
    rw [forall₂_map_right_iff, forall₂_same]
    refine forall₂_congr fun b _ => ?_
    have hnot : b.not.Shows b.vec.not := by
      rw [← vec_not]
      exact (clean_not b).shows
    rw [shows_vec_iff]
    exact and_iff_left hnot
  have hrun : ∀ n, run vectors.step [] (ops.take n) = (run packed.step [] (ops.take n)).map vec :=
    fun n => (map_vec_run [] (ops.take n)).symm
  simp only [hrun, hshown]
  have halong : Along packed.step (fun pool op => UnionFits (pool.map vec) op) [] ops ↔
      Along vectors.step UnionFits [] ops := along_map_vec
  rw [← halong]
  exact good_iff_along (fun pool : List PackedBitmap => ∀ b ∈ pool, b.Clean) (fun _ h => h)
    (fun _ _ h _ hfits => clean_step h hfits) (fun _ _ h _ hafter => unionFits_of_clean h hafter)
    (fun b hb => absurd hb not_mem_nil) (along_of_forall (fun _ _ => trivial) ops [])

/-! ### Unions of different sizes -/

/-- Bit 9 of a bitmap of ten bits, united with a bitmap of nine. -/
def nineAndTen : List BitmapOp := [.zeros 9, .zeros 10, .set 1 9, .or 0 1]

/-- The union has nine bits, and its highest set bit is bit 9. The vector has no
set bit, and no other observer sees one. -/
theorem union_beyond_size : ∃ b, (run packed.step [] nineAndTen)[2]? = some b ∧ b.size = 9 ∧
    b.highestSetBit = 9 ∧ b.popcount = 0 ∧ b.getIndices = [] ∧ b.clz = 9 := by
  decide +kernel

/-! ### Merging -/

/-- `merge_bitmaps`. -/
def mergeBitmaps (bitmaps : List PackedBitmap) (numKeys : Nat) : PackedBitmap :=
  bitmaps.foldl or (zeros numKeys)

/-- Merging clean bitmaps with one bit per key gives a clean one. -/
lemma clean_mergeBitmaps {bitmaps : List PackedBitmap} {numKeys : Nat}
    (h : ∀ b ∈ bitmaps, b.Clean ∧ b.size = numKeys) :
    (mergeBitmaps bitmaps numKeys).Clean ∧ (mergeBitmaps bitmaps numKeys).size = numKeys := by
  refine foldlRecOn (motive := fun acc => acc.Clean ∧ acc.size = numKeys) bitmaps or
    ⟨fun i _ => bit_zeros numKeys i, rfl⟩ ?_
  rintro acc ⟨hacc, hsize⟩ b hb
  obtain ⟨hb, hbsize⟩ := h b hb
  refine ⟨(clean_or_iff hacc hb).mpr fun i hi _ => ?_, by simp [or, zipBytes, hsize, hbsize]⟩
  rw [size_vec, size_vec, hsize, hbsize, min_self] at hi
  exact ⟨(hacc.test_vec i).trans (hacc i (hsize ▸ hi)),
    (hb.test_vec i).trans (hb i (hbsize ▸ hi))⟩

end PackedBitmap

end LMCache.Native
