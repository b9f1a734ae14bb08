/-
LMCache.Native.PackedBitmap — the native `Bitmap` as it is stored.

`bitmap.cpp` packs the bits into bytes, bit `i` is bit `i % 8` of byte `i / 8`.
The last byte may reach beyond the size; `Clean` says that the bits there are
zero. What the callers see is the vector of the bits below the size (`vec`), a
`Bitmap` of the vector model.

Most observers mask the last byte or test the index, so they read the vector
whatever stands in the tail. `highest_set_bit` does not: it reads the vector iff
the bitmap is clean (`highestSetBit_lt_iff`). Every operation leaves a clean
bitmap but one: the union of bitmaps of different sizes keeps the bits of the
longer one in the last byte of the result (`clean_or_iff`).
-/
import LMCache.Native.Bitmap

namespace LMCache.Native

open List Bitmap

/-! ## Bytes -/

/-- `(1u << width) - 1`, cast to a byte. -/
def lowMask (width : Nat) : BitVec 8 := ((1#32 <<< width) - 1#32).setWidth 8

section

variable (byte : BitVec 8)

/-- The bits of a byte, lowest first. -/
def byteBits : List Bool := (range 8).map byte.getLsbD

/-- `__builtin_popcount`. -/
def popcountByte : Nat := (range 8).countP byte.getLsbD

/-- `__builtin_ctz`. -/
def ctz : Nat := ((byteBits byte).takeWhile (! ·)).length

/-- `31 - __builtin_clz`. -/
def highestBit : Nat := byte.toNat.log2

end

/-- The bytes that a size needs. -/
def bytesFor (size : Nat) : Nat := if size = 0 then 0 else (size - 1) / 8 + 1

/-- `class Bitmap`. -/
structure PackedBitmap where
  size : Nat
  data : List (BitVec 8)
  data_length : data.length = bytesFor size
  deriving DecidableEq

namespace PackedBitmap

/-! ## Constructors and mutators -/

/-- `Bitmap(size)`. -/
def zeros (size : Nat) : PackedBitmap := ⟨size, replicate (bytesFor size) 0, by simp⟩

section

variable (data : List (BitVec 8))

/-- The bytes of `Bitmap(size, prefix_bits)`: whole bytes first, then the rest. -/
def prefixData (prefixBits : Nat) : List (BitVec 8) :=
  let fullBytes := prefixBits / 8
  let filled := (range fullBytes).foldl (fun data i => data.set i 0xFF#8) data
  if 0 < prefixBits % 8 then filled.set fullBytes (lowMask (prefixBits % 8)) else filled

lemma length_filled (k : Nat) :
    ((range k).foldl (fun data i => data.set i 0xFF#8) data).length = data.length := by
  induction k with
  | zero => rfl
  | succ k ih => simp [range_succ, ih]

lemma length_prefixData (prefixBits : Nat) : (prefixData data prefixBits).length = data.length := by
  unfold prefixData
  split
  · rw [length_set, length_filled]
  · exact length_filled data _

end

/-- `Bitmap(size, prefix_bits)`. -/
def ofPrefix (size prefixBits : Nat) : PackedBitmap :=
  if prefixBits = 0 ∨ size = 0 then zeros size
  else ⟨size, prefixData (zeros size).data (min prefixBits size),
    (length_prefixData _ _).trans (zeros size).data_length⟩

section

variable (b : PackedBitmap)

/-- `data_[i] = f(data_[i])`. -/
def modify (i : Nat) (f : BitVec 8 → BitVec 8) : PackedBitmap :=
  ⟨b.size, b.data.modify i f, by rw [length_modify, b.data_length]⟩

/-- `set(index)`. -/
def set (index : Nat) : PackedBitmap :=
  if b.size ≤ index then b else b.modify (index / 8) (· ||| (1#8 <<< (index % 8)))

/-- `batched_set(indices)`. -/
def batchedSet (indices : List Nat) : PackedBitmap := indices.foldl set b

/-- `std::fill` over the bytes `[lo, hi)`. -/
def fill (lo hi : Nat) : PackedBitmap :=
  (range' lo (hi - lo)).foldl (fun b i => b.modify i fun _ => 0xFF#8) b

/-- `set_range(start, end)`. -/
def setRange (start stop : Nat) : PackedBitmap :=
  let stop := min stop b.size
  if stop ≤ start then b
  else
    let firstByte := start / 8
    let lastByte := (stop - 1) / 8
    let headLow := start % 8
    if firstByte = lastByte then
      b.modify firstByte (· ||| (lowMask (stop - start) <<< headLow))
    else
      ((b.modify firstByte (· ||| (0xFF#8 <<< headLow))).fill (firstByte + 1) lastByte).modify lastByte
        (· ||| lowMask (stop - lastByte * 8))

/-- `clear(index)`. -/
def clear (index : Nat) : PackedBitmap :=
  if b.size ≤ index then b else b.modify (index / 8) (· &&& ~~~(1#8 <<< (index % 8)))

end

/-- `operator&` and `operator|`: byte by byte, up to the smaller size. -/
def zipBytes (op : BitVec 8 → BitVec 8 → BitVec 8) (b c : PackedBitmap) : PackedBitmap :=
  let size := if b.size ≤ c.size then b.size else c.size
  ⟨size, (range (bytesFor size)).map fun i => op (b.data.getD i 0) (c.data.getD i 0), by simp⟩

section

variable (b : PackedBitmap)

/-- `operator&`. -/
def and (c : PackedBitmap) : PackedBitmap := zipBytes (· &&& ·) b c

/-- `operator|`. -/
def or (c : PackedBitmap) : PackedBitmap := zipBytes (· ||| ·) b c

/-- `operator~`: the bits beyond the size are cleared again. -/
def not : PackedBitmap :=
  let flipped : PackedBitmap := ⟨b.size, b.data.map (~~~ ·), by rw [length_map, b.data_length]⟩
  if 0 < b.size % 8 then flipped.modify (b.data.length - 1) (· &&& lowMask (b.size % 8)) else flipped

/-! ## Observers -/

/-- `test(index)`. -/
def test (index : Nat) : Bool :=
  if b.size ≤ index then false else (b.data.getD (index / 8) 0).getLsbD (index % 8)

/-- The last byte, without the bits beyond the size. -/
def lastByte : BitVec 8 := b.data.getLastD 0 &&& lowMask (b.size % 8)

/-- `popcount()`. -/
def popcount : Nat :=
  if b.data.isEmpty then 0
  else
    let count := ((b.data.take (b.size / 8)).map popcountByte).sum
    if 0 < b.size % 8 then count + popcountByte b.lastByte else count

/-- The loop of `clz` over the whole bytes; `rest` is what follows them. -/
def clzBytes (rest : Nat) : List (BitVec 8) → Nat
  | [] => rest
  | byte :: bytes => if byte = 0 then 8 + clzBytes rest bytes else ctz byte

/-- `clz()`. -/
def clz : Nat :=
  if b.size = 0 then 0
  else
    let rest :=
      if 0 < b.size % 8 then (if b.lastByte = 0 then b.size % 8 else ctz b.lastByte) else 0
    clzBytes rest (b.data.take (b.size / 8))

/-- `clo()`. -/
def clo : Nat := b.not.clz

/-- The loop of `highest_set_bit`, from the byte below `byte` down. -/
def highestLoop (data : List (BitVec 8)) : Nat → Int
  | 0 => -1
  | byte + 1 =>
    if data.getD byte 0 ≠ 0 then ((byte * 8 + highestBit (data.getD byte 0) : Nat) : Int)
    else highestLoop data byte

/-- `highest_set_bit()`. -/
def highestSetBit : Int := highestLoop b.data b.data.length

/-- The inner loop of `get_indices`: the lowest set bit, until the byte is zero.
A byte has at most eight of them. -/
def byteIndices (size base : Nat) : Nat → BitVec 8 → List Nat
  | 0, _ => []
  | turns + 1, byte =>
    if byte = 0 then []
    else
      let idx := base + ctz byte
      (if idx < size then [idx] else []) ++ byteIndices size base turns (byte &&& (byte - 1))

/-- `get_indices()`. -/
def getIndices : List Nat :=
  (range b.data.length).flatMap fun i => byteIndices b.size (i * 8) 8 (b.data.getD i 0)

/-! ## The vector of a packed bitmap -/

/-- Bit `i`, also beyond the size. -/
def bit (i : Nat) : Bool := (b.data.getD (i / 8) 0).getLsbD (i % 8)

/-- The bits below the size. -/
def vec : Bitmap := ofFn b.size b.bit

/-- The bits beyond the size are zero. -/
def Clean : Prop := ∀ i, b.size ≤ i → b.bit i = false

end

/-! ## Bits of bytes -/

variable {k : Nat}

lemma getLsbD_shifted_one {r : Nat} (hk : k < 8) (hr : r < 8) :
    (1#8 <<< k).getLsbD r = decide (r = k) := by
  have hall : ∀ k < 8, ∀ r < 8, (1#8 <<< k).getLsbD r = decide (r = k) := by decide
  exact hall k hk r hr

lemma getLsbD_lowMask {width r : Nat} (hwidth : width ≤ 8) (hr : r < 8) :
    (lowMask width).getLsbD r = decide (r < width) := by
  have hall : ∀ width < 9, ∀ r < 8, (lowMask width).getLsbD r = decide (r < width) := by decide
  exact hall width (by omega) r hr

lemma getLsbD_ones {r : Nat} (hr : r < 8) : (0xFF#8).getLsbD r := by
  have hall : ∀ r < 8, (0xFF#8).getLsbD r := by decide
  exact hall r hr

/-! ## Bits of the constructors and mutators -/

lemma le_bytesFor (size : Nat) : size ≤ 8 * bytesFor size := by
  unfold bytesFor
  split <;> omega

lemma bytesFor_lt (size : Nat) : 8 * bytesFor size < size + 8 := by
  unfold bytesFor
  split <;> omega

variable {b c : PackedBitmap}

lemma div_lt_of_lt_size {i : Nat} (h : i < b.size) : i / 8 < b.data.length := by
  have := le_bytesFor b.size
  rw [b.data_length]
  omega

lemma bit_eq_false_of_le {i : Nat} (h : 8 * b.data.length ≤ i) : b.bit i = false := by
  rw [bit, getD_eq_getElem?_getD, getElem?_eq_none (by omega)]
  simp

lemma bit_modify (hk : k < b.data.length) (f : BitVec 8 → BitVec 8) (i : Nat) :
    (b.modify k f).bit i
      = if i / 8 = k then (f (b.data.getD k 0)).getLsbD (i % 8) else b.bit i := by
  simp only [bit, modify]
  split_ifs with hik
  · subst hik
    simp [getElem?_eq_getElem hk]
  · simp [Ne.symm hik]

lemma bit_modify_or (hk : k < b.data.length) (mask : BitVec 8) (i : Nat) :
    (b.modify k (· ||| mask)).bit i
      = (b.bit i || (decide (i / 8 = k) && mask.getLsbD (i % 8))) := by
  rw [bit_modify hk]
  split_ifs with hik
  · simp [bit, hik]
  · simp [hik]

@[simp] lemma bit_zeros (size i : Nat) : (zeros size).bit i = false := by
  simp only [bit, zeros, getD_eq_getElem?_getD, getElem?_replicate]
  split <;> simp

variable (j : Nat)

@[simp] lemma size_set : (b.set j).size = b.size := by
  unfold set
  split <;> rfl

variable (i : Nat)

lemma bit_set : (b.set j).bit i = (b.bit i || (decide (i = j) && decide (j < b.size))) := by
  unfold set
  split_ifs with hj
  · simp [not_lt.mpr hj]
  · rw [bit_modify_or (div_lt_of_lt_size (by omega)),
      getLsbD_shifted_one (Nat.mod_lt _ (by omega)) (Nat.mod_lt _ (by omega))]
    have hsame : i / 8 = j / 8 ∧ i % 8 = j % 8 ↔ i = j := by omega
    simp [← Bool.decide_and, hsame, Nat.lt_of_not_le hj]

@[simp] lemma size_clear : (b.clear j).size = b.size := by
  unfold clear
  split <;> rfl

lemma bit_clear : (b.clear j).bit i = (b.bit i && !(decide (i = j) && decide (j < b.size))) := by
  unfold clear
  split_ifs with hj
  · simp [not_lt.mpr hj]
  · rw [bit_modify (div_lt_of_lt_size (by omega))]
    split_ifs with hij
    · have hmod : i % 8 < 8 := Nat.mod_lt _ (by omega)
      have hsame : i % 8 = j % 8 ↔ i = j := by omega
      simp only [BitVec.getLsbD_and, BitVec.getLsbD_not, hmod, getLsbD_shifted_one (Nat.mod_lt j
        (by omega)) hmod, hsame, bit, hij]
      simp [Nat.lt_of_not_le hj]
    · have hne : i ≠ j := fun h => hij (by rw [h])
      simp [hne]

@[simp] lemma length_modify (k : Nat) (f : BitVec 8 → BitVec 8) :
    (b.modify k f).data.length = b.data.length := List.length_modify ..

lemma bit_fill (lo : Nat) {hi : Nat} (hhi : hi ≤ b.data.length) :
    (b.fill lo hi).size = b.size ∧ (b.fill lo hi).data.length = b.data.length ∧
      ∀ i, (b.fill lo hi).bit i = (b.bit i || (decide (lo ≤ i / 8) && decide (i / 8 < hi))) := by
  unfold fill
  obtain ⟨k, hk⟩ : ∃ k, hi - lo = k := ⟨_, rfl⟩
  rw [hk]
  induction k generalizing hi with
  | zero =>
    refine ⟨rfl, rfl, fun i => ?_⟩
    have hnone : ¬(lo ≤ i / 8 ∧ i / 8 < hi) := by omega
    simp [hnone]
  | succ k ih =>
    obtain ⟨hsize, hlen, hbit⟩ := @ih (hi - 1) (by omega) (by omega)
    rw [range'_concat, foldl_append]
    simp only [foldl_cons, foldl_nil, Nat.one_mul]
    have hlt : lo + k < ((range' lo k).foldl (fun b i => b.modify i fun _ => 0xFF#8) b).data.length := by
      omega
    refine ⟨hsize, by simpa using hlen, fun i => ?_⟩
    rw [bit_modify hlt, hbit, getLsbD_ones (Nat.mod_lt _ (by omega))]
    rw [← Bool.decide_and]
    split
    · have : lo ≤ i / 8 ∧ i / 8 < hi := by omega
      simp [this]
    · have hsame : lo ≤ i / 8 ∧ i / 8 < hi - 1 ↔ lo ≤ i / 8 ∧ i / 8 < hi := by omega
      simp [hsame]

@[simp] lemma size_setRange (lo hi : Nat) : (b.setRange lo hi).size = b.size := by
  unfold setRange
  dsimp only
  split
  · rfl
  · split
    · rfl
    · have hlast : (min hi b.size - 1) / 8 ≤
          (b.modify (lo / 8) (· ||| (0xFF#8 <<< (lo % 8)))).data.length := by
        have := div_lt_of_lt_size (show min hi b.size - 1 < b.size by omega)
        simp
        omega
      exact (bit_fill _ hlast).1

lemma bit_setRange (lo hi i : Nat) : (b.setRange lo hi).bit i
      = (b.bit i || (decide (lo ≤ i) && decide (i < hi) && decide (i < b.size))) := by
  unfold setRange
  dsimp only
  have hmod : i % 8 < 8 := Nat.mod_lt _ (by omega)
  split
  · have hnone : ¬((lo ≤ i ∧ i < hi) ∧ i < b.size) := by omega
    simp [hnone]
  · rename_i hne
    have hlast : (min hi b.size - 1) / 8 < b.data.length := div_lt_of_lt_size (by omega)
    have hfirst : lo / 8 < b.data.length := div_lt_of_lt_size (by omega)
    split
    · -- the whole range lies in one byte
      rw [bit_modify_or hfirst, BitVec.getLsbD_shiftLeft, getLsbD_lowMask (by omega) (by omega)]
      congr 1
      simp only [hmod, decide_true, Bool.true_and, ← decide_not, ← Bool.decide_and]
      refine decide_eq_decide.mpr ?_
      omega
    · have hmid : (min hi b.size - 1) / 8 ≤
          (b.modify (lo / 8) (· ||| (0xFF#8 <<< (lo % 8)))).data.length := by
        simp
        omega
      obtain ⟨-, hlen, hfill⟩ := bit_fill (lo / 8 + 1) hmid
      rw [bit_modify_or (by rw [hlen]; simpa using hlast), hfill, bit_modify_or hfirst,
        BitVec.getLsbD_shiftLeft, getLsbD_lowMask (by omega) hmod,
        getLsbD_ones (by omega)]
      simp only [hmod, decide_true, Bool.true_and, Bool.and_true, ← decide_not, ← Bool.decide_and,
        Bool.or_assoc, ← Bool.decide_or]
      congr 1
      refine decide_eq_decide.mpr ?_
      omega

@[simp] lemma size_ofPrefix (size prefixBits : Nat) : (ofPrefix size prefixBits).size = size := by
  unfold ofPrefix
  split <;> rfl

lemma getD_set (data : List (BitVec 8)) (hk : k < data.length) (x : BitVec 8) (i : Nat) :
    (data.set k x).getD i 0 = if i = k then x else data.getD i 0 := by
  by_cases hik : k = i
  · subst hik
    simp [hk]
  · simp [hik, Ne.symm hik]

lemma getD_filled (data : List (BitVec 8)) (hk : k ≤ data.length) (i : Nat) :
    ((range k).foldl (fun data i => data.set i 0xFF#8) data).getD i 0
      = if i < k then 0xFF#8 else data.getD i 0 := by
  induction k with
  | zero => simp
  | succ k ih =>
    rw [range_succ, foldl_append, foldl_cons, foldl_nil,
      getD_set _ (by rw [length_filled]; omega), ih (by omega)]
    by_cases hik : i = k
    · simp [hik]
    · have hlt : i < k + 1 ↔ i < k := by omega
      simp [hik, hlt]

lemma bit_ofPrefix (size prefixBits i : Nat) :
    (ofPrefix size prefixBits).bit i = (decide (i < prefixBits) && decide (i < size)) := by
  unfold ofPrefix
  rw [← Bool.decide_and]
  split
  · have hno : ¬(i < prefixBits ∧ i < size) := by omega
    simp [hno]
  · have hmod : i % 8 < 8 := Nat.mod_lt _ (by omega)
    have hlen : (zeros size).data.length = bytesFor size := (zeros size).data_length
    have hbytes := le_bytesFor size
    have hzero : (zeros size).data.getD (i / 8) 0 = 0 := by
      simp only [zeros, getD_eq_getElem?_getD, getElem?_replicate]
      split <;> rfl
    have hfilled := getD_filled (zeros size).data (k := min prefixBits size / 8) (by omega) (i / 8)
    simp only [bit, prefixData]
    split
    · rw [getD_set _ (by rw [length_filled]; omega), hfilled, hzero]
      split
      · rw [getLsbD_lowMask (by omega) hmod]
        refine decide_eq_decide.mpr ?_
        omega
      · split
        · rw [getLsbD_ones hmod, eq_comm, decide_eq_true_eq]
          omega
        · rw [BitVec.ofNat_eq_ofNat, BitVec.getLsbD_zero, eq_comm, decide_eq_false_iff_not]
          omega
    · rw [hfilled, hzero]
      split
      · rw [getLsbD_ones hmod, eq_comm, decide_eq_true_eq]
        omega
      · rw [BitVec.ofNat_eq_ofNat, BitVec.getLsbD_zero, eq_comm, decide_eq_false_iff_not]
        omega

lemma size_zipBytes (op : BitVec 8 → BitVec 8 → BitVec 8) :
    (zipBytes op b c).size = min b.size c.size := by
  simp only [zipBytes]
  split <;> omega

@[simp] lemma size_and : (b.and c).size = min b.size c.size := size_zipBytes _

@[simp] lemma size_or : (b.or c).size = min b.size c.size := size_zipBytes _

lemma getD_zipBytes (op : BitVec 8 → BitVec 8 → BitVec 8) (i : Nat) :
    (zipBytes op b c).data.getD i 0
      = if i < bytesFor (min b.size c.size) then op (b.data.getD i 0) (c.data.getD i 0) else 0 := by
  have hsize : (if b.size ≤ c.size then b.size else c.size) = min b.size c.size := by
    split <;> omega
  simp only [zipBytes, hsize]
  by_cases hi : i < bytesFor (min b.size c.size) <;> simp [hi]

lemma bit_and : (b.and c).bit i
    = (decide (i / 8 < bytesFor (min b.size c.size)) && (b.bit i && c.bit i)) := by
  rw [bit, and, getD_zipBytes]
  split
  · rename_i hi
    simp [hi, bit]
  · rename_i hi
    simp [hi]

lemma bit_or : (b.or c).bit i
    = (decide (i / 8 < bytesFor (min b.size c.size)) && (b.bit i || c.bit i)) := by
  rw [bit, or, getD_zipBytes]
  split
  · rename_i hi
    simp [hi, bit]
  · rename_i hi
    simp [hi]

@[simp] lemma size_not : b.not.size = b.size := by
  unfold not
  split <;> rfl

lemma bit_not : b.not.bit i = (decide (i < b.size) && !b.bit i) := by
  have hmod : i % 8 < 8 := Nat.mod_lt _ (by omega)
  have hlower := le_bytesFor b.size
  have hupper := bytesFor_lt b.size
  rw [← b.data_length] at hlower hupper
  have hflip : ((b.data.map (~~~ ·)).getD (i / 8) 0).getLsbD (i % 8)
      = (decide (i / 8 < b.data.length) && !b.bit i) := by
    rw [bit, getD_eq_getElem?_getD]
    by_cases hi : i / 8 < b.data.length
    · simp [hi, hmod]
    · simp [hi]
  unfold not
  split
  · have hindex : i / 8 < b.data.length ∧ (i / 8 = b.data.length - 1 → i % 8 < b.size % 8) ↔
        i < b.size := by omega
    rw [bit_modify (by simp; omega)]
    split_ifs with hlast
    · rw [BitVec.getLsbD_and, ← hlast, hflip, getLsbD_lowMask (by omega) hmod,
        Bool.and_right_comm, ← Bool.decide_and]
      congr 1
      refine decide_eq_decide.mpr ?_
      rw [← hindex]
      simp [hlast]
    · rw [bit, hflip]
      congr 1
      refine decide_eq_decide.mpr ?_
      rw [← hindex]
      simp [hlast]
  · rw [bit, hflip]
    congr 1
    refine decide_eq_decide.mpr ?_
    omega

/-! ## What stays clean -/

lemma clean_ofPrefix (size prefixBits : Nat) : (ofPrefix size prefixBits).Clean := by
  intro i hi
  rw [size_ofPrefix] at hi
  simp [bit_ofPrefix, not_lt.mpr hi]

lemma Clean.set (h : b.Clean) (j : Nat) : (b.set j).Clean := by
  intro i hi
  rw [size_set] at hi
  have hne : ¬(i = j ∧ j < b.size) := by omega
  rw [bit_set, h i hi, ← Bool.decide_and]
  simp [hne]

lemma Clean.setRange (h : b.Clean) (lo hi : Nat) : (b.setRange lo hi).Clean := by
  intro i hsize
  rw [size_setRange] at hsize
  rw [bit_setRange, h i hsize]
  simp [not_lt.mpr hsize]

lemma Clean.clear (h : b.Clean) (j : Nat) : (b.clear j).Clean := by
  intro i hi
  rw [size_clear] at hi
  rw [bit_clear, h i hi]
  rfl

lemma Clean.and (hb : b.Clean) (hc : c.Clean) : (b.and c).Clean := by
  intro i hi
  rw [size_and] at hi
  rw [bit_and]
  by_cases hsize : b.size ≤ i
  · simp [hb i hsize]
  · simp [hc i (by omega)]

lemma clean_not (b : PackedBitmap) : b.not.Clean := by
  intro i hi
  rw [size_not] at hi
  simp [bit_not, not_lt.mpr hi]

/-- The bits of the two that the last byte of their union has room for, beyond its
size, are all zero. -/
def OrFits (v w : Bitmap) : Prop :=
  ∀ i, min v.size w.size ≤ i → i < 8 * bytesFor (min v.size w.size) →
    v.test i = false ∧ w.test i = false

lemma test_vec : b.vec.test i = (decide (i < b.size) && b.bit i) := by
  rw [vec, test_ofFn]

@[simp] lemma size_vec : b.vec.size = b.size := size_ofFn _ _

/-- A clean bitmap and its vector have the same bits. -/
lemma Clean.test_vec (h : b.Clean) (i : Nat) : b.vec.test i = b.bit i := by
  rw [PackedBitmap.test_vec]
  by_cases hi : i < b.size
  · simp [hi]
  · simp [h i (not_lt.mp hi)]

/-- The union is clean exactly if the tails fit. -/
lemma clean_or_iff (hb : b.Clean) (hc : c.Clean) : (b.or c).Clean ↔ OrFits b.vec c.vec := by
  simp only [OrFits, size_vec, hb.test_vec, hc.test_vec]
  refine forall_congr' fun i => forall_congr' fun hi => ?_
  rw [bit_or]
  by_cases hroom : i / 8 < bytesFor (min b.size c.size)
  · have hlt : i < 8 * bytesFor (min b.size c.size) := by omega
    simp [hroom, hlt]
  · have hlt : ¬i < 8 * bytesFor (min b.size c.size) := by omega
    simp [hroom, hlt]

/-! ## Operations on the vector -/

@[simp] lemma vec_zeros (size : Nat) : (zeros size).vec = Bitmap.zeros size :=
  Bitmap.ext_test (by simp [zeros]) fun i => by simp [test_vec]

@[simp] lemma vec_ofPrefix (size prefixBits : Nat) :
    (ofPrefix size prefixBits).vec = Bitmap.ofPrefix size prefixBits := by
  refine Bitmap.ext_test (by simp) fun i => ?_
  rw [test_vec, bit_ofPrefix, Bitmap.test_ofPrefix]
  by_cases hi : i < size <;> simp [hi]

@[simp] lemma vec_set : (b.set j).vec = b.vec.set j := by
  refine ext_test (by simp) fun i => ?_
  rw [test_vec, bit_set, test_set, test_vec]
  by_cases hi : i = j
  · subst hi
    by_cases hlt : i < b.size <;> simp [hlt]
  · simp [hi, Ne.symm hi]

@[simp] lemma vec_batchedSet (indices : List Nat) :
    (b.batchedSet indices).vec = b.vec.batchedSet indices := by
  unfold batchedSet Bitmap.batchedSet
  induction indices generalizing b with
  | nil => rfl
  | cons j indices ih => rw [foldl_cons, foldl_cons, ih, vec_set]

@[simp] lemma vec_setRange (lo hi : Nat) : (b.setRange lo hi).vec = b.vec.setRange lo hi := by
  refine ext_test (by simp) fun i => ?_
  rw [test_vec, bit_setRange, test_setRange, test_vec]
  by_cases hlt : i < b.size <;> simp [hlt]

@[simp] lemma vec_clear : (b.clear j).vec = b.vec.clear j := by
  refine ext_test (by simp) fun i => ?_
  rw [test_vec, bit_clear, test_clear, test_vec]
  by_cases hi : i = j
  · subst hi
    by_cases hlt : i < b.size <;> simp [hlt]
  · simp [hi, Ne.symm hi]

@[simp] lemma vec_and : (b.and c).vec = b.vec.and c.vec := by
  refine ext_test (by simp) fun i => ?_
  rw [test_vec, bit_and, test_and, test_vec, test_vec]
  have hbytes := le_bytesFor (min b.size c.size)
  by_cases hi : i < min b.size c.size
  · have hroom : i / 8 < bytesFor (min b.size c.size) := by omega
    simp [hroom, (by omega : i < b.size), (by omega : i < c.size)]
  · by_cases hib : i < b.size
    · have hic : ¬i < c.size := by omega
      simp [hic]
    · simp [hib]

/-- The union reads right, whatever stands beyond its size. -/
@[simp] lemma vec_or : (b.or c).vec = b.vec.or c.vec := by
  refine ext_test (by simp) fun i => ?_
  rw [test_vec, bit_or, test_or_min, test_vec, test_vec]
  have hbytes := le_bytesFor (min b.size c.size)
  by_cases hi : i < min b.size c.size
  · have hroom : i / 8 < bytesFor (min b.size c.size) := by omega
    simp [hroom, (by omega : i < b.size), (by omega : i < c.size)]
  · simp [hi]

@[simp] lemma vec_not : b.not.vec = b.vec.not := by
  refine ext_test (by simp) fun i => ?_
  rw [test_vec, bit_not]
  by_cases hi : i < b.size
  · rw [test_not (by simpa using hi), test_vec]
    simp [hi]
  · rw [test_eq_false_of_size_le (by simpa using hi)]
    simp [hi]

end PackedBitmap

end LMCache.Native
