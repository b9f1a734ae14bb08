/-
LMCache.Lib.Bytes — a byte-addressed device and little-endian numbers.

A device is a byte at every address; `write` puts a list of bytes at an
address and `read` takes one off. What a crash leaves of a write is a write of
the bytes that got through (`bs.take k`), so no notion of its own is needed
for it: the frame lemma and the lemma for reading back cover both.
-/
import Mathlib.Algebra.BigOperators.Fin

namespace LMCache.Lib

abbrev Bytes := List UInt8

def Device := Nat → UInt8

namespace Device

def read (dev : Device) (offset : Nat) : Nat → Bytes
  | 0 => []
  | n + 1 => dev offset :: read dev (offset + 1) n

def write (dev : Device) (offset : Nat) (bs : Bytes) : Device := fun p =>
  if offset ≤ p then bs[p - offset]?.getD (dev p) else dev p

variable {dev dev' : Device} {offset at' n : Nat} {bs : Bytes}

@[simp] lemma length_read : (read dev offset n).length = n := by
  induction n generalizing offset with
  | zero => rfl
  | succ n ih => simp [read, ih]

lemma getElem?_read {i : Nat} :
    (read dev offset n)[i]? = if i < n then some (dev (offset + i)) else none := by
  induction n generalizing offset i with
  | zero => rfl
  | succ n ih =>
    cases i with
    | zero => simp [read]
    | succ i =>
      rw [read, List.getElem?_cons_succ, ih]
      simp only [Nat.add_lt_add_iff_right, Nat.add_right_comm offset 1 i, add_assoc]

lemma read_add (m : Nat) :
    read dev offset (m + n) = read dev offset m ++ read dev (offset + m) n := by
  induction m generalizing offset with
  | zero => simp [read]
  | succ m ih =>
    rw [Nat.succ_add, read, ih, Nat.add_right_comm]
    rfl

lemma read_eq (h : ∀ i < bs.length, dev (offset + i) = bs.getD i 0) :
    read dev offset bs.length = bs := by
  apply List.ext_getElem?
  intro i
  rw [getElem?_read]
  split_ifs with hi
  · rw [h i hi, List.getD_eq_getElem?_getD, List.getElem?_eq_getElem hi]
    rfl
  · rw [List.getElem?_eq_none (not_lt.mp hi)]

lemma read_congr (h : ∀ p, offset ≤ p → p < offset + n → dev p = dev' p) :
    read dev offset n = read dev' offset n := by
  apply List.ext_getElem?
  intro i
  rw [getElem?_read, getElem?_read]
  split
  · rw [h (offset + i) (Nat.le_add_right ..) (by omega)]
  · rfl

lemma write_apply_of_not_mem {p : Nat} (h : p < offset ∨ offset + bs.length ≤ p) :
    write dev offset bs p = dev p := by
  unfold write
  split
  · rw [List.getElem?_eq_none (by omega)]
    rfl
  · rfl

lemma read_write_of_disjoint (h : at' + n ≤ offset ∨ offset + bs.length ≤ at') :
    read (write dev offset bs) at' n = read dev at' n := by
  apply read_congr
  intro p hp hlt
  exact write_apply_of_not_mem (by omega)

lemma read_write (h : n ≤ bs.length) : read (write dev offset bs) offset n = bs.take n := by
  apply List.ext_getElem?
  intro i
  rw [getElem?_read, List.getElem?_take]
  split
  · have hget : bs[i]? = some bs[i] := List.getElem?_eq_getElem (by omega)
    simp [write, hget]
  · rfl

end Device

/-! ## Little-endian numbers -/

/-- The low `n` bytes of `v`, lowest first. -/
def leBytes : Nat → Nat → Bytes
  | 0, _ => []
  | n + 1, v => UInt8.ofNat (v % 256) :: leBytes n (v / 256)

def leValue : Bytes → Nat
  | [] => 0
  | b :: bs => b.toNat + 256 * leValue bs

@[simp] lemma length_leBytes (n v : Nat) : (leBytes n v).length = n := by
  induction n generalizing v with
  | zero => rfl
  | succ n ih => simp [leBytes, ih]

lemma leValue_leBytes {n v : Nat} (h : v < 256 ^ n) : leValue (leBytes n v) = v := by
  induction n generalizing v with
  | zero =>
    have hv : v = 0 := by simpa using h
    rw [hv]
    rfl
  | succ n ih =>
    have hdiv : v / 256 < 256 ^ n := by
      rw [Nat.div_lt_iff_lt_mul (by omega)]
      rwa [Nat.pow_succ] at h
    have hbyte : (UInt8.ofNat (v % 256)).toNat = v % 256 := by
      simp
    rw [leBytes, leValue, ih hdiv]
    omega

end LMCache.Lib
