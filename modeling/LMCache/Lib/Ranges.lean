/-
LMCache.Lib.Ranges — half-open ranges that follow one another.

A pair `(lo, hi)` stands for the points `lo, …, hi - 1`, Mathlib's
`List.Ico lo hi`. `Consecutive a b pieces` says the pieces cut the range from
`a` to `b`: each starts where the one before ends. Clipped from below, the
pieces list the points of the clipped range in order
(`Consecutive.flatMap_clip`), and each point lies in exactly one of them
(`Consecutive.countP`).

`cover` counts how many ranges of a list a point is in. It is the account of
a resource that is taken and given back by range.

`filterMap_Ico` and its neighbours are the slices of lists and ranges;
`flatMap_perm_comm` exchanges two nested loops up to order, and `range_mul` is
the loop over a flat index.
-/
import Mathlib.Data.List.Intervals
import Mathlib.Data.Multiset.Bind

namespace LMCache.Lib

open List

/-! ## Cutting a range -/

/-- The pieces follow one another from `a` to `b`. -/
def Consecutive : Nat → Nat → List (Nat × Nat) → Prop
  | a, b, [] => a = b
  | a, b, piece :: pieces => piece.1 = a ∧ a ≤ piece.2 ∧ Consecutive piece.2 b pieces

/-- The point lies in the range. -/
def inRange (point : Nat) (range : Nat × Nat) : Bool :=
  decide (range.1 ≤ point) && decide (point < range.2)

lemma inRange_iff {point : Nat} {range : Nat × Nat} :
    inRange point range ↔ range.1 ≤ point ∧ point < range.2 := by
  simp [inRange]

namespace Consecutive

variable {a b : Nat} {pieces : List (Nat × Nat)}

section

variable (h : Consecutive a b pieces)
include h

lemma le : a ≤ b := by
  induction pieces generalizing a with
  | nil => exact Nat.le_of_eq h
  | cons piece pieces ih => exact le_trans h.2.1 (ih h.2.2)

lemma piece_le {piece : Nat × Nat} (hp : piece ∈ pieces) :
    a ≤ piece.1 ∧ piece.1 ≤ piece.2 ∧ piece.2 ≤ b := by
  induction pieces generalizing a with
  | nil => simp at hp
  | cons first pieces ih =>
    obtain ⟨hfirst, hle, hrest⟩ := h
    rcases mem_cons.mp hp with rfl | hmem
    · exact ⟨Nat.le_of_eq hfirst.symm, by omega, hrest.le⟩
    · obtain ⟨h1, h2, h3⟩ := ih hrest hmem
      exact ⟨by omega, h2, h3⟩

/-- Cut and clipped from below, the range lists the same points in order. -/
lemma flatMap_clip (lo : Nat) :
    pieces.flatMap (fun piece => Ico (max lo piece.1) piece.2) = Ico (max lo a) b := by
  induction pieces generalizing a with
  | nil =>
    obtain rfl : a = b := h
    simp
  | cons piece pieces ih =>
    obtain ⟨rfl, hle, hrest⟩ := h
    have hb := hrest.le
    rw [flatMap_cons, ih hrest]
    by_cases hlo : lo ≤ piece.2
    · rw [max_eq_right hlo]
      exact Ico.append_consecutive (by omega) hb
    · rw [Ico.eq_nil_of_le (show piece.2 ≤ max lo piece.1 by omega), nil_append]
      congr 1
      omega

/-- Each point of the range lies in exactly one piece. -/
lemma countP {point : Nat} (ha : a ≤ point) (hb : point < b) :
    pieces.countP (inRange point) = 1 := by
  induction pieces generalizing a with
  | nil =>
    obtain rfl : a = b := h
    omega
  | cons piece pieces ih =>
    obtain ⟨rfl, hle, hrest⟩ := h
    by_cases hp : point < piece.2
    · -- the later pieces start past the point
      have hnone : pieces.countP (inRange point) = 0 := by
        refine countP_eq_zero.mpr fun later hlater hin => ?_
        have hstart := (hrest.piece_le hlater).1
        have hpoint := (inRange_iff.mp hin).1
        omega
      rw [countP_cons_of_pos (inRange_iff.mpr ⟨ha, hp⟩), hnone]
    · rw [countP_cons_of_neg (fun hin => hp (inRange_iff.mp hin).2)]
      exact ih hrest (by omega)

end

end Consecutive

/-! ## Accounts by range -/

/-- How many of the ranges the point is in. -/
def cover (ranges : List (Nat × Nat)) (point : Nat) : Nat := ranges.countP (inRange point)

@[simp] lemma cover_nil (point : Nat) : cover [] point = 0 := rfl

lemma cover_append (ranges ranges' : List (Nat × Nat)) (point : Nat) :
    cover (ranges ++ ranges') point = cover ranges point + cover ranges' point :=
  countP_append

/-! ## Slices -/

lemma drop_Ico (lo hi n : Nat) : (Ico lo hi).drop n = Ico (lo + n) hi := by
  rw [Ico, drop_range', Nat.mul_one]
  congr 1
  omega

lemma take_Ico (lo hi n : Nat) : (Ico lo hi).take n = Ico lo (min (lo + n) hi) := by
  by_cases h : lo + n ≤ hi
  · rw [Nat.min_eq_left h, ← Ico.append_consecutive (Nat.le_add_right lo n) h, take_left' (by simp)]
  · rw [Nat.min_eq_right (by omega), take_of_length_le (by simp; omega)]

/-- Reading a list at the points of a range gives a slice of it. -/
lemma filterMap_Ico {α : Type} (l : List α) {lo hi : Nat} (h : hi ≤ l.length) :
    (Ico lo hi).filterMap (l[·]?) = (l.take hi).drop lo := by
  induction hn : hi - lo generalizing lo with
  | zero =>
    rw [Ico.eq_nil_of_le (by omega), drop_eq_nil_of_le (by simp; omega)]
    rfl
  | succ n ih =>
    have hlo : lo < (l.take hi).length := by simp; omega
    rw [Ico.eq_cons (by omega), drop_eq_getElem_cons hlo, ← ih (by omega),
      filterMap_cons, getElem?_eq_getElem (by omega)]
    simp

/-! ## Nested loops -/

/-- A flat index over `rows * width` runs through the rows. -/
lemma range_mul (rows width : Nat) :
    range (rows * width)
      = (range rows).flatMap fun row => (range width).map fun column => row * width + column := by
  induction rows with
  | zero => simp
  | succ rows ih =>
    rw [Nat.succ_mul, range_add, ih, range_succ]
    simp

lemma flatMap_perm_comm {α β γ : Type} (as : List α) (bs : List β) (f : α → β → List γ) :
    (as.flatMap fun a => bs.flatMap (f a)).Perm (bs.flatMap fun b => as.flatMap fun a => f a b) := by
  have hbind := Multiset.bind_bind (as : Multiset α) (bs : Multiset β)
    (f := fun a b => (f a b : Multiset γ))
  simpa only [Multiset.coe_bind, Multiset.coe_eq_coe] using hbind

end LMCache.Lib
