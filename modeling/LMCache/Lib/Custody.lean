/-
LMCache.Lib.Custody — who has a resource.

`Once U l` says the list `l` holds every element of `U` once and nothing
else. A store that keeps its resources in several lists is described by
`Once` of the lists appended; an operation that moves a resource from one
list to another permutes the appended list.

`Custody` is a pool of resources with any number of owners. A resource is
free, in transit (inside a call that is still running), or held; a held
resource may have many holds, of different kinds and by different owners.
`Exact U` says every resource of `U` is in exactly one of the three places.
-/
import Mathlib.Data.List.Dedup
import Mathlib.Data.List.Count

namespace LMCache.Lib

open List

variable {α : Type} [DecidableEq α]

/-- `l` holds every element of `U` exactly once and nothing else. -/
def Once (U : α → Prop) [DecidablePred U] (l : List α) : Prop :=
  ∀ x, l.count x = if U x then 1 else 0

section Once

variable {U : α → Prop} [DecidablePred U] {l m : List α} {x : α}

lemma Once.perm (h : Once U l) (hperm : l.Perm m) : Once U m := fun x =>
  (hperm.count_eq x).symm.trans (h x)

lemma Once.nodup (h : Once U l) : l.Nodup := by
  rw [nodup_iff_count_le_one]
  intro x
  rw [h x]
  split <;> omega

lemma Once.mem_iff (h : Once U l) : x ∈ l ↔ U x := by
  rw [← count_pos_iff, h x]
  split <;> simp [*]

lemma Once.not_mem (h : Once U (l ++ m)) (hx : x ∈ l) : x ∉ m := fun hm =>
  disjoint_of_nodup_append h.nodup hx hm

end Once

lemma once_range (n : Nat) : Once (· < n) (range n) := by
  intro x
  by_cases hx : x < n
  · rw [if_pos hx, count_eq_one_of_mem nodup_range (mem_range.mpr hx)]
  · rw [if_neg hx, count_eq_zero_of_not_mem (fun h => hx (mem_range.mp h))]

lemma Once.succ {n : Nat} {l : List Nat} (h : Once (· < n) l) : Once (· < n + 1) (n :: l) := by
  intro x
  have hx := h x
  rw [count_cons]
  by_cases hxn : x = n
  · simp_all
  · have hbeq : (n == x) = false := by simpa using fun heq => hxn heq.symm
    have hlt : x < n + 1 ↔ x < n := by omega
    simp only [hbeq, hlt, hx]
    simp

/-! ## Pools with owners -/

structure Custody (Owner Kind α : Type) where
  free : List α
  transit : List α
  holds : List (Owner × Kind × α)

namespace Custody

variable {Owner Kind : Type}

/-- The resources some hold is on, once per hold. -/
def pages (holds : List (Owner × Kind × α)) : List α := holds.map (·.2.2)

def places (c : Custody Owner Kind α) : List α :=
  c.free ++ (c.transit ++ (pages c.holds).dedup)

/-- Every resource of `U` is free, in transit or held, and only one of them. -/
def Exact (U : α → Prop) [DecidablePred U] (c : Custody Owner Kind α) : Prop := Once U c.places

variable {U : α → Prop} [DecidablePred U] {free transit ps : List α} {x : α}
  {holds holds' : List (Owner × Kind × α)}

lemma exact_iff : Exact U ⟨free, transit, holds⟩ ↔
    ∀ x, free.count x + transit.count x + (if x ∈ pages holds then 1 else 0) =
      if U x then 1 else 0 := by
  apply forall_congr'
  intro x
  show (free ++ (transit ++ (pages holds).dedup)).count x = _ ↔ _
  rw [count_append, count_append, count_dedup, Nat.add_assoc]

section

variable (h : Exact U ⟨free, transit, holds⟩)
include h

/-- What is in transit is there once, and nobody holds it. -/
lemma Exact.transit_once : transit.Nodup ∧ ∀ x ∈ transit, x ∉ pages holds := by
  have hplaces := nodup_append.mp (nodup_append.mp (Once.nodup h)).2.1
  exact ⟨hplaces.1, fun x hx hh => hplaces.2.2 x hx x (mem_dedup.mpr hh) rfl⟩

lemma Exact.reorder {transit' : List α} (hperm : transit.Perm transit') :
    Exact U ⟨free, transit', holds⟩ :=
  Once.perm h ((hperm.append_right _).append_left _)

omit h in
lemma Exact.take (h : Exact U ⟨x :: free, transit, holds⟩) :
    Exact U ⟨free, x :: transit, holds⟩ :=
  Once.perm h perm_middle.symm

omit h in
lemma Exact.put (h : Exact U ⟨free, x :: transit, holds⟩) :
    Exact U ⟨free ++ [x], transit, holds⟩ := by
  refine Once.perm h ?_
  show (free ++ x :: (transit ++ _)).Perm ((free ++ [x]) ++ (transit ++ _))
  rw [append_assoc, singleton_append]

omit h in
lemma Exact.grant (h : Exact U ⟨free, ps ++ transit, holds⟩) (o : Owner) (k : Kind) :
    Exact U ⟨free, transit, ps.map (o, k, ·) ++ holds⟩ := by
  rw [exact_iff]
  intro x
  have hx := exact_iff.mp h x
  have hps : ps.count x ≤ 1 :=
    nodup_iff_count_le_one.mp (nodup_append.mp h.transit_once.1).1 x
  have hmem : x ∈ pages (ps.map (o, k, ·) ++ holds) ↔ x ∈ ps ∨ x ∈ pages holds := by
    simp [pages]
  simp only [count_append] at hx ⊢
  by_cases hin : x ∈ ps
  · have hone : ps.count x = 1 := Nat.le_antisymm hps (count_pos_iff.mpr hin)
    have hout := h.transit_once.2 x (mem_append_left _ hin)
    rw [if_neg hout] at hx
    rw [if_pos (hmem.mpr (.inl hin))]
    omega
  · rw [count_eq_zero_of_not_mem hin] at hx
    simp only [hmem, hin, false_or]
    omega

/-- Holds come and go on resources that stay held. -/
lemma Exact.rehold (hsame : ∀ y, y ∈ pages holds' ↔ y ∈ pages holds) :
    Exact U ⟨free, transit, holds'⟩ := by
  rw [exact_iff]
  intro x
  have hx := exact_iff.mp h x
  simpa only [hsame] using hx

lemma Exact.retire (hnodup : ps.Nodup) (hps : ∀ p ∈ ps, p ∈ pages holds)
    (hrest : ∀ y, y ∈ pages holds' ↔ y ∉ ps ∧ y ∈ pages holds) :
    Exact U ⟨free, ps ++ transit, holds'⟩ := by
  rw [exact_iff]
  intro x
  have hx := exact_iff.mp h x
  simp only [count_append, hrest]
  by_cases hin : x ∈ ps
  · rw [if_pos (hps x hin)] at hx
    rw [if_neg (fun hh => hh.1 hin), count_eq_one_of_mem hnodup hin]
    omega
  · rw [count_eq_zero_of_not_mem hin]
    simp only [hin, not_false_eq_true, true_and]
    omega

end

end Custody

end LMCache.Lib
