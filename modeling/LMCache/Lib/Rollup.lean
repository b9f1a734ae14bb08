/-
LMCache.Lib.Rollup — totals by group, kept beside a table of sizes.

A rollup assigns to each group the total size of its items. It is not computed
from the table of sizes but adjusted by the change of each item, and a group
whose total falls to zero is dropped. `Rolled` says that the rollup holds the
totals that the table has; it survives every change of one item, whatever the
groups are.
-/
import Mathlib.Algebra.Order.BigOperators.Group.List
import LMCache.Lib.Dict

namespace LMCache.Lib

namespace Dict

variable {κ ν : Type} (F : κ → ν → Int)

/-- The sum of a term for each entry. -/
def sumOf (d : Dict κ ν) : Int := (d.entries.map fun p => F p.1 p.2).sum

variable [DecidableEq κ] (d : Dict κ ν) (k : κ)

lemma sumOf_at : d.sumOf F = (d.get? k).elim 0 (F k) + (d.erase k).sumOf F := by
  cases h : d.get? k with
  | none => simp [erase_of_not_mem h]
  | some v => simp [sumOf, ((entries_erase h).map fun p => F p.1 p.2).sum_eq]

lemma sumOf_set (v : ν) : (d.set k v).sumOf F = F k v + (d.erase k).sumOf F := by
  rw [sumOf_at F _ k, get?_set_self, sumOf, erase_set]
  rfl

end Dict

variable {ι κ : Type}

/-- The total size of the items of a kind. -/
def sizeOfKind (P : ι → Bool) (sizes : Dict ι Nat) : Int :=
  sizes.sumOf fun i (size : Nat) => if P i then (size : Int) else 0

lemma sizeOfKind_nonneg (P : ι → Bool) (sizes : Dict ι Nat) : 0 ≤ sizeOfKind P sizes := by
  refine List.sum_nonneg fun x hx => ?_
  obtain ⟨p, -, rfl⟩ := List.mem_map.mp hx
  dsimp only
  split <;> omega

/-- The sizes differ in one item, by `delta`. -/
def ChangedBy (sizes sizes' : Dict ι Nat) (i : ι) (delta : Int) : Prop :=
  ∀ P : ι → Bool,
    sizeOfKind P sizes' = sizeOfKind P sizes + if P i then delta else 0

section Changes

variable [DecidableEq ι] (sizes : Dict ι Nat) (i : ι)

lemma changedBy_set (size : Nat) :
    ChangedBy sizes (sizes.set i size) i (size - ((sizes.get? i).getD 0 : Nat)) := by
  intro P
  rw [sizeOfKind, sizeOfKind, Dict.sumOf_set, Dict.sumOf_at _ sizes i]
  cases sizes.get? i <;> by_cases hP : P i <;> simp [hP] <;> omega

lemma changedBy_erase : ChangedBy sizes (sizes.erase i) i (-((sizes.get? i).getD 0 : Nat)) := by
  intro P
  rw [sizeOfKind, sizeOfKind, Dict.sumOf_at _ sizes i]
  cases sizes.get? i <;> by_cases hP : P i <;> simp [hP]

end Changes

variable [DecidableEq κ]

/-- A change of one group; a group that falls to zero is dropped. -/
def adjustRollup (rollup : Dict κ Int) (k : κ) (delta : Int) : Dict κ Int :=
  if 0 < (rollup.get? k).getD 0 + delta then rollup.set k ((rollup.get? k).getD 0 + delta)
  else rollup.erase k

/-- The rollup of the sizes by `group`: the total of each group, and with them
the total of any set of groups. -/
structure Rolled (group : ι → κ) (sizes : Dict ι Nat) (rollup : Dict κ Int) : Prop where
  totals : ∀ k, (rollup.get? k).getD 0 = sizeOfKind (fun i => decide (group i = k)) sizes
  sums : ∀ P : κ → Bool,
    rollup.sumOf (fun k total => if P k then total else 0) = sizeOfKind (fun i => P (group i)) sizes

variable {group : ι → κ} {sizes sizes' : Dict ι Nat} {rollup : Dict κ Int}

lemma rolled_empty : Rolled group ∅ ∅ := ⟨fun _ => rfl, fun _ => rfl⟩

lemma Rolled.unchanged (h : Rolled group sizes rollup) {i : ι} (hchange : ChangedBy sizes sizes' i 0) :
    Rolled group sizes' rollup :=
  ⟨fun k => by simp [h.totals, hchange _], fun P => by simp [h.sums, hchange _]⟩

lemma Rolled.adjust (h : Rolled group sizes rollup) {i : ι} {delta : Int}
    (hchange : ChangedBy sizes sizes' i delta) :
    Rolled group sizes' (adjustRollup rollup (group i) delta) := by
  -- The new total of the group is a total of sizes, so it is never negative.
  have htotal : (rollup.get? (group i)).getD 0 + delta
      = sizeOfKind (fun j => decide (group j = group i)) sizes' := by
    simp [h.totals, hchange _]
  have hnonneg := htotal ▸ sizeOfKind_nonneg (fun j => group j = group i) sizes'
  have hget : ∀ k, ((adjustRollup rollup (group i) delta).get? k).getD 0
      = (rollup.get? k).getD 0 + if group i = k then delta else 0 := by
    intro k
    unfold adjustRollup
    split
    · rw [Dict.get?_set]
      by_cases hk : k = group i
      · simp [hk]
      · simp [hk, Ne.symm hk]
    · rw [Dict.get?_erase]
      by_cases hk : k = group i
      · simp only [hk, if_true, Option.getD_none]
        omega
      · simp [hk, Ne.symm hk]
  refine ⟨fun k => by simp [hget, h.totals, hchange _], fun P => ?_⟩
  rw [hchange, ← h.sums, Dict.sumOf_at _ rollup (group i), adjustRollup]
  split
  · rw [Dict.sumOf_set]
    cases rollup.get? (group i) <;> by_cases hP : P (group i) <;> simp [hP] <;> omega
  · have hzero : (rollup.get? (group i)).getD 0 + delta = 0 := by omega
    cases hold : rollup.get? (group i) <;> rw [hold] at hzero <;>
      by_cases hP : P (group i) <;> simp [hP] at hzero ⊢ <;> omega

end LMCache.Lib
