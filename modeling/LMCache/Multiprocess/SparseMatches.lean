/-
LMCache.Multiprocess.SparseMatches — which matches the sparse part of a blend
lookup uses.

The matches past the prefix are taken in the order of their positions, each
that starts where the last one taken has ended. All matches are of one length,
so the order of the starts is that of the ends, and no choice of disjoint
matches is larger (`length_le_scan`).
-/
import Mathlib.Data.List.Perm.Subperm

namespace LMCache.Multiprocess

open List

/-- `CBMatchResult`. -/
structure CBMatchResult where
  oldSt : Int
  oldEd : Int
  curSt : Nat
  curEd : Nat
  hash : List UInt8

namespace CBMatchResult

/-- The loop of `_non_overlapping_after_prefix`. -/
def scan : Int → List CBMatchResult → List CBMatchResult
  | _, [] => []
  | coveredEnd, r :: rest =>
    if coveredEnd ≤ r.curSt then r :: scan r.curEd rest else scan coveredEnd rest

section

variable (found : List CBMatchResult) (prefixTokens : Nat)

/-- The matches past the prefix, by position. -/
def pastPrefix : List CBMatchResult :=
  (found.filter fun r => prefixTokens ≤ r.curSt).mergeSort fun r r' => r.curSt ≤ r'.curSt

/-- `_non_overlapping_after_prefix`. -/
def nonOverlappingAfterPrefix : List CBMatchResult :=
  scan (-1) (pastPrefix found prefixTokens)

end

/-- Two matches have no position of the request in common. -/
def Apart (r r' : CBMatchResult) : Prop := r.curEd ≤ r'.curSt ∨ r'.curEd ≤ r.curSt

variable {len : Nat} {coveredEnd : Int} {found other : List CBMatchResult}

lemma scan_sublist : scan coveredEnd found <+ found := by
  induction found generalizing coveredEnd with
  | nil => exact .slnil
  | cons r rest ih =>
    unfold scan
    split
    · exact ih.cons_cons r
    · exact ih.cons r

section EqualLength

variable (hlen : ∀ r ∈ found, r.curEd = r.curSt + len)
include hlen

/-- What is taken starts past the end covered before, and one after the other. -/
lemma scan_consecutive (coveredEnd : Int) : (∀ r ∈ scan coveredEnd found, coveredEnd ≤ r.curSt) ∧
    (scan coveredEnd found).Pairwise fun r r' => r.curEd ≤ r'.curSt := by
  induction found generalizing coveredEnd with
  | nil => exact ⟨fun r hr => absurd hr not_mem_nil, .nil⟩
  | cons r rest ih =>
    obtain ⟨hr, hrest⟩ := forall_mem_cons.mp hlen
    unfold scan
    split_ifs with hpast
    · obtain ⟨hstarts, hpairs⟩ := ih hrest r.curEd
      refine ⟨forall_mem_cons.mpr ⟨hpast, fun r' hr' => ?_⟩, .cons (fun r' hr' => ?_) hpairs⟩
      all_goals have := hstarts r' hr'; omega
    · exact ih hrest coveredEnd

variable (hsorted : found.Pairwise fun r r' => r.curSt ≤ r'.curSt)
include hsorted

/-- What is not taken starts before the end covered before, or inside a match
that was taken. -/
lemma exists_dropped (coveredEnd : Int) : ∃ dropped, (scan coveredEnd found ++ dropped).Perm found ∧
    ∀ r ∈ dropped, r.curSt < coveredEnd ∨
      ∃ kept ∈ scan coveredEnd found, kept.curSt ≤ r.curSt ∧ r.curSt < kept.curEd := by
  induction found generalizing coveredEnd with
  | nil => exact ⟨[], .nil, fun r hr => absurd hr not_mem_nil⟩
  | cons r rest ih =>
    obtain ⟨hahead, hsorted⟩ := pairwise_cons.mp hsorted
    have hrest := (forall_mem_cons.mp hlen).2
    unfold scan
    split_ifs with hinside
    · obtain ⟨dropped, hperm, hdropped⟩ := ih hrest hsorted r.curEd
      refine ⟨dropped, hperm.cons r, fun x hx => .inr ?_⟩
      rcases hdropped x hx with hlt | ⟨kept, hkept, hin⟩
      · have hmem : x ∈ rest := hperm.subset (mem_append_right _ hx)
        exact ⟨r, mem_cons_self, hahead x hmem, Int.ofNat_lt.mp hlt⟩
      · exact ⟨kept, mem_cons_of_mem _ hkept, hin⟩
    · obtain ⟨dropped, hperm, hdropped⟩ := ih hrest hsorted coveredEnd
      exact ⟨r :: dropped, perm_middle.trans (hperm.cons r),
        forall_mem_cons.mpr ⟨.inl (Int.not_le.mp hinside), hdropped⟩⟩

/-- The first of any disjoint matches ends no earlier than the one taken in its
place. -/
lemma length_le_scan (hsub : other <+ found) (hpast : ∀ r ∈ other, coveredEnd ≤ r.curSt)
    (hother : other.Pairwise fun r r' => r.curEd ≤ r'.curSt) :
    other.length ≤ (scan coveredEnd found).length := by
  induction found generalizing coveredEnd other with
  | nil => rw [sublist_nil.mp hsub]; exact Nat.zero_le _
  | cons r rest ih =>
    obtain ⟨hahead, hsorted⟩ := pairwise_cons.mp hsorted
    obtain ⟨hr, hrest⟩ := forall_mem_cons.mp hlen
    unfold scan
    cases other with
    | nil => exact Nat.zero_le _
    | cons x others =>
      obtain ⟨hafter, hothers⟩ := pairwise_cons.mp hother
      obtain ⟨hx, -⟩ := forall_mem_cons.mp hpast
      split_ifs with hinside
      · have hends : r.curEd ≤ x.curEd := by
          have hmem : x ∈ r :: rest := hsub.subset mem_cons_self
          rw [hr, hlen x hmem]
          rcases mem_cons.mp hmem with rfl | hmem
          · exact Nat.le_refl _
          · exact Nat.add_le_add_right (hahead x hmem) len
        refine Nat.succ_le_succ (ih hrest hsorted hsub.tail (fun r' hr' => ?_) hothers)
        exact Int.ofNat_le.mpr (Nat.le_trans hends (hafter r' hr'))
      · refine ih hrest hsorted ?_ hpast hother
        cases hsub with
        | cons _ hsub => exact hsub
        | cons_cons _ _ => exact absurd hx hinside

end EqualLength

variable (found) in
lemma pastPrefix_sorted (prefixTokens : Nat) :
    (pastPrefix found prefixTokens).Pairwise fun r r' => r.curSt ≤ r'.curSt := by
  have hsorted : (pastPrefix found prefixTokens).Pairwise fun r r' => decide (r.curSt ≤ r'.curSt) :=
    pairwise_mergeSort (fun _ _ _ => by simpa using Nat.le_trans)
      (fun _ _ => by simpa using Nat.le_total _ _) _
  simpa using hsorted

/-- Of equal-length matches the sparse part uses as many as any choice of
disjoint matches past the prefix has. -/
theorem nonOverlapping_maximum (found : List CBMatchResult) (prefixTokens len : Nat)
    (hlen : ∀ r ∈ found, r.curEd = r.curSt + len) :
    (∀ r ∈ nonOverlappingAfterPrefix found prefixTokens, prefixTokens ≤ r.curSt) ∧
    (nonOverlappingAfterPrefix found prefixTokens).Pairwise
      (fun r r' => r.curSt ≤ r'.curSt ∧ r.Apart r') ∧
    (∃ dropped, (nonOverlappingAfterPrefix found prefixTokens ++ dropped).Perm
        (found.filter fun r => prefixTokens ≤ r.curSt) ∧
      ∀ r ∈ dropped, ∃ kept ∈ nonOverlappingAfterPrefix found prefixTokens, ¬ r.Apart kept) ∧
    ∀ other, other <+~ found → (∀ r ∈ other, prefixTokens ≤ r.curSt) → other.Pairwise Apart →
      other.length ≤ (nonOverlappingAfterPrefix found prefixTokens).length := by
  have hperm : (pastPrefix found prefixTokens).Perm _ := mergeSort_perm _ _
  have hsorted := pastPrefix_sorted found prefixTokens
  unfold nonOverlappingAfterPrefix
  generalize pastPrefix found prefixTokens = past at hperm hsorted
  have hpast : ∀ r ∈ past, r ∈ found ∧ prefixTokens ≤ r.curSt := fun r hr => by
    simpa using hperm.subset hr
  have hlen' : ∀ r ∈ past, r.curEd = r.curSt + len := fun r hr => hlen r (hpast r hr).1
  obtain ⟨dropped, hsplit, hdropped⟩ := exists_dropped hlen' hsorted (-1)
  refine ⟨fun r hr => (hpast r (scan_sublist.subset hr)).2, ?_, ?_, ?_⟩
  · exact ((hsorted.sublist scan_sublist).and (scan_consecutive hlen' _).2).imp
      fun h => ⟨h.1, .inl h.2⟩
  · refine ⟨dropped, hsplit.trans hperm, fun r hr => ?_⟩
    obtain hlt | ⟨kept, hkept, hle, hlt⟩ := hdropped r hr
    · omega
    · have hr := hlen' r (hsplit.subset (mem_append_right _ hr))
      have hk := hlen' kept (scan_sublist.subset hkept)
      exact ⟨kept, hkept, fun hapart => by rcases hapart with hends | hends <;> omega⟩
  · intro other hsub hstart hapart
    have hself : other.filter (fun r => prefixTokens ≤ r.curSt) = other :=
      filter_eq_self.mpr fun r hr => by simpa using hstart r hr
    obtain ⟨chosen, hchosen, hin⟩ := hself ▸ (hsub.filter _).trans hperm.symm.subperm
    rw [← hchosen.length_eq]
    refine length_le_scan hlen' hsorted hin (fun r _ => by omega) ?_
    refine ((hsorted.sublist hin).and (hchosen.symm.pairwise hapart fun h => h.symm)).imp_of_mem ?_
    rintro r r' hr hr' ⟨hle, hends | hends⟩
    · exact hends
    · -- two empty matches at one position
      have hr := hlen' r (hin.subset hr)
      have hr' := hlen' r' (hin.subset hr')
      omega

/-- One match in the prefix, three one after the other, and one across two of
these. -/
def fiveMatches : List CBMatchResult :=
  [12, 6, 4, 0, 8].map fun start => ⟨0, 4, start, start + 4, []⟩

theorem nonOverlapping_maximum_five :
    3 ≤ (nonOverlappingAfterPrefix fiveMatches 4).length ∧
    ∀ r ∈ nonOverlappingAfterPrefix fiveMatches 4, 4 ≤ r.curSt := by
  obtain ⟨hpast, -, -, hmax⟩ := nonOverlapping_maximum fiveMatches 4 4 (by simp [fiveMatches])
  refine ⟨hmax [⟨0, 4, 12, 16, []⟩, ⟨0, 4, 4, 8, []⟩, ⟨0, 4, 8, 12, []⟩] ?_ (by simp) ?_, hpast⟩
  · exact (Sublist.cons_cons _ (.cons _ (.cons_cons _ (.cons _ (.cons_cons _ .slnil))))).subperm
  · simp [Apart]

end CBMatchResult

end LMCache.Multiprocess
