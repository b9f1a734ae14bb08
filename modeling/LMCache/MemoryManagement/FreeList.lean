/-
LMCache.MemoryManagement.FreeList — what the edits of the free list amount to.

On a separated list, removing a block and inserting its rest is the same as
replacing it in place. So `allocate` is `firstFit` and `batched_allocate` is
`fill`, both by recursion on the list, and `fill_succ` says that filling
`k + 1` requests is one first fit and then `k` more: the batch is the
successive calls. Likewise `free` and `sbrk` put a block between its
neighbours and join what touches.
-/
import LMCache.MemoryManagement.AddressManager
import Mathlib.Tactic.Ring

namespace LMCache.MemoryManagement

open Lib List AddressManager Extent

variable {a k : Nat} {b e : Extent} {blocks pre post : List Extent}

/-! ## The alignment -/

lemma computeAlignedSize_pos (m : AddressManager) {rawSize : Nat} (h : 0 < rawSize) :
    0 < m.computeAlignedSize rawSize := by
  refine Nat.pos_of_ne_zero fun hzero => ?_
  have hand : (rawSize + m.align - 1) &&& (m.align - 1) = rawSize + m.align - 1 := by
    refine Nat.eq_of_testBit_eq fun i => ?_
    have hbit := congrArg (Nat.testBit · i) hzero
    simp only [computeAlignedSize_eq, Nat.testBit_ldiff, Nat.zero_testBit] at hbit
    cases hx : (rawSize + m.align - 1).testBit i <;> simp_all
  have hle : (rawSize + m.align - 1) &&& (m.align - 1) ≤ m.align - 1 := Nat.and_le_right
  have hpos := m.align_pos
  omega

lemma align_dvd_computeAlignedSize (m : AddressManager) {i : Nat} (h : m.align = 2 ^ i)
    (rawSize : Nat) : m.align ∣ m.computeAlignedSize rawSize := by
  rw [computeAlignedSize_eq, h]
  refine Nat.dvd_of_mod_eq_zero (Nat.eq_of_testBit_eq fun j => ?_)
  by_cases hj : j < i <;> simp [hj]

/-! ## First fit -/

/-- Cut `a` addresses off the first block that has them. -/
def firstFit (a : Nat) : List Extent → Option (Extent × List Extent)
  | [] => none
  | b :: blocks =>
    if b.size < a then (firstFit a blocks).map fun r => (r.1, b :: r.2)
    else some (⟨b.start, a⟩, b.trim a ++ blocks)

/-- Cut `k` times, in one pass. -/
def fill (a : Nat) : List Extent → Nat → Option (List Extent × List Extent)
  | blocks, 0 => some ([], blocks)
  | [], _ + 1 => none
  | b :: blocks, k + 1 =>
    if b.size < a then (fill a blocks (k + 1)).map fun r => (r.1, b :: r.2)
    else
      (fill a blocks (k + 1 - min (k + 1) (b.size / a))).map fun r =>
        ((List.range (min (k + 1) (b.size / a))).map (fun i => ⟨b.start + i * a, a⟩) ++ r.1,
          b.trim (min (k + 1) (b.size / a) * a) ++ r.2)

@[simp] lemma fill_zero : fill a blocks 0 = some ([], blocks) := by
  cases blocks <;> rfl

lemma fill_skip (h : b.size < a) (k : Nat) :
    fill a (b :: blocks) k = (fill a blocks k).map fun r => (r.1, b :: r.2) := by
  cases k with
  | zero => simp
  | succ k => simp only [fill, if_pos h]

lemma fill_fit (ha : 0 < a) (h : a ≤ b.size) : fill a (b :: blocks) (k + 1)
      = (fill a (b.trim a ++ blocks) k).map fun r => (⟨b.start, a⟩ :: r.1, r.2) := by
  have hdiv : b.size / a = (b.size - a) / a + 1 := by
    rw [← Nat.sub_add_cancel h, Nat.add_div_right _ ha, Nat.add_sub_cancel]
  simp only [fill, if_neg (not_lt.mpr h), trim]
  by_cases hrest : b.size > a
  · rw [if_pos hrest]
    simp only [cons_append, nil_append]
    cases k with
    | zero =>
      have hone : min (0 + 1) (b.size / a) = 1 :=
        Nat.min_eq_left (hdiv ▸ Nat.le_add_left 1 _)
      simp [hone, hrest]
    | succ k =>
      by_cases hfit : b.size - a < a
      · have hone : min (k + 1 + 1) (b.size / a) = 1 := by
          rw [hdiv, Nat.div_eq_of_lt hfit]
          omega
        have hskip : fill a (⟨b.start + a, b.size - a⟩ :: blocks) (k + 1)
            = (fill a blocks (k + 1)).map fun r => (r.1, ⟨b.start + a, b.size - a⟩ :: r.2) :=
          fill_skip hfit (k + 1)
        rw [hskip, hone, Option.map_map]
        simp [hrest, Function.comp_def]
      · have hcount : min (k + 1 + 1) (b.size / a) = min (k + 1) ((b.size - a) / a) + 1 := by
          omega
        simp only [fill, if_neg hfit, hcount, Option.map_map]
        generalize min (k + 1) ((b.size - a) / a) = n
        have hpieces : (range (n + 1)).map (fun i => (⟨b.start + i * a, a⟩ : Extent))
            = ⟨b.start, a⟩ :: (range n).map fun i => ⟨b.start + a + i * a, a⟩ := by
          rw [range_succ_eq_map, map_cons, map_map]
          simp only [Nat.zero_mul, add_zero, Function.comp_def, Nat.succ_eq_add_one,
            Nat.add_mul, Nat.one_mul]
          congr 2
          funext i
          congr 1
          omega
        have htrim : (if b.size > (n + 1) * a then
              [(⟨b.start + (n + 1) * a, b.size - (n + 1) * a⟩ : Extent)] else [])
            = if b.size - a > n * a then
              [⟨b.start + a + n * a, b.size - a - n * a⟩] else [] := by
          rw [Nat.add_mul, Nat.one_mul]
          have hstart : b.start + (n * a + a) = b.start + a + n * a := by omega
          have hsize : b.size - (n * a + a) = b.size - a - n * a := by omega
          rw [hstart, hsize]
          refine if_congr ?_ rfl rfl
          omega
        have hleft : k + 1 + 1 - (n + 1) = k + 1 - n := by omega
        rw [hpieces, htrim, hleft]
        rfl
  · obtain rfl : a = b.size := by omega
    have hone : min (k + 1) (b.size / b.size) = 1 := by
      rw [Nat.div_self ha]
      omega
    simp [hone]

lemma fill_succ (ha : 0 < a) (blocks : List Extent) (k : Nat) :
    fill a blocks (k + 1) = (firstFit a blocks).bind fun cut =>
      (fill a cut.2 k).map fun r => (cut.1 :: r.1, r.2) := by
  induction blocks with
  | nil => rfl
  | cons b blocks ih =>
    unfold firstFit
    by_cases h : b.size < a
    · rw [fill_skip h, ih, if_pos h]
      cases firstFit a blocks with
      | none => rfl
      | some cut =>
        simp only [Option.bind_some, Option.map_some, fill_skip h, Option.map_map]
        rfl
    · rw [if_neg h, fill_fit ha (not_lt.mp h)]
      rfl

/-! ## Edits of a separated list -/

section

variable (h : Separated (pre ++ b :: post))
include h

lemma Separated.not_mem_pre : b ∉ pre := by
  intro hb
  have hlt := (pairwise_append.mp h).2.2 b hb b mem_cons_self
  simp only [stop] at hlt
  omega

lemma separated_trim (a : Nat) : Separated (pre ++ (b.trim a ++ post)) := by
  obtain ⟨hpre, hpost, hlt⟩ := pairwise_append.mp h
  have hrest : ∀ c ∈ b.trim a, b.start ≤ c.start ∧ c.stop = b.stop := by
    intro c hc
    unfold trim at hc
    split at hc
    · obtain rfl := mem_singleton.mp hc
      simp only [stop]
      omega
    · exact absurd hc not_mem_nil
  refine pairwise_append.mpr ⟨hpre, pairwise_append.mpr
    ⟨?_, List.Pairwise.of_cons hpost, fun c hc d hd => ?_⟩, fun c hc d hd => ?_⟩
  · unfold trim
    split
    · exact pairwise_singleton _ _
    · exact .nil
  · rw [(hrest c hc).2]
    exact rel_of_pairwise_cons hpost hd
  · rcases mem_append.mp hd with hd | hd
    · exact Nat.lt_of_lt_of_le (hlt c hc b mem_cons_self) (hrest d hd).1
    · exact hlt c hc d (mem_cons_of_mem _ hd)

lemma insort_trim (a : Nat) :
    (if b.size > a then insort ⟨b.start + a, b.size - a⟩ ((pre ++ b :: post).erase b)
      else (pre ++ b :: post).erase b) = pre ++ (b.trim a ++ post) := by
  have hrest := separated_trim h a
  rw [erase_append_right _ (Separated.not_mem_pre h), erase_cons_head]
  unfold trim at hrest ⊢
  split_ifs at hrest with hlt
  · rw [if_pos hlt, if_pos hlt]
    exact insort_separated hrest
  · rw [if_neg hlt, if_neg hlt]
    rfl

end

variable (a blocks) in
/-- `firstFit` splits the list at the first block that is large enough. -/
lemma firstFit_split :
    (blocks.find? (fun b => decide (b.size ≥ a)) = none ∧ firstFit a blocks = none) ∨
    ∃ pre b post, blocks = pre ++ b :: post ∧ a ≤ b.size ∧
      blocks.find? (fun b => decide (b.size ≥ a)) = some b ∧
      firstFit a blocks = some (⟨b.start, a⟩, pre ++ (b.trim a ++ post)) := by
  induction blocks with
  | nil => exact .inl ⟨rfl, rfl⟩
  | cons b blocks ih =>
    by_cases h : b.size < a
    · simp only [firstFit, if_pos h, List.find?_cons, decide_eq_false (not_le.mpr h)]
      rcases ih with ⟨hnone, hfit⟩ | ⟨pre, c, post, rfl, hc, hsome, hfit⟩
      · exact .inl ⟨hnone, by rw [hfit]; rfl⟩
      · exact .inr ⟨b :: pre, c, post, rfl, hc, hsome, by rw [hfit]; rfl⟩
    · have hle : a ≤ b.size := not_lt.mp h
      refine .inr ⟨[], b, blocks, rfl, hle, ?_, ?_⟩
      · simp [hle]
      · simp [firstFit, h]

namespace AddressManager

variable {m : AddressManager} {size : Int}

/-- `allocate` is a first fit. -/
lemma allocate_eq (h : Separated m.explicitList) (hsize : 0 < size) :
    m.allocate size = match firstFit (m.computeAlignedSize size.toNat) m.explicitList with
      | none => (m, .error .runtimeError)
      | some (block, blocks) =>
        ({ m with
          explicitList := blocks
          totalAllocatedSize := m.totalAllocatedSize + m.computeAlignedSize size.toNat },
          .ok block) := by
  unfold allocate
  rw [if_neg (by omega)]
  dsimp only
  rcases firstFit_split (m.computeAlignedSize size.toNat) m.explicitList with
    ⟨hnone, hfit⟩ | ⟨pre, b, post, hblocks, hb, hsome, hfit⟩
  · rw [hnone, hfit]
  · rw [hsome, hfit]
    dsimp only
    rw [hblocks] at h ⊢
    rw [insort_trim h]

/-- An allocation of a positive size fails exactly when no free block is large
enough. -/
lemma allocate_fails_iff (hsize : 0 < size) : (m.allocate size).2 = .error .runtimeError ↔
      ∀ b ∈ m.explicitList, b.size < m.computeAlignedSize size.toNat := by
  unfold allocate
  rw [if_neg (by omega)]
  dsimp only
  split
  · rename_i hnone
    simpa using hnone
  · rename_i b hsome
    have hb : m.computeAlignedSize size.toNat ≤ b.size := by simpa using List.find?_some hsome
    refine ⟨fun herr => (nomatch herr), fun hall => ?_⟩
    exact absurd (hall b (mem_of_find?_eq_some hsome)) (not_lt.mpr hb)

end AddressManager

/-! ## The batch -/

lemma foldl_erase_append {rem blocks : List Extent} (h : ∀ c ∈ rem, c ∉ pre) :
    rem.foldl List.erase (pre ++ blocks) = pre ++ rem.foldl List.erase blocks := by
  induction rem generalizing blocks with
  | nil => rfl
  | cons c rem ih =>
    rw [foldl_cons, erase_append_right _ (h c mem_cons_self),
      ih fun d hd => h d (mem_cons_of_mem _ hd)]
    rfl

/-- The removals and insertions turn the list into the second one, whatever
separated list stands before it. -/
def Edits (blocks rem add blocks' : List Extent) : Prop :=
  (∀ c ∈ rem, c ∈ blocks) ∧ ∀ pre, Separated (pre ++ blocks) →
    add.foldl (fun blocks block => insort block blocks) (rem.foldl List.erase (pre ++ blocks))
      = pre ++ blocks'

lemma edits_nil (blocks : List Extent) : Edits blocks [] [] blocks :=
  ⟨fun _ h => absurd h not_mem_nil, fun _ _ => rfl⟩

lemma Edits.skip {rem add blocks' : List Extent} (h : Edits blocks rem add blocks') :
    Edits (b :: blocks) rem add (b :: blocks') := by
  refine ⟨fun c hc => mem_cons_of_mem _ (h.1 c hc), fun pre hsep => ?_⟩
  have happ : pre ++ b :: blocks = (pre ++ [b]) ++ blocks := by simp
  rw [happ] at hsep ⊢
  rw [h.2 _ hsep]
  simp

/-- A block is removed and its rest, if any, inserted. -/
lemma Edits.cut {rem add blocks' : List Extent} (h : Edits blocks rem add blocks') (a : Nat) :
    Edits (b :: blocks) (b :: rem) (b.trim a ++ add) (b.trim a ++ blocks') := by
  refine ⟨fun c hc => ?_, fun pre hsep => ?_⟩
  · rcases mem_cons.mp hc with rfl | hc
    · exact mem_cons_self
    · exact mem_cons_of_mem _ (h.1 c hc)
  rw [foldl_cons, erase_append_right _ (Separated.not_mem_pre hsep), erase_cons_head]
  have hmid := separated_trim hsep a
  by_cases hrest : b.size > a
  · simp only [trim, if_pos hrest, cons_append, nil_append, foldl_cons] at hmid ⊢
    -- the rest goes where the block was, before or after the other removals
    rw [append_cons] at hmid
    have hfresh : ∀ c ∈ rem, c ∉ pre ++ [⟨b.start + a, b.size - a⟩] := by
      intro c hc hmem
      have hself := (pairwise_append.mp hmid).2.2 c hmem c (h.1 c hc)
      simp only [stop] at hself
      omega
    have hpreFresh : ∀ c ∈ rem, c ∉ pre := fun c hc hmem =>
      hfresh c hc (mem_append_left _ hmem)
    have hinsert : insort ⟨b.start + a, b.size - a⟩ (rem.foldl List.erase (pre ++ blocks))
        = rem.foldl List.erase ((pre ++ [⟨b.start + a, b.size - a⟩]) ++ blocks) := by
      rw [foldl_erase_append hfresh, foldl_erase_append hpreFresh, append_assoc]
      refine insort_separated (hmid.sublist ?_)
      rw [← diff_eq_foldl, append_cons]
      exact (diff_sublist _ _).append_left _
    rw [hinsert, h.2 _ hmid]
    simp
  · simp only [trim, if_neg hrest, nil_append] at hmid ⊢
    exact h.2 pre hmid

/-- The pass over the free list collects what `fill` does. -/
lemma carve_spec (blocks : List Extent) (acc : AddressManager.Carving) :
    match fill a blocks acc.remaining with
    | none => 0 < (carve a blocks acc).remaining
    | some (pieces, blocks') =>
      (carve a blocks acc).remaining = 0 ∧
      (carve a blocks acc).allocateResult = acc.allocateResult ++ pieces ∧
      ∃ rem add, (carve a blocks acc).blocksToRemove = acc.blocksToRemove ++ rem ∧
        (carve a blocks acc).blocksToAdd = acc.blocksToAdd ++ add ∧
        Edits blocks rem add blocks' := by
  induction blocks generalizing acc with
  | nil =>
    obtain ⟨remaining, result, toRemove, toAdd⟩ := acc
    cases remaining with
    | zero => exact ⟨rfl, by simp [carve], [], [], by simp [carve],
        by simp [carve], edits_nil _⟩
    | succ k => exact Nat.succ_pos k
  | cons b blocks ih =>
    obtain ⟨remaining, result, toRemove, toAdd⟩ := acc
    cases remaining with
    | zero =>
      simp only [fill_zero, carve, Nat.le_refl, if_true]
      exact ⟨trivial, by simp, [], [], by simp, by simp, edits_nil _⟩
    | succ k =>
      have hgo : ¬ k + 1 ≤ 0 := Nat.not_succ_le_zero k
      by_cases hskip : b.size < a
      · simp only [fill_skip hskip, carve, if_neg hgo, if_pos hskip]
        have hrest := ih ⟨k + 1, result, toRemove, toAdd⟩
        cases hfill : fill a blocks (k + 1) with
        | none =>
          rw [hfill] at hrest
          exact hrest
        | some r =>
          rw [hfill] at hrest
          obtain ⟨hzero, hpieces, rem, add, hrem, hadd, hedits⟩ := hrest
          exact ⟨hzero, hpieces, rem, add, hrem, hadd, hedits.skip⟩
      · simp only [fill, carve, if_neg hgo, if_neg hskip]
        generalize min (k + 1) (b.size / a) = n
        have hadds : (if b.size > n * a then
            toAdd ++ [⟨b.start + n * a, b.size - n * a⟩] else toAdd) = toAdd ++ b.trim (n * a) := by
          unfold trim
          split <;> simp
        rw [hadds]
        have hrest := ih ⟨k + 1 - n, result ++ (range n).map fun i => ⟨b.start + i * a, a⟩,
          toRemove ++ [b], toAdd ++ b.trim (n * a)⟩
        cases hfill : fill a blocks (k + 1 - n) with
        | none =>
          rw [hfill] at hrest
          exact hrest
        | some r =>
          rw [hfill] at hrest
          obtain ⟨hzero, hpieces, rem, add, hrem, hadd, hedits⟩ := hrest
          refine ⟨hzero, ?_, b :: rem, b.trim (n * a) ++ add, ?_, ?_, hedits.cut (n * a)⟩
          · rw [hpieces, append_assoc]
          · rw [hrem, append_assoc]
            rfl
          · rw [hadd, append_assoc]

lemma separated_firstFit {cut : Extent × List Extent} (h : Separated blocks)
    (hcut : firstFit a blocks = some cut) : Separated cut.2 := by
  rcases firstFit_split a blocks with ⟨-, hnone⟩ | ⟨pre, b, post, rfl, -, -, hsome⟩
  · rw [hnone] at hcut
    cases hcut
  · rw [hsome] at hcut
    obtain rfl := Option.some.inj hcut
    exact separated_trim h a

namespace AddressManager

variable {m : AddressManager} {size : Int}

variable (m size) in
/-- The manager after `count` allocations of the size. -/
def afterFill (count : Nat) :
    Option (List Extent × List Extent) → AddressManager × Except AllocationError (List Extent)
  | none => (m, .error .runtimeError)
  | some (pieces, blocks) =>
    ({ m with
      explicitList := blocks
      totalAllocatedSize := m.totalAllocatedSize + m.computeAlignedSize size.toNat * count },
      .ok pieces)

lemma batchedAllocate_eq_fill (h : Separated m.explicitList) (hsize : 0 < size) (k : Nat) :
    m.batchedAllocate size k
      = m.afterFill size k (fill (m.computeAlignedSize size.toNat) m.explicitList k) := by
  have hcarve := carve_spec (a := m.computeAlignedSize size.toNat) m.explicitList ⟨k, [], [], []⟩
  unfold batchedAllocate
  rw [if_neg (by omega), if_neg (by omega)]
  simp only [Int.toNat_natCast]
  cases hfill : fill (m.computeAlignedSize size.toNat) m.explicitList k with
  | none =>
    rw [hfill] at hcarve
    rw [if_pos hcarve]
    rfl
  | some r =>
    rw [hfill] at hcarve
    obtain ⟨hzero, hpieces, rem, add, hrem, hadd, hedits⟩ := hcarve
    rw [if_neg (by omega), hpieces, hrem, hadd]
    simp only [nil_append, afterFill]
    have hlist := hedits.2 [] h
    rw [nil_append] at hlist
    rw [hlist]
    rfl

/-- Successive allocations: all succeed, with the pieces of `fill`, or one
fails. -/
lemma allocateMany_eq_fill (hsize : 0 < size) (k : Nat) {m : AddressManager}
    (h : Separated m.explicitList) :
    match fill (m.computeAlignedSize size.toNat) m.explicitList k with
    | none => (allocateMany size k m).2 = .error .runtimeError
    | some r => allocateMany size k m = m.afterFill size k (some r) := by
  induction k generalizing m with
  | zero => simp [allocateMany, afterFill]
  | succ k ih =>
    have ha : 0 < m.computeAlignedSize size.toNat := computeAlignedSize_pos m (by omega)
    rw [fill_succ ha, allocateMany, allocate_eq h hsize]
    cases hcut : firstFit (m.computeAlignedSize size.toNat) m.explicitList with
    | none => rfl
    | some cut =>
      obtain ⟨block, blocks⟩ := cut
      have hrest := ih (m := { m with
        explicitList := blocks
        totalAllocatedSize := m.totalAllocatedSize + m.computeAlignedSize size.toNat })
        (separated_firstFit h hcut)
      -- the alignment, hence the aligned size, is the same after the first call
      change match fill (m.computeAlignedSize size.toNat) blocks k with
        | none => _
        | some r => _ at hrest
      simp only [Option.bind_some]
      cases hfill : fill (m.computeAlignedSize size.toNat) blocks k with
      | none =>
        rw [hfill] at hrest
        generalize allocateMany size k _ = outcome at hrest ⊢
        obtain ⟨m', result⟩ := outcome
        obtain rfl : result = .error .runtimeError := hrest
        rfl
      | some r =>
        rw [hfill] at hrest
        simp only [Option.map_some]
        rw [hrest]
        simp only [afterFill, Prod.mk.injEq, and_true]
        congr 1
        simp only [computeAlignedSize, Nat.cast_add, Nat.cast_one]
        ring

end AddressManager

/-! ## Returning a block -/

lemma touches_left (h : Separated pre) (hpre : ∀ b ∈ pre, b.stop ≤ e.start) :
    (∃ pre₀ p, pre = pre₀ ++ [p] ∧ p.stop = e.start ∧
      pre.getLast?.filter (fun p => canBeCoalesced p e) = some p) ∨
      (pre.getLast?.filter (fun p => canBeCoalesced p e) = none ∧ ∀ b ∈ pre, b.stop < e.start) := by
  rcases eq_nil_or_concat' pre with rfl | ⟨pre₀, p, rfl⟩
  · exact .inr ⟨rfl, fun b hb => absurd hb not_mem_nil⟩
  · rw [List.getLast?_concat, Option.filter_some]
    by_cases htouch : p.stop = e.start
    · left
      exact ⟨pre₀, p, rfl, htouch, if_pos (decide_eq_true htouch)⟩
    · right
      refine ⟨if_neg (by simpa [canBeCoalesced, stop] using htouch), fun b hb => ?_⟩
      have hp := hpre p (mem_append_right _ (mem_singleton_self _))
      rcases mem_append.mp hb with hb | hb
      · have hlt := (pairwise_append.mp h).2.2 b hb p (mem_singleton_self _)
        simp only [stop] at hlt hp ⊢
        omega
      · obtain rfl := mem_singleton.mp hb
        omega

lemma touches_right (h : Separated post) (hpost : ∀ b ∈ post, e.stop ≤ b.start) :
    (∃ q post₀, post = q :: post₀ ∧ e.stop = q.start ∧
      post.head?.filter (fun q => canBeCoalesced e q) = some q) ∨
      (post.head?.filter (fun q => canBeCoalesced e q) = none ∧ ∀ b ∈ post, e.stop < b.start) := by
  cases post with
  | nil => exact .inr ⟨rfl, fun b hb => absurd hb not_mem_nil⟩
  | cons q post₀ =>
    by_cases htouch : e.stop = q.start
    · left
      exact ⟨q, post₀, rfl, htouch, if_pos (decide_eq_true htouch)⟩
    · right
      refine ⟨if_neg (by simpa [canBeCoalesced, stop] using htouch), fun b hb => ?_⟩
      have hq := hpost q mem_cons_self
      rcases mem_cons.mp hb with rfl | hb
      · omega
      · have hlt := rel_of_pairwise_cons h hb
        simp only [stop] at hlt hq ⊢
        omega

/-- Coalescing, or else inserting, puts the block between its neighbours and
joins what touches. -/
lemma joined_coalesce {m : AddressManager} (hlist : m.explicitList = pre ++ post)
    (h : Separated (pre ++ post)) (hpre : ∀ b ∈ pre, b.stop ≤ e.start)
    (hpost : ∀ b ∈ post, e.stop ≤ b.start) :
    ∃ pre' e' post', (m.coalesce e pre.getLast? post.head?).getD (insort e m.explicitList)
      = pre' ++ e' :: post' ∧ Joined pre e post pre' e' post' := by
  obtain ⟨hsepPre, hsepPost, hlt⟩ := pairwise_append.mp h
  unfold coalesce
  rw [hlist]
  rcases touches_left hsepPre hpre with ⟨pre₀, p, rfl, htouchP, hp⟩ | ⟨hp, hgapP⟩
  · have hbefore : ∀ b ∈ pre₀, b.stop < p.start := fun b hb =>
      (pairwise_append.mp hsepPre).2.2 b hb p (mem_singleton_self _)
    have hnot : p ∉ pre₀ := Separated.not_mem_pre hsepPre
    have hsep₀ : Separated (pre₀ ++ post) := by
      refine pairwise_append.mpr ⟨(pairwise_append.mp hsepPre).1, hsepPost, ?_⟩
      exact fun b hb => hlt b (mem_append_left _ hb)
    have hafter : ∀ b ∈ post, p.stop < b.start := fun b hb =>
      hlt p (mem_append_right _ (mem_singleton_self _)) b hb
    rcases touches_right hsepPost hpost with ⟨q, post₀, rfl, htouchQ, hq⟩ | ⟨hq, hgapQ⟩
    · -- both neighbours
      have hlast : ∀ b ∈ post₀, q.stop < b.start := fun b hb =>
        rel_of_pairwise_cons hsepPost hb
      have hpq := hafter q mem_cons_self
      refine ⟨pre₀, ⟨p.start, p.size + e.size + q.size⟩, post₀, ?_,
        Joined.left htouchP (Joined.right ?_ (joined_none ?_ ?_ ?_))⟩
      · rw [hp, hq]
        simp only [Option.getD_some]
        rw [append_assoc, replace_append, if_neg hnot]
        simp only [cons_append, nil_append, replace_cons_self]
        rw [erase_append_right, erase_cons_tail, erase_cons_head, add_assoc]
        · simp only [stop] at hpq
          simp only [beq_iff_eq]
          intro heq
          rw [← heq] at hpq
          simp only at hpq
          omega
        · intro hmem
          have hself := hlt q (mem_append_left _ hmem) q mem_cons_self
          simp only [stop] at hself
          omega
      · simp only [stop] at htouchP htouchQ ⊢
        omega
      · exact hsep₀.sublist (Sublist.append_left (sublist_cons_self _ _) _)
      · exact hbefore
      · intro b hb
        have hb := hlast b hb
        simp only [stop] at hb htouchP htouchQ ⊢
        omega
    · refine ⟨pre₀, ⟨p.start, p.size + e.size⟩, post, ?_, Joined.left htouchP
        (joined_none hsep₀ hbefore ?_)⟩
      · rw [hp, hq]
        simp only [Option.getD_some]
        rw [append_assoc, replace_append, if_neg hnot]
        simp
      · intro b hb
        have hb := hgapQ b hb
        simp only [stop] at hb htouchP ⊢
        omega
  · rcases touches_right hsepPost hpost with ⟨q, post₀, rfl, htouchQ, hq⟩ | ⟨hq, hgapQ⟩
    · have hlast : ∀ b ∈ post₀, q.stop < b.start := fun b hb =>
        rel_of_pairwise_cons hsepPost hb
      have hjoin : Joined pre ⟨e.start, e.size + q.size⟩ post₀ pre ⟨e.start, e.size + q.size⟩ post₀ := by
        refine joined_none (h.sublist (Sublist.append_left (sublist_cons_self _ _) _)) hgapP ?_
        intro b hb
        have hb := hlast b hb
        simp only [stop] at hb htouchQ ⊢
        omega
      refine ⟨pre, _, post₀, ?_, Joined.right htouchQ hjoin⟩
      rw [hp, hq]
      simp only [Option.getD_some]
      have hstart : q.start - e.size = e.start := by
        simp only [stop] at htouchQ
        omega
      rw [erase_append_right _ (Separated.not_mem_pre h), erase_cons_head, hstart, add_comm q.size]
      exact insort_separated hjoin.separated
    · have hjoin := joined_none h hgapP hgapQ
      refine ⟨pre, e, post, ?_, hjoin⟩
      rw [hp, hq]
      exact insort_separated hjoin.separated

end LMCache.MemoryManagement
