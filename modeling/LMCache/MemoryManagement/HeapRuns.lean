/-
LMCache.MemoryManagement.HeapRuns — what holds of the address manager in every
run.

`HeapInv` is the invariant for any positive alignment: free and live blocks
tile the heap, the free list is separated, the counter is the sum of the live
sizes. The only empty free block there can be starts at the end of the heap
(a heap of size zero, or growth by zero).

For an alignment that is a power of two all blocks start at multiples of it
(`AlignedInv`). The end of the heap need not be one; then the last bytes are
always part of a free block, because no live block can reach them, and so
growing the heap extends that block.
-/
import LMCache.MemoryManagement.FreeList
import LMCache.Lib.Run
import Mathlib.Algebra.BigOperators.Fin
import Mathlib.Data.List.TakeWhile

namespace LMCache.MemoryManagement

open Lib List AddressManager Extent Heap

/-! ## The invariants -/

structure HeapInv (h : Heap) : Prop where
  tiles : Tiles h.manager.size (h.manager.explicitList ++ h.live)
  separated : Separated h.manager.explicitList
  live_pos : ∀ b ∈ h.live, 0 < b.size
  free_empty : ∀ b ∈ h.manager.explicitList, b.size = 0 → b.start = h.manager.size
  counter : h.manager.totalAllocatedSize = (h.live.map fun b => (b.size : Int)).sum

structure AlignedInv (h : Heap) : Prop where
  live : ∀ b ∈ h.live, h.manager.align ∣ b.start ∧ h.manager.align ∣ b.stop
  free : ∀ b ∈ h.manager.explicitList,
    h.manager.align ∣ b.start ∧ (h.manager.align ∣ b.stop ∨ b.stop = h.manager.size)

lemma heapInv_init (size align : Nat) (halign : 0 < align) :
    HeapInv (.init size align halign) where
  tiles x := by
    show coverage [⟨0, size⟩] x = if x < size then 1 else 0
    rw [coverage_singleton]
    simp [stop]
  separated := pairwise_singleton _ _
  live_pos b hb := absurd hb not_mem_nil
  free_empty b hb hzero := by
    obtain rfl := mem_singleton.mp hb
    exact hzero.symm
  counter := rfl

lemma alignedInv_init (size align : Nat) (halign : 0 < align) :
    AlignedInv (.init size align halign) where
  live b hb := absurd hb not_mem_nil
  free b hb := by
    obtain rfl := mem_singleton.mp hb
    exact ⟨Nat.dvd_zero _, .inr (zero_add size)⟩

variable {m : AddressManager} {live : List Extent} {size : Int} {a : Nat} {b : Extent}
  {pre post : List Extent}

lemma mem_trim {c : Extent} (h : c ∈ b.trim a) :
    c.start = b.start + a ∧ c.stop = b.stop ∧ 0 < c.size := by
  unfold trim at h
  split_ifs at h with hsize
  · obtain rfl := mem_singleton.mp h
    refine ⟨rfl, ?_, Nat.sub_pos_of_lt hsize⟩
    simp only [stop]
    omega
  · exact absurd h not_mem_nil

/-! ## Allocation -/

section

variable (h : HeapInv ⟨m, live⟩)
include h

lemma heapInv_cut (hlist : m.explicitList = pre ++ b :: post) (ha : 0 < a) (hb : a ≤ b.size) :
    HeapInv ⟨{ m with
      explicitList := pre ++ (b.trim a ++ post)
      totalAllocatedSize := m.totalAllocatedSize + a }, live ++ [⟨b.start, a⟩]⟩ where
  tiles x := by
    have hcover : coverage (m.explicitList ++ live) x = if x < m.size then 1 else 0 := h.tiles x
    have htrim := coverage_trim (x := x) hb
    rw [hlist, coverage_append, coverage_append_cons] at hcover
    simp only [coverage_append]
    omega
  separated := separated_trim (hlist ▸ h.separated) a
  live_pos c hc := by
    rcases mem_append.mp hc with hc | hc
    · exact h.live_pos c hc
    · obtain rfl := mem_singleton.mp hc
      exact ha
  free_empty c hc hzero := by
    have hold : c ∈ pre ++ b :: post → c.start = m.size := fun hmem =>
      h.free_empty c (hlist ▸ hmem) hzero
    rcases mem_append.mp hc with hc | hc
    · exact hold (mem_append_left _ hc)
    rcases mem_append.mp hc with hc | hc
    · exact absurd hzero (Nat.ne_of_gt (mem_trim hc).2.2)
    · exact hold (mem_append_right _ (mem_cons_of_mem _ hc))
  counter := by
    have hcounter := h.counter
    simp only [map_append, map_cons, map_nil, sum_append, sum_cons, sum_nil] at hcounter ⊢
    omega

omit h in
lemma alignedInv_cut (h : AlignedInv ⟨m, live⟩) (hlist : m.explicitList = pre ++ b :: post)
    (ha : m.align ∣ a) {total : Int} :
    AlignedInv ⟨{ m with
      explicitList := pre ++ (b.trim a ++ post)
      totalAllocatedSize := total }, live ++ [⟨b.start, a⟩]⟩ where
  live c hc := by
    rcases mem_append.mp hc with hc | hc
    · exact h.live c hc
    · obtain rfl := mem_singleton.mp hc
      have hb := (h.free b (by rw [hlist]; simp)).1
      exact ⟨hb, Nat.dvd_add hb ha⟩
  free c hc := by
    have hold : c ∈ pre ++ b :: post → m.align ∣ c.start ∧ (m.align ∣ c.stop ∨ c.stop = m.size) :=
      fun hmem => h.free c (hlist ▸ hmem)
    rcases mem_append.mp hc with hc | hc
    · exact hold (mem_append_left _ hc)
    rcases mem_append.mp hc with hc | hc
    · obtain ⟨hstart, hstop, -⟩ := mem_trim hc
      have hb := h.free b (by rw [hlist]; simp)
      rw [hstart, hstop]
      exact ⟨Nat.dvd_add hb.1 ha, hb.2⟩
    · exact hold (mem_append_right _ (mem_cons_of_mem _ hc))

variable {m' : AddressManager} {block : Extent}

omit h in
/-- A successful `allocate` cuts a piece of the aligned size off some block. -/
lemma allocate_ok (hsep : Separated m.explicitList) (h : m.allocate size = (m', .ok block)) :
    0 < size ∧ ∃ pre b post, m.explicitList = pre ++ b :: post ∧
      m.computeAlignedSize size.toNat ≤ b.size ∧
      block = ⟨b.start, m.computeAlignedSize size.toNat⟩ ∧
      m' = { m with
        explicitList := pre ++ (b.trim (m.computeAlignedSize size.toNat) ++ post)
        totalAllocatedSize := m.totalAllocatedSize + m.computeAlignedSize size.toNat } := by
  by_cases hsize : 0 < size
  · rw [allocate_eq hsep hsize] at h
    rcases firstFit_split (m.computeAlignedSize size.toNat) m.explicitList with
      ⟨-, hnone⟩ | ⟨pre, b, post, hlist, hb, -, hsome⟩
    · rw [hnone] at h
      cases (Prod.mk.inj h).2
    · rw [hsome] at h
      obtain ⟨rfl, hblock⟩ := Prod.mk.inj h
      exact ⟨hsize, pre, b, post, hlist, hb, (Except.ok.inj hblock).symm, rfl⟩
  · rw [allocate, if_pos (Int.not_lt.mp hsize)] at h
    cases (Prod.mk.inj h).2

omit h in
lemma allocate_error {err : AllocationError} (h : m.allocate size = (m', .error err)) :
    m' = m := by
  unfold allocate at h
  split at h
  · exact (Prod.mk.inj h).1.symm
  · dsimp only at h
    split at h
    · exact (Prod.mk.inj h).1.symm
    · cases (Prod.mk.inj h).2

lemma heapInv_allocate (hok : m.allocate size = (m', .ok block)) :
    HeapInv ⟨m', live ++ [block]⟩ := by
  obtain ⟨hsize, pre, b, post, hlist, hb, rfl, rfl⟩ := allocate_ok h.separated hok
  exact heapInv_cut h hlist (computeAlignedSize_pos m (by omega)) hb

omit h in
lemma alignedInv_allocate (h : AlignedInv ⟨m, live⟩) (hsep : Separated m.explicitList) {i : Nat}
    (hi : m.align = 2 ^ i) (hok : m.allocate size = (m', .ok block)) :
    AlignedInv ⟨m', live ++ [block]⟩ ∧ m'.align = m.align := by
  obtain ⟨hsize, pre, b, post, hlist, hb, rfl, rfl⟩ := allocate_ok hsep hok
  exact ⟨alignedInv_cut h hlist (align_dvd_computeAlignedSize m hi _), rfl⟩

omit h in
lemma invs_allocateMany (k : Nat) {m : AddressManager} {live blocks : List Extent}
    (h : HeapInv ⟨m, live⟩) (hok : allocateMany size k m = (m', .ok blocks)) :
    HeapInv ⟨m', live ++ blocks⟩ ∧ (∀ i, m.align = 2 ^ i → AlignedInv ⟨m, live⟩ →
      AlignedInv ⟨m', live ++ blocks⟩) ∧ m'.align = m.align := by
  induction k generalizing m live blocks with
  | zero =>
    obtain ⟨rfl, hblocks⟩ := Prod.mk.inj hok
    obtain rfl := Except.ok.inj hblocks
    rw [append_nil]
    exact ⟨h, fun _ _ halign => halign, rfl⟩
  | succ k ih =>
    rw [allocateMany] at hok
    split at hok
    · cases (Prod.mk.inj hok).2
    · rename_i m₁ block hfirst
      split at hok
      · cases (Prod.mk.inj hok).2
      · rename_i m₂ rest hrest
        obtain ⟨rfl, hblocks⟩ := Prod.mk.inj hok
        obtain rfl := Except.ok.inj hblocks
        obtain ⟨hinv, haligned, halign⟩ := ih (heapInv_allocate h hfirst) hrest
        rw [append_assoc] at hinv haligned
        have hsame : m₁.align = m.align := by
          obtain ⟨-, pre, b, post, -, -, -, rfl⟩ := allocate_ok h.separated hfirst
          rfl
        refine ⟨hinv, fun i hi hbefore => ?_, halign.trans hsame⟩
        exact haligned i (hsame.trans hi) (alignedInv_allocate hbefore h.separated hi hfirst).1

omit h in
/-- A batch of a positive size succeeds with the outcome of the successive
calls, or fails as they do and changes nothing. -/
lemma batchedAllocate_cases (h : Separated m.explicitList) (hsize : 0 < size) (k : Nat) :
    (∃ m' blocks, m.batchedAllocate size k = (m', .ok blocks) ∧
      allocateMany size k m = (m', .ok blocks)) ∨
    m.batchedAllocate size k = (m, .error .runtimeError) ∧
      (allocateMany size k m).2 = .error .runtimeError := by
  have hbatch := batchedAllocate_eq_fill h hsize k
  have hmany := allocateMany_eq_fill hsize k h
  cases hfill : fill (m.computeAlignedSize size.toNat) m.explicitList k with
  | none =>
    rw [hfill] at hbatch hmany
    exact .inr ⟨hbatch, hmany⟩
  | some r =>
    rw [hfill] at hbatch hmany
    exact .inl ⟨_, _, hbatch, hmany⟩

omit h in
lemma batchedAllocate_outcome (h : Separated m.explicitList) (batchSize : Int) :
    (∃ err, m.batchedAllocate size batchSize = (m, .error err)) ∨
    ∃ k m' blocks, m.batchedAllocate size batchSize = (m', .ok blocks) ∧
      allocateMany size k m = (m', .ok blocks) := by
  by_cases hsize : 0 < size
  · by_cases hbatch : batchSize < 0
    · refine .inl ⟨.runtimeError, ?_⟩
      rw [batchedAllocate, if_neg (by omega), if_pos hbatch]
    · obtain ⟨k, rfl⟩ := Int.eq_ofNat_of_zero_le (Int.not_lt.mp hbatch)
      rcases batchedAllocate_cases h hsize k with ⟨m', blocks, hok, hmany⟩ | ⟨herr, -⟩
      · exact .inr ⟨k, m', blocks, hok, hmany⟩
      · exact .inl ⟨_, herr⟩
  · refine .inl ⟨.valueError, ?_⟩
    rw [batchedAllocate, if_pos (Int.not_lt.mp hsize)]

/-! ## Returning blocks and growing -/

variable {e : Extent}

/-- A block that leaves the live blocks, or is new, joins the free list. -/
lemma heapInv_join {live' pre' post' : List Extent} {e' : Extent}
    (hlist : m.explicitList = pre ++ post) (hj : Joined pre e post pre' e' post')
    (hlist' : m'.explicitList = pre' ++ e' :: post')
    (htiles : ∀ x, coverage [e] x + coverage (m.explicitList ++ live') x
      = if x < m'.size then 1 else 0) (hlive : ∀ b ∈ live', b ∈ live)
    (hempty : ∀ b ∈ m'.explicitList, b.size = 0 → b.start = m'.size)
    (hcounter : m'.totalAllocatedSize = (live'.map fun b => (b.size : Int)).sum) :
    HeapInv ⟨m', live'⟩ where
  tiles x := by
    have hcover := hj.covered x
    have hx := htiles x
    rw [hlist, coverage_append, coverage_append] at hx
    show coverage (m'.explicitList ++ live') x = if x < m'.size then 1 else 0
    rw [coverage_append, hlist', hcover, coverage_append_cons]
    omega
  separated := hlist' ▸ hj.separated
  live_pos b hb := h.live_pos b (hlive b hb)
  free_empty := hempty
  counter := hcounter

lemma bisect_spec (he : e ∈ live) :
    ∃ pre post, m.explicitList = pre ++ post ∧ pre.length = bisectLeft m.explicitList e.start ∧
      (∀ b ∈ pre, b.stop ≤ e.start) ∧ ∀ b ∈ post, e.stop ≤ b.start := by
  have hepos := h.live_pos e he
  have hestop : e.stop ≤ m.size := h.tiles.stop_le (mem_append_right _ he) hepos
  have hapart : ∀ b ∈ m.explicitList, 0 < b.size → e.stop ≤ b.start ∨ b.stop ≤ e.start := by
    intro b hb hbpos
    have hperm : (m.explicitList ++ live).Perm (e :: (m.explicitList ++ live.erase e)) :=
      ((perm_cons_erase he).append_left _).trans perm_middle
    have htiles := h.tiles.perm hperm
    exact apart_of_coverage_le htiles.coverage_le (mem_append_left _ hb) hepos hbpos
  refine ⟨m.explicitList.takeWhile fun b => decide (b.start < e.start),
    m.explicitList.dropWhile fun b => decide (b.start < e.start),
    takeWhile_append_dropWhile.symm, rfl, fun b hb => ?_, fun b hb => ?_⟩
  · have hstart : b.start < e.start := by
      simpa using mem_takeWhile_imp hb
    have hmem : b ∈ m.explicitList := (takeWhile_sublist _).mem hb
    simp only [stop] at hapart ⊢
    rcases Nat.eq_zero_or_pos b.size with hzero | hpos
    · omega
    · rcases hapart b hmem hpos with hle | hle <;> omega
  · have hmem : b ∈ m.explicitList := (dropWhile_sublist _).mem hb
    have hstart : e.start ≤ b.start := by
      have hsep : Separated (m.explicitList.dropWhile fun b => decide (b.start < e.start)) :=
        h.separated.sublist (dropWhile_sublist _)
      cases hdrop : m.explicitList.dropWhile (fun b => decide (b.start < e.start)) with
      | nil =>
        rw [hdrop] at hb
        exact absurd hb not_mem_nil
      | cons c rest =>
        have hc : ¬ c.start < e.start := by
          have hne : m.explicitList.dropWhile (fun b => decide (b.start < e.start)) ≠ [] := by
            rw [hdrop]
            exact cons_ne_nil _ _
          have hhead := head_dropWhile_not (fun b : Extent => decide (b.start < e.start)) hne
          simpa [hdrop] using hhead
        rw [hdrop] at hb hsep
        rcases mem_cons.mp hb with rfl | hb
        · exact not_lt.mp hc
        · have hlt := rel_of_pairwise_cons hsep hb
          simp only [stop] at hlt
          omega
    rcases Nat.eq_zero_or_pos b.size with hzero | hpos
    · rw [h.free_empty b hmem hzero]
      exact hestop
    · rcases hapart b hmem hpos with hle | hle
      · exact hle
      · simp only [stop] at hle
        omega

omit h in
lemma free_eq (hlist : m.explicitList = pre ++ post)
    (hlen : pre.length = bisectLeft m.explicitList e.start) : (m.free e.start e.size).explicitList
      = (m.coalesce e pre.getLast? post.head?).getD (insort e m.explicitList) := by
  have hprev : (if bisectLeft m.explicitList e.start > 0 then
      m.explicitList[bisectLeft m.explicitList e.start - 1]? else none)
        = pre.getLast? := by
    rw [← hlen, hlist, getLast?_eq_getElem?]
    split
    · rw [getElem?_append_left (by omega)]
    · rw [getElem?_eq_none (by omega)]
  have hsucc : m.explicitList[bisectLeft m.explicitList e.start]? = post.head? := by
    rw [← hlen, hlist, getElem?_append_right le_rfl, Nat.sub_self, head?_eq_getElem?]
  unfold free
  dsimp only
  rw [hprev, hsucc]

lemma invs_free (he : e ∈ live) : HeapInv ⟨m.free e.start e.size, live.erase e⟩ ∧
      (AlignedInv ⟨m, live⟩ → AlignedInv ⟨m.free e.start e.size, live.erase e⟩) := by
  obtain ⟨pre, post, hlist, hlen, hpre, hpost⟩ := bisect_spec h he
  have hsep : Separated (pre ++ post) := hlist ▸ h.separated
  obtain ⟨pre', e', post', heq, hj⟩ := joined_coalesce hlist hsep hpre hpost
  have hlist' := (free_eq hlist hlen).trans heq
  have hepos := h.live_pos e he
  have hpos : 0 < e'.size := by
    have hstart := hj.start_le
    have hstop := hj.le_stop
    simp only [stop] at hstop
    omega
  have hcases : ∀ b ∈ (m.free e.start e.size).explicitList, b = e' ∨ b ∈ m.explicitList := by
    intro b hb
    rw [hlist'] at hb
    rw [hlist]
    rcases mem_append.mp hb with hb | hb
    · exact .inr (mem_append_left _ (hj.pre_subset b hb))
    rcases mem_cons.mp hb with rfl | hb
    · exact .inl rfl
    · exact .inr (mem_append_right _ (hj.post_subset b hb))
  refine ⟨heapInv_join h hlist hj hlist' (fun x => ?_) (fun b hb => mem_of_mem_erase hb)
    (fun b hb hzero => ?_) ?_, fun halign => ⟨fun b hb => halign.live b (mem_of_mem_erase hb),
      fun b hb => ?_⟩⟩
  · have hcover : coverage (m.explicitList ++ live) x = if x < m.size then 1 else 0 := h.tiles x
    have hperm := coverage_perm (x := x) (perm_cons_erase he)
    have hcons : coverage (e :: live.erase e) x = coverage [e] x + coverage (live.erase e) x :=
      coverage_cons
    rw [coverage_append] at hcover ⊢
    show _ = if x < m.size then 1 else 0
    omega
  · rcases hcases b hb with rfl | hb
    · omega
    · exact h.free_empty b hb hzero
  · have hcounter : m.totalAllocatedSize = (live.map fun b => (b.size : Int)).sum := h.counter
    have hperm := ((perm_cons_erase he).map fun b : Extent => (b.size : Int)).sum_eq
    rw [map_cons, sum_cons] at hperm
    show m.totalAllocatedSize - e.size = _
    omega
  · rcases hcases b hb with rfl | hb
    · refine ⟨?_, ?_⟩
      · rcases hj.start with heq | ⟨c, hc, heq⟩
        · exact heq ▸ (halign.live e he).1
        · exact heq ▸ (halign.free c (hlist ▸ mem_append_left _ hc)).1
      · rcases hj.stop with heq | ⟨c, hc, heq⟩
        · exact .inl (heq ▸ (halign.live e he).2)
        · exact heq ▸ (halign.free c (hlist ▸ mem_append_right _ hc)).2
    · exact halign.free b hb

/-- Where no free block reaches the end of the heap, a live one does. -/
lemma align_dvd_size (halign : AlignedInv ⟨m, live⟩)
    (hnone : coverage m.explicitList (m.size - 1) = 0) : m.align ∣ m.size := by
  rcases Nat.eq_zero_or_pos m.size with hzero | hpos
  · rw [hzero]
    exact Nat.dvd_zero _
  · have hcover : coverage (m.explicitList ++ live) (m.size - 1) = 1 :=
      (h.tiles (m.size - 1)).trans (if_pos (Nat.sub_lt hpos Nat.one_pos))
    rw [coverage_append] at hcover
    have hlast : 0 < coverage live (m.size - 1) := by omega
    obtain ⟨c, hc, -, hlt⟩ := exists_of_coverage_pos hlast
    have hle : c.stop ≤ m.size := h.tiles.stop_le (mem_append_right _ hc) (h.live_pos c hc)
    have hend : c.stop = m.size := by omega
    exact hend ▸ (halign.live c hc).2

lemma invs_sbrk (growth : Nat) :
    HeapInv ⟨m.sbrk growth, live⟩ ∧ (AlignedInv ⟨m, live⟩ → AlignedInv ⟨m.sbrk growth, live⟩) := by
  generalize hn : m.computeAlignedSize growth = n
  have hsize : (m.sbrk growth).size = m.size + n := by rw [← hn]; rfl
  have hlist : m.explicitList = m.explicitList ++ [] := (append_nil _).symm
  have hsep : Separated (m.explicitList ++ []) := hlist ▸ h.separated
  have hpre : ∀ b ∈ m.explicitList, b.stop ≤ m.size := by
    intro b hb
    rcases Nat.eq_zero_or_pos b.size with hzero | hpos
    · have hstart : b.start = m.size := h.free_empty b hb hzero
      simp only [stop]
      omega
    · exact h.tiles.stop_le (mem_append_left _ hb) hpos
  obtain ⟨pre', e', post', heq, hj⟩ := joined_coalesce (e := ⟨m.size, n⟩) hlist hsep hpre
    fun b hb => absurd hb not_mem_nil
  obtain rfl : post' = [] := eq_nil_iff_forall_not_mem.mpr fun b hb =>
    absurd (hj.post_subset b hb) not_mem_nil
  have hlist' : (m.sbrk growth).explicitList = pre' ++ [e'] := by
    rw [← heq, ← hn]
    rfl
  have hbefore : ∀ b ∈ pre', b.stop < e'.start := fun b hb =>
    (pairwise_append.mp hj.separated).2.2 b hb e' (mem_singleton_self _)
  have hstart : e'.start ≤ m.size := hj.start_le
  have hstop : e'.stop = m.size + n := by
    rcases hj.stop with heq | ⟨b, hb, -⟩
    · exact heq
    · exact absurd hb not_mem_nil
  refine ⟨heapInv_join h hlist hj hlist' (fun x => ?_) (fun b hb => hb) (fun b hb hzero => ?_)
    h.counter, fun halign => ⟨halign.live, fun b hb => ?_⟩⟩
  · have hcover := h.tiles x
    rw [coverage_singleton]
    simp only [stop]
    grind
  · rw [hlist'] at hb
    rcases mem_append.mp hb with hb | hb
    · -- an empty block at the old end would have been joined
      have hend : b.start = m.size := h.free_empty b (hj.pre_subset b hb) hzero
      have hlt := hbefore b hb
      simp only [stop] at hlt
      omega
    · obtain rfl := mem_singleton.mp hb
      simp only [stop] at hstop
      omega
  · rw [hlist'] at hb
    rw [hsize]
    rcases mem_append.mp hb with hb | hb
    · obtain ⟨hdvd, hend⟩ := halign.free b (hj.pre_subset b hb)
      refine ⟨hdvd, .inl (hend.resolve_right fun hend => ?_)⟩
      have hlt := hbefore b hb
      have hend : b.stop = m.size := hend
      omega
    · obtain rfl := mem_singleton.mp hb
      refine ⟨?_, .inr hstop⟩
      rcases hj.start with hnew | ⟨c, hc, heq⟩
      · -- the block was not joined to one that reaches the old end
        rw [hnew]
        refine align_dvd_size h halign (Nat.eq_zero_of_not_pos fun hcovered => ?_)
        have hcover := (hj.covered (m.size - 1)).trans coverage_append_cons
        have hsome : 0 < coverage (pre' ++ [b]) (m.size - 1) := by omega
        have hnew : b.start = m.size := hnew
        obtain ⟨c, hc, hlo, hhi⟩ := exists_of_coverage_pos hsome
        rcases mem_append.mp hc with hc | hc
        · have hlt := hbefore c hc
          omega
        · obtain rfl := mem_singleton.mp hc
          obtain ⟨d, hd, hdlo, hdhi⟩ := exists_of_coverage_pos hcovered
          have hdle := hpre d hd
          omega
      · exact heq ▸ (halign.free c hc).1

end

/-! ## Runs -/

lemma invs_step {h : Heap} (hinv : HeapInv h) {op : HeapOp} (hop : h.FreesLive op) :
    HeapInv (h.step op) ∧ (∀ i, h.manager.align = 2 ^ i → AlignedInv h → AlignedInv (h.step op)) ∧
      (h.step op).manager.align = h.manager.align := by
  cases op with
  | allocate size =>
    simp only [step]
    split
    · rename_i m' block hok
      have hsep := hinv.separated
      refine ⟨heapInv_allocate hinv hok, fun i hi halign =>
        (alignedInv_allocate halign hsep hi hok).1, ?_⟩
      obtain ⟨-, pre, b, post, -, -, -, rfl⟩ := allocate_ok hsep hok
      rfl
    · rename_i m' err herr
      obtain rfl := allocate_error herr
      exact ⟨hinv, fun _ _ halign => halign, rfl⟩
  | batchedAllocate size batchSize =>
    simp only [step]
    rcases batchedAllocate_outcome hinv.separated batchSize with
      ⟨err, herr⟩ | ⟨k, m', blocks, hok, hmany⟩
    · rw [herr]
      exact ⟨hinv, fun _ _ halign => halign, rfl⟩
    · rw [hok]
      exact invs_allocateMany k hinv hmany
  | free address size =>
    obtain ⟨hheap, haligned⟩ := invs_free hinv hop
    exact ⟨hheap, fun _ _ => haligned, rfl⟩
  | sbrk growth =>
    obtain ⟨hheap, haligned⟩ := invs_sbrk hinv growth
    exact ⟨hheap, fun _ _ => haligned, rfl⟩

/-- What the address manager promises about a heap. -/
structure Consistent (h : Heap) : Prop where
  partition : Tiles h.manager.size (h.manager.explicitList ++ h.live)
  coalesced : Separated h.manager.explicitList
  aligned : ∀ b ∈ h.live, h.manager.align ∣ b.start
  disjoint : h.live.Pairwise fun b c => b.stop ≤ c.start ∨ c.stop ≤ b.start
  counter : h.manager.totalAllocatedSize = (h.live.map fun b => (b.size : Int)).sum
  fails : ∀ size : Int, 0 < size → ((h.manager.allocate size).2 = .error .runtimeError ↔
    ∀ b ∈ h.manager.explicitList, b.size < h.manager.computeAlignedSize size.toNat)

/-- Every heap in use is consistent, for an alignment that is a power of two. -/
theorem consistent_run (size i : Nat) (ops : List HeapOp)
    (hops : Along step Heap.FreesLive (.init size (2 ^ i) (Nat.two_pow_pos i)) ops) :
    Consistent (run step (.init size (2 ^ i) (Nat.two_pow_pos i)) ops) := by
  have hrun := run_inv (fun h => HeapInv h ∧ h.manager.align = 2 ^ i ∧ AlignedInv h)
    (fun h op hh hop => ?_)
    ⟨heapInv_init size _ _, rfl, alignedInv_init size (2 ^ i) (Nat.two_pow_pos i)⟩ hops
  · obtain ⟨hinv, -, haligned⟩ := hrun
    generalize run step (.init size (2 ^ i) (Nat.two_pow_pos i)) ops = h at hinv haligned
    have hlive : h.live.Pairwise fun b c => b.stop ≤ c.start ∨ c.stop ≤ b.start := by
      refine pairwise_of_coverage_le (fun x => ?_) hinv.live_pos
      have hle := hinv.tiles.coverage_le x
      rw [coverage_append] at hle
      omega
    exact ⟨hinv.tiles, hinv.separated, fun b hb => (haligned.live b hb).1, hlive, hinv.counter,
      fun _ => allocate_fails_iff⟩
  · obtain ⟨hinv, halign, haligned⟩ := invs_step hh.1 hop
    exact ⟨hinv, haligned.trans hh.2.1, halign i hh.2.1 hh.2.2⟩

/-- A heap that is used, freed and grown. -/
theorem consistent_busyHeap : Consistent (run step (.init 10000 (2 ^ 8) (Nat.two_pow_pos 8))
    [.batchedAllocate 300 3, .allocate 1, .free 512 512, .sbrk 100, .free 0 512]) :=
  consistent_run 10000 8 _ (by simp only [Along]; decide)

/-- Alignment `3`: the second of two allocations is not aligned. -/
theorem alignment_three_not_consistent :
    ¬ Consistent (run step (.init 12 3 (by decide)) [.allocate 1, .allocate 1]) := by
  intro h
  exact absurd (h.aligned ⟨1, 1⟩ (by decide)) (by decide)

/-- In every heap in use, a batch of `k` succeeds exactly when `k` successive
calls do, with the same blocks and the same manager afterwards; a batch that
raises leaves the manager as it was. -/
theorem batchedAllocate_eq_successive (heapSize align : Nat) (halign : 0 < align)
    (ops : List HeapOp) (hops : Along step Heap.FreesLive (.init heapSize align halign) ops)
    (size : Int) (k : Nat) (hsome : 0 < size ∨ 0 < k) :
    ((run step (.init heapSize align halign) ops).manager.batchedAllocate size k).2
      = (allocateMany size k
          (run step (.init heapSize align halign) ops).manager).2 ∧
    (∀ blocks, ((run step (.init heapSize align halign) ops).manager.batchedAllocate size k).2
        = .ok blocks →
      ((run step (.init heapSize align halign) ops).manager.batchedAllocate size k).1
        = (allocateMany size k
            (run step (.init heapSize align halign) ops).manager).1) ∧
    (∀ err, ((run step (.init heapSize align halign) ops).manager.batchedAllocate size k).2
        = .error err →
      ((run step (.init heapSize align halign) ops).manager.batchedAllocate size k).1
        = (run step (.init heapSize align halign) ops).manager) := by
  have hsep := (run_inv HeapInv (fun _ _ h hop => (invs_step h hop).1)
    (heapInv_init heapSize align halign) hops).separated
  generalize (run step (.init heapSize align halign) ops).manager = m at hsep
  by_cases hsize : 0 < size
  · rcases batchedAllocate_cases hsep hsize k with ⟨m', blocks, hok, hmany⟩ | ⟨herr, hmany⟩
    · rw [hok, hmany]
      exact ⟨rfl, fun _ _ => rfl, fun _ herr => by cases herr⟩
    · rw [herr, hmany]
      exact ⟨rfl, fun _ hok => (by cases hok), fun _ _ => rfl⟩
  · obtain ⟨k, rfl⟩ := Nat.exists_eq_succ_of_ne_zero (Nat.ne_of_gt (hsome.resolve_left hsize))
    have hbatch : m.batchedAllocate size (k + 1 : Nat) = (m, .error .valueError) := by
      rw [batchedAllocate, if_pos (Int.not_lt.mp hsize)]
    have hfirst : m.allocate size = (m, .error .valueError) := by
      rw [allocate, if_pos (Int.not_lt.mp hsize)]
    rw [hbatch, allocateMany, hfirst]
    exact ⟨rfl, fun _ hok => (by cases hok), fun _ _ => rfl⟩

/-- Three blocks out of a heap with a hole at its start. -/
theorem batch_after_hole :
    ((run step (.init 10000 256 (by decide)) [.batchedAllocate 300 2, .free 0 512]).manager
      |>.batchedAllocate 300 3).2 = .ok [⟨0, 512⟩, ⟨1024, 512⟩, ⟨1536, 512⟩] :=
  (batchedAllocate_eq_successive 10000 256 (by decide) [.batchedAllocate 300 2, .free 0 512]
    (by simp only [Along]; decide) 300 3 (.inl (by decide))).1.trans (by decide)

/-- An empty batch of size zero raises, although no call fails. -/
theorem empty_batch_of_size_zero_raises :
    ((AddressManager.init 4096 256 (by decide)).batchedAllocate 0 0).2 = .error .valueError ∧
    (allocateMany 0 0 (.init 4096 256 (by decide))).2 = .ok [] := by
  decide

/-! ## The manager's own check -/

/-- Extents that tile `n` addresses have `n` of them. -/
lemma sum_size_of_tiles {n : Nat} {es : List Extent} (h : Tiles n es) (hstop : ∀ e ∈ es, e.stop ≤ n) :
    (es.map (·.size)).sum = n := by
  have hsum : ∑ x ∈ Finset.range n, coverage es x = (es.map (·.size)).sum := by
    clear h
    induction es with
    | nil => simp
    | cons e es ih =>
      have hrange : (Finset.range n).filter (fun x => e.start ≤ x ∧ x < e.stop) =
          Finset.Ico e.start e.stop := by
        have := hstop e mem_cons_self
        grind
      rw [Finset.sum_congr rfl fun _ _ => coverage_cons, Finset.sum_add_distrib,
        ih fun c hc => hstop c (mem_cons_of_mem _ hc)]
      simp only [coverage_singleton, ← Finset.card_filter, hrange]
      simp [Extent.stop]
  rw [← hsum, Finset.sum_congr rfl fun x hx => (h x).trans (if_pos (Finset.mem_range.mp hx))]
  simp

lemma HeapInv.stop_le {h : Heap} (hinv : HeapInv h) :
    ∀ b ∈ h.manager.explicitList ++ h.live, b.stop ≤ h.manager.size := by
  intro b hb
  rcases Nat.eq_zero_or_pos b.size with hzero | hpos
  · rcases mem_append.mp hb with hfree | hlive
    · rw [stop, hinv.free_empty b hfree hzero, hzero]
      exact le_rfl
    · exact absurd hzero (hinv.live_pos b hlive).ne'
  · exact hinv.tiles.stop_le hb hpos

variable {blocks : List Extent}

lemma not_coalesced_of_separated (h : Separated blocks) :
    ∀ p ∈ blocks.zip blocks.tail, canBeCoalesced p.1 p.2 = false := by
  intro p hp
  obtain ⟨i, hi, rfl⟩ := mem_iff_getElem.mp hp
  simp only [getElem_zip, getElem_tail]
  have := pairwise_iff_getElem.mp h i (i + 1) (by grind) (by grind) (by omega)
  simp only [stop] at this
  simp only [canBeCoalesced, decide_eq_false_iff_not]
  omega

/-- The blocks of a separated list leave a gap between them. -/
lemma span_le_of_separated {low n : Nat} {b : Extent} (h : Separated (b :: blocks))
    (hlow : low ≤ b.start) (hstop : ∀ c ∈ b :: blocks, c.stop ≤ n) :
    low + ((b :: blocks).map (·.size)).sum + blocks.length ≤ n := by
  induction blocks generalizing low b with
  | nil => simpa using (Nat.add_le_add_right hlow _).trans (hstop b mem_cons_self)
  | cons c rest ih =>
    have hrest := ih h.of_cons (rel_of_pairwise_cons h mem_cons_self)
      fun d hd => hstop d (mem_cons_of_mem _ hd)
    simp only [map_cons, sum_cons, length_cons, stop] at hrest ⊢
    omega

variable (size align : Nat) (halign : 0 < align) (ops : List HeapOp)
  (hops : Along step FreesLive (.init size align halign) ops)

include hops in
lemma heapInv_run : HeapInv (run step (.init size align halign) ops) :=
  run_inv HeapInv (fun _ _ hh hop => (invs_step hh hop).1) (heapInv_init size align halign) hops

include hops in
/-- In every run the manager passes its own check. -/
theorem checkConsistency_run :
    (run step (.init size align halign) ops).manager.checkConsistency := by
  have hinv := heapInv_run size align halign ops hops
  generalize run step (.init size align halign) ops = h at hinv
  have hsum := sum_size_of_tiles hinv.tiles hinv.stop_le
  rw [map_append, sum_append] at hsum
  have hcast : ∀ l : List Extent, (l.map fun b => (b.size : Int)).sum = (l.map (·.size)).sum := by
    intro l
    induction l <;> simp_all
  simp only [checkConsistency, Bool.and_eq_true, all_eq_true, Bool.not_eq_true', decide_eq_true_eq]
  refine ⟨fun p hp => not_coalesced_of_separated hinv.separated p hp, ?_⟩
  rw [hinv.counter, hcast, hcast]
  omega

/-- Blocks freed out of order, in a heap that grows meanwhile. -/
def cutAndFreed : List HeapOp :=
  [.batchedAllocate 3 3, .free 4 4, .sbrk 4, .free 8 4, .free 0 4]

theorem cutAndFreed_consistent :
    (run step (.init 12 4 (by decide)) cutAndFreed).manager.checkConsistency :=
  checkConsistency_run 12 4 (by decide) cutAndFreed (by simp only [cutAndFreed, Along]; decide)

include hops in
/-- Once every block has been freed, the free list is one block again, however
the heap was cut up and grown: nothing stays fragmented. -/
theorem freed_heap_coalesced
    (hlive : (run step (.init size align halign) ops).live = [])
    (hpos : 0 < (run step (.init size align halign) ops).manager.size) :
    (run step (.init size align halign) ops).manager.explicitList =
      [⟨0, (run step (.init size align halign) ops).manager.size⟩] := by
  have hinv := heapInv_run size align halign ops hops
  generalize run step (.init size align halign) ops = h at hinv hlive hpos
  have hstop := hinv.stop_le
  have hsum := sum_size_of_tiles hinv.tiles hstop
  have hsep := hinv.separated
  rw [hlive, append_nil] at hstop hsum
  cases hlist : h.manager.explicitList with
  | nil => simp [hlist, hpos.ne] at hsum
  | cons b rest =>
    rw [hlist] at hsep hstop hsum
    -- the sizes fill the heap, so there is no room for a gap
    have hspan := span_le_of_separated hsep le_rfl hstop
    obtain rfl : rest = [] := length_eq_zero_iff.mp (by omega)
    obtain ⟨start, size⟩ := b
    simp at hsum hspan
    rw [hsum, show start = 0 by omega]

theorem cutAndFreed_coalesced :
    (run step (.init 12 4 (by decide)) cutAndFreed).manager.explicitList = [⟨0, 16⟩] :=
  (freed_heap_coalesced 12 4 (by decide) cutAndFreed (by simp only [cutAndFreed, Along]; decide)
    (by decide) (by decide)).trans (by decide)

end LMCache.MemoryManagement
