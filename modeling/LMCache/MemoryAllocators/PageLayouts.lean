/-
LMCache.MemoryAllocators.PageLayouts — what a recycled page object says of its
layout.

`allocate` patches the metadata of a page object, but not the sums of the group
sizes that its construction computed from the layout of a page. The object
describes its allocation iff the two layouts have the same groups, up to empty
ones at the end of the page's (`describes_iff_sameGroups`).

A page is taken and given back alike in a call of its own and in an iteration
of a batched one; only the statistics differ, which no object shows.
-/
import LMCache.MemoryAllocators.PagedTensor
import Mathlib.Algebra.BigOperators.Fin

namespace LMCache.MemoryAllocators.PagedTensorMemoryAllocator

open Lib List

variable {Dtype : Type} (itemsize : Dtype → Nat)

section

variable (shapes : List (List Nat)) (dtypes : List Dtype)

/-- The bytes of each group: `shape.numel() * dtype.itemsize`. -/
def groupSizes : List Nat :=
  zipWith (fun shape dtype => shape.prod * itemsize dtype) shapes dtypes

/-- `get_size_bytes` -/
def layoutBytes : Nat :=
  (groupSizes itemsize shapes dtypes).sum

end

/-- `group_prefix_sum`, as `__init__` computes it from the groups of a page. -/
def groupPrefixSum (pageGroups : List Nat) : List Nat := pageGroups.inits.map sum

abbrev PageObj (Dtype : Type) := TensorMemoryObj (List (List Nat)) (List Dtype)

abbrev Pages (Dtype : Type) := PagedTensorMemoryAllocator (List (List Nat)) (List Dtype)

/-! ## Objects -/

section Objects

variable (sums : List Nat) (obj : PageObj Dtype)

def getSize : Nat := obj.usedSizeOverride.getD (sums.getLastD 0)

/-- `raw_data[begin:end]` -/
def slice (view : Extent) (first last : Nat) : Extent :=
  ⟨view.start + min first view.size, min last view.size - min first view.size⟩

/-- `none` where the index is out of range. -/
def getTensor (index : Nat) : Option Extent := do
  return slice obj.rawData (← sums[index]?) (← sums[index + 1]?)

/-- The groups of the layout the object was allocated with. -/
def groups : List Nat := groupSizes itemsize obj.shapes obj.dtypes

/-- The object describes its layout. -/
structure Describes (page : Extent) : Prop where
  size : getSize sums obj = (groups itemsize obj).sum
  covers : obj.rawData.start = page.start ∧ (groups itemsize obj).sum ≤ obj.rawData.size ∧
    obj.rawData.size ≤ page.size
  tensors : ∀ i g, (groups itemsize obj)[i]? = some g → ∃ t, getTensor sums obj i = some t ∧
    t.size = g ∧ obj.rawData.start ≤ t.start ∧ t.stop ≤ obj.rawData.stop
  disjoint : ∀ i j t t', i < j → getTensor sums obj i = some t → getTensor sums obj j = some t' →
    t.stop ≤ t'.start

end Objects

/-- The layout's groups are the page's, but for empty ones at the end. -/
def SameGroups (groups pageGroups : List Nat) : Prop :=
  groups <+: pageGroups ∧ groups.sum = pageGroups.sum

/-- The object has its layout's part of the page, which the layout fits. -/
def Views (a : Pages Dtype) (p : Nat) (obj : PageObj Dtype) : Prop :=
  (groups itemsize obj).sum ≤ a.alignBytes ∧ obj.rawData = if obj.shapes ≠ a.shapes then
    sliceTo (pagedBuffer a.alignBytes p) (groups itemsize obj).sum else pagedBuffer a.alignBytes p

/-! ## Calls -/

inductive PageEvent (Dtype : Type)
  | take (shapes : List (List Nat)) (dtypes : List Dtype)
  | giveBack (p : Nat)
  | setUsedSize (p n : Nat)

def pageStep (a : Pages Dtype) : PageEvent Dtype → Pages Dtype
  | .take shapes dtypes =>
    match a.takeBlock (layoutBytes itemsize) shapes dtypes with
    | none => a
    | some (_, a) => a
  | .giveBack p => a.batchedFreeOne p
  | .setUsedSize p n =>
    -- a size beyond the page raises
    if n ≤ a.alignBytes then a.modify p fun obj => { obj with usedSizeOverride := some n } else a

/-- Layouts fit a page, and what is given back or narrowed is not free. -/
def Allowed (a : Pages Dtype) : PageEvent Dtype → Prop
  | .take shapes dtypes => layoutBytes itemsize shapes dtypes ≤ a.alignBytes
  | .giveBack p | .setUsedSize p _ => p ∉ a.freeBlocks

structure PagesInv (alignBytes : Nat) (a : Pages Dtype) : Prop where
  align : a.alignBytes = alignBytes
  nodup : a.freeBlocks.Nodup
  page : ∀ p, (a.objs p).address = p ∧ (a.objs p).valid
  free : ∀ p ∈ a.freeBlocks, (a.objs p).rawData = pagedBuffer a.alignBytes p
  held : ∀ p ∉ a.freeBlocks, Views itemsize a p (a.objs p)

/-! ## One object -/

variable {itemsize} {a a' : Pages Dtype} {p : Nat}

lemma getTensor_groupPrefixSum (gs : List Nat) (obj : PageObj Dtype) (i : Nat) :
    getTensor (groupPrefixSum gs) obj i = if i < gs.length then
      some (slice obj.rawData (gs.take i).sum (gs.take (i + 1)).sum) else none := by
  by_cases hi : i < gs.length
  · have hlt : i < gs.inits.length := by simp; omega
    simp [getTensor, groupPrefixSum, hi, getElem?_eq_getElem hlt]
  · simp [getTensor, groupPrefixSum, hi]

lemma sum_le_of_prefix {l l' : List Nat} (h : l <+: l') : l.sum ≤ l'.sum := by
  obtain ⟨t, rfl⟩ := h
  simp

/-- An object with its part of the page, not narrowed, describes its layout if
and only if that has the groups of the page. -/
lemma describes_iff (hviews : Views itemsize a p obj) (hnone : obj.usedSizeOverride = none) :
    Describes itemsize (groupPrefixSum pageGroups) obj (pagedBuffer a.alignBytes p) ↔
      SameGroups (groups itemsize obj) pageGroups := by
  have hcovers : obj.rawData.start = (pagedBuffer a.alignBytes p).start ∧
      (groups itemsize obj).sum ≤ obj.rawData.size ∧ obj.rawData.size ≤ a.alignBytes := by
    obtain ⟨hfits, hraw⟩ := hviews
    rw [hraw]
    split <;> simp [sliceTo, pagedBuffer, hfits]
  have hlast : getSize (groupPrefixSum pageGroups) obj = pageGroups.sum := by
    simp [getSize, hnone, getLast?_eq_getElem?, groupPrefixSum]
  have htensor : ∀ i (hi : i < pageGroups.length), pageGroups.sum ≤ obj.rawData.size → ∃ t,
      getTensor (groupPrefixSum pageGroups) obj i = some t ∧ t.size = pageGroups[i] ∧
        obj.rawData.start ≤ t.start ∧ t.stop ≤ obj.rawData.stop := by
    intro i hi hle
    have hnext := sum_le_of_prefix ( take_prefix (i + 1) pageGroups)
    have hsucc : (pageGroups.take (i + 1)).sum = (pageGroups.take i).sum + pageGroups[i] := by
      simp [hi]
    refine ⟨_, (getTensor_groupPrefixSum ..).trans (if_pos hi), ?_⟩
    simp only [slice, Extent.stop]
    omega
  constructor
  · intro h
    have hsum := hlast.symm.trans h.size
    refine ⟨prefix_iff_getElem?.mpr fun i hi => ?_, hsum.symm⟩
    obtain ⟨t, ht, hg, -⟩ := h.tensors i _ (getElem?_eq_getElem hi)
    have hlt : i < pageGroups.length := by
      by_contra hge
      simp [getTensor_groupPrefixSum, hge] at ht
    obtain ⟨t', ht', hg', -⟩ := htensor i hlt (hsum ▸ hcovers.2.1)
    obtain rfl := Option.mem_unique ht ht'
    rw [getElem?_eq_getElem hlt, ← hg, hg']
  · rintro ⟨hgroups, hsum⟩
    refine ⟨hlast.trans hsum.symm, hcovers, fun i g hg => ?_, fun i j t t' hij ht ht' => ?_⟩
    · obtain ⟨hi, rfl⟩ := List.getElem?_eq_some_iff.mp hg
      obtain ⟨hlt, heq⟩ := List.getElem?_eq_some_iff.mp (prefix_iff_getElem?.mp hgroups i hi)
      exact heq ▸ htensor i hlt (hsum ▸ hcovers.2.1)
    · have hnext := sum_le_of_prefix (take_prefix_take_left (l := pageGroups) hij)
      rw [getTensor_groupPrefixSum] at ht ht'
      split at ht <;> split at ht' <;> cases ht <;> cases ht'
      have hstep := sum_le_of_prefix (take_prefix_take_left (l := pageGroups) (Nat.le_succ i))
      simp only [slice, Extent.stop, Nat.succ_eq_add_one] at hnext hstep ⊢
      omega

/-! ## Runs -/

variable {alignBytes : Nat}

lemma pagesInv_take (h : PagesInv itemsize alignBytes a)
    (hfits : layoutBytes itemsize newShapes newDtypes ≤ a.alignBytes)
    (htake : a.takeBlock (layoutBytes itemsize) newShapes newDtypes = some (p, a')) :
    PagesInv itemsize alignBytes a' := by
  obtain ⟨halign, hnodup, hpage, hfree, hheld⟩ := h
  unfold takeBlock at htake
  split at htake
  · cases htake
  · rename_i hlist
    cases htake
    rw [hlist] at hnodup hfree hheld
    refine ⟨halign, hnodup.of_cons, fun r => ?_, fun r hr => ?_, fun r hr => ?_⟩
    · by_cases hr : r = p <;> simp_all [reuse]
    · have hne : r ≠ p := by
        rintro rfl
        exact (nodup_cons.mp hnodup).1 hr
      simpa [hne] using hfree r (mem_cons_of_mem _ hr)
    · by_cases hne : r = p
      · subst hne
        simpa [Views, groups, layoutBytes, reuse, hfree r mem_cons_self] using hfits
      · simpa [Views, hne] using hheld r (by simp [hne, hr])

lemma pagesInv_giveBack (h : PagesInv itemsize alignBytes a) (hp : p ∉ a.freeBlocks) :
    PagesInv itemsize alignBytes (a.giveBack p) := by
  obtain ⟨halign, hnodup, hpage, hfree, hheld⟩ := h
  have hraw := (hheld p hp).2
  refine ⟨halign, ?_, fun r => ?_, fun r hr => ?_, fun r hr => ?_⟩
  · exact nodup_append.mpr ⟨hnodup, nodup_singleton p, fun q hq r hr heq =>
      hp (mem_singleton.mp hr ▸ heq ▸ hq)⟩
  · by_cases hr : r = p
    · simp only [giveBack, objs_modify, if_pos hr]
      split <;> simp [hpage, hr]
    · simp [giveBack, hr, hpage]
  · by_cases hne : r = p
    · by_cases hshapes : (a.objs r).shapes = a.shapes <;> simp_all [giveBack]
    · have hmem : r ∈ a.freeBlocks := by simpa [giveBack, hne] using hr
      simpa [giveBack, hne] using hfree r hmem
  · have hmem : r ∉ a.freeBlocks ∧ r ≠ p := by simpa [giveBack] using hr
    simpa [Views, giveBack, hmem.2] using hheld r hmem.1

lemma pagesInv_step (h : PagesInv itemsize alignBytes a) (he : Allowed itemsize a e) :
    PagesInv itemsize alignBytes (pageStep itemsize a e) := by
  cases e with
  | take shapes dtypes =>
    simp only [pageStep]
    split
    · exact h
    · rename_i htake
      exact pagesInv_take h he htake
  | giveBack p => simpa [pageStep, batchedFreeOne, (h.page p).2] using pagesInv_giveBack h he
  | setUsedSize p n =>
    simp only [pageStep]
    split
    · refine ⟨h.align, h.nodup, fun r => ?_, fun r hr => ?_, fun r hr => ?_⟩
      · have := h.page r
        by_cases hr : r = p <;> simp_all
      · have := h.free r hr
        by_cases hr : r = p <;> simp_all
      · have := h.held r hr
        by_cases hr : r = p <;> simp_all [Views, groups]
    · exact h

variable (itemsize) in
/-- In every run, an allocated page that its owner did not narrow describes the
layout it was allocated with if and only if that has the groups of the page. -/
theorem describes_iff_sameGroups (shapes : List (List Nat)) (dtypes : List Dtype) (bufferSize : Nat)
    (a : Pages Dtype) (hinit : init (layoutBytes itemsize) shapes dtypes bufferSize = some a)
    (events : List (PageEvent Dtype))
    (hevents : Along (pageStep itemsize) (Allowed itemsize) a events) (p : Nat)
    (hp : p ∉ (run (pageStep itemsize) a events).freeBlocks)
    (hnone : ((run (pageStep itemsize) a events).objs p).usedSizeOverride = none) :
    Describes itemsize (groupPrefixSum (groupSizes itemsize shapes dtypes))
      ((run (pageStep itemsize) a events).objs p)
      (pagedBuffer (layoutBytes itemsize shapes dtypes) p) ↔
      SameGroups (groups itemsize ((run (pageStep itemsize) a events).objs p))
      (groupSizes itemsize shapes dtypes) := by
  have hstart : PagesInv itemsize (layoutBytes itemsize shapes dtypes) a := by
    simp only [init] at hinit
    split at hinit
    · cases hinit
    · cases hinit
      exact ⟨rfl, nodup_range, fun p => ⟨rfl, rfl⟩, fun p _ => rfl,
        fun p _ => ⟨le_rfl, (if_neg (not_not_intro rfl)).symm⟩⟩
  have hrun := run_inv (PagesInv itemsize (layoutBytes itemsize shapes dtypes))
    (fun _ _ h he => pagesInv_step h he) hstart hevents
  rw [← hrun.align]
  exact describes_iff (hrun.held p hp) hnone

/-- Two pages of two groups. The first is taken with another layout, narrowed
and given back, and then taken again. -/
def recycled : List (PageEvent Bool) :=
  [.take [[4]] [false], .setUsedSize 0 3, .giveBack 0, .take [[2, 2], [3]] [false, true],
   .take [[2, 2], [3]] [false, true]]

theorem recycled_describes : ∃ a : Pages Bool,
    init (layoutBytes (cond · 2 1)) [[2, 2], [3]] [false, true] 20 = some a ∧
    Describes (cond · 2 1) (groupPrefixSum [4, 6])
      ((run (pageStep (cond · 2 1)) a recycled).objs 0) (pagedBuffer 10 0) :=
  ⟨_, rfl, (describes_iff_sameGroups (cond · 2 1) [[2, 2], [3]] [false, true] 20 _ rfl recycled
    (by refine ⟨?_, ?_, ?_, ?_, ?_, trivial⟩ <;> simp only [Allowed] <;> decide) 0 (by decide)
    rfl).mpr ⟨prefix_rfl, rfl⟩⟩

/-- An allocation of four bytes reports the eight of the page. -/
theorem shortLayout_not_describes : ∃ a : Pages Unit,
    init (layoutBytes fun _ => 1) [[8]] [()] 16 = some a ∧
    ¬ Describes (fun _ => 1) (groupPrefixSum [8])
      ((pageStep (fun _ => 1) a (.take [[4]] [()])).objs 0) (pagedBuffer 8 0) := by
  refine ⟨_, rfl, fun h => ?_⟩
  exact absurd h.size (by decide)

end LMCache.MemoryAllocators.PagedTensorMemoryAllocator
