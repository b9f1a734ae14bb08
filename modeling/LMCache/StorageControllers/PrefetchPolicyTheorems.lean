/-
LMCache.StorageControllers.PrefetchPolicyTheorems — what the default plan
covers.

Whatever the descriptors are, a plan takes each cell from at most one source
and only from a source that holds it (`planLoad_sound`). Its cells are those
that the prefix folded from ALL lookup results needs and that a described
source holds (`planned_iff`). They are the cells of the longest prefix the
described sources can serve only if the other sources do not change that
prefix, up to windows that happen to coincide (`plan_exact_iff`).
-/
import LMCache.StorageControllers.PrefetchPolicy

namespace LMCache.StorageControllers

open List Lib Native Bitmap2D MapState

variable {Key : Type} {m n : Nat}

/-! ## Soundness -/

/-- Every planned cell is held where it is planned, and planned once. -/
structure PlanSound (l1LockedKeys l2LockedKeys : MapState m n) (plan : PrefetchPlan m n) :
    Prop where
  l1Held : ∀ idx i j, plan.l1PlannedKeys.has idx i j → l1LockedKeys.has idx i j
  l2Held : ∀ idx i j, plan.l2PlannedKeys.has idx i j → l2LockedKeys.has idx i j
  l1Once : ∀ a b i j, plan.l1PlannedKeys.has a i j →
    plan.l1PlannedKeys.has b i j → a = b
  l2Once : ∀ a b i j, plan.l2PlannedKeys.has a i j →
    plan.l2PlannedKeys.has b i j → a = b
  apart : ∀ a b i j, plan.l1PlannedKeys.has a i j → plan.l2PlannedKeys.has b i j = false

section Sound

variable {l1LockedKeys l2LockedKeys : MapState m n} {l1ManagerDescs l2AdapterDescs : List Nat}

lemma planSound_empty : PlanSound l1LockedKeys l2LockedKeys .empty := by
  constructor <;> intros <;> simp_all [PrefetchPlan.empty]

/-- Planning L2 on what L1 leaves over gives a sound plan. -/
lemma planSound_tiers {needed rest rest' : Bitmap2D m n} {l1 l2 : MapState m n}
    (h1 : TierPlan needed l1LockedKeys l1ManagerDescs l1 rest)
    (h2 : TierPlan rest l2LockedKeys l2AdapterDescs l2 rest') :
    PlanSound l1LockedKeys l2LockedKeys ⟨l1, l2⟩ where
  l1Held idx i j h := (h1.held idx i j h).2.1
  l2Held idx i j h := (h2.held idx i j h).2.1
  l1Once := h1.once
  l2Once := h2.once
  apart a b i j h := by
    obtain ⟨hd, hl, -⟩ := h1.held a i j h
    by_contra hb
    obtain ⟨-, -, hr⟩ := h2.held b i j (by simpa using hb)
    have hno := ((h1.rest i j).mp hr).2 a hd
    rw [hl] at hno
    cases hno

variable (groups : List (GroupedObjectKeys Key)) (policy : FetchingPolicy)

lemma planLoad_sound : PlanSound l1LockedKeys l2LockedKeys
      (planLoad groups l1LockedKeys l2LockedKeys l1ManagerDescs l2AdapterDescs policy) := by
  unfold planLoad
  split
  · exact planSound_empty
  · split
    · exact planSound_empty
    · exact planSound_tiers (planTier_spec ..) (planTier_spec ..)

/-- Every adapter in the plan has a descriptor and something to load. -/
lemma planLoad_l2 {idx : Nat}
    (h : idx ∈ (planLoad groups l1LockedKeys l2LockedKeys l1ManagerDescs l2AdapterDescs
      policy).l2PlannedKeys) :
    idx ∈ l2AdapterDescs ∧ ∃ i j, (planLoad groups l1LockedKeys l2LockedKeys l1ManagerDescs
      l2AdapterDescs policy).l2PlannedKeys.has idx i j := by
  unfold planLoad at h ⊢
  split_ifs at h with hgroups
  · exact absurd h (Dict.not_mem_empty idx)
  · rw [if_neg hgroups]
    split at h
    · exact absurd h (Dict.not_mem_empty idx)
    · obtain ⟨i, j, hij⟩ := exists_of_mem_planTier h
      have hdone := ((planTier_spec ..).held idx i j hij).1
      exact ⟨(perm_insertionSort _ _).mem_iff.mp hdone, i, j, hij⟩

end Sound

/-! ## Prefixes over cells -/

/-- The cells `has` serve a prefix of `length` chunks under the windows. -/
def ServesPrefix (windows : List Int) (has : Nat → Nat → Bool) (length : Nat) : Prop :=
  ∀ p ∈ windows.zipIdx, ∀ j < length, windowStart p.1 length ≤ j → has p.2 j

instance (windows : List Int) (has : Nat → Nat → Bool) :
    DecidablePred (ServesPrefix windows has) := fun length =>
  inferInstanceAs (Decidable (∀ p ∈ windows.zipIdx, ∀ j < length,
    windowStart p.1 length ≤ j → has p.2 j))

/-- The longest prefix, of at most `n` chunks, that the cells `has` serve. -/
def longestPrefix (windows : List Int) (n : Nat) (has : Nat → Nat → Bool) : Nat :=
  Nat.findGreatest (ServesPrefix windows has) n

/-- The cell is needed to serve a prefix of `length` chunks. -/
def NeededAt (windows : List Int) (length i j : Nat) : Prop :=
  ∃ w, windows[i]? = some w ∧ windowStart w length ≤ j ∧ j < length

variable {windows : List Int}

lemma longestPrefix_le (windows : List Int) (n : Nat) (has : Nat → Nat → Bool) :
    longestPrefix windows n has ≤ n := Nat.findGreatest_le n

lemma servesPrefix_longestPrefix (windows : List Int) (n : Nat) (has : Nat → Nat → Bool) :
    ServesPrefix windows has (longestPrefix windows n has) :=
  Nat.findGreatest_spec (Nat.zero_le n) fun _ _ _ h => absurd h (Nat.not_lt_zero _)

/-- What the longest prefix needs is there. -/
lemma has_of_neededAt_longestPrefix {n : Nat} {has : Nat → Nat → Bool} {i j : Nat}
    (h : NeededAt windows (longestPrefix windows n has) i j) : has i j := by
  obtain ⟨w, hw, hlo, hhi⟩ := h
  exact servesPrefix_longestPrefix windows n has (w, i) (mem_zipIdx_iff_getElem?.mpr hw) j hhi hlo

/-- More cells serve longer prefixes. -/
lemma longestPrefix_mono {n : Nat} {has has' : Nat → Nat → Bool}
    (h : ∀ i j, has i j → has' i j) :
    longestPrefix windows n has ≤ longestPrefix windows n has' :=
  Nat.le_findGreatest (longestPrefix_le ..) fun p hp j hj hlo =>
    h p.2 j (servesPrefix_longestPrefix windows n has p hp j hj hlo)

variable (g : Bitmap2D m n)

section

variable (hlen : windows.length = m)
include hlen

lemma allServe_iff_servesPrefix (length : Nat) :
    AllServe g.rows windows length ↔ ServesPrefix windows g.test length := by
  constructor
  · rintro h ⟨w, i⟩ hp j hj hlo
    have hw := mem_zipIdx_iff_getElem?.mp hp
    have hi : i < m := hlen ▸ (List.getElem?_eq_some_iff.mp hw).1
    obtain ⟨row, hrow, -⟩ := g.exists_row hi
    rw [g.test_eq hrow]
    refine h (row, w) ?_ j hlo hj
    exact mem_iff_getElem?.mpr ⟨i, getElem?_zip_eq_some.mpr ⟨hrow, hw⟩⟩
  · rintro h ⟨row, w⟩ hp j hlo hj
    obtain ⟨i, hi⟩ := mem_iff_getElem?.mp hp
    obtain ⟨hrow, hw⟩ := getElem?_zip_eq_some.mp hi
    rw [← g.test_eq hrow]
    exact h (w, i) (mem_zipIdx_iff_getElem?.mpr hw) j hj hlo

/-- The fold finds the longest prefix, and the retained rows are the cells it
needs. -/
lemma foldUnfold_grid (hpos : 0 < m) :
    foldUnfoldGrouped g.rows windows = .ok (longestPrefix windows n g.test,
      windows.map (unfoldRow (longestPrefix windows n g.test) n)) := by
  have hne : g.rows ≠ [] := by
    intro h
    have := g.length_rows
    rw [h, length_nil] at this
    omega
  obtain ⟨hit, hfold, hle, hserve, hmax⟩ :=
    foldUnfoldGrouped_spec hne (g.length_rows.trans hlen.symm) g.size_rows
  have hhit : hit = longestPrefix windows n g.test := by
    apply Nat.le_antisymm
    · exact Nat.le_findGreatest hle ((allServe_iff_servesPrefix g hlen hit).mp hserve)
    · refine hmax _ (longestPrefix_le ..) ((allServe_iff_servesPrefix g hlen _).mpr ?_)
      exact servesPrefix_longestPrefix windows n g.test
  rw [hfold, hhit]

lemma neededCells_prefix (hpos : 0 < m) :
    ∃ needed, neededCells windows g .prefixPolicy = some needed ∧
      ∀ i j, needed.test i j ↔ NeededAt windows (longestPrefix windows n g.test) i j := by
  have hshape : (windows.map (unfoldRow (longestPrefix windows n g.test) n)).length = m ∧
      ∀ row ∈ windows.map (unfoldRow (longestPrefix windows n g.test) n), row.size = n := by
    refine ⟨by rw [length_map, hlen], fun row hrow => ?_⟩
    obtain ⟨w, -, rfl⟩ := mem_map.mp hrow
    exact size_unfoldRow ..
  refine ⟨and ⟨_, hshape.1, hshape.2⟩ g, ?_, fun i j => ?_⟩
  · simp only [neededCells, foldUnfold_grid g hlen hpos, ofRows?]
    rw [dif_pos hshape]
    rfl
  · rw [test_and, Bool.and_eq_true]
    have hretain : (⟨_, hshape.1, hshape.2⟩ : Bitmap2D m n).test i j
        ↔ NeededAt windows (longestPrefix windows n g.test) i j := by
      cases hw : windows[i]? with
      | none => simp [test, NeededAt, hw]
      | some w =>
        have hrow : (windows.map (unfoldRow (longestPrefix windows n g.test) n))[i]?
            = some (unfoldRow (longestPrefix windows n g.test) n w) := by
          rw [getElem?_map, hw]
          rfl
        rw [test_eq _ hrow, unfoldRow_test (longestPrefix_le ..)]
        simp [NeededAt, hw]
    rw [hretain]
    exact ⟨And.left, fun h => ⟨h, has_of_neededAt_longestPrefix h⟩⟩

end

/-! ## What the plan covers -/

/-- Some L1 manager or some L2 adapter of the lookup holds the cell. -/
def foundAnywhere (l1LockedKeys l2LockedKeys : MapState m n) : Nat → Nat → Bool :=
  (l1LockedKeys.merge + l2LockedKeys.merge).test

/-- Some L1 manager, or an L2 adapter with a descriptor, holds the cell. -/
def foundDescribed (l1LockedKeys l2LockedKeys : MapState m n) (l2AdapterDescs : List Nat)
    (i j : Nat) : Bool :=
  l1LockedKeys.merge.test i j || l2AdapterDescs.any (fun idx => l2LockedKeys.has idx i j)

/-- The plan serves the cell from some source. -/
def PrefetchPlan.Covers (plan : PrefetchPlan m n) (i j : Nat) : Prop :=
  (∃ idx, plan.l1PlannedKeys.has idx i j) ∨ (∃ idx, plan.l2PlannedKeys.has idx i j)

/-- The plan takes each cell from at most one source, only from a source that
holds it, and covers exactly the cells of the longest prefix that the L1
managers and the described L2 adapters serve. -/
def PlanExact (groups : List (GroupedObjectKeys Key)) (l1LockedKeys l2LockedKeys : MapState m n)
    (l2AdapterDescs : List Nat) (plan : PrefetchPlan m n) : Prop :=
  PlanSound l1LockedKeys l2LockedKeys plan ∧
    ∀ i j, plan.Covers i j ↔ NeededAt (windowsOf groups) (longestPrefix (windowsOf groups) n
      (foundDescribed l1LockedKeys l2LockedKeys l2AdapterDescs)) i j

/-- The prefix folded from all lookup results is the one the described
sources serve; or it is longer, but every row starts at the same chunk for
both (unless the described sources serve no chunk at all) and the described
sources hold none of the additional cells. -/
def DescriptorsSuffice (groups : List (GroupedObjectKeys Key))
    (l1LockedKeys l2LockedKeys : MapState m n) (l2AdapterDescs : List Nat) : Prop :=
  let all := longestPrefix (windowsOf groups) n (foundAnywhere l1LockedKeys l2LockedKeys)
  let described := longestPrefix (windowsOf groups) n
    (foundDescribed l1LockedKeys l2LockedKeys l2AdapterDescs)
  all = described ∨ ∀ i w, (windowsOf groups)[i]? = some w →
      (0 < described → windowStart w all = windowStart w described) ∧
      ∀ j, windowStart w all ≤ j → described ≤ j → j < all →
        foundDescribed l1LockedKeys l2LockedKeys l2AdapterDescs i j = false

section Covered

variable {groups : List (GroupedObjectKeys Key)} {l1LockedKeys l2LockedKeys : MapState m n}
  {l1ManagerDescs l2AdapterDescs : List Nat}

lemma planLoad_eq (hrows : Rows groups m n) {needed : Bitmap2D m n} {policy : FetchingPolicy}
    (h : neededCells (windowsOf groups) (l1LockedKeys.merge + l2LockedKeys.merge) policy
      = some needed) :
    planLoad groups l1LockedKeys l2LockedKeys l1ManagerDescs l2AdapterDescs policy
      = ⟨(planTier needed l1LockedKeys (l1ManagerDescs.insertionSort (· ≤ ·))).1,
      (planTier (planTier needed l1LockedKeys (l1ManagerDescs.insertionSort (· ≤ ·))).2
      l2LockedKeys (l2AdapterDescs.insertionSort (· ≤ ·))).1⟩ := by
  have hmatch : (groups.isEmpty || !gridMatchesGroups m n groups) = false := by
    cases groups with
    | nil =>
      have := hrows.length
      have := hrows.pos
      simp at *
      omega
    | cons g gs =>
      have hw := hrows.width g mem_cons_self
      have hl := hrows.length
      simp only [gridMatchesGroups, isEmpty_cons, Bool.false_or, hw, hl, decide_true, Bool.not_true]
  simp only [planLoad, hmatch, h, Bool.false_eq_true, if_false]

/-- A cell is covered when the prefix of all results needs it and a described
source holds it. -/
lemma planned_iff (hrows : Rows groups m n)
    (hdescs : ∀ idx ∈ l1LockedKeys, idx ∈ l1ManagerDescs) (i j : Nat) :
    (planLoad groups l1LockedKeys l2LockedKeys l1ManagerDescs l2AdapterDescs
      .prefixPolicy).Covers i j ↔ NeededAt (windowsOf groups) (longestPrefix (windowsOf groups) n
      (foundAnywhere l1LockedKeys l2LockedKeys)) i j ∧
      foundDescribed l1LockedKeys l2LockedKeys l2AdapterDescs i j := by
  have hlen : (windowsOf groups).length = m := by rw [windowsOf, length_map, hrows.length]
  obtain ⟨needed, hneeded, hiff⟩ :=
    neededCells_prefix (l1LockedKeys.merge + l2LockedKeys.merge) hlen hrows.pos
  rw [planLoad_eq hrows hneeded]
  have h1 := planTier_spec needed l1LockedKeys (l1ManagerDescs.insertionSort (· ≤ ·))
  have h2 := planTier_spec (planTier needed l1LockedKeys (l1ManagerDescs.insertionSort (· ≤ ·))).2
    l2LockedKeys (l2AdapterDescs.insertionSort (· ≤ ·))
  rw [foundAnywhere, ← hiff i j]
  simp only [foundDescribed, Bool.or_eq_true, merge_test, any_eq_true]
  constructor
  · rintro (⟨idx, hp⟩ | ⟨idx, hp⟩)
    · obtain ⟨-, hl, hn⟩ := h1.held idx i j hp
      exact ⟨hn, .inl ⟨idx, hl⟩⟩
    · obtain ⟨hd, hl, hr⟩ := h2.held idx i j hp
      exact ⟨((h1.rest i j).mp hr).1, .inr ⟨idx, mem_insertionSort _ |>.mp hd, hl⟩⟩
  · rintro ⟨hn, hheld⟩
    by_cases hr : (planTier needed l1LockedKeys
        (l1ManagerDescs.insertionSort (· ≤ ·))).2.test i j
    · -- no L1 manager holds it
      obtain ⟨-, hno⟩ := (h1.rest i j).mp hr
      rcases hheld with ⟨idx, hl⟩ | ⟨idx, hd, hl⟩
      · have hd := mem_insertionSort (· ≤ ·) |>.mpr (hdescs idx (mem_of_has hl))
        rw [hno idx hd] at hl
        cases hl
      · exact .inr (h2.all idx (mem_insertionSort _ |>.mpr hd) i j hr hl)
    · have hbefore : ∃ idx ∈ l1ManagerDescs.insertionSort (· ≤ ·),
          l1LockedKeys.has idx i j := by
        by_contra hno
        refine hr ((h1.rest i j).mpr ⟨hn, fun idx hidx => ?_⟩)
        by_contra hl
        exact hno ⟨idx, hidx, by simpa using hl⟩
      obtain ⟨idx, hidx, hl⟩ := hbefore
      exact .inl (h1.all idx hidx i j hn hl)

lemma foundAnywhere_of_foundDescribed {i j : Nat}
    (h : foundDescribed l1LockedKeys l2LockedKeys l2AdapterDescs i j) :
    foundAnywhere l1LockedKeys l2LockedKeys i j := by
  simp only [foundDescribed, foundAnywhere, test_add, Bool.or_eq_true, any_eq_true] at h ⊢
  rcases h with h | ⟨idx, -, h⟩
  · exact .inl h
  · exact .inr ((merge_test l2LockedKeys i j).mpr ⟨idx, h⟩)

/-- The default plan is exact for the described sources iff the descriptors
suffice. -/
theorem plan_exact_iff (hrows : Rows groups m n)
    (hdescs : ∀ idx ∈ l1LockedKeys, idx ∈ l1ManagerDescs) :
    PlanExact groups l1LockedKeys l2LockedKeys l2AdapterDescs
      (planLoad groups l1LockedKeys l2LockedKeys l1ManagerDescs l2AdapterDescs .prefixPolicy) ↔
    DescriptorsSuffice groups l1LockedKeys l2LockedKeys l2AdapterDescs := by
  have hmono : longestPrefix (windowsOf groups) n
        (foundDescribed l1LockedKeys l2LockedKeys l2AdapterDescs) ≤
      longestPrefix (windowsOf groups) n (foundAnywhere l1LockedKeys l2LockedKeys) :=
    longestPrefix_mono fun i j => foundAnywhere_of_foundDescribed
  have hneeds : ∀ i j, NeededAt (windowsOf groups) (longestPrefix (windowsOf groups) n
      (foundDescribed l1LockedKeys l2LockedKeys l2AdapterDescs)) i j →
      foundDescribed l1LockedKeys l2LockedKeys l2AdapterDescs i j :=
    fun i j => has_of_neededAt_longestPrefix
  simp only [PlanExact, planLoad_sound, true_and, planned_iff hrows hdescs, DescriptorsSuffice]
  generalize longestPrefix (windowsOf groups) n
    (foundDescribed l1LockedKeys l2LockedKeys l2AdapterDescs) = hs at hmono hneeds ⊢
  generalize longestPrefix (windowsOf groups) n (foundAnywhere l1LockedKeys l2LockedKeys) = hf
    at hmono ⊢
  constructor
  · intro h
    refine .inr fun i w hw => ⟨fun hpos => ?_, fun j hlo hge hlt => ?_⟩
    · -- the first chunk the shorter prefix needs is needed by the longer one
      have hfirst : NeededAt (windowsOf groups) hs i (windowStart w hs) :=
        ⟨w, hw, le_rfl, windowStart_lt hpos⟩
      obtain ⟨⟨w', hw', hle, -⟩, -⟩ := (h i _).mpr hfirst
      rw [hw] at hw'
      cases hw'
      exact Nat.le_antisymm hle (windowStart_mono w hmono)
    · by_contra hd
      obtain ⟨w', hw', -, hlt'⟩ := (h i j).mp ⟨⟨w, hw, hlo, hlt⟩, by simpa using hd⟩
      omega
  · rintro (heq | hsame) i j
    · rw [heq]
      exact ⟨And.left, fun hn => ⟨hn, hneeds i j hn⟩⟩
    · constructor
      · rintro ⟨⟨w, hw, hlo, hlt⟩, hd⟩
        obtain ⟨hstart, hnone⟩ := hsame i w hw
        by_cases hj : hs ≤ j
        · rw [hnone j hlo hj hlt] at hd
          cases hd
        · exact ⟨w, hw, by rw [← hstart (by omega)]; exact hlo, by omega⟩
      · intro hn
        have ⟨w, hw, hlo, hlt⟩ := hn
        obtain ⟨hstart, -⟩ := hsame i w hw
        refine ⟨⟨w, hw, ?_, by omega⟩, hneeds i j hn⟩
        rw [hstart (by omega)]
        exact hlo

end Covered

/-- One row of two chunks that needs only the last chunk of a prefix. -/
def lastChunkRow : List (GroupedObjectKeys Nat) :=
  [⟨[10, 11], 64, 1, 1, by decide, by decide⟩]

/-- The grid with the single cell `(0, j)`. -/
def oneCell (j : Nat) : Bitmap2D 1 2 := (zeros 1 2).set 0 j

/-- L1 manager `0` holds chunk 0 and adapter `5`, which is described, chunk 1. -/
theorem lastChunkRow_plan_exact :
    PlanExact lastChunkRow (set ∅ 0 (oneCell 0)) (set ∅ 5 (oneCell 1)) [5]
      (planLoad lastChunkRow (set ∅ 0 (oneCell 0)) (set ∅ 5 (oneCell 1)) [0] [5]
      .prefixPolicy) :=
  (plan_exact_iff ⟨rfl, by simp [lastChunkRow], by decide⟩ (by
    intro idx h
    rcases mem_set.mp h with rfl | h
    · exact mem_singleton_self 0
    · exact absurd h (Dict.not_mem_empty idx))).mpr (.inl (by decide))

/-- The same lookup, with adapter `5` left out of the descriptors: the two
chunks fold to a prefix that needs only chunk 1, which nobody described
holds, so nothing is planned, although the L1 manager alone serves a prefix
of one chunk. -/
theorem lastChunkRow_plan_not_exact :
    ¬ PlanExact lastChunkRow (set ∅ 0 (oneCell 0)) (set ∅ 5 (oneCell 1)) []
      (planLoad lastChunkRow (set ∅ 0 (oneCell 0)) (set ∅ 5 (oneCell 1)) [0] []
      .prefixPolicy) := by
  intro h
  have hneeded : NeededAt (windowsOf lastChunkRow) (longestPrefix (windowsOf lastChunkRow) 2
      (foundDescribed (set ∅ 0 (oneCell 0)) (set ∅ 5 (oneCell 1)) [])) 0 0 :=
    ⟨1, rfl, by decide, by decide⟩
  rcases (h.2 0 0).mpr hneeded with ⟨idx, hp⟩ | ⟨idx, hp⟩ <;> cases hp

end LMCache.StorageControllers
