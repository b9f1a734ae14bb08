/-
LMCache.StorageControllers.PrefetchPolicy — which source serves which cell.

After the lookups a prefetch request knows which cells each L1 manager and
each L2 adapter holds locked. `DefaultPrefetchPolicy.plan_load` folds the
union of all of them to the longest servable prefix, keeps the cells that
prefix needs, and hands each to the first source, L1 managers before L2
adapters, that holds it. It hands cells only to sources it has a descriptor
for, while the union is taken over every source of the lookup.
-/
import LMCache.StorageControllers.MapState

namespace LMCache.StorageControllers

open List Lib Native Bitmap2D MapState

variable {Key : Type} {m n : Nat}

/-! ## Requests -/

/-- `FetchingPolicy`: `"prefix"` or `"full"`. -/
inductive FetchingPolicy where
  | prefixPolicy
  | fullPolicy
  deriving DecidableEq, Repr

/-- `GroupedObjectKeys`, one row of a request; its fields are checked on
construction. `objectBytes` is the size its `layout_desc` describes. -/
structure GroupedObjectKeys (Key : Type) where
  keys : List Key
  objectBytes : Nat
  slidingWindowSize : Int
  numKvReaders : Int
  window_ok : slidingWindowSize = -1 ∨ 1 ≤ slidingWindowSize
  readers_ok : 1 ≤ numKvReaders

/-- The rows of a request: `m` groups of `n` keys, at least one group, as
`PrefetchTaskSpec` checks. -/
structure Rows (groups : List (GroupedObjectKeys Key)) (m n : Nat) : Prop where
  length : groups.length = m
  width : ∀ g ∈ groups, g.keys.length = n
  pos : 0 < m

/-- The windows of the rows. -/
def windowsOf (groups : List (GroupedObjectKeys Key)) : List Int :=
  groups.map GroupedObjectKeys.slidingWindowSize

/-! ## Planning -/

/-- `PrefetchPlan`. -/
structure PrefetchPlan (m n : Nat) where
  l1PlannedKeys : MapState m n
  l2PlannedKeys : MapState m n

def PrefetchPlan.empty : PrefetchPlan m n := ⟨∅, ∅⟩

/-- The body of the loop of `_plan_tier`. -/
def planIndex (locked : MapState m n) (acc : MapState m n × Bitmap2D m n) (index : Nat) :
    MapState m n × Bitmap2D m n :=
  match locked.state.get? index with
  | none => acc
  | some grid =>
    let loc := acc.2.and grid
    if loc.popcount = 0 then acc else (acc.1.set index loc, acc.2 - loc)

section

variable (needed : Bitmap2D m n) (locked : MapState m n)

/-- `_plan_tier`: first index wins. -/
def planTier (indices : List Nat) : MapState m n × Bitmap2D m n :=
  indices.foldl (planIndex locked) (∅, needed)

/-- `_grid_matches_groups`, for grids of shape `m × n`. -/
def gridMatchesGroups (m n : Nat) (groups : List (GroupedObjectKeys Key)) : Bool :=
  match groups with
  | [] => decide ((m, n) = (0, 0))
  | group :: _ => decide ((m, n) = (groups.length, group.keys.length))

/-- `Bitmap2D(rows)`, refused when the rows do not have the expected shape. -/
def Bitmap2D.ofRows? (m n : Nat) (rows : List Bitmap) : Option (Bitmap2D m n) :=
  if h : rows.length = m ∧ ∀ row ∈ rows, row.size = n then some ⟨rows, h.1, h.2⟩ else none

/-- The cells a plan has to serve; `none` stands for the branches that log an
error and return an empty plan. -/
def neededCells (windows : List Int) (found : Bitmap2D m n) : FetchingPolicy → Option (Bitmap2D m n)
  | .fullPolicy => if windows.any (fun w => w > -1) then none else some found
  | .prefixPolicy =>
    match foldUnfoldGrouped found.rows windows with
    | .error _ => none
    | .ok (_, retain) => (ofRows? m n retain).map (·.and found)

/-- `DefaultPrefetchPolicy.plan_load`. The descriptors matter through their
indices only. -/
def planLoad (groups : List (GroupedObjectKeys Key)) (l1LockedKeys l2LockedKeys : MapState m n)
    (l1ManagerDescs l2AdapterDescs : List Nat) (policy : FetchingPolicy) : PrefetchPlan m n :=
  if groups.isEmpty || !gridMatchesGroups m n groups then .empty
  else
    match neededCells (windowsOf groups) (l1LockedKeys.merge + l2LockedKeys.merge) policy with
    | none => .empty
    | some needed =>
      let l1 := planTier needed l1LockedKeys (l1ManagerDescs.insertionSort (· ≤ ·))
      let l2 := planTier l1.2 l2LockedKeys (l2AdapterDescs.insertionSort (· ≤ ·))
      ⟨l1.1, l2.1⟩

/-! ## One tier -/

/-- What holds of a tier's plan after the indices `done`: every planned cell
is needed and held by its index, no cell is planned twice, and what remains
is what no index holds. -/
structure TierPlan (done : List Nat) (plan : MapState m n) (remaining : Bitmap2D m n) : Prop where
  held : ∀ idx i j, plan.has idx i j →
    idx ∈ done ∧ locked.has idx i j ∧ needed.test i j
  once : ∀ a b i j, plan.has a i j → plan.has b i j → a = b
  rest : ∀ i j, remaining.test i j ↔
    needed.test i j ∧ ∀ idx ∈ done, locked.has idx i j = false
  all : ∀ idx ∈ done, ∀ i j, needed.test i j → locked.has idx i j →
    ∃ idx', plan.has idx' i j

end

section Tier

variable {needed : Bitmap2D m n} {locked : MapState m n}

section

variable {done : List Nat} {plan : MapState m n} {remaining : Bitmap2D m n}

lemma TierPlan.skip (h : TierPlan needed locked done plan remaining) {index : Nat}
    (hnone : ∀ i j, remaining.test i j → locked.has index i j = false) :
    TierPlan needed locked (done ++ [index]) plan remaining where
  held := by
    intro idx i j hp
    obtain ⟨hd, hl⟩ := h.held idx i j hp
    exact ⟨mem_append_left _ hd, hl⟩
  once := h.once
  rest := by
    intro i j
    constructor
    · intro hr
      obtain ⟨hn, hd⟩ := (h.rest i j).mp hr
      refine ⟨hn, fun idx hidx => ?_⟩
      rcases mem_append.mp hidx with hidx | hidx
      · exact hd idx hidx
      · rw [mem_singleton.mp hidx]
        exact hnone i j hr
    · rintro ⟨hn, hd⟩
      exact (h.rest i j).mpr ⟨hn, fun idx hidx => hd idx (mem_append_left _ hidx)⟩
  all := by
    intro idx hidx i j hn hl
    by_cases hr : remaining.test i j
    · rcases mem_append.mp hidx with hidx | hidx
      · exact h.all idx hidx i j hn hl
      · rw [mem_singleton.mp hidx, hnone i j hr] at hl
        cases hl
    · -- an index before it holds the cell
      by_contra hno
      apply hr
      refine (h.rest i j).mpr ⟨hn, fun idx' hidx' => ?_⟩
      by_contra hl'
      exact hno (h.all idx' hidx' i j hn (by simpa using hl'))

lemma TierPlan.take (h : TierPlan needed locked done plan remaining) {index : Nat}
    {grid : Bitmap2D m n} (hgrid : ∀ i j, grid.test i j = locked.has index i j)
    (hnew : index ∉ done) :
    TierPlan needed locked (done ++ [index]) (plan.set index (remaining.and grid))
      (remaining - remaining.and grid) where
  held := by
    intro idx i j hp
    rw [has_set] at hp
    split_ifs at hp with hidx
    · rw [test_and, hgrid, Bool.and_eq_true] at hp
      subst hidx
      exact ⟨mem_append_right _ (mem_singleton_self _), hp.2, ((h.rest i j).mp hp.1).1⟩
    · obtain ⟨hd, hl⟩ := h.held idx i j hp
      exact ⟨mem_append_left _ hd, hl⟩
  once := by
    -- a cell planned earlier does not remain
    have hgone : ∀ idx i j, plan.has idx i j → remaining.test i j = false := by
      intro idx i j hp
      obtain ⟨hd, hl, -⟩ := h.held idx i j hp
      by_contra hr
      have := ((h.rest i j).mp (by simpa using hr)).2 idx hd
      rw [hl] at this
      cases this
    intro a b i j ha hb
    rw [has_set] at ha hb
    split at ha <;> split at hb
    · rename_i h1 h2
      rw [h1, h2]
    · rw [test_and, hgone b i j hb] at ha
      cases ha
    · rw [test_and, hgone a i j ha] at hb
      cases hb
    · exact h.once a b i j ha hb
  rest := by
    intro i j
    simp only [test_sub, test_and, hgrid, Bool.and_eq_true, h.rest i j, mem_append, mem_singleton]
    constructor
    · rintro ⟨⟨hn, hd⟩, hl⟩
      refine ⟨hn, fun idx hidx => ?_⟩
      rcases hidx with hidx | rfl
      · exact hd idx hidx
      · have hr : remaining.test i j := (h.rest i j).mpr ⟨hn, hd⟩
        simpa [hr] using hl
    · rintro ⟨hn, hd⟩
      refine ⟨⟨hn, fun idx hidx => hd idx (.inl hidx)⟩, ?_⟩
      simp [hd index (.inr rfl)]
  all := by
    intro idx hidx i j hn hl
    by_cases hr : remaining.test i j
    · by_cases hli : locked.has index i j
      · refine ⟨index, ?_⟩
        rw [has_set, if_pos rfl, test_and, hgrid, hr, hli]
        rfl
      · rcases mem_append.mp hidx with hidx | hidx
        · have := ((h.rest i j).mp hr).2 idx hidx
          rw [hl] at this
          cases this
        · rw [mem_singleton.mp hidx] at hl
          exact absurd hl hli
    · have hbefore : ∃ idx' ∈ done, locked.has idx' i j := by
        by_contra hno
        refine hr ((h.rest i j).mpr ⟨hn, fun idx' hidx' => ?_⟩)
        by_contra hl'
        exact hno ⟨idx', hidx', by simpa using hl'⟩
      obtain ⟨idx', hidx', hl'⟩ := hbefore
      obtain ⟨p, hp⟩ := h.all idx' hidx' i j hn hl'
      refine ⟨p, ?_⟩
      have hne : p ≠ index := fun he => hnew (he ▸ (h.held p i j hp).1)
      rw [has_set, if_neg hne]
      exact hp

lemma planIndex_spec {acc : MapState m n × Bitmap2D m n}
    (h : TierPlan needed locked done acc.1 acc.2) (index : Nat) :
    TierPlan needed locked (done ++ [index]) (planIndex locked acc index).1
      (planIndex locked acc index).2 := by
  unfold planIndex
  split
  · rename_i hnone
    refine h.skip fun i j _ => ?_
    simp [has, hnone]
  · rename_i grid hsome
    have hgrid : ∀ i j, grid.test i j = locked.has index i j := by
      simp [has, hsome]
    dsimp only
    split
    · rename_i hzero
      refine h.skip fun i j hr => ?_
      have := popcount_eq_zero_iff.mp hzero i j
      rw [test_and, hr, hgrid] at this
      simpa using this
    · rename_i hpos
      refine h.take hgrid fun hmem => hpos (popcount_eq_zero_iff.mpr fun i j => ?_)
      -- an index met before has nothing left to take
      rw [test_and, hgrid]
      by_cases hr : acc.2.test i j
      · rw [((h.rest i j).mp hr).2 index hmem, Bool.and_false]
      · simp [hr]

end

variable (needed locked) in
lemma planTier_spec (indices : List Nat) :
    TierPlan needed locked indices (planTier needed locked indices).1
      (planTier needed locked indices).2 := by
  induction indices using reverseRecOn with
  | nil => exact ⟨by simp [planTier], by simp [planTier], by simp [planTier], by simp⟩
  | append_singleton indices index ih =>
    rw [planTier, foldl_append]
    exact planIndex_spec ih index

lemma exists_of_mem_planTier {indices : List Nat} {idx : Nat}
    (h : idx ∈ (planTier needed locked indices).1) :
    ∃ i j, (planTier needed locked indices).1.has idx i j := by
  refine foldlRecOn (motive := fun acc : MapState m n × Bitmap2D m n =>
    ∀ idx ∈ acc.1, ∃ i j, acc.1.has idx i j) indices _
    (fun idx hidx => absurd hidx (Dict.not_mem_empty idx)) (fun acc hacc index _ => ?_) idx h
  unfold planIndex
  split
  · exact hacc
  · dsimp only
    split_ifs with hpos
    · exact hacc
    · intro idx hidx
      simp only [has_set]
      rcases mem_set.mp hidx with rfl | hold
      · simpa [popcount_eq_zero_iff] using hpos
      · by_cases hi : idx = index
        · simpa [hi, popcount_eq_zero_iff] using hpos
        · simpa [hi] using hacc idx hold

end Tier

end LMCache.StorageControllers
