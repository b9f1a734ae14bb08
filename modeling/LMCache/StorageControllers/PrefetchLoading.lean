/-
LMCache.StorageControllers.PrefetchLoading — the load phase keeps the account.

`Loading` is what the load phase keeps besides the account: no cell has two
holders, the reserved cells are the cells still to be loaded, by the L1
manager their adapter loads into, and every adapter with such cells has a
load task. It is set up by planning and by dropping, after a failed
reservation, what was not reserved; every finished load keeps it.
-/
import LMCache.StorageControllers.PrefetchAccounts

namespace LMCache.StorageControllers

open List Lib Native L1Manager MapState RequestState Bitmap2D

variable {Key Obj : Type} [DecidableEq Key] [DecidableEq Obj] {m n : Nat}
  {env : Environment Key Obj} {request : Nat} {cfg : PrefetchConfig} {spec : PrefetchTaskSpec Key}

/-! ## Reserving -/

/-- The request with other reserved cells. -/
def RequestState.withReserved (r : RequestState m n) (reserved : MapState m n) : RequestState m n :=
  { r with keyStates := { r.keyStates with l1ReservedKeys := reserved } }

/-- A request and the locals of `_transition_to_load_phase`, as a session. -/
def Reserved.session (acc : Reserved Key Obj m n) (r : RequestState m n) : Session Key Obj m n :=
  ⟨acc.world, r.withReserved acc.l1ReservedKeys⟩

lemma has_buildL1AllocationPlans (cells : MapState m n) (l1Idx i j : Nat) :
    (buildL1AllocationPlans cfg cells).has l1Idx i j ↔
      ∃ adapter, cfg.affinity adapter = l1Idx ∧ cells.has adapter i j := by
  suffices hloop : ∀ (items : List (Nat × Bitmap2D m n)) (acc : MapState m n),
      (items.foldl (fun cells item => cells.addCells (cfg.affinity item.1) item.2) acc).has
        l1Idx i j ↔ acc.has l1Idx i j ∨
          ∃ item ∈ items, cfg.affinity item.1 = l1Idx ∧ item.2.test i j by
    rw [buildL1AllocationPlans, hloop]
    simp only [has_empty, Bool.false_eq_true, false_or, has_iff_items]
    constructor
    · rintro ⟨item, hitem, haff, htest⟩
      exact ⟨item.1, haff, item.2, hitem, htest⟩
    · rintro ⟨adapter, haff, g, hitem, htest⟩
      exact ⟨(adapter, g), hitem, haff, htest⟩
  intro items
  induction items with
  | nil => simp
  | cons item items ih =>
    intro acc
    rw [foldl_cons, ih, has_addCells, Bool.or_eq_true, or_assoc]
    simp only [Bool.and_eq_true, decide_eq_true_eq, mem_cons, exists_eq_or_imp, @eq_comm _ l1Idx]

variable {item : Nat × spec.Grid}

lemma keeps_reserveL1Manager {r : spec.State} {acc : Reserved Key Obj spec.numRows spec.groupSize}
    (hnew : item.1 ∉ acc.l1ReservedKeys) : Keeps request spec.keyGroups (acc.session r)
      ((reserveL1Manager env cfg request spec acc item).session r) := by
  have hrows : ReservedRows request spec.keyGroups item.1 item.2 acc.world spec.numRows
      (reserveL1Cells env cfg request spec item.1 item.2 acc.world) :=
    reserveL1Cells_spec spec.rows item.2 acc.world
  refine ⟨hrows.trades.toMoves, fun h => h.trades ?_ ?_ hrows.trades ?_⟩
  · exact fun _ _ _ => (add_zero _).symm
  · exact fun _ _ => (add_zero _).symm
  · intro hnodup hq l1Idx key
    have hempty : ∀ key, acc.world.staged request item.1 key = false := by
      intro key
      have hzero : acc.l1ReservedKeys.grid item.1 = .zeros _ _ := by
        simp [grid, Dict.not_mem_iff_get?.mp hnew]
      have hbefore := h.staged hnodup (hrows.trades.quiet hq) item.1 key
      simpa [Reserved.session, withReserved, hzero, gatherKeys_zeros] using hbefore
    have hafter := hrows.staged hnodup hq hempty l1Idx key
    refine hafter.trans ?_
    simp only [Reserved.session, withReserved, reserveL1Manager, grid_set]
    split
    · rfl
    · exact h.staged hnodup (hrows.trades.quiet hq) l1Idx key

/-- What holds after reserving for the L1 managers `done`. -/
structure ReservedMap (done : List (Nat × Bitmap2D m n)) (acc : Reserved Key Obj m n) : Prop where
  indices : ∀ idx ∈ acc.l1ReservedKeys, idx ∈ done.map Prod.fst
  planned : ∀ l1Idx i j, acc.l1ReservedKeys.has l1Idx i j →
    ∃ g, (l1Idx, g) ∈ done ∧ g.test i j
  complete : acc.numFailedReservations = 0 → ∀ item ∈ done, ∀ i j, item.2.test i j →
    acc.l1ReservedKeys.has item.1 i j

lemma ReservedMap.next {done : List (Nat × spec.Grid)}
    {acc : Reserved Key Obj spec.numRows spec.groupSize} (h : ReservedMap done acc)
    (hnew : item.1 ∉ done.map Prod.fst) :
    ReservedMap (done ++ [item]) (reserveL1Manager env cfg request spec acc item) := by
  have hrows : ReservedRows request spec.keyGroups item.1 item.2 acc.world spec.numRows
      (reserveL1Cells env cfg request spec item.1 item.2 acc.world) :=
    reserveL1Cells_spec spec.rows item.2 acc.world
  constructor
  · intro idx hidx
    rw [map_append, mem_append]
    rcases mem_set.mp hidx with rfl | hold
    · exact .inr (mem_singleton_self _)
    · exact .inl (h.indices idx hold)
  · intro l1Idx i j hij
    simp only [reserveL1Manager, has_set] at hij
    split_ifs at hij with hidx
    · exact ⟨item.2, by simp [hidx], (hrows.planned i j hij).2⟩
    · obtain ⟨g, hg, htest⟩ := h.planned l1Idx i j hij
      exact ⟨g, mem_append_left _ hg, htest⟩
  · intro hfailed it hit i j htest
    simp only [reserveL1Manager, Nat.add_eq_zero_iff] at hfailed
    simp only [reserveL1Manager, has_set]
    rcases mem_append.mp hit with hold | hlast
    · have hne : it.1 ≠ item.1 := fun he => hnew (he ▸ mem_map_of_mem hold)
      rw [if_neg hne]
      exact h.complete hfailed.1 it hold i j htest
    · obtain rfl := mem_singleton.mp hlast
      rw [if_pos rfl]
      exact hrows.complete hfailed.2 i j (lt_of_test htest).1 htest

variable (r : spec.State)

variable (env request cfg) in
/-- Step 3 keeps the account and reserves planned cells only, all of them when
no reservation failed. -/
lemma reservePlanned_spec (plan : spec.Cells) (w : World Key Obj) :
    Keeps request spec.keyGroups ⟨w, r.withReserved ∅⟩
        ((reservePlanned env cfg request spec plan w).session r) ∧
      ReservedMap (buildL1AllocationPlans cfg plan).items
        (reservePlanned env cfg request spec plan w) := by
  suffices hloop : ∀ items : List (Nat × spec.Grid),
      (items.map Prod.fst).Nodup →
      Keeps request spec.keyGroups ⟨w, r.withReserved ∅⟩
          ((items.foldl (reserveL1Manager env cfg request spec) ⟨w, ∅, ∅, 0⟩).session r) ∧
        ReservedMap items (items.foldl (reserveL1Manager env cfg request spec) ⟨w, ∅, ∅, 0⟩) from
    hloop (buildL1AllocationPlans cfg plan).items (buildL1AllocationPlans cfg plan).state.nodup
  intro items
  induction items using reverseRecOn with
  | nil =>
    refine fun _ => ⟨.refl _, ?_, ?_, ?_⟩
    · exact fun idx hidx => absurd hidx (Dict.not_mem_empty idx)
    · intro l1Idx i j hij
      simp at hij
    · exact fun _ item hitem => absurd hitem not_mem_nil
  | append_singleton items item ih =>
    intro hnodup
    rw [map_append, nodup_append] at hnodup
    obtain ⟨hkeeps, hmap⟩ := ih hnodup.1
    have hnew : item.1 ∉ items.map Prod.fst := fun hmem =>
      hnodup.2.2 _ hmem _ (mem_singleton_self _) rfl
    rw [foldl_append]
    exact ⟨hkeeps.trans (keeps_reserveL1Manager fun hmem => hnew (hmap.indices _ hmem)),
      hmap.next hnew⟩

variable {groups : List (GroupedObjectKeys Key)}

variable (env request) in
/-- Deleting the staging entries of cells is accounted for by taking the cells
out of the reserved ones. -/
lemma keeps_deleteCells (hrows : Rows groups m n) (s : Session Key Obj m n) {l1Idx : Nat}
    {cells : Bitmap2D m n} {reserved : MapState m n}
    (hreserved : ∀ idx i j, reserved.has idx i j = (s.request.keyStates.l1ReservedKeys.has idx i j
      && !(decide (idx = l1Idx) && cells.test i j))) : Keeps request groups s
      ⟨deleteCells env request groups l1Idx cells s.world, s.request.withReserved reserved⟩ := by
  have heffect : Effect request s.world
      (deleteCells env request groups l1Idx cells s.world) _ _ :=
    effect_deleteCells l1Idx cells s.world
  refine ⟨heffect.toMoves, fun h => h.effect ?_ ?_ heffect ?_⟩
  · exact fun _ _ _ => (add_zero _).symm
  · exact fun _ _ => (add_zero _).symm
  · intro hnodup idx key
    have hgrid : reserved.grid idx = s.request.keyStates.l1ReservedKeys.grid idx
        - if idx = l1Idx then cells else .zeros m n := by
      refine ext_test fun i j => ?_
      rw [grid_test, test_sub, grid_test]
      split <;> simp [*]
    rw [withReserved, hgrid, mem_gatherKeys_sub hrows.width hnodup]
    split <;> simp [*, gatherKeys_zeros]

/-- Step 3.5 for one L1 manager keeps the account and leaves the kept cells. -/
lemma trimL1Manager_spec (kept : spec.Grid) {acc : Reserved Key Obj spec.numRows spec.groupSize}
    (hitem : acc.l1ReservedKeys.grid item.1 = item.2) : Keeps request spec.keyGroups (acc.session r)
        ((trimL1Manager env request spec kept acc item).session r) ∧
      ∀ l1Idx, (trimL1Manager env request spec kept acc item).l1ReservedKeys.grid l1Idx
        = if l1Idx = item.1 then item.2.and kept else acc.l1ReservedKeys.grid l1Idx := by
  unfold trimL1Manager
  dsimp only
  split_ifs with hempty
  · refine ⟨.refl _, fun l1Idx => ?_⟩
    split
    · refine ext_test fun i j => ?_
      have hnone := test_of_gatherKeys_eq_nil spec.rows hempty i j
      cases htest : item.2.test i j <;> simp_all
    · rfl
  · refine ⟨?_, fun l1Idx => grid_set ..⟩
    refine keeps_deleteCells env request spec.rows (acc.session r) fun idx i j => ?_
    rw [has_set]
    split_ifs with hidx
    · simp only [Reserved.session, withReserved, hidx, ← grid_test, hitem]
      cases htest : item.2.test i j <;> simp [htest]
    · simp [Reserved.session, withReserved, hidx]

variable (env request) in
/-- Step 3.5 keeps the account and takes reserved cells away only. When nothing
failed it does nothing. -/
lemma trimToColumns_spec (acc : Reserved Key Obj spec.numRows spec.groupSize) :
    Keeps request spec.keyGroups (acc.session r) ((trimToColumns env request spec acc).session r) ∧
      (∀ l1Idx i j, (trimToColumns env request spec acc).l1ReservedKeys.has l1Idx i j →
        acc.l1ReservedKeys.has l1Idx i j) ∧
      (trimToColumns env request spec acc).numFailedReservations = acc.numFailedReservations ∧
      (acc.numFailedReservations = 0 → trimToColumns env request spec acc = acc) := by
  suffices hloop : ∀ (kept : spec.Grid)
      (items : List (Nat × spec.Grid))
      (acc : Reserved Key Obj spec.numRows spec.groupSize), (items.map Prod.fst).Nodup →
      (∀ item ∈ items, acc.l1ReservedKeys.grid item.1 = item.2) →
      Keeps request spec.keyGroups (acc.session r)
          ((items.foldl (trimL1Manager env request spec kept) acc).session r) ∧
        (∀ l1Idx i j, (items.foldl (trimL1Manager env request spec kept) acc).l1ReservedKeys.has
          l1Idx i j → acc.l1ReservedKeys.has l1Idx i j) ∧
        (items.foldl (trimL1Manager env request spec kept) acc).numFailedReservations
          = acc.numFailedReservations by
    unfold trimToColumns
    split_ifs with hpolicy
    · obtain ⟨hkeeps, hsub, hfailed⟩ := hloop acc.l1ReservedKeys.merge.wholeColumns
        acc.l1ReservedKeys.items acc acc.l1ReservedKeys.state.nodup
        fun item hitem => by simp [MapState.grid, Dict.mem_entries.mp hitem]
      exact ⟨hkeeps, hsub, hfailed, fun hzero => absurd hpolicy.2 (by omega)⟩
    · exact ⟨.refl _, fun _ _ _ h => h, rfl, fun _ => rfl⟩
  intro kept items
  induction items with
  | nil => exact fun acc _ _ => ⟨.refl _, fun _ _ _ h => h, rfl⟩
  | cons item items ih =>
    intro acc hnodup hgrid
    obtain ⟨hhead, htail⟩ := nodup_cons.mp hnodup
    obtain ⟨hkeeps, hafter⟩ := trimL1Manager_spec r kept
      (hgrid item mem_cons_self)
    obtain ⟨hkeeps', hsub, hfailed⟩ := ih (trimL1Manager env request spec kept acc item) htail (by
      intro other hother
      have hne : other.1 ≠ item.1 := fun he => hhead (he ▸ mem_map_of_mem hother)
      rw [hafter, if_neg hne]
      exact hgrid other (mem_cons_of_mem _ hother))
    refine ⟨hkeeps.trans hkeeps', fun l1Idx i j hij => ?_, ?_⟩
    · have hstep := hsub l1Idx i j hij
      rw [← grid_test, hafter] at hstep
      split_ifs at hstep with hidx
      · rw [test_and, Bool.and_eq_true] at hstep
        rw [← grid_test, hidx, hgrid item mem_cons_self]
        exact hstep.1
      · rwa [grid_test] at hstep
    · rw [foldl_cons, hfailed]
      unfold trimL1Manager
      dsimp only
      split <;> rfl

/-! ## Dropping what was not reserved -/

lemma has_reservedPart (locked reserved : MapState m n) (adapter i j : Nat) :
    (reservedPart cfg locked reserved).has adapter i j
      = (locked.has adapter i j && reserved.has (cfg.affinity adapter) i j) := by
  simp only [reservedPart, has, Dict.get?_mapValues]
  cases locked.state.get? adapter with
  | none => rfl
  | some g => simp [grid_test, has]

lemma mem_of_mem_reservedPart {locked reserved : MapState m n} {adapter : Nat}
    (h : adapter ∈ reservedPart cfg locked reserved) : adapter ∈ locked := by
  obtain ⟨g, hg⟩ := Dict.mem_iff_get?.mp h
  rw [reservedPart, Dict.get?_mapValues, Option.map_eq_some_iff] at hg
  obtain ⟨g', hg', -⟩ := hg
  exact Dict.mem_iff_get?.mpr ⟨g', hg'⟩

variable {s : spec.Session Obj}

variable (s) in
lemma advances_dropUnreserved :
    Advances request spec.keyGroups s (dropUnreserved cfg request spec s) := by
  have hpart : ∀ adapter i j, (reservedPart cfg s.request.keyStates.l2LockedKeys
      s.request.keyStates.l1ReservedKeys).has adapter i j →
      s.request.keyStates.l2LockedKeys.has adapter i j := by
    intro adapter i j hij
    rw [has_reservedPart, Bool.and_eq_true] at hij
    exact hij.1
  have heffect : Effect request s.world (dropUnreserved cfg request spec s).world _ _ :=
    effect_unlockMap spec.rows _ s.world
  refine ⟨⟨heffect.toMoves, fun h => h.effect ?_ ?_ heffect ?_⟩, fun adapter hrefs => ?_⟩
  · exact fun _ _ _ => (add_zero _).symm
  · refine Item.rest (fun adapter key => ?_) (fun _ => (add_zero _).symm) fun _ => (add_zero _).symm
    simp only [dropUnreserved, recorded, Pi.neg_apply, pinsOf, tally_grid_sub hpart]
    omega
  · simp [dropUnreserved]
  · rw [refersTo_iff] at hrefs ⊢
    exact hrefs.imp_right (Or.imp_right mem_of_mem_reservedPart)

variable (env request cfg) in
/-- Step 5 for one adapter keeps the account. -/
lemma dropStaging_spec (acc : spec.Session Obj × Dict Key Obj) (item : Nat × spec.Grid) :
    Keeps request spec.keyGroups acc.1 (dropStaging env cfg request spec acc item).1 ∧
      ∃ reserved, (dropStaging env cfg request spec acc item).1.request
          = acc.1.request.withReserved reserved ∧ ∀ l1Idx i j, reserved.has l1Idx i j ↔
          acc.1.request.keyStates.l1ReservedKeys.has l1Idx i j ∧
            (l1Idx = cfg.affinity item.1 → item.2.test i j = false) := by
  unfold dropStaging
  dsimp only
  split_ifs with hempty
  · refine ⟨.refl _, _, rfl, fun l1Idx i j => ?_⟩
    simp [test_of_gatherKeys_eq_nil spec.rows hempty i j]
  · refine ⟨?_, _, rfl, fun l1Idx i j => ?_⟩
    · refine keeps_deleteCells env request spec.rows acc.1 fun idx i j => ?_
      rw [has_set]
      split <;> simp [*, grid_test]
    · rw [has_set]
      split_ifs with hidx
      · simp [hidx, grid_test]
      · simp [hidx]

variable (env request cfg) in
lemma dropStaging_loop (items : List (Nat × spec.Grid)) (acc : spec.Session Obj × Dict Key Obj) :
    Keeps request spec.keyGroups acc.1 (items.foldl (dropStaging env cfg request spec) acc).1 ∧
      ∃ reserved, (items.foldl (dropStaging env cfg request spec) acc).1.request
          = acc.1.request.withReserved reserved ∧ ∀ l1Idx i j, reserved.has l1Idx i j ↔
          acc.1.request.keyStates.l1ReservedKeys.has l1Idx i j ∧
            ∀ item ∈ items, l1Idx = cfg.affinity item.1 → item.2.test i j = false := by
  induction items generalizing acc with
  | nil => exact ⟨.refl _, _, rfl, by simp⟩
  | cons item items ih =>
    obtain ⟨hkeeps, reserved, hreq, hhas⟩ := dropStaging_spec env request cfg acc item
    obtain ⟨hkeeps', reserved', hreq', hhas'⟩ := ih (dropStaging env cfg request spec acc item)
    refine ⟨hkeeps.trans hkeeps', reserved', ?_, fun l1Idx i j => ?_⟩
    · rw [foldl_cons, hreq', hreq]
      rfl
    · rw [hhas', hreq]
      simp only [withReserved, hhas, mem_cons, forall_eq_or_imp, and_assoc]

/-! ## What planning and reserving set up -/

/-- No cell has two holders. -/
structure Planned (r : RequestState m n) : Prop where
  l1Once : ∀ a b i j, r.keyStates.l1LockedKeys.has a i j →
    r.keyStates.l1LockedKeys.has b i j → a = b
  l2Once : ∀ a b i j, r.keyStates.l2LockedKeys.has a i j →
    r.keyStates.l2LockedKeys.has b i j → a = b
  apart : ∀ a b i j, r.keyStates.l1LockedKeys.has a i j →
    r.keyStates.l2LockedKeys.has b i j = false

/-- The reserved cells are the cells to load, by the L1 manager they load
into. -/
def Backed (cfg : PrefetchConfig) (r : RequestState m n) : Prop :=
  ∀ l1Idx i j, r.keyStates.l1ReservedKeys.has l1Idx i j ↔
    ∃ adapter, cfg.affinity adapter = l1Idx ∧ r.keyStates.l2LockedKeys.has adapter i j

/-- Every adapter with an entry has something to load. -/
def Filled (r : RequestState m n) : Prop :=
  ∀ adapter ∈ r.keyStates.l2LockedKeys, ∃ i j, r.keyStates.l2LockedKeys.has adapter i j

variable (env request cfg) in
lemma planned_planLoadRequest (descs : List Nat) (s : spec.Session Obj) :
    Planned (planLoadRequest env cfg request spec descs s).1.request := by
  have hsound := planFor_sound cfg spec descs s.request.keyStates
  exact ⟨hsound.l1Once, hsound.l2Once, hsound.apart⟩

/-- Taking the staging of the dropped cells away leaves that of the plan. -/
lemma backed_of_dropped {whole part before after : MapState m n}
    (hpart : ∀ a i j, part.has a i j → whole.has a i j)
    (honce : ∀ a b i j, whole.has a i j → whole.has b i j → a = b)
    (hbefore : ∀ l1Idx i j, before.has l1Idx i j ↔
      ∃ adapter, cfg.affinity adapter = l1Idx ∧ whole.has adapter i j)
    (hafter : ∀ l1Idx i j, after.has l1Idx i j ↔ before.has l1Idx i j ∧
      ∀ item ∈ (whole - part).items, l1Idx = cfg.affinity item.1 → item.2.test i j = false)
    (l1Idx i j : Nat) : after.has l1Idx i j ↔
      ∃ adapter, cfg.affinity adapter = l1Idx ∧ part.has adapter i j := by
  rw [hafter, hbefore]
  constructor
  · rintro ⟨⟨adapter, haff, hwhole⟩, hkept⟩
    refine ⟨adapter, haff, ?_⟩
    by_contra hnot
    have hdropped : (whole - part).has adapter i j := by
      rw [has_sub, hwhole, Bool.not_eq_true _ |>.mp hnot]
      rfl
    obtain ⟨g, hg, htest⟩ := has_iff_items.mp hdropped
    rw [hkept (adapter, g) hg haff.symm] at htest
    cases htest
  · rintro ⟨adapter, haff, hin⟩
    refine ⟨⟨adapter, haff, hpart adapter i j hin⟩, fun item hitem _ => ?_⟩
    by_contra htest
    have hdropped : (whole - part).has item.1 i j :=
      has_iff_items.mpr ⟨item.2, hitem, by simpa using htest⟩
    rw [has_sub, Bool.and_eq_true] at hdropped
    rw [honce item.1 adapter i j hdropped.1 (hpart adapter i j hin), hin] at hdropped
    exact absurd hdropped.2 (by simp)

variable (env request) in
/-- Step 5 keeps the account, and what stays planned stays backed. -/
lemma replan_spec (descs : List Nat) (s : spec.Session Obj)
    (objs : Dict Key Obj) (honce : ∀ a b i j, s.request.keyStates.l2LockedKeys.has a i j →
      s.request.keyStates.l2LockedKeys.has b i j → a = b) (hbacked : Backed cfg s.request) :
    Advances request spec.keyGroups s (replan env cfg request spec descs s objs).1 ∧
      ∃ states, (replan env cfg request spec descs s objs).1.request
          = { s.request with keyStates := states } ∧
        Planned { s.request with keyStates := states } ∧
        Backed cfg { s.request with keyStates := states } ∧
        Filled { s.request with keyStates := states } := by
  obtain ⟨hkeeps, reserved, hreq, hhas⟩ := dropStaging_loop env request cfg
    (planLoadRequest env cfg request spec descs s).2.items
    ((planLoadRequest env cfg request spec descs s).1, objs)
  have hsound := planFor_sound cfg spec descs s.request.keyStates
  have hplan := advances_planLoadRequest env request cfg descs s
  refine ⟨hplan.trans ⟨hkeeps, fun adapter hrefs => ?_⟩, _, hreq,
    ⟨hsound.l1Once, hsound.l2Once, hsound.apart⟩, ?_, ?_⟩
  · simp only [replan, hreq] at hrefs
    exact hrefs
  · exact backed_of_dropped hsound.l2Held honce hbacked hhas
  · exact fun _ hmem => (planLoad_l2 spec.keyGroups spec.fetchingPolicy hmem).2

/-! ## Submitting the loads -/

variable (env request) in
/-- `_submit_load_tasks` records every task it submitted, also when it raises,
and otherwise submits one for every adapter with cells to load. -/
lemma submitLoadTasks_spec (objs : Dict Key Obj) : ∀ (items : List (Nat × spec.Grid))
      (s : spec.Session Obj), (items.map Prod.fst).Nodup →
    (∀ item ∈ items, item.1 ∉ s.request.inflightLoadTasks) →
    (∀ item ∈ items, item.1 ∈ s.request.keyStates.l2LockedKeys) →
    Advances request spec.keyGroups s (submitLoadTasks env request spec objs items s).1 ∧
      ∃ tasks, (submitLoadTasks env request spec objs items s).1.request
          = { s.request with inflightLoadTasks := tasks } ∧
        (∀ a ∈ s.request.inflightLoadTasks, a ∈ tasks) ∧
        ((submitLoadTasks env request spec objs items s).2 = false → ∀ item ∈ items,
          (∃ i j, item.2.test i j) → item.1 ∈ tasks)
  | [], s, _, _, _ =>
    ⟨.refl s, _, rfl, fun _ h => h, fun _ item hitem => absurd hitem not_mem_nil⟩
  | (adapter, cells) :: rest, s, hnodup, hnew, hlocked => by
    obtain ⟨hhead, htail⟩ := nodup_cons.mp hnodup
    unfold submitLoadTasks
    dsimp only
    split_ifs with hempty
    · obtain ⟨hadv, tasks, hreq, hold, hall⟩ := submitLoadTasks_spec objs rest s htail
        (fun item hitem => hnew item (mem_cons_of_mem _ hitem))
        (fun item hitem => hlocked item (mem_cons_of_mem _ hitem))
      refine ⟨hadv, tasks, hreq, hold, fun hok item hitem hcell => ?_⟩
      rcases mem_cons.mp hitem with rfl | hrest
      · obtain ⟨i, j, hij⟩ := hcell
        rw [test_of_gatherKeys_eq_nil spec.rows hempty i j] at hij
        cases hij
      · exact hall hok item hrest hcell
    split
    · exact ⟨.refl s, _, rfl, fun _ h => h, fun hok => by cases hok⟩
    rename_i objects _
    cases env.submit s.world.trace.length with
    | none =>
      refine ⟨⟨keeps_record_same rfl rfl (fun _ _ => rfl) fun x => by cases x <;> rfl, fun _ => id⟩, _, rfl,
        fun _ h => h, fun hok => by cases hok⟩
    | some taskId =>
      have hadapter := hnew _ mem_cons_self
      obtain ⟨hadv, tasks, hreq, hold, hall⟩ := submitLoadTasks_spec objs rest
        ⟨s.world.record (.submitLoad request adapter (some taskId)
            (gatherKeys spec.keyGroups cells) objects), { s.request with
          inflightLoadTasks := s.request.inflightLoadTasks.set adapter taskId }⟩ htail
        (by
          intro item hitem hmem
          rcases Dict.mem_set.mp hmem with heq | hload
          · exact hhead (mem_map.mpr ⟨item, hitem, heq⟩)
          · exact hnew item (mem_cons_of_mem _ hitem) hload)
        (fun item hitem => hlocked item (mem_cons_of_mem _ hitem))
      refine ⟨Advances.trans ⟨?_, fun a ha => ?_⟩ hadv, tasks, hreq,
        fun a ha => hold a (Dict.mem_set.mpr (.inr ha)), fun hok item hitem hcell => ?_⟩
      · refine keeps_record rfl rfl (fun _ _ => rfl) rfl rfl (Item.rest
          (fun _ _ => (add_zero _).symm) (fun _ => (add_zero _).symm) fun idx => ?_)
        simp only [recorded, Act.amount, Dict.mem_set]
        by_cases hidx : idx = adapter
        · simp [hidx, hadapter]
        · simp [hidx, Ne.symm hidx]
      · rw [refersTo_iff] at ha ⊢
        rcases ha with hlookup | hload | hpin
        · exact .inl hlookup
        · rcases Dict.mem_set.mp hload with rfl | hload
          · exact .inr (.inr (hlocked _ mem_cons_self))
          · exact .inr (.inl hload)
        · exact .inr (.inr hpin)
      · rcases mem_cons.mp hitem with rfl | hrest
        · exact hold _ (Dict.mem_set.mpr (.inl rfl))
        · exact hall hok item hrest hcell

/-- The load phase between two polls. -/
structure Loading (cfg : PrefetchConfig) (r : RequestState m n) : Prop extends Planned r where
  lookups : ∀ adapter, adapter ∉ r.inflightLookupTasks
  backed : Backed cfg r
  loading : ∀ adapter ∈ r.keyStates.l2LockedKeys, adapter ∈ r.inflightLoadTasks

/-- The session before the loads are submitted: everything planned is
reserved. -/
structure Ready (request : Nat) (cfg : PrefetchConfig) (spec : PrefetchTaskSpec Key)
    (s s' : Session Key Obj spec.numRows spec.groupSize) : Prop
    extends Advances request spec.keyGroups s s', Planned s'.request where
  backed : Backed cfg s'.request
  filled : Filled s'.request
  tasks : s'.request.inflightLookupTasks = s.request.inflightLookupTasks ∧
    s'.request.inflightLoadTasks = s.request.inflightLoadTasks

lemma Ready.of_advances {s' s'' : spec.Session Obj} (h : Ready request cfg spec s' s'')
    (hadv : Advances request spec.keyGroups s s')
    (htasks : s'.request.inflightLookupTasks = s.request.inflightLookupTasks ∧
      s'.request.inflightLoadTasks = s.request.inflightLoadTasks) : Ready request cfg spec s s'' :=
  { hadv.trans h.toAdvances, h.toPlanned with
    backed := h.backed
    filled := h.filled
    tasks := ⟨h.tasks.1.trans htasks.1, h.tasks.2.trans htasks.2⟩ }

variable (env request cfg s) in
/-- Reserving, with its trimming, as one step from the planned request. -/
lemma reserveStaging_spec (hempty : s.request.keyStates.l1ReservedKeys = ∅) :
    Advances request spec.keyGroups s ((reserveStaging env cfg request spec s).session s.request) ∧
      (∀ l1Idx i j, (reserveStaging env cfg request spec s).l1ReservedKeys.has l1Idx i j →
        ∃ adapter, cfg.affinity adapter = l1Idx ∧
          s.request.keyStates.l2LockedKeys.has adapter i j) ∧
      ((reserveStaging env cfg request spec s).numFailedReservations = 0 → ∀ adapter i j,
        s.request.keyStates.l2LockedKeys.has adapter i j →
        (reserveStaging env cfg request spec s).l1ReservedKeys.has (cfg.affinity adapter) i j
         ) := by
  obtain ⟨hkeeps, hmap⟩ := reservePlanned_spec env request cfg s.request
    s.request.keyStates.l2LockedKeys s.world
  unfold reserveStaging
  generalize reservePlanned env cfg request spec s.request.keyStates.l2LockedKeys s.world = acc
    at hkeeps hmap
  obtain ⟨htrim, hsub, hfailed, hsame⟩ := trimToColumns_spec env request s.request acc
  have hstart : s.request.withReserved ∅ = s.request := by rw [← hempty]; rfl
  rw [hstart] at hkeeps
  refine ⟨⟨hkeeps.trans htrim, fun _ => id⟩, fun l1Idx i j hij => ?_, fun hzero adapter i j hij => ?_⟩
  · obtain ⟨g, hg, htest⟩ := hmap.planned l1Idx i j (hsub l1Idx i j hij)
    exact (has_buildL1AllocationPlans _ l1Idx i j).mp (has_iff_items.mpr ⟨g, hg, htest⟩)
  · rw [hfailed] at hzero
    obtain ⟨g, hg, htest⟩ := has_iff_items.mp
      ((has_buildL1AllocationPlans _ _ i j).mpr ⟨adapter, rfl, hij⟩)
    rw [hsame hzero]
    exact hmap.complete hzero _ hg i j htest

omit [DecidableEq Obj] in
/-- Dropping the pins of what is not reserved backs the rest. -/
lemma backed_dropUnreserved
    (hplanned : ∀ l1Idx i j, s.request.keyStates.l1ReservedKeys.has l1Idx i j →
      ∃ adapter, cfg.affinity adapter = l1Idx ∧
        s.request.keyStates.l2LockedKeys.has adapter i j) :
    Backed cfg (dropUnreserved cfg request spec s).request := by
  intro l1Idx i j
  simp only [dropUnreserved, has_reservedPart, Bool.and_eq_true]
  constructor
  · intro hij
    obtain ⟨adapter, haff, hlocked⟩ := hplanned l1Idx i j hij
    exact ⟨adapter, haff, hlocked, haff ▸ hij⟩
  · rintro ⟨adapter, haff, -, hreserved⟩
    exact haff ▸ hreserved

/-- After a failed reservation: drop its pins, then plan again on the rest. -/
lemma ready_replan (descs : List Nat) (s : spec.Session Obj)
    (objs : Dict Key Obj) (honce : ∀ a b i j, s.request.keyStates.l2LockedKeys.has a i j →
      s.request.keyStates.l2LockedKeys.has b i j → a = b)
    (hplanned : ∀ l1Idx i j, s.request.keyStates.l1ReservedKeys.has l1Idx i j →
      ∃ adapter, cfg.affinity adapter = l1Idx ∧
        s.request.keyStates.l2LockedKeys.has adapter i j) : Ready request cfg spec s
      (replan env cfg request spec descs (dropUnreserved cfg request spec s) objs).1 := by
  have hdrop : Advances request spec.keyGroups s (dropUnreserved cfg request spec s) :=
    advances_dropUnreserved s
  obtain ⟨hreplan, states, hreq, hstates, hbacked, hfilled⟩ := replan_spec env request descs
    (dropUnreserved cfg request spec s) objs (by
      intro a b i j ha hb
      simp only [dropUnreserved, has_reservedPart, Bool.and_eq_true] at ha hb
      exact honce a b i j ha.1 hb.1)
    (backed_dropUnreserved hplanned)
  rw [← hreq] at hstates hbacked hfilled
  exact { hdrop.trans hreplan, hstates with
    backed := hbacked
    filled := hfilled
    tasks := by rw [hreq]; exact ⟨rfl, rfl⟩ }

/-- `_transition_to_load_phase` reaches the submission with everything planned
reserved. -/
lemma ready_prepareLoad (adapters : AdapterTable) (s : spec.Session Obj)
    (hempty : s.request.keyStates.l1ReservedKeys = ∅) :
    Ready request cfg spec s (prepareLoad env cfg request spec adapters s).1 := by
  unfold prepareLoad
  generalize adapters.l2Adapters.filter (isL2Eligible cfg spec adapters) = descs
  have hplan := advances_planLoadRequest env request cfg descs s
  have hplanned := planned_planLoadRequest env request cfg descs s
  obtain ⟨hreserve, hin, hall⟩ := reserveStaging_spec env request cfg
    (planLoadRequest env cfg request spec descs s).1 hempty
  dsimp only
  split_ifs with hnone
  · refine Ready.of_advances (ready_replan descs _ _ ?_ ?_) (hplan.trans hreserve) ⟨rfl, rfl⟩
    · exact hplanned.l2Once
    · exact hin
  · refine { hplan.trans hreserve with
      l1Once := hplanned.l1Once
      l2Once := hplanned.l2Once
      apart := hplanned.apart
      backed := fun l1Idx i j => ⟨hin l1Idx i j, ?_⟩
      filled := fun _ hmem => (planLoad_l2 spec.keyGroups spec.fetchingPolicy hmem).2
      tasks := ⟨rfl, rfl⟩ }
    rintro ⟨adapter, rfl, hlocked⟩
    exact hall (Nat.eq_zero_of_not_pos hnone) adapter i j hlocked

variable (env request cfg) in
/-- `_transition_to_load_phase` keeps the account, also when it raises, and
otherwise ends in the load phase. -/
lemma transitionToLoadPhase_spec (adapters : AdapterTable) (hlooking : Looking s.request)
    (hdone : ∀ adapter, adapter ∉ s.request.inflightLookupTasks) :
    Advances request spec.keyGroups s (transitionToLoadPhase env cfg request spec adapters s).1 ∧
      ((transitionToLoadPhase env cfg request spec adapters s).2 = false →
        Loading cfg (transitionToLoadPhase env cfg request spec adapters s).1.request) := by
  have hready : Ready request cfg spec s (prepareLoad env cfg request spec adapters s).1 :=
    ready_prepareLoad adapters s hlooking.reserved
  unfold transitionToLoadPhase
  generalize prepareLoad env cfg request spec adapters s = acc at hready
  obtain ⟨hsubmit, tasks, hreq, -, hall⟩ := submitLoadTasks_spec env request acc.2
    acc.1.request.keyStates.l2LockedKeys.items acc.1 acc.1.request.keyStates.l2LockedKeys.state.nodup
    (fun item _ => by rw [hready.tasks.2]; exact hlooking.loads item.1)
    (fun item hitem => Dict.mem_iff_get?.mpr ⟨item.2, Dict.mem_entries.mp hitem⟩)
  refine ⟨hready.toAdvances.trans hsubmit, fun hok => ?_⟩
  rw [hreq]
  refine { hready.toPlanned with
    lookups := fun adapter => ?_
    backed := hready.backed
    loading := fun adapter hadapter => ?_ }
  · rw [hready.tasks.1]
    exact hdone adapter
  · obtain ⟨i, j, hij⟩ := hready.filled adapter hadapter
    obtain ⟨g, hg, htest⟩ := has_iff_items.mp hij
    exact hall hok (adapter, g) hg ⟨i, j, htest⟩

/-! ## Finished loads -/

variable (env request) in
/-- Admitting loaded cells turns their staging entries into read locks. -/
lemma keeps_admit (hrows : Rows groups m n) (s : Session Key Obj m n) (l1Idx : Nat)
    (loaded : Bitmap2D m n) (hapart : ∀ i j, loaded.test i j →
      s.request.keyStates.l1LockedKeys.has l1Idx i j = false)
    (hstaged : ∀ i j, loaded.test i j →
      s.request.keyStates.l1ReservedKeys.has l1Idx i j) : Keeps request groups s
      ⟨(gatherKeysByRow groups loaded).foldl (fun w row =>
          if row.2.isEmpty then w
          else w.callL1 env request l1Idx (admitOp request row.2 row.1.numKvReaders)) s.world,
        { s.request with keyStates := { s.request.keyStates with
          l1LockedKeys := s.request.keyStates.l1LockedKeys.addCells l1Idx loaded
          l1ReservedKeys := s.request.keyStates.l1ReservedKeys.set l1Idx
            (s.request.keyStates.l1ReservedKeys.grid l1Idx - loaded) } }⟩ := by
  have hadmits : Admits request l1Idx (gatherKeysByRow groups loaded) s.world _ :=
    admits_rows env (gatherKeysByRow groups loaded) s.world
  generalize (gatherKeysByRow groups loaded).foldl _ s.world = w' at hadmits
  refine ⟨hadmits.toMoves, fun h => ?_⟩
  constructor
  · intro hnodup hn idx key
    rw [hadmits.reads hn (gatherKeys_nodup hrows hnodup loaded), sum_gatherKeysByRow hrows,
      h.reads hnodup (hadmits.neverMissed hn)]
    simp only [recorded, grid_addCells]
    split_ifs with hidx
    · rw [hidx, tally_split (Bitmap2D.test_add _ _)]
      intro i j hij
      by_contra hloaded
      have hfree := hapart i j (by simpa using hloaded)
      rw [grid_test, hfree] at hij
      cases hij
    · exact add_zero _
  · intro x hx
    rw [hadmits.rest x hx, h.rest x hx]
    cases x with
    | read idx key => exact absurd rfl (hx idx key)
    | _ => rfl
  · intro hnodup hn hsecure
    exact hadmits.booked hsecure (h.booked hnodup (hadmits.neverMissed hn) (hadmits.secure hsecure))
  · intro hnodup hq idx key
    have htaken : w'.staged request idx key = (s.world.staged request idx key &&
        !(decide (idx = l1Idx) && decide (key ∈ gatherKeys groups loaded))) :=
      hadmits.staged hq idx key
    rw [htaken, h.staged hnodup (hadmits.quiet hq), grid_set]
    split_ifs with hidx
    · rw [hidx]
      simp [mem_gatherKeys_sub hrows.width hnodup]
    · simp [hidx]
  · intro hnodup hq
    have hq' := hadmits.quiet hq
    refine hadmits.kept hq (h.kept hnodup hq') (gatherKeys_nodup hrows hnodup loaded) fun key hkey => ?_
    rw [h.staged hnodup hq', decide_eq_true_eq]
    obtain ⟨i, j, hij, hat⟩ := mem_gatherKeys.mp hkey
    exact mem_gatherKeys.mpr ⟨i, j, by rw [grid_test]; exact hstaged i j hij, hat⟩
  · exact hadmits.toMoves.open_ h.open_

/-- What a finished load does, from the reply to the unlock, is what
`_poll_load_results` records of it. -/
lemma keeps_recordLoad {adapter taskId : Nat} {loaded : spec.Grid} (h : Loading cfg s.request)
    (hmem : adapter ∈ s.request.inflightLoadTasks) (hsub : ∀ i j, loaded.test i j →
      s.request.keyStates.l2LockedKeys.has adapter i j) : Keeps request spec.keyGroups s
      ⟨admitLoaded env cfg request spec adapter (s.request.keyStates.l2LockedKeys.grid adapter)
          loaded (s.world.record (.loadReply request adapter taskId
            (some (gatherKeys spec.keyGroups loaded)))),
        recordLoad cfg spec adapter (s.request.keyStates.l2LockedKeys.grid adapter) loaded
          s.request⟩ := by
  -- the reply
  have hreply : Keeps request spec.keyGroups s
      ⟨s.world.record (.loadReply request adapter taskId
          (some (gatherKeys spec.keyGroups loaded))),
        { s.request with
          inflightLoadTasks := s.request.inflightLoadTasks.erase adapter }⟩ := by
    refine keeps_record rfl rfl (fun _ _ => rfl) rfl rfl (Item.rest
      (fun _ _ => (add_zero _).symm) (fun _ => (add_zero _).symm) fun idx => ?_)
    simp only [recorded, Act.amount, Dict.mem_erase]
    by_cases hidx : idx = adapter
    · simp [hidx, hmem]
    · simp [hidx, Ne.symm hidx]
  have hadmission := keeps_admit env request spec.rows
    ⟨s.world.record (.loadReply request adapter taskId (some (gatherKeys spec.keyGroups loaded))),
      { s.request with inflightLoadTasks := s.request.inflightLoadTasks.erase adapter }⟩
    (cfg.affinity adapter) loaded
    (by
      intro i j hij
      by_contra hlocked
      have hapart := h.apart _ adapter i j (by simpa using hlocked)
      rw [hsub i j hij] at hapart
      cases hapart)
    (fun i j hij => (h.backed _ i j).mpr ⟨adapter, rfl, hsub i j hij⟩)
  refine hreply.trans (hadmission.trans ?_)
  -- the staging entries that were not loaded
  have hreserved : ∀ idx i j, (s.request.keyStates.l1ReservedKeys.set (cfg.affinity adapter)
      (s.request.keyStates.l1ReservedKeys.grid (cfg.affinity adapter)
        - s.request.keyStates.l2LockedKeys.grid adapter)).has idx i j
      = ((s.request.keyStates.l1ReservedKeys.set (cfg.affinity adapter)
          (s.request.keyStates.l1ReservedKeys.grid (cfg.affinity adapter) - loaded)).has idx i j
        && !(decide (idx = cfg.affinity adapter) &&
          (s.request.keyStates.l2LockedKeys.grid adapter - loaded).test i j)) := by
    intro idx i j
    simp only [has_set]
    split
    · cases hl : loaded.test i j with
      | false => simp [*]
      | true => simp [hl, grid_test, hsub i j hl]
    · simp [*]
  refine (keeps_deleteCells env request spec.rows _ hreserved).trans ?_
  -- the pins
  refine keeps_record rfl rfl (fun _ _ => rfl) rfl rfl (Item.rest (fun idx key => ?_)
    (fun _ => (add_zero _).symm) fun _ => (add_zero _).symm)
  simp only [recorded, recordLoad, withReserved, Act.amount, grid_erase, count_gatherKeys spec.rows]
  by_cases hidx : idx = adapter
  · simp [hidx, tally_eq_zero]
  · simp [hidx, Ne.symm hidx]

omit [DecidableEq Key] in
lemma Loading.recordLoad {r : spec.State} (h : Loading cfg r) {adapter : Nat} {loaded : spec.Grid}
    (hsub : ∀ i j, loaded.test i j → r.keyStates.l2LockedKeys.has adapter i j) :
    Loading cfg (recordLoad cfg spec adapter (r.keyStates.l2LockedKeys.grid adapter) loaded r) := by
  constructor
  · constructor
    · intro a b i j ha hb
      simp only [StorageControllers.recordLoad, has_addCells, Bool.or_eq_true,
        Bool.and_eq_true, decide_eq_true_eq] at ha hb
      -- a cell just loaded had no L1 holder
      have hnew : ∀ idx, loaded.test i j → r.keyStates.l1LockedKeys.has idx i j →
          False := by
        intro idx hl hlocked
        have hapart := h.apart idx adapter i j hlocked
        rw [hsub i j hl] at hapart
        cases hapart
      rcases ha with ha | ⟨rfl, ha⟩
      · rcases hb with hb | ⟨-, hb⟩
        · exact h.l1Once a b i j ha hb
        · exact (hnew a hb ha).elim
      · rcases hb with hb | ⟨rfl, -⟩
        · exact (hnew b ha hb).elim
        · rfl
    · intro a b i j ha hb
      simp only [StorageControllers.recordLoad, has_erase] at ha hb
      split at ha
      · cases ha
      · split at hb
        · cases hb
        · exact h.l2Once a b i j ha hb
    · intro a b i j ha
      simp only [StorageControllers.recordLoad, has_addCells, Bool.or_eq_true, Bool.and_eq_true,
        has_erase] at ha ⊢
      split_ifs with hne
      · rfl
      · rcases ha with ha | ⟨-, ha⟩
        · exact h.apart a b i j ha
        · by_contra hb
          exact hne (h.l2Once b adapter i j (by simpa using hb) (hsub i j ha))
  · exact h.lookups
  · intro l1Idx i j
    simp only [StorageControllers.recordLoad, has_set, has_erase]
    constructor
    · intro hij
      have hkept : r.keyStates.l1ReservedKeys.has l1Idx i j ∧
          (l1Idx = cfg.affinity adapter → r.keyStates.l2LockedKeys.has adapter i j = false) := by
        split_ifs at hij with hidx
        · rw [test_sub, grid_test, grid_test, Bool.and_eq_true, Bool.not_eq_true'] at hij
          exact ⟨hidx ▸ hij.1, fun _ => hij.2⟩
        · exact ⟨hij, fun he => absurd he hidx⟩
      obtain ⟨a, haff, hlocked⟩ := (h.backed l1Idx i j).mp hkept.1
      have hne : a ≠ adapter := by
        rintro rfl
        rw [hkept.2 haff.symm] at hlocked
        cases hlocked
      exact ⟨a, haff, by rw [if_neg hne]; exact hlocked⟩
    · rintro ⟨a, haff, hlocked⟩
      split at hlocked
      · cases hlocked
      · rename_i hne
        have hreserved := (h.backed l1Idx i j).mpr ⟨a, haff, hlocked⟩
        split_ifs with hidx
        · have hother : r.keyStates.l2LockedKeys.has adapter i j = false := by
            by_contra hb
            exact hne (h.l2Once a adapter i j hlocked (by simpa using hb))
          rw [test_sub, grid_test, grid_test, hother, ← hidx, hreserved]
          rfl
        · exact hreserved
  · intro a ha
    obtain ⟨hne, hlocked⟩ := mem_erase.mp ha
    exact Dict.mem_erase.mpr ⟨hne, h.loading a hlocked⟩

variable (env request) in
/-- `_poll_load_results` keeps the account and the load phase, also when a
query raises. -/
lemma pollLoadResults_spec (signaled : List Nat) : ∀ (adapters : List Nat)
    (s : spec.Session Obj), Loading cfg s.request → Advances request spec.keyGroups s
        (pollLoadResults env cfg request spec signaled adapters s).1 ∧
      Loading cfg (pollLoadResults env cfg request spec signaled adapters s).1.request
  | [], s, h => ⟨.refl s, h⟩
  | adapter :: rest, s, h => by
    have hnone : ∀ taskId, Advances request spec.keyGroups s
        { s with world := s.world.record (.loadReply request adapter taskId none) } := fun _ =>
      ⟨keeps_record_same rfl rfl (fun _ _ => rfl) fun x => by cases x <;> rfl, fun _ => id⟩
    unfold pollLoadResults
    split
    · exact pollLoadResults_spec signaled rest s h
    split
    · exact pollLoadResults_spec signaled rest s h
    rename_i taskId htask
    have hmem : adapter ∈ s.request.inflightLoadTasks := Dict.mem_iff_get?.mpr ⟨_, htask⟩
    cases env.reply s.world.trace.length with
    | raises => exact ⟨hnone taskId, h⟩
    | pending =>
      obtain ⟨hadv, hloading⟩ := pollLoadResults_spec signaled rest
        { s with world := s.world.record (.loadReply request adapter taskId none) } h
      exact ⟨(hnone taskId).trans hadv, hloading⟩
    | done bits =>
      dsimp only
      split
      · exact ⟨hnone taskId, h⟩
      rename_i loaded hloaded
      have hsub : ∀ i j, loaded.test i j →
          s.request.keyStates.l2LockedKeys.has adapter i j := by
        intro i j hij
        rw [← grid_test]
        obtain ⟨k, hcell, -⟩ := (scatterBitmaps_test hloaded).mp hij
        exact mem_gatheredCells.mp (mem_of_getElem? hcell)
      obtain ⟨hadv, hloading⟩ := pollLoadResults_spec signaled rest
        ⟨_, recordLoad cfg spec adapter _ loaded s.request⟩ (h.recordLoad hsub)
      refine ⟨Advances.trans ⟨keeps_recordLoad h hmem hsub, fun a ha => ?_⟩ hadv, hloading⟩
      rw [refersTo_iff] at ha ⊢
      rcases ha with hlookup | hload | hpin
      · exact .inl hlookup
      · exact .inr (.inl (Dict.mem_erase.mp hload).2)
      · exact .inr (.inr (mem_erase.mp hpin).2)

end LMCache.StorageControllers
