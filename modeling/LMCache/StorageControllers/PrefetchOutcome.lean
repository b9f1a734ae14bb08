/-
LMCache.StorageControllers.PrefetchOutcome — what a request holds when it
ends.

Every way out of a request goes through its account: finishing keeps the read
locks of the hit and gives back the rest, aborting and cleaning up give back
everything the key states record. What a published result promises
(`Published`) and what a retirement leaves behind (`Retired`) are stated about
the world at that act, so that they say the same in every later state.
-/
import LMCache.StorageControllers.PrefetchLoading

namespace LMCache.StorageControllers

open List Lib Native L1Manager RequestState MapState Dict Bitmap2D

variable {Key Obj : Type} [DecidableEq Key] [DecidableEq Obj] {m n : Nat}
  {env : Environment Key Obj} {request : Nat} {cfg : PrefetchConfig} {spec : PrefetchTaskSpec Key}

/-! ## The hit and its owners -/

omit [DecidableEq Key] in
lemma test_of_hitCells {found : spec.Grid} {i j : Nat}
    (h : (hitCells spec found).test i j) : found.test i j := by
  unfold hitCells at h
  split at h
  · simp only [neededCells] at h
    split at h
    · simp at h
    · rename_i retain _
      cases hrows : ofRows? spec.numRows spec.groupSize retain with
      | none => simp [hrows] at h
      | some g =>
        simp only [hrows, Option.map_some, Option.getD_some, test_and, Bool.and_eq_true] at h
        exact h.2
  · exact test_of_wholeColumns h

variable {locked : spec.Cells}

omit [DecidableEq Key] in
lemma mem_ownerPairs {hit : spec.Grid} {key : Key} {l1Idx : Nat} :
    (key, l1Idx) ∈ (locked.items.flatMap fun item =>
      (gatherKeys spec.keyGroups (item.2.and hit)).map fun key => (key, item.1)) ↔
    ∃ i j, locked.has l1Idx i j ∧ hit.test i j ∧
      keyAt spec.keyGroups i j = some key := by
  simp only [mem_flatMap, mem_map, Prod.mk.injEq, mem_gatherKeys, test_and,
    Bool.and_eq_true, has_iff_items]
  constructor
  · rintro ⟨item, hitem, k, ⟨i, j, ⟨htest, hhit⟩, hkey⟩, rfl, rfl⟩
    exact ⟨i, j, ⟨item.2, hitem, htest⟩, hhit, hkey⟩
  · rintro ⟨i, j, ⟨g, hg, htest⟩, hhit, hkey⟩
    exact ⟨(l1Idx, g), hg, key, ⟨i, j, ⟨htest, hhit⟩, hkey⟩, rfl, rfl⟩

/-- An owner holds the key in some cell of the hit. -/
lemma l1Owners_sound {hit : spec.Grid} {key : Key} {l1Idx : Nat}
    (h : (l1Owners spec locked hit).get? key = some l1Idx) :
    spec.lockMode = .lock ∧ ∃ i j, locked.has l1Idx i j ∧ hit.test i j ∧
      keyAt spec.keyGroups i j = some key := by
  unfold l1Owners at h
  split at h
  · simp at h
  · rename_i hmode
    rcases get?_foldl_set h with hmem | hempty
    · exact ⟨hmode, mem_ownerPairs.mp hmem⟩
    · simp at hempty

/-- Every key of the hit that is locked somewhere has an owner. -/
lemma exists_l1Owners {hit : spec.Grid} (hmode : spec.lockMode = .lock) {key : Key}
    {l1Idx i j : Nat} (hlocked : locked.has l1Idx i j) (hhit : hit.test i j)
    (hkey : keyAt spec.keyGroups i j = some key) :
    ∃ owner, (l1Owners spec locked hit).get? key = some owner := by
  unfold l1Owners
  rw [hmode]
  refine mem_iff_get?.mp (mem_foldl_set.mpr (.inl ?_))
  exact mem_map.mpr ⟨(key, l1Idx), mem_ownerPairs.mpr ⟨i, j, hlocked, hhit, hkey⟩, rfl⟩

/-! ## What an end promises -/

/-- What the request holds when its result is published, as the L1 managers
count it: under the locking mode the read locks of each cell of the hit on the
owner of its key, and nothing else. -/
structure Settled (request : Nat) (spec : PrefetchTaskSpec Key) (w : World Key Obj)
    (result : spec.Result) : Prop where
  ledger : ∀ l1Idx, LedgerOk ⟨w.l1 l1Idx, w.holders request l1Idx⟩
  reads : ∀ i j group key, spec.keyGroups[i]? = some group → group.keys[j]? = some key →
    ∀ l1Idx, (w.holders request l1Idx key).count true
      = if spec.lockMode = .lock ∧ result.hitCells.test i j ∧
          result.l1Owners.get? key = some l1Idx
        then validateReadLocks group.numKvReaders else 0
  others : ∀ key, key ∉ flattenedKeys spec.keyGroups → ∀ l1Idx,
    (w.holders request l1Idx key).count true = 0
  owned : spec.lockMode = .lock → ∀ i j key, result.hitCells.test i j →
    keyAt spec.keyGroups i j = some key → ∃ l1Idx, result.l1Owners.get? key = some l1Idx
  staging : ∀ l1Idx key, w.staged request l1Idx key = false
  pins : ∀ adapter key, w.holds request (.pin adapter key) = 0

variable (request spec) in
/-- Under the locking mode every key of the hit is resident at an owner where the
request holds its read lock, and `unsafe_read` finds it until the lock expires. -/
def Granted (w : World Key Obj) (result : spec.Result) : Prop :=
  spec.lockMode = .lock → ∀ i j key, result.hitCells.test i j →
    keyAt spec.keyGroups i j = some key → ∃ l1Idx e, result.l1Owners.get? key = some l1Idx ∧
      (w.l1 l1Idx).objects.get? key = some e ∧ true ∈ w.holders request l1Idx key ∧
      ∀ now < e.readLock.expirationMs,
        (unsafeRead now [key] (w.l1 l1Idx)).get? key = some (.success, some e.memoryObj)

/-- What holds when a result is published, for pairwise distinct keys. -/
structure Published (request : Nat) (spec : PrefetchTaskSpec Key) (w : World Key Obj)
    (result : spec.Result) : Prop where
  settled : (flattenedKeys spec.keyGroups).Nodup → Quiet request w.trace →
    SecureFor request w.trace → Settled request spec w result
  granted : (flattenedKeys spec.keyGroups).Nodup → NeverMissed request w.trace →
    SecureFor request w.trace → Granted request spec w result

/-- What holds when a request is retired. -/
structure Retired (request : Nat) (w : World Key Obj) (how : Retirement) : Prop where
  pins : ∀ adapter key, w.holds request (.pin adapter key) = 0
  tasks : how = .finished → ∀ adapter,
    w.holds request (.lookup adapter) = 0 ∧ w.holds request (.load adapter) = 0

/-- What an act promises about the world it was made in. -/
def Act.Kept (acts : List (Act Key Obj)) : Act Key Obj → Prop
  | .publish request found spec result => Published request spec ⟨found, acts⟩ result
  | .retire request found how => Retired request ⟨found, acts⟩ how
  | _ => True

/-- Every act kept its promise. -/
def WellReported (acts : List (Act Key Obj)) : Prop :=
  ∀ (k : Nat) (a : Act Key Obj), acts[k]? = some a → a.Kept (acts.take k)

variable {acts : List (Act Key Obj)} {a : Act Key Obj} {w : World Key Obj}

section

lemma Act.kept_of_not_reports (h : a.reports = false) : a.Kept acts := by
  cases a with
  | publish => cases h
  | retire => cases h
  | _ => trivial

lemma WellReported.concat (h : WellReported acts) (ha : a.Kept acts) :
    WellReported (acts ++ [a]) := by
  intro k b hb
  rcases Nat.lt_or_ge k acts.length with hk | hk
  · rw [getElem?_append_left hk] at hb
    rw [take_append_of_le_length hk.le]
    exact h k b hb
  · obtain ⟨hlt, rfl⟩ := List.getElem?_eq_some_iff.mp hb
    have hlen : k = acts.length := by simp at hlt; omega
    subst hlen
    simpa using ha

lemma WellReported.append {more : List (Act Key Obj)} (h : WellReported acts)
    (hmore : ∀ a ∈ more, a.reports = false) : WellReported (acts ++ more) := by
  induction more generalizing acts with
  | nil => simpa using h
  | cons a more ih =>
    have hstep := h.concat (Act.kept_of_not_reports (hmore a mem_cons_self))
    have hrest := ih hstep fun b hb => hmore b (mem_cons_of_mem _ hb)
    rwa [append_assoc] at hrest

lemma Moves.wellReported {w' : World Key Obj} (h : Moves request w w') (hw : WellReported w.trace) :
    WellReported w'.trace := by
  obtain ⟨acts, hacts, hown⟩ := h.trace
  rw [hacts]
  refine hw.append fun a ha => ?_
  by_contra hrep
  have hrep : a.reports := by simpa using hrep
  have hreq : ∃ other, a.requester = some other := by
    cases a with
    | publish other => exact ⟨other, rfl⟩
    | retire other => exact ⟨other, rfl⟩
    | _ => cases hrep
  obtain ⟨other, hother⟩ := hreq
  by_cases he : other = request
  · rw [hown a ha (he ▸ hother)] at hrep
    cases hrep
  · obtain ⟨acts', hacts', hframe⟩ := (h.others other he).trace
    obtain rfl := append_cancel_left (hacts.symm.trans hacts')
    exact hframe a ha hother

end

/-! ## Finishing -/

variable (spec) in
/-- The read locks `_finish_request` leaves to the reader. -/
def keptCells (hit : Bitmap2D spec.numRows spec.groupSize)
    (locked : MapState spec.numRows spec.groupSize) : MapState spec.numRows spec.groupSize :=
  ⟨locked.state.mapValues fun _ grid => grid - releasedCells spec hit grid⟩

section

omit [DecidableEq Key]

lemma releasedCells_subset {hit locked : spec.Grid} {i j : Nat}
    (h : (releasedCells spec hit locked).test i j) : locked.test i j := by
  unfold releasedCells at h
  split at h
  · exact h
  · rw [test_sub, Bool.and_eq_true] at h
    exact h.1

lemma grid_keptCells (hit : spec.Grid) (locked : spec.Cells) (l1Idx : Nat) :
    (keptCells spec hit locked).grid l1Idx
      = locked.grid l1Idx - releasedCells spec hit (locked.grid l1Idx) := by
  unfold keptCells grid
  rw [get?_mapValues]
  cases locked.state.get? l1Idx with
  | none => exact ext_test fun i j => by simp
  | some g => rfl

lemma has_keptCells {hit : spec.Grid} {l1Idx i j : Nat} :
    (keptCells spec hit locked).has l1Idx i j ↔
      spec.lockMode = .lock ∧ locked.has l1Idx i j ∧ hit.test i j := by
  rw [← grid_test, grid_keptCells, releasedCells]
  cases hmode : spec.lockMode with
  | noLock => simp
  | lock => cases hlocked : locked.has l1Idx i j <;> simp [grid_test, hlocked]

end

lemma effect_settleL1 (hit : spec.Grid) (w : World Key Obj) (item : Nat × spec.Grid) :
    Effect request w (settleL1 env request spec hit w item)
      (-readsOn item.1 fun key => tally lockWeight spec.keyGroups key
        (releasedCells spec hit item.2)) (fun _ _ => false) := by
  have hrelease : Effect request w (finishReadCells env request spec.keyGroups item.1
      (releasedCells spec hit item.2) w) _ _ := effect_finishReadCells spec.rows _ _ w
  unfold settleL1
  dsimp only
  split
  · exact hrelease
  · exact (hrelease.trans effect_touchKeys (.inr (by simp))).congr (fun x => by simp) fun _ _ => rfl

variable {s : spec.Session Obj}

variable (env request s) in
/-- `_finish_request` gives back all read locks but the hit's. -/
lemma keeps_settleL1 (hit : spec.Grid) : Keeps request spec.keyGroups s
      ⟨s.request.keyStates.l1LockedKeys.items.foldl (settleL1 env request spec hit) s.world,
        { s.request with keyStates := { s.request.keyStates with
          l1LockedKeys := keptCells spec hit s.request.keyStates.l1LockedKeys } }⟩ := by
  have heffect : Effect request s.world (s.request.keyStates.l1LockedKeys.items.foldl
      (settleL1 env request spec hit) s.world) _ _ :=
    effect_foldl (fun w (item : Nat × Bitmap2D spec.numRows spec.groupSize) =>
      effect_settleL1 hit w item)
      (fun item => readsOn_gives (fun key => tally_lockWeight_nonneg key _) _)
      s.request.keyStates.l1LockedKeys.items s.world
  refine ⟨heffect.toMoves, fun h => h.effect ?_ ?_ heffect ?_⟩
  · intro _ l1Idx key
    have hsum := s.request.keyStates.l1LockedKeys.sum_items l1Idx
      (fun g => -tally lockWeight spec.keyGroups key (releasedCells spec hit g))
      (by
        rw [tally_eq_zero, neg_zero]
        intro i j
        by_contra hij
        have := releasedCells_subset (by simpa using hij)
        simp at this)
    simp only [recorded, grid_keptCells, Pi.neg_apply, readsOn, apply_ite Neg.neg, neg_zero]
    rw [tally_sub fun i j => releasedCells_subset]
    omega
  · refine Item.rest ?_ ?_ ?_ <;> simp [recorded, readsOn]
  · simp

variable {result : spec.Result}

/-- What the books say of a key of the request. -/
lemma Owns.count_holders {r : spec.State} (h : Owns request spec.keyGroups w r)
    (hnodup : (flattenedKeys spec.keyGroups).Nodup) (hn : NeverMissed request w.trace)
    (hsecure : SecureFor request w.trace) {i j : Nat} {group : GroupedObjectKeys Key} {key : Key}
    (hgroup : spec.keyGroups[i]? = some group) (hkey : group.keys[j]? = some key) (l1Idx : Nat) :
    (w.holders request l1Idx key).count true
      = if r.keyStates.l1LockedKeys.has l1Idx i j = true then validateReadLocks group.numKvReaders
        else 0 := by
  have hown := (h.booked hnodup hn hsecure l1Idx).own key
  rw [netLocks_callsOn, h.reads hnodup hn, recorded,
    tally_of_keyAt spec.rows.width hnodup hgroup hkey, grid_test, lockWeight] at hown
  unfold World.holders
  split_ifs at hown ⊢ <;> omega

/-- A request without pins and staging entries whose read locks are those of
its hit has settled. -/
lemma settled_of_owns {r : spec.State} (h : Owns request spec.keyGroups w r)
    (hpins : ∀ adapter i j, r.keyStates.l2LockedKeys.has adapter i j = false)
    (hstaging : ∀ l1Idx i j, r.keyStates.l1ReservedKeys.has l1Idx i j = false)
    (hnodup : (flattenedKeys spec.keyGroups).Nodup) (hq : Quiet request w.trace)
    (hsecure : SecureFor request w.trace) (hreads : ∀ i j key l1Idx, keyAt spec.keyGroups i j = some key →
      (r.keyStates.l1LockedKeys.has l1Idx i j ↔ spec.lockMode = .lock ∧
        result.hitCells.test i j ∧ result.l1Owners.get? key = some l1Idx))
    (howned : spec.lockMode = .lock → ∀ i j key, result.hitCells.test i j →
      keyAt spec.keyGroups i j = some key →
      ∃ l1Idx, result.l1Owners.get? key = some l1Idx) : Settled request spec w result where
  ledger l1Idx := (h.booked hnodup (h.kept hnodup hq) hsecure l1Idx).ledger
  reads i j group key hgroup hkey l1Idx := by
    rw [h.count_holders hnodup (h.kept hnodup hq) hsecure hgroup hkey]
    have hat : keyAt spec.keyGroups i j = some key := by simp [keyAt, hgroup, hkey]
    exact if_congr (hreads i j key l1Idx hat) rfl rfl
  others key hkey l1Idx := by
    have hown := (h.booked hnodup (h.kept hnodup hq) hsecure l1Idx).own key
    rw [netLocks_callsOn, h.reads hnodup (h.kept hnodup hq), recorded, tally_of_not_mem hkey] at hown
    exact Int.natCast_eq_zero.mp hown
  owned := howned
  staging l1Idx key := by
    rw [h.staged hnodup hq, decide_eq_false_iff_not, mem_gatherKeys]
    rintro ⟨i, j, hij, -⟩
    rw [grid_test, hstaging] at hij
    cases hij
  pins adapter key := by
    rw [h.pins, tally_eq_zero]
    intro i j
    rw [grid_test, hpins]

/-- A request that has nothing left to wait for or to load. -/
structure Settling (r : RequestState m n) : Prop where
  lookups : ∀ adapter, adapter ∉ r.inflightLookupTasks
  loads : ∀ adapter, adapter ∉ r.inflightLoadTasks
  l1Once : ∀ a b i j, r.keyStates.l1LockedKeys.has a i j →
    r.keyStates.l1LockedKeys.has b i j → a = b
  l2None : ∀ adapter i j, r.keyStates.l2LockedKeys.has adapter i j = false
  stagedNone : ∀ l1Idx i j, r.keyStates.l1ReservedKeys.has l1Idx i j = false

variable {r : RequestState m n}

lemma Loading.settling (h : Loading cfg r) (hloads : ∀ adapter, adapter ∉ r.inflightLoadTasks) :
    Settling r := by
  have hnone : ∀ adapter i j, r.keyStates.l2LockedKeys.has adapter i j = false := by
    intro adapter i j
    by_contra hlocked
    exact hloads adapter (h.loading adapter (mem_of_has (by simpa using hlocked)))
  refine ⟨h.lookups, hloads, h.l1Once, hnone, fun l1Idx i j => ?_⟩
  by_contra hreserved
  obtain ⟨adapter, -, hlocked⟩ := (h.backed l1Idx i j).mp (by simpa using hreserved)
  rw [hnone] at hlocked
  cases hlocked

/-- The result `_finish_request` publishes keeps its promise. -/
lemma published_finishedResult (hs : Settling s.request)
    (h : Owns request spec.keyGroups w { s.request with keyStates := { s.request.keyStates with
      l1LockedKeys := keptCells spec (finishedResult spec s.request).hitCells
        s.request.keyStates.l1LockedKeys } }) :
    Published request spec w (finishedResult spec s.request) := by
  have howner : spec.lockMode = .lock → ∀ i j key,
      (finishedResult spec s.request).hitCells.test i j →
      keyAt spec.keyGroups i j = some key →
      ∃ l1Idx, (finishedResult spec s.request).l1Owners.get? key = some l1Idx := by
    intro hmode i j key hhit hkey
    obtain ⟨l1Idx, hlocked⟩ := (merge_test _ i j).mp (test_of_hitCells hhit)
    exact exists_l1Owners hmode hlocked hhit hkey
  constructor
  · intro hnodup hq hsecure
    refine settled_of_owns h hs.l2None hs.stagedNone hnodup hq hsecure
      (fun i j key l1Idx hkey => ?_) howner
    have hsame : ∀ {owner}, (finishedResult spec s.request).l1Owners.get? key = some owner →
        s.request.keyStates.l1LockedKeys.has owner i j := by
      intro owner howner
      obtain ⟨-, i', j', hlocked, -, hkey'⟩ := l1Owners_sound howner
      obtain ⟨rfl, rfl⟩ := keyAt_inj spec.rows.width hnodup hkey hkey'
      exact hlocked
    rw [has_keptCells]
    refine and_congr_right fun hmode => ?_
    rw [and_comm]
    refine and_congr_right fun hhit => ⟨fun hlocked => ?_, hsame⟩
    obtain ⟨owner, hget⟩ := howner hmode i j key hhit hkey
    rw [hget, hs.l1Once owner l1Idx i j (hsame hget) hlocked]
  · intro hnodup hn hsecure hmode i j key hhit hkey
    obtain ⟨owner, hget⟩ := howner hmode i j key hhit hkey
    obtain ⟨-, i', j', hlocked, hhit', hkey'⟩ := l1Owners_sound hget
    obtain ⟨group, hgroup, hat⟩ := Option.bind_eq_some_iff.mp hkey'
    have hcount := (h.count_holders hnodup hn hsecure hgroup hat owner).trans
      (if_pos (has_keptCells.mpr ⟨hmode, hlocked, hhit'⟩))
    have hheld : 0 < (w.holders request owner key).count true := hcount ▸ validateReadLocks_pos _
    have hledger := (h.booked hnodup hn hsecure owner).ledger
    have hlen : (w.holders request owner key).count true ≤ (w.holders request owner key).length :=
      count_le_length
    cases he : (w.l1 owner).objects.get? key with
    | none =>
      have hnone : w.holders request owner key = [] := hledger.absent key he
      rw [hnone] at hheld
      cases hheld
    | some e =>
      have hcounter : e.readLock.counter = (w.holders request owner key).length :=
        hledger.counted key e he
      refine ⟨owner, e, hget, he, count_pos_iff.mp hheld, fun now hnow => ?_⟩
      have hl : e.readLock.isLocked now := TTLLock.isLocked_iff.mpr ⟨by omega, hnow⟩
      simp [unsafeRead, unsafeReadKey, he, hl]

/-- The request came to an end in `w'`: the others do not notice, and what it
reported on the way is true. -/
structure Ends (request : Nat) (w w' : World Key Obj) : Prop where
  others : ∀ other, other ≠ request → Frame other w w'
  reports : WellReported w.trace → WellReported w'.trace

variable {found : Nat → L1State Key Obj} {groups : List (GroupedObjectKeys Key)}

section

lemma Moves.ends {w' w'' : World Key Obj} (h : Moves request w w') (h' : Ends request w' w'') :
    Ends request w w'' :=
  ⟨fun other hne => (h.others other hne).trans (h'.others other hne), h'.reports ∘ h.wellReported⟩

lemma ends_record (ha : a.requester = some request) (hkept : a.Kept w.trace)
    (hseen : ∀ other l1Idx, a.seen other l1Idx = none) : Ends request w (w.record a) where
  others other hne :=
    frame_record (by rw [ha]; exact fun h => hne (Option.some.inj h).symm) (hseen other)
  reports h := h.concat hkept

lemma Ends.trans {w' w'' : World Key Obj} (h : Ends request w w') (h' : Ends request w' w'') :
    Ends request w w'' :=
  ⟨fun other hne => (h.others other hne).trans (h'.others other hne), h'.reports ∘ h.reports⟩

omit [DecidableEq Obj] in
lemma holds_publish (x : Item Key) :
    (w.record (.publish request found spec result)).holds request x = w.holds request x := by
  rw [World.holds, total_record]
  have hzero : Act.amount x (.publish request found spec result : Act Key Obj) = 0 := by
    cases x <;> rfl
  simp [hzero, World.holds]

/-- An account without pins is what a retirement promises. -/
lemma retired_of_owns {how : Retirement} (h : Owns request groups w r)
    (hpins : ∀ adapter i j, r.keyStates.l2LockedKeys.has adapter i j = false)
    (htasks : how = .finished → ∀ adapter,
      adapter ∉ r.inflightLookupTasks ∧ adapter ∉ r.inflightLoadTasks) : Retired request w how where
  pins adapter key := by
    rw [h.pins, tally_eq_zero]
    intro i j
    rw [grid_test, hpins]
  tasks hhow adapter := by
    obtain ⟨hlookup, hload⟩ := htasks hhow adapter
    constructor
    · rw [h.lookups, if_neg hlookup]
    · rw [h.loads, if_neg hload]

omit [DecidableEq Obj] in
lemma Retired.publish {how : Retirement} (h : Retired request w how) :
    Retired request (w.record (.publish request found spec result)) how where
  pins adapter key := (holds_publish _).trans (h.pins adapter key)
  tasks hhow adapter := ⟨(holds_publish _).trans (h.tasks hhow adapter).1,
    (holds_publish _).trans (h.tasks hhow adapter).2⟩

end

section

variable (h : Owns request spec.keyGroups s.world s.request)
include h

variable (env) in
/-- `_finish_request` publishes a true result and could be retired. -/
lemma finishRequest_spec (hs : Settling s.request) :
    Ends request s.world (finishRequest env request spec s) ∧
      Retired request (finishRequest env request spec s) .finished := by
  have hkeeps := keeps_settleL1 env request s (finishedResult spec s.request).hitCells
  have howns := hkeeps.owns h
  refine ⟨hkeeps.moves.ends (ends_record rfl (published_finishedResult hs howns) fun _ _ => rfl), ?_⟩
  exact (retired_of_owns howns hs.l2None fun _ adapter =>
    ⟨hs.lookups adapter, hs.loads adapter⟩).publish

lemma ends_finishAndRetire (hs : Settling s.request) :
    Ends request s.world (finishAndRetire env request spec s) := by
  obtain ⟨hends, hretired⟩ := finishRequest_spec env h hs
  exact hends.trans (ends_record rfl hretired fun _ _ => rfl)

/-! ## Giving up -/

omit h in
variable (env request) in
/-- `_release_all_locks` gives back everything the key states record, as long
as the adapters that hold locks are attached. -/
lemma keeps_releaseAllLocks {l2Adapters : List Nat} (hrows : Rows groups m n)
    (s : Session Key Obj m n)
    (hattached : ∀ adapter ∈ s.request.keyStates.l2LockedKeys, adapter ∈ l2Adapters) :
    Keeps request groups s ⟨releaseAllLocks env request groups l2Adapters s,
        { s.request with keyStates := ⟨∅, ∅, ∅⟩ }⟩ := by
  have hunlock : s.request.keyStates.l2LockedKeys.items.foldl (fun w item =>
      if item.1 ∈ l2Adapters then unlockCells request groups item.1 item.2 w else w) s.world
      = unlockMap request groups s.request.keyStates.l2LockedKeys s.world := by
    refine foldl_ext _ _ _ fun w item hitem => if_pos (hattached item.1 ?_)
    exact mem_iff_get?.mpr ⟨item.2, mem_entries.mp hitem⟩
  have hrelease : releaseAllLocks env request groups l2Adapters s
      = finishReadMap env request groups s.request.keyStates.l1LockedKeys
        (deleteMap env request groups s.request.keyStates.l1ReservedKeys
          (unlockMap request groups s.request.keyStates.l2LockedKeys s.world)) := by
    unfold releaseAllLocks
    dsimp only
    rw [hunlock]
  rw [hrelease]
  have heffect : Effect request s.world
      (finishReadMap env request groups s.request.keyStates.l1LockedKeys
        (deleteMap env request groups s.request.keyStates.l1ReservedKeys
          (unlockMap request groups s.request.keyStates.l2LockedKeys s.world))) _ _ :=
    ((effect_unlockMap hrows _ _).trans (effect_deleteMap _ _) (.inr (by simp))).trans
      (effect_finishReadMap hrows _ _) (.inl (by simp [pinsOf]))
  have hzero : ∀ (weight : GroupedObjectKeys Key → Int) key,
      tally weight groups key (zeros m n) = 0 := fun _ _ => tally_eq_zero (by simp)
  refine ⟨heffect.toMoves, fun h => h.effect ?_ ?_ heffect ?_⟩
  · simp [recorded, readsOf, pinsOf, hzero]
  · refine Item.rest ?_ ?_ ?_ <;> simp [recorded, readsOf, pinsOf, hzero]
  · simp [gatherKeys_zeros]

omit h in
/-- The result `_abort_request` publishes keeps its promise. -/
lemma published_missedResult {r : spec.State}
    (h : Owns request spec.keyGroups w { r with keyStates := ⟨∅, ∅, ∅⟩ }) :
    Published request spec w (missedResult spec) where
  settled hnodup hq hsecure := by
    refine settled_of_owns h (fun _ _ _ => rfl) (fun _ _ _ => rfl) hnodup hq hsecure ?_ ?_
    · simp [missedResult]
    · intro _ i j key hhit _
      simp [missedResult] at hhit
  granted := by
    intro _ _ _ _ i j key hhit _
    simp [missedResult] at hhit

lemma ends_abortRequest {l2Adapters : List Nat}
    (hattached : ∀ adapter ∈ s.request.keyStates.l2LockedKeys, adapter ∈ l2Adapters) :
    Ends request s.world (abortRequest env request spec l2Adapters s) := by
  have hkeeps := keeps_releaseAllLocks env request spec.rows s hattached
  have howns := hkeeps.owns h
  have hretired : Retired request _ .aborted :=
    retired_of_owns howns (fun _ _ _ => rfl) (fun hhow => nomatch hhow)
  have hpublish : Ends request (releaseAllLocks env request spec.keyGroups l2Adapters s) (World.record
      _ (.publish request _ spec (missedResult spec))) :=
    ends_record rfl (published_missedResult howns) fun _ _ => rfl
  exact hkeeps.moves.ends (hpublish.trans (ends_record rfl hretired.publish fun _ _ => rfl))

/-- `_cleanup_in_flight_requests` on one request. -/
lemma ends_cleanup {l2Adapters : List Nat}
    (hattached : ∀ adapter ∈ s.request.keyStates.l2LockedKeys, adapter ∈ l2Adapters) :
    Ends request s.world ((releaseAllLocks env request spec.keyGroups l2Adapters s).record
      (.retire request (releaseAllLocks env request spec.keyGroups l2Adapters s).l1 .cleanedUp)) := by
  have hkeeps := keeps_releaseAllLocks env request spec.rows s hattached
  have hretired : Retired request _ .cleanedUp :=
    retired_of_owns (hkeeps.owns h) (fun _ _ _ => rfl) (fun hhow => nomatch hhow)
  exact hkeeps.moves.ends (ends_record rfl hretired fun _ _ => rfl)

end

/-! ## One step of a request -/

variable (cfg r) in
/-- The shape of a request between two steps of the loop. -/
def InPhase : Prop :=
  (Looking r ∧ ∃ adapter, adapter ∈ r.inflightLookupTasks) ∨ Loading cfg r

/-- A request between two steps of the loop. -/
structure Flying (request : Nat) (cfg : PrefetchConfig) (spec : PrefetchTaskSpec Key)
    (l2Adapters : List Nat) (w : World Key Obj) (r : RequestState spec.numRows spec.groupSize) :
    Prop where
  owns : Owns request spec.keyGroups w r
  shape : InPhase cfg r
  attached : ∀ adapter, r.refersTo adapter → adapter ∈ l2Adapters

variable (request cfg spec) in
/-- A step on a request leaves it in flight or brings it to an end. -/
def Steps (l2Adapters : List Nat) (w : World Key Obj)
    (outcome : World Key Obj × Option (RequestState spec.numRows spec.groupSize)) : Prop :=
  match outcome.2 with
  | some r => Moves request w outcome.1 ∧ Flying request cfg spec l2Adapters outcome.1 r
  | none => Ends request w outcome.1

omit [DecidableEq Key] in
lemma RequestState.phase_eq_lookup :
    r.phase = .lookup ↔ ∃ adapter, adapter ∈ r.inflightLookupTasks := by
  unfold phase
  split
  · rename_i hempty
    simpa using Dict.isEmpty_iff.mp hempty
  · rename_i hnonempty
    rw [Dict.isEmpty_iff] at hnonempty
    simpa using hnonempty

variable {adapters : AdapterTable}

variable (env request adapters) in
/-- Polling keeps the account and, unless it raises, the shape of the phase it
ends in. -/
lemma pollRequest_spec (signaledLookups signaledLoads : List Nat) (h : InPhase cfg s.request) :
    Advances request spec.keyGroups s
        (pollRequest env cfg request spec adapters signaledLookups signaledLoads s).1 ∧
      ((pollRequest env cfg request spec adapters signaledLookups signaledLoads s).2 = false →
        InPhase cfg (pollRequest env cfg request spec adapters signaledLookups signaledLoads
          s).1.request) := by
  unfold pollRequest
  rcases h with ⟨hlooking, hsome⟩ | hloading
  · rw [phase_eq_lookup.mpr hsome]
    dsimp only
    obtain ⟨hadv, hpolled⟩ := pollLookupResults_spec env request signaledLookups
      s.request.inflightLookupTasks.keys s hlooking
    split
    · rename_i hraised
      exact ⟨hadv, fun hok => absurd hok (by simp [hraised])⟩
    split
    · rename_i hempty
      obtain ⟨htrans, hload⟩ := transitionToLoadPhase_spec env request cfg adapters hpolled
        (isEmpty_iff.mp hempty)
      exact ⟨hadv.trans htrans, fun hok => .inr (hload hok)⟩
    · rename_i hnonempty
      rw [Dict.isEmpty_iff] at hnonempty
      exact ⟨hadv, fun _ => .inl ⟨hpolled, by simpa using hnonempty⟩⟩
  · have hphase : s.request.phase = .planAndLoad := by
      unfold phase
      rw [if_pos (isEmpty_iff.mpr hloading.lookups)]
    rw [hphase]
    obtain ⟨hadv, hload⟩ := pollLoadResults_spec env request signaledLoads
      s.request.inflightLoadTasks.keys s hloading
    exact ⟨hadv, fun _ => .inr hload⟩

/-- `_advance_request`, with the handler of the loop, keeps the request's
account or closes it. -/
lemma steps_advanceRequest {r : spec.State} (signaledLookups signaledLoads : List Nat)
    (h : Flying request cfg spec adapters.l2Adapters w r) :
    Steps request cfg spec adapters.l2Adapters w
      (advanceRequest env cfg request spec adapters signaledLookups signaledLoads ⟨w, r⟩) := by
  obtain ⟨hadv, hshape⟩ := pollRequest_spec env request adapters signaledLookups signaledLoads
    (s := ⟨w, r⟩) h.shape
  unfold advanceRequest
  dsimp only
  split
  · exact ⟨.refl w, h⟩
  generalize pollRequest env cfg request spec adapters signaledLookups signaledLoads ⟨w, r⟩
    = polled at hadv hshape
  have howns := hadv.owns h.owns
  have hattached : ∀ adapter, polled.1.request.refersTo adapter →
      adapter ∈ adapters.l2Adapters := fun adapter hrefs =>
    h.attached adapter (hadv.refs adapter hrefs)
  split
  · exact hadv.moves.ends (ends_abortRequest howns fun adapter hmem =>
      hattached adapter (refersTo_iff.mpr (.inr (.inr hmem))))
  rename_i hok
  have hphase := hshape (by simpa using hok)
  split_ifs with hdone
  · have hloading : Loading cfg polled.1.request := by
      rcases hphase with ⟨-, hsome⟩ | hloading
      · rw [phase_eq_lookup.mpr hsome] at hdone
        exact nomatch hdone.1
      · exact hloading
    exact hadv.moves.ends (ends_finishAndRetire howns
      (hloading.settling (isEmpty_iff.mp hdone.2)))
  · exact ⟨hadv.moves, howns, hphase, hattached⟩

/-! ## Starting -/

lemma owns_init (hacts : ∀ a ∈ w.trace, a.requester ≠ some request)
    (hstaged : Quiet request w.trace → ∀ l1Idx key, w.staged request l1Idx key = false)
    (hbooked : SecureFor request w.trace → w.Booked request) :
    Owns request groups w (.init : RequestState m n) := by
  have hzero : ∀ x, w.holds request x = 0 := fun x =>
    World.total_eq_zero fun a ha hreq => absurd hreq (hacts a ha)
  have hnone : ∀ x, recorded groups (.init : RequestState m n) x = 0 := by
    intro x
    cases x with
    | read l1Idx key => exact tally_eq_zero (by simp [init])
    | pin adapter key => exact tally_eq_zero (by simp [init])
    | lookup adapter => rfl
    | load adapter => rfl
  constructor
  · exact fun _ _ l1Idx key => (hzero _).trans (hnone _).symm
  · exact fun x _ => (hzero x).trans (hnone x).symm
  · exact fun _ _ => hbooked
  · intro _ hq l1Idx key
    simp [hstaged hq, init, gatherKeys_zeros]
  · exact fun _ _ a ha hreq => absurd hreq (hacts a ha)
  · exact fun a ha hreq => absurd hreq (hacts a ha)

/-- A request that has only locked L1 keys so far. -/
def LockedOnly (r : RequestState m n) : Prop :=
  ∃ locked, r = { (init : RequestState m n) with keyStates := ⟨locked, ∅, ∅⟩ }

variable (env request cfg spec w) in
lemma lockedOnly_lockL1Keys :
    Keeps request spec.keyGroups ⟨w, .init⟩ (lockL1Keys env cfg request spec ⟨w, .init⟩) ∧
      LockedOnly (lockL1Keys env cfg request spec ⟨w, .init⟩).request :=
  keeps_lockL1Keys fun idx => not_mem_empty idx

variable (env request cfg) in
/-- Without an adapter to ask, planning leaves nothing to wait for. -/
lemma settling_planLoadRequest (h : LockedOnly s.request) :
    Settling (planLoadRequest env cfg request spec [] s).1.request := by
  obtain ⟨locked, hreq⟩ := h
  have hplanned := planned_planLoadRequest env request cfg [] s
  refine ⟨?_, ?_, hplanned.l1Once, ?_, ?_⟩
  · simp [planLoadRequest, hreq, init]
  · simp [planLoadRequest, hreq, init]
  · intro adapter i j
    by_contra hlocked
    have hmem := mem_of_has (Bool.not_eq_false _ |>.mp hlocked)
    exact absurd (planLoad_l2 spec.keyGroups spec.fetchingPolicy hmem).1 not_mem_nil
  · simp [planLoadRequest, hreq]

section

variable (h : Owns request spec.keyGroups w (.init : spec.State))
include h

/-- `_start_lookup_phase`, with the handler of `_start_pending_requests`. -/
lemma steps_startLookupPhase : Steps request cfg spec adapters.l2Adapters w
      (startLookupPhase env cfg request spec adapters w) := by
  have hstart := lockedOnly_lockL1Keys env request cfg spec w
  unfold startLookupPhase
  dsimp only
  generalize lockL1Keys env cfg request spec ⟨w, .init⟩ = s at hstart
  obtain ⟨hlock, hlocked⟩ := hstart
  have hsettling := settling_planLoadRequest env request cfg hlocked
  obtain ⟨locked, hreq⟩ := hlocked
  split
  · have hkeeps := hlock.trans (advances_planLoadRequest env request cfg [] s).toKeeps
    exact hkeeps.moves.ends (ends_finishAndRetire (hkeeps.owns h) hsettling)
  rename_i hneeded
  have hsubmit := keeps_submitLookups env request
    (adapters.l2Adapters.filter (isL2Eligible cfg spec adapters)) s (adapters.nodup.filter _)
    (by simp [hreq, init])
  obtain ⟨tasks, htasks, hsub, -, hall⟩ := submitLookups_request env request
    (adapters.l2Adapters.filter (isL2Eligible cfg spec adapters)) s
  have hkeeps := hlock.trans hsubmit
  have howns := hkeeps.owns h
  split_ifs with hok
  · refine hkeeps.moves.ends (ends_abortRequest howns fun adapter hmem => ?_)
    rw [htasks, hreq] at hmem
    exact absurd hmem (not_mem_empty adapter)
  · refine ⟨hkeeps.moves, howns, .inl ⟨?_, ?_⟩, fun adapter hrefs => ?_⟩
    · rw [htasks, hreq]
      exact ⟨fun adapter => not_mem_empty adapter, rfl, fun _ _ _ _ => rfl⟩
    · rw [htasks]
      have hne : adapters.l2Adapters.filter (isL2Eligible cfg spec adapters) ≠ [] := fun hnil =>
        hneeded (by rw [hnil]; rfl)
      obtain ⟨adapter, hmem⟩ := exists_mem_of_ne_nil _ hne
      exact ⟨adapter, hall (by simpa using hok) adapter hmem⟩
    · rw [htasks, refersTo_iff] at hrefs
      have htask : adapter ∈ tasks := by
        rcases hrefs with hlookup | hload | hpin
        · exact hlookup
        · rw [hreq] at hload
          exact absurd hload (not_mem_empty adapter)
        · rw [hreq] at hpin
          exact absurd hpin (not_mem_empty adapter)
      rcases hsub adapter htask with hmem | hold
      · exact mem_of_mem_filter hmem
      · rw [hreq] at hold
        exact absurd hold (not_mem_empty adapter)

lemma ends_serveFromL1 : Ends request w (serveFromL1 env cfg request spec w) := by
  have hstart := lockedOnly_lockL1Keys env request cfg spec w
  unfold serveFromL1
  generalize lockL1Keys env cfg request spec ⟨w, .init⟩ = s at hstart
  obtain ⟨hlock, hlocked⟩ := hstart
  have hkeeps := hlock.trans (advances_planLoadRequest env request cfg [] s).toKeeps
  exact hkeeps.moves.ends (finishRequest_spec env (hkeeps.owns h)
    (settling_planLoadRequest env request cfg hlocked)).1

end

end LMCache.StorageControllers
