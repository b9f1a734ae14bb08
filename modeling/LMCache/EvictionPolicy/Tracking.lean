/-
LMCache.EvictionPolicy.Tracking — the keys the LRU policy tracks against the
keys that occupy L1 memory.

The policy learns about keys only from the manager's callbacks, so for each
method the callbacks it fires are compared with what it did to the two
tables. All methods agree with one exception: `finish_read`, when it drops a
temporary object, and `clear`, when it drops an unlocked one, report the key
as deleted without looking whether another tag still stages it. (`delete`
and `finish_write_and_delete` do look.) From then on the staging object, and
what it is admitted as when temporary, occupies memory and cannot be
selected for eviction.
-/
import LMCache.EvictionPolicy.Lru
import LMCache.L1Manager.PerKey

namespace LMCache.EvictionPolicy

open List Lib Native L1Manager L1State
open NestedDict hiding keys

variable {Key Obj : Type} [DecidableEq Key] [DecidableEq Obj]

section

variable (s : L1State Key Obj)

/-- The key has a resident object or a staging entry. -/
def Holds (k : Key) : Prop := k ∈ s.objects ∨ k ∈ s.staging

/-- The policy tracks exactly the keys that occupy memory. -/
def Tracks : Prop := ∀ k, k ∈ tracking s.log ↔ Holds s k

/-- The call does not report a key as deleted that another tag still stages:
no `finish_read` releases the last locks of a temporary object whose key has
a staging entry, and no plain `clear` meets an unlocked object whose key has
a live staging entry. -/
def KeepsTracking (c : L1Call Key Obj) : Prop :=
  match c.op with
  | .finishRead keys n => ∀ k e, s.objects.get? k = some e → e.isTemporary →
      e.readLock.isLocked c.now →
      (e.readLock.unlockTimes (keys.count k * validateReadLocks n)).isLocked c.now = false →
      k ∉ s.staging
  | .clear false => ∀ k e, s.objects.get? k = some e → e.readLock.isLocked c.now = false →
      ∀ t e', s.getStaging k t = some e' → e'.writeLock.isLocked c.now = false
  | _ => True

end

variable {s : L1State Key Obj}

section Comparing

variable {s' : L1State Key Obj} {P : Key → Prop}

variable (s P) in
/-- The policy tracks the keys of `P`. In the middle of a call `P` is what
the callbacks fired so far have left. -/
def TracksAs : Prop := ∀ k, k ∈ tracking s.log ↔ P k

section

omit [DecidableEq Obj]

section

variable (h : TracksAs s P)
include h

lemma TracksAs.congr_log (hlog : s'.log = s.log) : TracksAs s' P := by
  unfold TracksAs
  rw [hlog]
  exact h

lemma TracksAs.report (rs : List (Report Key)) : TracksAs (s.report rs) (TrackedAfter rs P) := by
  have hP : (· ∈ tracking s.log) = P := funext fun k => propext (h k)
  intro k
  simp only [L1State.report, mem_tracking_append, hP]

lemma TracksAs.reportStagingGone (gone : List Key) :
    TracksAs (s.reportStagingGone gone) (fun k => P k ∧ k ∉ gone) := by
  unfold L1State.reportStagingGone
  split_ifs with hempty
  · rw [List.isEmpty_iff] at hempty
    intro k
    simp [h k, hempty]
  · exact h.report [.notice (.deletedByManager gone)]

lemma TracksAs.tracks_iff : Tracks s ↔ ∀ k, P k ↔ Holds s k :=
  forall_congr' fun k => iff_congr (h k) Iff.rfl

end

lemma mem_staging_iff {k : Key} : k ∈ s.staging ↔ ∃ t e, s.getStaging k t = some e :=
  mem_iff_get?

lemma holds_reportStagingGone {k : Key} {gone : List Key} :
    Holds (s.reportStagingGone gone) k ↔ Holds s k := by
  unfold reportStagingGone
  split <;> rfl

end

end Comparing

/-! ## Reading -/

section Reading

variable {now : Int}

omit [DecidableEq Obj] in
lemma reserveRead_loop_frame (now : Int) (total : Nat) (keys : List Key) (acc : ReserveReadAcc Key Obj) :
    (keys.foldl (reserveReadKey now total) acc).st.staging = acc.st.staging ∧
    (keys.foldl (reserveReadKey now total) acc).st.log = acc.st.log := by
  induction keys generalizing acc with
  | nil => exact ⟨rfl, rfl⟩
  | cons k keys ih =>
    obtain ⟨hstaging, hlog⟩ := ih (reserveReadKey now total acc k)
    rw [foldl_cons, hstaging, hlog]
    unfold reserveReadKey
    split <;> exact ⟨rfl, rfl⟩

lemma tracks_reserveRead (hs : Tracks s) (keys : List Key) (n : Int) :
    Tracks (s.step ⟨now, .reserveRead keys n⟩) := by
  obtain ⟨hstaging, hlog⟩ := reserveRead_loop_frame now (validateReadLocks n) keys
    (⟨s, ∅, []⟩ : ReserveReadAcc Key Obj)
  refine ((TracksAs.congr_log hs hlog).report _).tracks_iff.mpr fun k => ?_
  have hobjects : k ∈ (s.step ⟨now, .reserveRead keys n⟩).objects ↔ k ∈ s.objects := by
    rw [Dict.mem_iff_get?, Dict.mem_iff_get?, reserveRead_get?]
    cases s.objects.get? k <;> simp
  exact (or_congr hobjects (iff_of_eq (congrArg (k ∈ ·) hstaging))).symm

/-- What the loop of `finish_read` has done so far. -/
structure FinishReadInv (s : L1State Key Obj) (acc : FinishReadAcc Key Obj) : Prop where
  staging : acc.st.staging = s.staging
  log : acc.st.log = s.log
  shrinks : ∀ k, k ∈ acc.st.objects → k ∈ s.objects
  freed : ∀ k, k ∈ acc.needToFreeKeys ↔ k ∈ s.objects ∧ k ∉ acc.st.objects

section

omit [DecidableEq Obj]

lemma FinishReadInv.body {total : Nat} {acc : FinishReadAcc Key Obj}
    (h : FinishReadInv s acc) (key : Key) : FinishReadInv s (finishReadKey now total acc key) := by
  unfold finishReadKey
  split
  · exact ⟨h.staging, h.log, h.shrinks, h.freed⟩
  rename_i e he
  have hkey : key ∈ acc.st.objects := Dict.mem_iff_get?.mpr ⟨e, he⟩
  split
  · exact ⟨h.staging, h.log, h.shrinks, h.freed⟩
  dsimp only
  split
  · refine ⟨h.staging, h.log, fun k hk => h.shrinks k (Dict.mem_erase.mp hk).2, fun k => ?_⟩
    simp only [mem_append, h.freed, Dict.mem_erase]
    by_cases hk : k = key
    · subst hk
      simp [h.shrinks k hkey]
    · simp [hk]
  · have hset : ∀ (e' : L1ObjectState Obj) k,
        k ∈ acc.st.objects.set key e' ↔ k ∈ acc.st.objects := by
      intro e' k
      rw [Dict.mem_set]
      exact or_iff_right_of_imp fun hk => hk ▸ hkey
    exact ⟨h.staging, h.log, fun k hk => h.shrinks k ((hset _ k).mp hk),
      fun k => (h.freed k).trans (and_congr_right fun _ => not_congr (hset _ k).symm)⟩

variable (s) in
lemma finishRead_loop_inv (now : Int) (total : Nat) (keys : List Key) :
    FinishReadInv s (keys.foldl (finishReadKey now total) ⟨s, ∅, [], [], []⟩) :=
  foldlRecOn (motive := FinishReadInv s) keys _ ⟨rfl, rfl, fun _ h => h, by simp⟩
    (fun _ hacc key _ => hacc.body key)

lemma afterFinish_eq_none {count : Nat} {e : L1ObjectState Obj} :
    e.afterFinish now count = none ↔ e.isTemporary ∧ e.readLock.isLocked now ∧
      (e.readLock.unlockTimes count).isLocked now = false := by
  unfold L1ObjectState.afterFinish
  cases hl : e.readLock.isLocked now <;> cases ht : e.isTemporary <;> simp

end

lemma tracks_finishRead_iff (hs : Tracks s) (keys : List Key) (n : Int) :
    Tracks (s.step ⟨now, .finishRead keys n⟩) ↔ KeepsTracking s ⟨now, .finishRead keys n⟩ := by
  have hinv := finishRead_loop_inv s now (validateReadLocks n) keys
  refine ((TracksAs.congr_log hs hinv.log).report _).tracks_iff.trans ?_
  -- a key is reported deleted when it was resident and no longer is
  have hstep : ∀ k, k ∈ (s.step ⟨now, .finishRead keys n⟩).objects ↔
      ∃ e e', s.objects.get? k = some e ∧
        e.afterFinish now (keys.count k * validateReadLocks n) = some e' := by
    intro k
    rw [Dict.mem_iff_get?, finishRead_get?]
    cases s.objects.get? k <;> simp
  have hholds : ∀ k, Holds (s.step ⟨now, .finishRead keys n⟩) k ↔
      k ∈ (s.step ⟨now, .finishRead keys n⟩).objects ∨ k ∈ s.staging :=
    fun k => or_congr_right (iff_of_eq (congrArg (k ∈ ·) hinv.staging))
  constructor
  · intro h k e he htemp hl hrel hstg
    have hgone : k ∉ (s.step ⟨now, .finishRead keys n⟩).objects := by
      rw [hstep]
      rintro ⟨e₁, e₂, he₁, he₂⟩
      rw [he] at he₁
      cases he₁
      rw [afterFinish_eq_none.mpr ⟨htemp, hl, hrel⟩] at he₂
      cases he₂
    have hres : k ∈ s.objects := Dict.mem_iff_get?.mpr ⟨e, he⟩
    have htracked := (h k).mpr ((hholds k).mpr (.inr hstg))
    exact htracked.2 ((hinv.freed k).mpr ⟨hres, hgone⟩)
  · intro hkeep k
    refine Iff.trans ?_ (hholds k).symm
    show Holds s k ∧ k ∉ _ ↔ _
    rw [hinv.freed]
    constructor
    · rintro ⟨hres | hstg, hnot⟩
      · exact .inl (not_not.mp fun hgone => hnot ⟨hres, hgone⟩)
      · exact .inr hstg
    · rintro (hres | hstg)
      · exact ⟨.inl (hinv.shrinks k hres), fun hboth => hboth.2 hres⟩
      · refine ⟨.inr hstg, fun ⟨hres, hgone⟩ => ?_⟩
        obtain ⟨e, he⟩ := Dict.mem_iff_get?.mp hres
        cases haf : e.afterFinish now (keys.count k * validateReadLocks n) with
        | some e' => exact hgone ((hstep k).mpr ⟨e, e', he, haf⟩)
        | none =>
          obtain ⟨htemp, hl, hrel⟩ := afterFinish_eq_none.mp haf
          exact hkeep k e he htemp hl hrel hstg

end Reading

/-! ## Writing -/

section Writing

variable {now : Int} {tag : String} {e : L1ObjectState Obj} {acc : ReserveWriteAcc Key Obj}

section

omit [DecidableEq Obj]

lemma holds_popped_ne {k key : Key} (hk : k ≠ key) : Holds (s.popped key tag e) k ↔ Holds s k :=
  or_congr_right (by simp [popped, NestedDict.mem_iff_get?, NestedDict.get?_pop, hk])

lemma holds_of_getStaging {k : Key} {t : String} (h : s.getStaging k t = some e) : Holds s k :=
  .inr (mem_staging_iff.mpr ⟨t, e, h⟩)

lemma holds_setObject {k key : Key} : Holds (s.setObject key e) k ↔ k = key ∨ Holds s k := by
  unfold Holds setObject
  rw [Dict.mem_set, or_assoc]

lemma holds_take {key : Key} {e' : L1ObjectState Obj} (he : s.getStaging key tag = some e)
    (k : Key) : Holds ((s.popped key tag e).setObject key e') k ↔ Holds s k := by
  rw [holds_setObject]
  by_cases hk : k = key
  · subst hk
    exact iff_of_true (.inl rfl) (holds_of_getStaging he)
  · rw [holds_popped_ne hk]
    exact or_iff_right hk

/-- A loop that moves entries of keys that stay in the tables; `reported` is
the list the listeners get. -/
structure SameKeysInv (s st : L1State Key Obj) (reported : List Key) : Prop where
  log : st.log = s.log
  holds : ∀ k, Holds st k ↔ Holds s k
  reported : ∀ k ∈ reported, Holds s k

lemma finishWriteKey_inv {acc : FinishWriteAcc Key Obj}
    (h : SameKeysInv s acc.st acc.notificationKeys) (key : Key) :
    SameKeysInv s (finishWriteKey now tag acc key).st
      (finishWriteKey now tag acc key).notificationKeys := by
  unfold finishWriteKey
  obtain ⟨e, he, hl, htake⟩ | ⟨err, -, htake, -⟩ := takeStaging_cases acc.st now key tag
  · simp only [htake]
    have hkey : Holds s key := (h.holds key).mp (holds_of_getStaging he)
    split
    · rename_i hres
      refine ⟨h.log, fun k => ?_, h.reported⟩
      rw [← h.holds]
      by_cases hk : k = key
      · subst hk
        exact iff_of_true (.inl hres) (holds_of_getStaging he)
      · exact holds_popped_ne hk
    · refine ⟨h.log, fun k => (holds_take he k).trans (h.holds k), fun k hk => ?_⟩
      split at hk
      · obtain hk | hk := mem_append.mp hk
        · exact h.reported k hk
        · exact mem_singleton.mp hk ▸ hkey
      · exact h.reported k hk
  · simp only [htake]
    exact ⟨h.log, h.holds, h.reported⟩

lemma finishWriteAndReserveReadKey_inv {total : Nat} {acc : FinishWriteReserveReadAcc Key Obj}
    (h : SameKeysInv s acc.st acc.successfulKeys) (key : Key) :
    SameKeysInv s (finishWriteAndReserveReadKey now total tag acc key).st
      (finishWriteAndReserveReadKey now total tag acc key).successfulKeys := by
  unfold finishWriteAndReserveReadKey
  obtain ⟨e, he, hl, htake⟩ | ⟨err, -, htake, -⟩ := takeStaging_cases acc.st now key tag
  · simp only [htake]
    split
    · refine ⟨h.log, fun k => (holds_take he k).trans (h.holds k), fun k hk => ?_⟩
      obtain hk | hk := mem_append.mp hk
      · exact h.reported k hk
      · exact mem_singleton.mp hk ▸ (h.holds key).mp (holds_of_getStaging he)
    · exact ⟨h.log, fun k => (holds_take he k).trans (h.holds k), h.reported⟩
  · simp only [htake]
    exact ⟨h.log, h.holds, h.reported⟩

variable (s) in
lemma finishWriteAndReserveRead_loop_inv (now : Int) (total : Nat) (tag : String) (keys : List Key) :
    SameKeysInv s
      (keys.foldl (finishWriteAndReserveReadKey now total tag) ⟨s, ∅, [], [], []⟩).st
      (keys.foldl (finishWriteAndReserveReadKey now total tag) ⟨s, ∅, [], [], []⟩).successfulKeys :=
  foldlRecOn (motive := fun acc : FinishWriteReserveReadAcc Key Obj =>
    SameKeysInv s acc.st acc.successfulKeys) keys _ ⟨rfl, fun _ => Iff.rfl, by simp⟩
    (fun acc hacc key _ => finishWriteAndReserveReadKey_inv hacc key)

/-- A loop that empties keys; `gone` are the keys to report. -/
structure DiscardInv (s st : L1State Key Obj) (gone : List Key) : Prop where
  log : st.log = s.log
  holds : ∀ k, Holds st k ↔ Holds s k ∧ k ∉ gone

lemma finishWriteAndDeleteKey_inv {acc : FinishWriteDeleteAcc Key Obj}
    (h : DiscardInv s acc.st acc.goneKeys) (key : Key) :
    DiscardInv s (finishWriteAndDeleteKey now tag acc key).st
      (finishWriteAndDeleteKey now tag acc key).goneKeys := by
  unfold finishWriteAndDeleteKey
  obtain ⟨e, he, hl, htake⟩ | ⟨err, -, htake, -⟩ := takeStaging_cases acc.st now key tag
  · simp only [htake]
    have hkey := (h.holds key).mp (holds_of_getStaging he)
    refine ⟨h.log, fun k => ?_⟩
    by_cases hk : k = key
    · subst hk
      split
      · rename_i hgone
        simp [Holds, hgone.1, hgone.2]
      · rename_i hstill
        refine iff_of_true ?_ hkey
        rw [not_and_or, not_not, not_not] at hstill
        exact hstill
    · rw [holds_popped_ne hk, h.holds]
      split <;> simp [hk]
  · simp only [htake]
    exact ⟨h.log, h.holds⟩

lemma reserveWriteKey_inv (h : SameKeysInv s acc.st acc.successfulKeys) (item : Key × Bool) :
    SameKeysInv s (reserveWriteKey now tag acc item).st
      (reserveWriteKey now tag acc item).successfulKeys := by
  obtain ⟨key, isTemp⟩ := item
  unfold reserveWriteKey
  dsimp only
  split
  · exact ⟨h.log, h.holds, h.reported⟩
  split
  · exact ⟨h.log, h.holds, h.reported⟩
  rename_i staged hstaged
  split
  · exact ⟨h.log, h.holds, h.reported⟩
  · have hkey : Holds acc.st key := holds_of_getStaging hstaged
    refine ⟨h.log, fun k => Iff.trans ?_ (h.holds k), fun k hk => ?_⟩
    · unfold Holds
      rw [mem_put, or_left_comm]
      exact or_iff_right_of_imp fun hk => hk ▸ hkey
    · obtain hk | hk := mem_append.mp hk
      · exact h.reported k hk
      · exact mem_singleton.mp hk ▸ (h.holds key).mp hkey

variable (s) in
lemma reserveWrite_loop_inv (now : Int) (tag : String) (items : List (Key × Bool)) : SameKeysInv s
      (items.foldl (reserveWriteKey now tag) ⟨s, ∅, [], []⟩).st
      (items.foldl (reserveWriteKey now tag) ⟨s, ∅, [], []⟩).successfulKeys :=
  foldlRecOn (motive := fun acc : ReserveWriteAcc Key Obj =>
    SameKeysInv s acc.st acc.successfulKeys) items _ ⟨rfl, fun _ => Iff.rfl, by simp⟩
    (fun acc hacc item _ => reserveWriteKey_inv hacc item)

/-- What `reserve_write` has staged so far is what it will report. -/
structure StagedInv (s : L1State Key Obj) (acc : ReserveWriteAcc Key Obj) : Prop where
  log : acc.st.log = s.log
  holds : ∀ k, Holds acc.st k ↔ Holds s k ∨ k ∈ acc.successfulKeys

lemma stageAllocated_inv (h : StagedInv s acc) (item : (Key × Bool) × (Obj × Nat)) :
    StagedInv s (stageAllocated now tag acc item) := by
  obtain ⟨⟨key, isTemp⟩, o, size⟩ := item
  refine ⟨h.log, fun k => ?_⟩
  have hput : Holds (stageAllocated now tag acc ((key, isTemp), (o, size))).st k ↔
      k = key ∨ Holds acc.st k := by
    unfold Holds stageAllocated putStaging
    rw [mem_put, or_left_comm]
  rw [hput, h.holds]
  simp only [stageAllocated, mem_append, mem_singleton]
  tauto

end

lemma allocateAndStage_inv {alloc : AllocOutcome Obj}
    (h : SameKeysInv s acc.st acc.successfulKeys) :
    StagedInv s (allocateAndStage now tag alloc acc) := by
  have hstart : ∀ k, Holds acc.st k ↔ Holds s k ∨ k ∈ acc.successfulKeys :=
    fun k => (h.holds k).trans (or_iff_left_of_imp (h.reported k)).symm
  unfold allocateAndStage
  split
  · exact ⟨h.log, hstart⟩
  · exact foldlRecOn (motive := StagedInv s) _ _ ⟨h.log, hstart⟩
      (fun acc hacc item _ => stageAllocated_inv hacc item)

variable (hs : Tracks s) (keys : List Key)
include hs

lemma tracks_finishWrite (tag : String) :
    Tracks (s.step ⟨now, .finishWrite keys tag⟩) := by
  have hinv := foldlRecOn
    (motive := fun acc : FinishWriteAcc Key Obj => SameKeysInv s acc.st acc.notificationKeys)
    keys (finishWriteKey now tag) (b := ⟨s, ∅, [], []⟩) ⟨rfl, fun _ => Iff.rfl, by simp⟩
    (fun acc hacc key _ => finishWriteKey_inv hacc key)
  simp only [step, finishWrite]
  split
  · exact (TracksAs.congr_log hs hinv.log).tracks_iff.mpr fun k => (hinv.holds k).symm
  · refine ((TracksAs.congr_log hs hinv.log).report _).tracks_iff.mpr fun k => ?_
    exact (or_iff_left_of_imp (hinv.reported k)).trans (hinv.holds k).symm

lemma tracks_finishWriteAndReserveRead (n : Int) (tag : String) :
    Tracks (s.step ⟨now, .finishWriteAndReserveRead keys n tag⟩) := by
  have hinv := finishWriteAndReserveRead_loop_inv s now (validateReadLocks n) tag keys
  simp only [step, finishWriteAndReserveRead]
  split
  · refine ((TracksAs.congr_log hs hinv.log).report _).tracks_iff.mpr fun k => ?_
    exact (or_iff_left_of_imp (hinv.reported k)).trans (hinv.holds k).symm
  · refine (((TracksAs.congr_log hs hinv.log).report _).report _).tracks_iff.mpr fun k => ?_
    exact (or_iff_left_of_imp (hinv.reported k)).trans (hinv.holds k).symm

lemma tracks_finishWriteAndDelete (tag : String) :
    Tracks (s.step ⟨now, .finishWriteAndDelete keys tag⟩) := by
  have hinv := foldlRecOn
    (motive := fun acc : FinishWriteDeleteAcc Key Obj => DiscardInv s acc.st acc.goneKeys)
    keys (finishWriteAndDeleteKey now tag) (b := ⟨s, ∅, [], []⟩) ⟨rfl, by simp⟩
    (fun acc hacc key _ => finishWriteAndDeleteKey_inv hacc key)
  have hfreed (objs : List Obj) : TracksAs (free _ objs) (Holds s) :=
    TracksAs.congr_log hs hinv.log
  refine ((hfreed _).reportStagingGone _).tracks_iff.mpr fun k => ?_
  rw [holds_reportStagingGone]
  exact (hinv.holds k).symm

lemma tracks_reserveWrite (temps : List Bool) (tag : String) (alloc : AllocOutcome Obj) :
    Tracks (s.step ⟨now, .reserveWrite keys temps tag alloc⟩) := by
  have hloop := reserveWrite_loop_inv s now tag (keys.zip temps)
  simp only [step, reserveWrite]
  split
  · rename_i hres
    split at hres
    · cases hres
    split at hres
    · -- nothing allocated, nothing reported
      cases hres
      exact (TracksAs.congr_log hs hloop.log).tracks_iff.mpr fun k => (hloop.holds k).symm
    · cases hres
      have hinv : StagedInv s (allocateAndStage now tag alloc _) := allocateAndStage_inv hloop
      refine ((TracksAs.congr_log hs hinv.log).report _).tracks_iff.mpr fun k => ?_
      exact (hinv.holds k).symm
  · exact hs

end Writing

/-! ## Deleting -/

section Deleting

variable {now : Int} {force : Bool}

lemma mem_reclaimStaging_ne {k key : Key} (hk : k ≠ key) :
    k ∈ (s.reclaimStaging now key force).2.staging ↔ k ∈ s.staging := by
  simp only [mem_staging_iff, reclaimStaging_getStaging, hk, if_false]

lemma deleteKey_inv {acc : DeleteAcc Key Obj}
    (h : DiscardInv s acc.st (acc.successfulKeys ++ acc.goneKeys)) (key : Key) :
    DiscardInv s (deleteKey now force acc key).st
      ((deleteKey now force acc key).successfulKeys ++ (deleteKey now force acc key).goneKeys) := by
  unfold deleteKey
  dsimp only
  split
  · exact ⟨h.log, h.holds⟩
  rename_i hexists
  have hkey : Holds acc.st key := by
    rw [not_and_or, not_not] at hexists
    refine hexists.imp (fun hsome => Dict.mem_iff_get?.mpr ?_) id
    exact Option.ne_none_iff_exists'.mp (by simpa using hsome)
  have hlog : (acc.st.reclaimStaging now key force).2.log = s.log := by
    rw [reclaimStaging_log, h.log]
  -- the other keys, before and after this round
  have hother : ∀ k ≠ key, Holds (acc.st.reclaimStaging now key force).2 k ↔
      Holds s k ∧ k ∉ acc.successfulKeys ++ acc.goneKeys := by
    intro k hk
    rw [← h.holds]
    unfold Holds
    rw [reclaimStaging_objects, mem_reclaimStaging_ne hk]
  have hstays : ∀ k, (k = key → Holds (acc.st.reclaimStaging now key force).2 k) →
      (Holds (acc.st.reclaimStaging now key force).2 k ↔
        Holds s k ∧ k ∉ acc.successfulKeys ++ acc.goneKeys) := by
    intro k hk
    by_cases hkk : k = key
    · exact iff_of_true (hk hkk) (hkk ▸ (h.holds key).mp hkey)
    · exact hother k hkk
  split
  · rename_i hstg
    exact ⟨hlog, fun k => hstays k fun hk => .inr (by rw [hk]; exact hstg)⟩
  rename_i hstg
  split
  · rename_i hnone
    refine ⟨hlog, fun k => ?_⟩
    by_cases hk : k = key
    · subst hk
      refine iff_of_false ?_ (by simp)
      rintro (hres | hres)
      · rw [reclaimStaging_objects] at hres
        exact Dict.not_mem_iff_get?.mpr hnone hres
      · exact hstg hres
    · rw [hother k hk]
      simp [hk]
  rename_i e he
  split
  · refine ⟨hlog, fun k => hstays k fun hk => .inl ?_⟩
    rw [reclaimStaging_objects, hk]
    exact Dict.mem_iff_get?.mpr ⟨e, he⟩
  · refine ⟨hlog, fun k => ?_⟩
    by_cases hk : k = key
    · subst hk
      refine iff_of_false ?_ (by simp)
      rintro (hres | hres)
      · exact (Dict.mem_erase.mp hres).1 rfl
      · exact hstg hres
    · have herase : Holds { (acc.st.reclaimStaging now key force).2 with
          objects := (acc.st.reclaimStaging now key force).2.objects.erase key } k ↔
          Holds (acc.st.reclaimStaging now key force).2 k := by
        unfold Holds
        rw [Dict.mem_erase]
        simp [hk]
      rw [herase, hother k hk]
      simp [hk]

lemma tracks_delete (hs : Tracks s) (keys : List Key) (force : Bool) :
    Tracks (s.step ⟨now, .delete keys force⟩) := by
  have hinv := foldlRecOn
    (motive := fun acc : DeleteAcc Key Obj =>
      DiscardInv s acc.st (acc.successfulKeys ++ acc.goneKeys))
    keys (deleteKey now force) (b := ⟨s, ∅, [], [], []⟩) ⟨rfl, by simp⟩
    (fun acc hacc key _ => deleteKey_inv hacc key)
  have hfreed (objs : List Obj) : TracksAs (free _ objs) (Holds s) :=
    TracksAs.congr_log hs hinv.log
  refine (((hfreed _).report _).reportStagingGone _).tracks_iff.mpr fun k => ?_
  rw [holds_reportStagingGone]
  refine Iff.trans ?_ (hinv.holds k).symm
  rw [mem_append, not_or, ← and_assoc]
  rfl

/-- The reclaim loop of `clear` filters the staging entries of its keys. -/
lemma clearStaging_loop (force : Bool) (gone : Nat → L1State Key Obj → Key → Bool)
    (keys : List Key) (acc : L1State Key Obj × List Key) :
    (keys.foldl (clearStagingKey now force gone) acc).1.log = acc.1.log ∧
    (keys.foldl (clearStagingKey now force gone) acc).1.objects = acc.1.objects ∧
    ∀ k t, (keys.foldl (clearStagingKey now force gone) acc).1.getStaging k t = if k ∈ keys then
      (acc.1.getStaging k t).filter (fun e => e.writeLock.isLocked now && !force)
      else acc.1.getStaging k t := by
  induction keys generalizing acc with
  | nil => simp
  | cons key keys ih =>
    obtain ⟨hlog, hobjects, hstg⟩ := ih (clearStagingKey now force gone acc key)
    refine ⟨hlog.trans (reclaimStaging_log ..), hobjects.trans (reclaimStaging_objects ..),
      fun k t => (hstg k t).trans ?_⟩
    simp only [clearStagingKey, reclaimStaging_getStaging, mem_cons]
    by_cases hk : k = key
    · subst hk
      simp only [true_or]
      split
      · simp
      · rfl
    · simp [hk]

/-- One round of the plain `clear` on a staged key: it is reported when it
has left both tables. -/
lemma clearStagingKey_gone {acc : L1State Key Obj × List Key} {key : Key}
    (hkey : key ∈ acc.1.staging) (k : Key) : k ∈ (clearStagingKey now false goneKey acc key).2 ↔
      k ∈ acc.2 ∨ k = key ∧ key ∉ (clearStagingKey now false goneKey acc key).1.staging ∧
      key ∉ acc.1.objects := by
  -- freeing nothing would leave the key staged
  have hcount : key ∉ (acc.1.reclaimStaging now key false).2.staging →
      (acc.1.reclaimStaging now key false).1 ≠ 0 := by
    intro hgone hzero
    rw [(reclaimStaging_frame _ _ _).2.2 hzero] at hgone
    exact hgone hkey
  simp only [clearStagingKey, goneKey, reclaimStaging_objects, Bool.and_eq_true, decide_eq_true_eq]
  split_ifs with hcond
  · simp [hcond.1.2, hcond.2]
  · refine (or_iff_left ?_).symm
    rintro ⟨-, hstg, hobj⟩
    exact hcond ⟨⟨hcount hstg, hstg⟩, hobj⟩

variable (keys : List Key)

lemma clearStaging_loop_gone (hnd : keys.Nodup) (acc : L1State Key Obj × List Key)
    (hkeys : ∀ key ∈ keys, key ∈ acc.1.staging) (k : Key) :
    k ∈ (keys.foldl (clearStagingKey now false goneKey) acc).2 ↔ k ∈ acc.2 ∨ k ∈ keys ∧
      k ∉ (keys.foldl (clearStagingKey now false goneKey) acc).1.staging ∧ k ∉ acc.1.objects := by
  induction keys generalizing acc with
  | nil => simp
  | cons key keys ih =>
    rw [nodup_cons] at hnd
    have hrest : ∀ j ∈ keys, j ∈ (clearStagingKey now false goneKey acc key).1.staging := by
      intro j hj
      have hne : j ≠ key := fun h => hnd.1 (h ▸ hj)
      exact (mem_reclaimStaging_ne hne).mpr (hkeys j (mem_cons_of_mem _ hj))
    have hobjects : (clearStagingKey now false goneKey acc key).1.objects = acc.1.objects :=
      reclaimStaging_objects ..
    rw [foldl_cons, ih hnd.2 _ hrest, clearStagingKey_gone (hkeys key mem_cons_self), hobjects]
    by_cases hk : k = key
    · subst hk
      -- the rest of the loop does not touch this key
      have hsame : k ∈ (keys.foldl (clearStagingKey now false goneKey)
          (clearStagingKey now false goneKey acc k)).1.staging ↔
          k ∈ (clearStagingKey now false goneKey acc k).1.staging := by
        simp only [mem_staging_iff, (clearStaging_loop false goneKey keys _).2.2, hnd.1, if_false]
      rw [hsame]
      simp [hnd.1]
    · simp [hk]

variable {gone : Nat → L1State Key Obj → Key → Bool} {st : L1State Key Obj}

lemma mem_clearStaging (k : Key) : k ∈ (clearStaging now force gone st).1.staging ↔
      ∃ t e, st.getStaging k t = some e ∧ (e.writeLock.isLocked now && !force) := by
  rw [mem_staging_iff]
  refine exists_congr fun t => exists_congr fun e => ?_
  rw [clearStaging, (clearStaging_loop force gone _ _).2.2]
  split_ifs with hk
  · exact Option.filter_eq_some_iff
  · have hnone : st.getStaging k t = none := not_mem_iff_get?.mp hk t
    simp [hnone]

lemma clearStaging_log : (clearStaging now force gone st).1.log = st.log :=
  (clearStaging_loop force gone _ _).1

lemma clearStaging_objects : (clearStaging now force gone st).1.objects = st.objects :=
  (clearStaging_loop force gone _ _).2.1

lemma tracks_clearForced (hs : Tracks s) : Tracks (clearForced now s) := by
  have hcleared : TracksAs ({ s.free (s.objects.values.map L1ObjectState.memoryObj) with
      objects := ∅ } : L1State Key Obj) (Holds s) := TracksAs.congr_log hs rfl
  refine (((hcleared.report _).congr_log clearStaging_log).reportStagingGone
    _).tracks_iff.mpr fun k => ?_
  rw [holds_reportStagingGone]
  refine iff_of_false ?_ ?_
  · rintro ⟨⟨hres | hstg, hnot⟩, hgone⟩
    · exact hnot hres
    · exact hgone (mem_filter.mpr ⟨hstg, decide_eq_true hnot⟩)
  · rintro (hres | hstg)
    · rw [clearStaging_objects] at hres
      exact Dict.not_mem_empty k hres
    · obtain ⟨t, e, -, hlive⟩ := (mem_clearStaging k).mp hstg
      simp at hlive

lemma tracksAs_clearUnlocked (objs : List Obj) (hs : Tracks s) :
    TracksAs (if keys.isEmpty then { s with objects := keys.foldl Dict.erase s.objects }
      else ({ s with objects := keys.foldl Dict.erase s.objects } :
      L1State Key Obj).freeAndReportDeleted keys objs) (fun k => Holds s k ∧ k ∉ keys) := by
  split_ifs with hempty
  · rw [List.isEmpty_iff] at hempty
    intro k
    simp [hs k, hempty]
  · have hdropped : TracksAs ({ s with objects := keys.foldl Dict.erase s.objects } :
        L1State Key Obj) (Holds s) := hs
    exact hdropped.report [.notice (.deletedByManager keys), .event (.keysEvicted keys)]

lemma tracks_clearUnlocked_iff (hs : Tracks s) :
    Tracks (clearUnlocked now s) ↔ KeepsTracking s ⟨now, .clear false⟩ := by
  unfold clearUnlocked
  dsimp only
  generalize hkeys : (s.objects.entries.filter (fun p => !p.2.readLock.isLocked now)).map
    Prod.fst = keys
  generalize (s.objects.entries.filter (fun p => !p.2.readLock.isLocked now)).map
    (fun p => p.2.memoryObj) = objs
  have hmem : ∀ k, k ∈ keys ↔ ∃ e, s.objects.get? k = some e ∧ e.readLock.isLocked now = false := by
    simp [← hkeys, Dict.mem_entries]
  have htracks := tracksAs_clearUnlocked keys objs hs
  generalize hst : (if keys.isEmpty then { s with objects := keys.foldl Dict.erase s.objects }
      else ({ s with objects := keys.foldl Dict.erase s.objects } :
        L1State Key Obj).freeAndReportDeleted keys objs) = st at htracks
  have hobjects : ∀ k, k ∈ st.objects ↔ k ∈ s.objects ∧ k ∉ keys := by
    intro k
    rw [← Dict.mem_foldl_erase, ← hst]
    split <;> rfl
  have hstaging : st.staging = s.staging := by
    rw [← hst]
    split <;> rfl
  have hlive : ∀ k, k ∈ (clearStaging now false goneKey st).1.staging ↔
      ∃ t e, s.getStaging k t = some e ∧ e.writeLock.isLocked now := by
    intro k
    rw [mem_clearStaging]
    simp [getStaging, hstaging]
  have hgone : ∀ k, k ∈ (clearStaging now false goneKey st).2 ↔
      k ∈ s.staging ∧ k ∉ (clearStaging now false goneKey st).1.staging ∧ k ∉ st.objects := by
    intro k
    refine (clearStaging_loop_gone _ st.staging.outer.nodup (st, []) (fun _ h => h) k).trans ?_
    rw [← hstaging]
    simp only [not_mem_nil, false_or]
    rfl
  refine ((htracks.congr_log clearStaging_log).reportStagingGone _).tracks_iff.trans ?_
  simp only [holds_reportStagingGone]
  simp only [Holds, clearStaging_objects, hgone, hobjects]
  constructor
  · intro h k e he hunlocked t e' he'
    by_contra hlocked
    have hkey : k ∈ keys := (hmem k).mpr ⟨e, he, hunlocked⟩
    have hstays := (h k).mpr (.inr ((hlive k).mpr ⟨t, e', he', by simpa using hlocked⟩))
    exact hstays.1.2 hkey
  · intro hkeep k
    constructor
    · rintro ⟨⟨hres | hstg, hnot⟩, hstill⟩
      · exact .inl ⟨hres, hnot⟩
      · by_contra hgone
        rw [not_or] at hgone
        exact hstill ⟨hstg, hgone.2, hgone.1⟩
    · rintro (⟨hres, hnot⟩ | hstg)
      · exact ⟨⟨.inl hres, hnot⟩, fun h => h.2.2 ⟨hres, hnot⟩⟩
      · obtain ⟨t, e, he, hl⟩ := (hlive k).mp hstg
        refine ⟨⟨.inr (mem_staging_iff.mpr ⟨t, e, he⟩), fun hkey => ?_⟩, fun h => h.2.1 hstg⟩
        obtain ⟨r, hr, hunlocked⟩ := (hmem k).mp hkey
        rw [hkeep k r hr hunlocked t e he] at hl
        cases hl

end Deleting

/-! ## Runs -/

section Runs

/-- One call keeps the policy in step with the tables exactly when it
reports no key as deleted that is still staged. -/
lemma tracks_step_iff (hs : Tracks s) (c : L1Call Key Obj) :
    Tracks (s.step c) ↔ KeepsTracking s c := by
  obtain ⟨now, op⟩ := c
  cases op with
  | reserveRead keys n => exact iff_of_true (tracks_reserveRead hs keys n) trivial
  | unsafeRead keys => exact iff_of_true hs trivial
  | finishRead keys n => exact tracks_finishRead_iff hs keys n
  | reserveWrite keys temps tag alloc =>
    exact iff_of_true (tracks_reserveWrite hs keys temps tag alloc) trivial
  | finishWrite keys tag => exact iff_of_true (tracks_finishWrite hs keys tag) trivial
  | finishWriteAndReserveRead keys n tag =>
    exact iff_of_true (tracks_finishWriteAndReserveRead hs keys n tag) trivial
  | finishWriteAndDelete keys tag =>
    exact iff_of_true (tracks_finishWriteAndDelete hs keys tag) trivial
  | delete keys force => exact iff_of_true (tracks_delete hs keys force) trivial
  | clear force =>
    cases force with
    | true => exact iff_of_true (tracks_clearForced hs) trivial
    | false => exact tracks_clearUnlocked_iff hs
  | touchKeys keys hasSubscribers =>
    refine iff_of_true ?_ trivial
    have hreport := TracksAs.report hs
      (.notice (.accessed keys) :: if hasSubscribers then [.event (.keysAccessed keys)] else [])
    cases hasSubscribers <;> exact hreport

omit [DecidableEq Obj] in
lemma tracks_init (config : L1ManagerConfig) : Tracks (init config : L1State Key Obj) := by
  intro k
  refine iff_of_false (LRUEvictionPolicy.not_mem_empty k) ?_
  rintro (h | h)
  · exact Dict.not_mem_empty k h
  · exact Dict.not_mem_empty k h

/-- With the LRU policy attached to a fresh manager, the policy tracks
exactly the keys that occupy memory in every state of a run if and only if
no call of the run reports a key as deleted that is still staged. -/
theorem tracks_iff_keepsTracking (config : L1ManagerConfig) (calls : List (L1Call Key Obj)) :
    (∀ n, Tracks (run step (.init config) (calls.take n))) ↔
      Along step KeepsTracking (.init config) calls := by
  have hok : Along step (fun _ _ => True) (.init config) calls :=
    along_of_forall (fun _ _ => trivial) _ _
  refine good_iff_along Tracks ?_ ?_ ?_ (tracks_init config) hok
  · exact fun s hs => hs
  · exact fun s c hs _ hkeep => (tracks_step_iff hs c).mpr hkeep
  · exact fun s c hs _ hgood => (tracks_step_iff hs c).mp hgood

/-- Two tags stage key `7` as temporary; one of them is read. -/
def twoTemporaries : List (L1Call Nat Nat) :=
  [⟨0, .reserveWrite [7] [true] "a" ⟨.success, [(100, 8)]⟩⟩,
   ⟨1, .reserveWrite [7] [true] "b" ⟨.success, [(101, 8)]⟩⟩,
   ⟨2, .finishWriteAndReserveRead [7] 1 "a"⟩]

theorem twoTemporaries_tracked :
    Tracks (run step (.init ⟨600, 300⟩) (twoTemporaries.take 3)) := by
  exact (tracks_iff_keepsTracking ⟨600, 300⟩ twoTemporaries).mpr
    ⟨trivial, trivial, trivial, trivial⟩ 3

/-- The reader of the first object finishes: the policy forgets key `7`,
which the second tag stages and then makes resident. -/
theorem twoTemporaries_untracked :
    Along step (fun s c => c.op.AllocatorHonest s) (.init ⟨600, 300⟩ : L1State Nat Nat)
      (twoTemporaries ++ [⟨3, .finishRead [7] 1⟩, ⟨4, .finishWrite [7] "b"⟩]) ∧
    ¬ Tracks (run step (.init ⟨600, 300⟩) (twoTemporaries ++ [⟨3, .finishRead [7] 1⟩])) ∧
    ¬ Tracks (run step (.init ⟨600, 300⟩)
      (twoTemporaries ++ [⟨3, .finishRead [7] 1⟩, ⟨4, .finishWrite [7] "b"⟩])) := by
  refine ⟨?_, fun h => ?_, fun h => ?_⟩
  · exact ⟨fun _ => ⟨by decide, by decide, by decide⟩, fun _ => ⟨by decide, by decide, by decide⟩,
      trivial, trivial, trivial, trivial⟩
  · exact absurd ((h 7).mpr (.inr (by decide))) (by decide)
  · exact absurd ((h 7).mpr (.inl (by decide))) (by decide)

end Runs

end LMCache.EvictionPolicy
