/-
LMCache.L1Manager.EventReplay — what a subscriber knows that follows only
the manager's published events.

`replay` is the subscriber: a write-finished event adds its keys, an
eviction event removes its keys. It is compared with the resident map after
every call. Each method publishes by hand, so each is looked at once
(`Published`): a key that leaves the resident map is evicted in an event of
the same call, whichever method dropped it, and a key that enters it is
announced by `finish_write` alone.

Two kinds of resident objects are therefore never replayed:

* those `finish_write_and_reserve_read` admitted. They have an event of
  their own and are followed here by `Followed.prefetched`;
* temporary ones. `finish_write` admits them like the others and leaves them
  out of the announcement, since they are staging buffers of the reader.
-/
import LMCache.EvictionPolicy.Tracking
import LMCache.L1Manager.Ownership

namespace LMCache.L1Manager

open Lib Native EvictionPolicy L1State Dict

variable {Key Obj : Type} [DecidableEq Key] [DecidableEq Obj]

/-! ## The subscriber -/

/-- One report as the subscriber takes it; callbacks do not reach it. -/
def replayReport (present : List Key) : Report Key → List Key
  | .event (.writeFinished keys) => present ++ keys
  | .event (.keysEvicted keys) => present.filter (· ∉ keys)
  | _ => present

/-- The keys the subscriber believes resident after a log. -/
def replay (log : List (Report Key)) : List Key := log.foldl replayReport []

section

omit [DecidableEq Obj]

variable (s : L1State Key Obj)

lemma replay_report (rs : List (Report Key)) :
    replay (s.report rs).log = rs.foldl replayReport (replay s.log) :=
  List.foldl_append

@[simp] lemma replay_reportReadReserved (keys : List Key) :
    replay (s.reportReadReserved keys).log = replay s.log :=
  replay_report s _

@[simp] lemma replay_reportStagingGone (keys : List Key) :
    replay (s.reportStagingGone keys).log = replay s.log := by
  unfold reportStagingGone
  split
  · rfl
  · exact replay_report s _

end

@[simp] lemma mem_replay_freeAndReportDeleted {s : L1State Key Obj} {keys : List Key}
    {objs : List Obj} {key : Key} :
    key ∈ replay (s.freeAndReportDeleted keys objs).log ↔ key ∈ replay s.log ∧ key ∉ keys := by
  unfold freeAndReportDeleted
  rw [replay_report]
  simp [replayReport, free]

/-! ## Following the manager -/

/-- Whether the object resident under a key is temporary. -/
def L1State.residency (s : L1State Key Obj) (key : Key) : Option Bool :=
  (s.objects.get? key).map L1ObjectState.isTemporary

/-- The call makes keys resident as prefetched objects. -/
def L1Op.prefetches : L1Op Key Obj → Bool
  | .finishWriteAndReserveRead .. => true
  | _ => false

/-- The manager, and the keys whose resident object came in read-locked from
a prefetch. -/
structure Followed (Key Obj : Type) [DecidableEq Key] where
  st : L1State Key Obj
  prefetched : List Key

section

variable (config : L1ManagerConfig)

def Followed.init : Followed Key Obj := ⟨.init config, []⟩

/-- A key that was resident stays what it was, a new one is prefetched when
the call is a prefetch's. -/
def Followed.step (f : Followed Key Obj) (c : L1Call Key Obj) : Followed Key Obj where
  st := f.st.step c
  prefetched := (f.st.step c).objects.keys.filter
    (fun key => if key ∈ f.st.objects then decide (key ∈ f.prefetched) else c.op.prefetches)

/-- What one call does to the resident map and tells the subscriber. -/
structure Published (prefetches : Bool) (s s' : L1State Key Obj) : Prop where
  /-- a resident object stays as it is, or is evicted in an event -/
  resident : ∀ key temp, s.residency key = some temp →
    s'.residency key = some temp ∧ (key ∈ replay s'.log ↔ key ∈ replay s.log) ∨
    s'.residency key = none ∧ key ∉ replay s'.log
  /-- a permanent object that is not prefetched is announced when admitted -/
  absent : ∀ key, s.residency key = none → key ∉ replay s.log →
    (key ∈ replay s'.log ↔ s'.residency key = some false ∧ prefetches = false)

section Calls

variable {s s' : L1State Key Obj} {now : Int} {prefetches : Bool}

section

omit [DecidableEq Obj]

lemma mem_objects_iff_residency {key : Key} :
    key ∈ s.objects ↔ ∃ temp, s.residency key = some temp := by
  unfold residency
  rw [mem_iff_get?]
  cases s.objects.get? key <;> simp

lemma not_mem_objects_iff_residency {key : Key} : key ∉ s.objects ↔ s.residency key = none := by
  rw [mem_objects_iff_residency]
  cases s.residency key <;> simp

/-- A call that only evicts, and says so. -/
lemma Published.of_evicted (gone : List Key)
    (hres : ∀ key, s'.residency key = if key ∈ gone then none else s.residency key)
    (hreplay : ∀ key, key ∈ replay s'.log ↔ key ∈ replay s.log ∧ key ∉ gone) :
    Published prefetches s s' where
  resident key temp htemp := by
    rw [hres, hreplay]
    by_cases hgone : key ∈ gone <;> simp [hgone, htemp]
  absent key hnone hnot := by
    rw [hres, hreplay]
    simp [hnone, hnot]

/-- A call that leaves the resident keys alone and publishes nothing about
them. -/
lemma Published.of_quiet (hres : ∀ key, s'.residency key = s.residency key)
    (hreplay : replay s'.log = replay s.log) : Published prefetches s s' :=
  .of_evicted [] (by simpa using hres) (by simp [hreplay])

end

/-! ### Reading -/

variable (keys : List Key)

lemma published_reserveRead (n : Int) :
    Published prefetches s (s.step ⟨now, .reserveRead keys n⟩) := by
  refine .of_quiet (fun key => ?_) ?_
  · unfold residency
    rw [reserveRead_get?, Option.map_map]
    rfl
  · have hlog := (reserveRead_loop_frame now (validateReadLocks n) keys
      (⟨s, ∅, []⟩ : ReserveReadAcc Key Obj)).2
    simp only [step, reserveRead, replay_reportReadReserved, hlog]

omit [DecidableEq Obj] in
lemma afterFinish_isTemporary {count : Nat} {e e' : L1ObjectState Obj}
    (h : e.afterFinish now count = some e') : e'.isTemporary = e.isTemporary := by
  unfold L1ObjectState.afterFinish at h
  split at h
  · split at h
    · cases h
    · cases h
      rfl
  · cases h
    rfl

lemma published_finishRead (n : Int) :
    Published prefetches s (s.step ⟨now, .finishRead keys n⟩) := by
  have hinv := finishRead_loop_inv s now (validateReadLocks n) keys
  refine .of_evicted (keys.foldl (finishReadKey now (validateReadLocks n))
    ⟨s, ∅, [], [], []⟩).needToFreeKeys (fun key => ?_) (fun key => ?_)
  · -- the freed keys are those that were resident and no longer are
    have hget := finishRead_get? now keys n s key
    split
    · rename_i hfreed
      exact not_mem_objects_iff_residency.mp ((hinv.freed key).mp hfreed).2
    · rename_i hstays
      rw [hinv.freed] at hstays
      unfold residency
      cases he : s.objects.get? key with
      | none => simp [hget, he]
      | some e =>
        have hmem : key ∈ (s.step ⟨now, .finishRead keys n⟩).objects :=
          not_not.mp fun hgone => hstays ⟨mem_iff_get?.mpr ⟨e, he⟩, hgone⟩
        obtain ⟨e', he'⟩ := mem_iff_get?.mp hmem
        rw [he'] at hget ⊢
        rw [he] at hget
        simp [afterFinish_isTemporary hget.symm]
  · simp only [step, finishRead, replay_report]
    simp [replayReport, free, hinv.log]

/-! ### Writing -/

variable (tag : String)

lemma allocateAndStage_objects (now : Int) (tag : String) (alloc : AllocOutcome Obj)
    (acc : ReserveWriteAcc Key Obj) :
    (allocateAndStage now tag alloc acc).st.objects = acc.st.objects := by
  unfold allocateAndStage
  split
  · rfl
  · exact foldl_frame (f := stageAllocated now tag) (·.st.objects) (fun _ _ => rfl) _ _

lemma published_reserveWrite (temps : List Bool) (tag : String) (alloc : AllocOutcome Obj) :
    Published prefetches s (s.step ⟨now, .reserveWrite keys temps tag alloc⟩) := by
  have hobjects := (reserveWrite_loop now tag (keys.zip temps) ⟨s, ∅, [], []⟩).1
  have hloop := reserveWrite_loop_inv s now tag (keys.zip temps)
  suffices hframe : (s.step ⟨now, .reserveWrite keys temps tag alloc⟩).objects = s.objects ∧
      replay (s.step ⟨now, .reserveWrite keys temps tag alloc⟩).log = replay s.log by
    exact .of_quiet (fun key => by rw [residency, hframe.1]; rfl) hframe.2
  simp only [step, reserveWrite]
  split
  · rename_i hres
    split at hres
    · cases hres
    split at hres
    · cases hres
      exact ⟨hobjects, congrArg replay hloop.log⟩
    · cases hres
      refine ⟨(allocateAndStage_objects ..).trans hobjects, ?_⟩
      rw [replay_report, (allocateAndStage_inv hloop).log]
      rfl
  · exact ⟨rfl, rfl⟩

/-- What the loop of `finish_write` has admitted so far, and will announce. -/
structure AdmittedInv (s : L1State Key Obj) (acc : FinishWriteAcc Key Obj) : Prop where
  log : acc.st.log = s.log
  kept : ∀ key temp, s.residency key = some temp → acc.st.residency key = some temp
  notified : ∀ key, key ∈ acc.notificationKeys ↔
    s.residency key = none ∧ acc.st.residency key = some false

omit [DecidableEq Obj] in
lemma AdmittedInv.body {tag : String} {acc : FinishWriteAcc Key Obj} (h : AdmittedInv s acc)
    (key : Key) : AdmittedInv s (finishWriteKey now tag acc key) := by
  unfold finishWriteKey
  obtain ⟨e, -, -, htake⟩ | ⟨err, -, htake, -⟩ := takeStaging_cases acc.st now key tag
  · simp only [htake]
    split
    · exact ⟨h.log, h.kept, h.notified⟩
    rename_i hnew
    have habsent : acc.st.residency key = none := not_mem_objects_iff_residency.mp hnew
    have hset (k : Key) : ((acc.st.popped key tag e).setObject key e.taken).residency k
        = if k = key then some e.isTemporary else acc.st.residency k := by
      unfold residency setObject
      rw [get?_set]
      split <;> rfl
    refine ⟨h.log, fun k temp htemp => (hset k).trans ?_, fun k => ?_⟩
    · rw [if_neg fun hk => ?_]
      · exact h.kept k temp htemp
      · rw [hk] at htemp
        simp [h.kept key temp htemp] at habsent
    · have hbefore : s.residency key = none := by
        cases htemp : s.residency key with
        | none => rfl
        | some temp => simp [h.kept key temp htemp] at habsent
      refine Iff.trans ?_ (and_congr_right fun _ => iff_of_eq (congrArg (· = some false) (hset k))).symm
      by_cases hk : k = key
      · subst hk
        have hnot : k ∉ acc.notificationKeys := by simp [h.notified, habsent]
        cases htemp : e.isTemporary <;> simp [L1ObjectState.taken, htemp, hbefore, hnot]
      · rw [if_neg hk, ← h.notified]
        split <;> simp [hk]
  · simp only [htake]
    exact ⟨h.log, h.kept, h.notified⟩

lemma published_finishWrite : Published false s (s.step ⟨now, .finishWrite keys tag⟩) := by
  have hinv := List.foldlRecOn (motive := AdmittedInv s) keys (finishWriteKey now tag)
    (b := ⟨s, ∅, [], []⟩) ⟨rfl, fun _ _ h => h, fun key => by cases s.residency key <;> simp⟩
    (fun acc hacc key _ => hacc.body key)
  have hres (key : Key) : (s.step ⟨now, .finishWrite keys tag⟩).residency key
      = (keys.foldl (finishWriteKey now tag) ⟨s, ∅, [], []⟩).st.residency key := by
    simp only [step, finishWrite]
    split <;> rfl
  have hreplay (key : Key) : key ∈ replay (s.step ⟨now, .finishWrite keys tag⟩).log ↔
      key ∈ replay s.log ∨
        key ∈ (keys.foldl (finishWriteKey now tag) ⟨s, ∅, [], []⟩).notificationKeys := by
    simp only [step, finishWrite]
    split
    · rename_i hempty
      simp [List.isEmpty_iff.mp hempty, free, hinv.log]
    · rw [replay_report]
      simp [replayReport, free, hinv.log]
  refine ⟨fun key temp htemp => .inl ?_, fun key hnone hnot => ?_⟩
  · rw [hres, hreplay, hinv.notified, htemp]
    exact ⟨hinv.kept key temp htemp, by simp⟩
  · rw [hres, hreplay, hinv.notified]
    simp [hnone, hnot]

lemma published_finishWriteAndReserveRead (n : Int) (tag : String) :
    Published true s (s.step ⟨now, .finishWriteAndReserveRead keys n tag⟩) := by
  have hreplay : replay (s.step ⟨now, .finishWriteAndReserveRead keys n tag⟩).log
      = replay s.log := by
    have hlog := (finishWriteAndReserveRead_loop_inv s now (validateReadLocks n) tag keys).log
    simp only [step, finishWriteAndReserveRead]
    rw [replay_report]
    split <;> simp [replayReport, free, hlog]
  refine ⟨fun key temp htemp => .inl ⟨?_, by rw [hreplay]⟩, fun key _ hnot => by simp [hreplay, hnot]⟩
  -- a resident object is kept, with more read locks
  unfold residency at htemp ⊢
  obtain ⟨e, he, rfl⟩ := Option.map_eq_some_iff.mp htemp
  rw [finishWriteAndReserveRead_get?, he]
  split
  · split <;> rfl
  · rfl

omit [DecidableEq Obj] in
lemma finishWriteAndDelete_loop_frame (now : Int) (tag : String) (keys : List Key)
    (acc : FinishWriteDeleteAcc Key Obj) :
    (keys.foldl (finishWriteAndDeleteKey now tag) acc).st.objects = acc.st.objects ∧
    (keys.foldl (finishWriteAndDeleteKey now tag) acc).st.log = acc.st.log := by
  induction keys generalizing acc with
  | nil => exact ⟨rfl, rfl⟩
  | cons k keys ih =>
    obtain ⟨hobjects, hlog⟩ := ih (finishWriteAndDeleteKey now tag acc k)
    rw [List.foldl_cons, hobjects, hlog]
    unfold finishWriteAndDeleteKey
    obtain ⟨e, -, -, htake⟩ | ⟨err, -, htake, -⟩ := takeStaging_cases acc.st now k tag
    · simp only [htake]
      exact ⟨rfl, rfl⟩
    · simp only [htake, and_self]

omit [DecidableEq Obj] in
@[simp] lemma residency_reportStagingGone (s : L1State Key Obj) (gone : List Key) (key : Key) :
    (s.reportStagingGone gone).residency key = s.residency key := by
  unfold reportStagingGone
  split <;> rfl

lemma published_finishWriteAndDelete :
    Published prefetches s (s.step ⟨now, .finishWriteAndDelete keys tag⟩) := by
  obtain ⟨hobjects, hlog⟩ := finishWriteAndDelete_loop_frame now tag keys
    (⟨s, ∅, [], []⟩ : FinishWriteDeleteAcc Key Obj)
  simp only [step, finishWriteAndDelete]
  refine .of_quiet (fun key => ?_) ?_
  · rw [residency_reportStagingGone]
    simp only [residency, free, hobjects]
  · rw [replay_reportStagingGone]
    simp only [free, hlog]

/-! ### Deleting -/

/-- What the loop of `delete` has removed so far. -/
structure RemovedInv (s : L1State Key Obj) (acc : DeleteAcc Key Obj) : Prop where
  log : acc.st.log = s.log
  residency : ∀ key, acc.st.residency key
    = if key ∈ acc.successfulKeys then none else s.residency key

lemma RemovedInv.body {force : Bool} {acc : DeleteAcc Key Obj} (h : RemovedInv s acc)
    (key : Key) : RemovedInv s (deleteKey now force acc key) := by
  unfold deleteKey
  dsimp only
  split
  · exact ⟨h.log, h.residency⟩
  have hlog : (acc.st.reclaimStaging now key force).2.log = s.log := by
    rw [reclaimStaging_log, h.log]
  have hsame (k : Key) : (acc.st.reclaimStaging now key force).2.residency k
      = if k ∈ acc.successfulKeys then none else s.residency k := by
    rw [← h.residency, L1State.residency, reclaimStaging_objects]
    rfl
  split
  · exact ⟨hlog, hsame⟩
  split
  · exact ⟨hlog, hsame⟩
  split
  · exact ⟨hlog, hsame⟩
  refine ⟨hlog, fun k => ?_⟩
  simp only [L1State.residency, get?_erase, List.mem_append, List.mem_singleton] at hsame ⊢
  by_cases hk : k = key
  · simp [hk]
  · simp only [hk, or_false]
    exact hsame k

lemma published_delete (force : Bool) :
    Published prefetches s (s.step ⟨now, .delete keys force⟩) := by
  have hinv := List.foldlRecOn (motive := RemovedInv s) keys (deleteKey now force)
    (b := ⟨s, ∅, [], [], []⟩) ⟨rfl, by simp⟩ (fun acc hacc key _ => hacc.body key)
  simp only [step, delete]
  refine .of_evicted (keys.foldl (deleteKey now force) ⟨s, ∅, [], [], []⟩).successfulKeys
    (fun key => ?_) (fun key => ?_)
  · rw [residency_reportStagingGone]
    exact hinv.residency key
  · rw [replay_reportStagingGone, mem_replay_freeAndReportDeleted, hinv.log]

lemma published_clearForced : Published prefetches s (clearForced now s) := by
  unfold clearForced
  refine .of_evicted s.objects.keys (fun key => ?_) (fun key => ?_)
  · rw [residency_reportStagingGone]
    simp only [residency, clearStaging_objects]
    split_ifs with hkey
    · rfl
    · rw [not_mem_iff_get?.mp hkey]
      rfl
  · rw [replay_reportStagingGone, clearStaging_log, replay_report]
    simp [replayReport, free]

lemma published_clearUnlocked : Published prefetches s (clearUnlocked now s) := by
  unfold clearUnlocked
  dsimp only
  generalize (s.objects.entries.filter (fun p => !p.2.readLock.isLocked now)).map Prod.fst = keys
  generalize (s.objects.entries.filter (fun p => !p.2.readLock.isLocked now)).map
    (fun p => p.2.memoryObj) = objs
  refine .of_evicted keys (fun key => ?_) (fun key => ?_)
  · rw [residency_reportStagingGone]
    have hobjects : (if keys.isEmpty then { s with objects := keys.foldl erase s.objects }
        else ({ s with objects := keys.foldl erase s.objects } :
          L1State Key Obj).freeAndReportDeleted keys objs).objects
        = keys.foldl erase s.objects := by
      split <;> rfl
    simp only [residency, clearStaging_objects, hobjects, get?_foldl_erase]
    split <;> rfl
  · rw [replay_reportStagingGone, clearStaging_log]
    split_ifs with hempty
    · simp [List.isEmpty_iff.mp hempty]
    · exact mem_replay_freeAndReportDeleted

lemma step_published (s : L1State Key Obj) (c : L1Call Key Obj) :
    Published c.op.prefetches s (s.step c) := by
  obtain ⟨now, op⟩ := c
  cases op with
  | reserveRead keys n => exact published_reserveRead keys n
  | unsafeRead keys => exact .of_quiet (fun _ => rfl) rfl
  | finishRead keys n => exact published_finishRead keys n
  | reserveWrite keys temps tag alloc => exact published_reserveWrite keys temps tag alloc
  | finishWrite keys tag => exact published_finishWrite keys tag
  | finishWriteAndReserveRead keys n tag => exact published_finishWriteAndReserveRead keys n tag
  | finishWriteAndDelete keys tag => exact published_finishWriteAndDelete keys tag
  | delete keys force => exact published_delete keys force
  | clear force =>
    cases force with
    | true => exact published_clearForced
    | false => exact published_clearUnlocked
  | touchKeys keys hasSubscribers =>
    refine .of_quiet (fun _ => rfl) ((replay_report s _).trans ?_)
    cases hasSubscribers <;> rfl

end Calls

/-! ## Runs -/

/-- The subscriber knows the permanent objects that were not prefetched. -/
def Followed.Replayed (f : Followed Key Obj) : Prop :=
  ∀ key, key ∈ replay f.st.log ↔ f.st.residency key = some false ∧ key ∉ f.prefetched

lemma Followed.mem_prefetched_step {f : Followed Key Obj} {c : L1Call Key Obj} {key : Key} :
    key ∈ (f.step c).prefetched ↔ key ∈ (f.st.step c).objects ∧
      if key ∈ f.st.objects then key ∈ f.prefetched else c.op.prefetches := by
  unfold Followed.step
  rw [List.mem_filter, mem_keys]
  split <;> simp

lemma Followed.Replayed.step {f : Followed Key Obj} (h : f.Replayed) (c : L1Call Key Obj) :
    (f.step c).Replayed := by
  intro key
  have hpub := step_published f.st c
  have hstep : (f.step c).st = f.st.step c := rfl
  rw [mem_prefetched_step, hstep]
  cases htemp : f.st.residency key with
  | none =>
    have hnew : key ∉ f.st.objects := not_mem_objects_iff_residency.mpr htemp
    have hnot : key ∉ replay f.st.log := by simp [h key, htemp]
    rw [hpub.absent key htemp hnot, if_neg hnew]
    refine and_congr_right fun hres => ?_
    simp [mem_objects_iff_residency, hres]
  | some temp =>
    have hold : key ∈ f.st.objects := mem_objects_iff_residency.mpr ⟨temp, htemp⟩
    rw [if_pos hold]
    obtain ⟨hres, hreplay⟩ | ⟨hres, hreplay⟩ := hpub.resident key temp htemp
    · have hstays : key ∈ (f.st.step c).objects := mem_objects_iff_residency.mpr ⟨temp, hres⟩
      rw [hreplay, h key, htemp, hres]
      simp [hstays]
    · simp [hres, hreplay]

variable (calls : List (L1Call Key Obj))

lemma run_replayed : (run Followed.step (.init config) calls).Replayed := by
  refine List.foldlRecOn (motive := Followed.Replayed) calls Followed.step ?_
    (fun f hf c _ => hf.step c)
  intro key
  simp [Followed.init, residency, init, replay]

/-- After any calls the published events, replayed in order, give the
resident keys except those made resident as temporary objects or as
read-locked prefetched ones. -/
theorem replay_eq_resident (key : Key) : key ∈ replay (run step (.init config) calls).log ↔
      (∃ e, (run step (.init config) calls).objects.get? key = some e ∧
      e.isTemporary = false) ∧ key ∉ (run Followed.step (.init config) calls).prefetched := by
  have hkey := run_replayed config calls key
  have hst : (run Followed.step (.init config) calls).st = run step (.init config) calls :=
    (List.foldl_hom Followed.st fun _ _ => rfl).symm
  rw [hst] at hkey
  rw [hkey, residency, Option.map_eq_some_iff]

end

/-- A temporary object stored under key 7. -/
def storeTemporary : List (L1Call Nat Nat) :=
  [⟨0, .reserveWrite [7] [true] "staging" ⟨.success, [(70, 8)]⟩⟩, ⟨0, .finishWrite [7] "staging"⟩]

/-- The temporary object is resident, did not come from a prefetch, and the
subscriber never heard of it. -/
theorem storeTemporary_not_replayed : 7 ∈ (run step (.init ⟨10, 10⟩) storeTemporary).objects ∧
    7 ∉ (run Followed.step (.init ⟨10, 10⟩) storeTemporary).prefetched ∧
    7 ∉ replay (run step (.init ⟨10, 10⟩) storeTemporary).log := by
  decide

end LMCache.L1Manager
