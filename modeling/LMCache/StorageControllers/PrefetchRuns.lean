/-
LMCache.StorageControllers.PrefetchRuns — what holds in every state the
prefetch controller reaches.

`Orderly` is the invariant of the controller: the reports made so far are
true, every request in flight is `Flying`, and a request still queued, or not
submitted yet, has left no trace. One step on one request keeps it
(`Orderly.settle`), since a step leaves the other requests alone; so does
every event.
-/
import LMCache.StorageControllers.PrefetchOutcome

namespace LMCache.StorageControllers

open List Lib Native L1Manager
open Dict hiding keys

variable {Key Obj : Type} [DecidableEq Key] [DecidableEq Obj] {env : Environment Key Obj}
  {cfg : PrefetchConfig}

/-! ## Steps -/

section Steps

variable {request : Nat} {spec : PrefetchTaskSpec Key} {l2Adapters : List Nat}
  {w w' : World Key Obj} {outcome : World Key Obj × Option (spec.State)}

lemma Steps.others (h : Steps request cfg spec l2Adapters w outcome) {other : Nat}
    (hne : other ≠ request) : Frame other w outcome.1 := by
  unfold Steps at h
  split at h
  · exact h.1.others other hne
  · exact h.others other hne

lemma Steps.reports (h : Steps request cfg spec l2Adapters w outcome)
    (hw : WellReported w.trace) : WellReported outcome.1.trace := by
  unfold Steps at h
  split at h
  · exact h.1.wellReported hw
  · exact h.reports hw

lemma Flying.frame {r : spec.State}
    (h : Flying request cfg spec l2Adapters w r) (hf : Frame request w w') :
    Flying request cfg spec l2Adapters w' r :=
  ⟨h.owns.frame hf, h.shape, h.attached⟩

end Steps

/-! ## The invariant -/

namespace PrefetchController

/-- The world the controller starts in. -/
def initialWorld (config : Nat → L1ManagerConfig) : World Key Obj :=
  ⟨fun idx => .init (config idx), []⟩

/-- What holds between two steps of the loop, with the requests still waiting
to be started. -/
structure Orderly (cfg : PrefetchConfig) (config : Nat → L1ManagerConfig)
    (queued : List (Nat × PrefetchTaskSpec Key)) (c : PrefetchController Key Obj) : Prop where
  reports : WellReported c.world.trace
  flying : ∀ id request, c.inFlightRequests.get? id = some request →
    Flying id cfg request.spec c.adapters.l2Adapters c.world request.state
  fresh : ∀ id, id ∈ queued.map Prod.fst ∨ c.nextRequestId ≤ id →
    Frame id (initialWorld config) c.world
  nodup : (queued.map Prod.fst).Nodup
  apart : ∀ id ∈ queued.map Prod.fst, id ∉ c.inFlightRequests ∧ id < c.nextRequestId
  known : ∀ id ∈ c.inFlightRequests, id < c.nextRequestId

variable {config : Nat → L1ManagerConfig} {queued : List (Nat × PrefetchTaskSpec Key)}
  {c : PrefetchController Key Obj}

section

section

variable {id : Nat} {w : World Key Obj} (h : Frame id (initialWorld config) w)
include h

lemma silent_of_frame : ∀ a ∈ w.trace, a.requester ≠ some id := by
  obtain ⟨acts, hw, hacts⟩ := h.trace
  rw [hw]
  exact hacts

lemma owns_of_frame {groups : List (GroupedObjectKeys Key)} {m n : Nat} :
    Owns id groups w (.init : RequestState m n) := by
  refine owns_init (silent_of_frame h) (fun hq l1Idx key => ?_) fun hsecure =>
    h.booked hsecure fun l1Idx => books_nil (config l1Idx)
  rw [h.staged hq]
  rfl

end

section

variable {id other : Nat} {spec : PrefetchTaskSpec Key}
  {outcome : World Key Obj × Option (spec.State)}

section

omit [DecidableEq Obj]

lemma get?_settle_self : (c.settle id spec outcome).inFlightRequests.get? id
    = outcome.2.map fun state => ⟨spec, state⟩ := by
  unfold PrefetchController.settle
  cases outcome.2 with
  | none => exact get?_erase_self ..
  | some r => exact get?_set_self ..

lemma get?_settle_ne (hne : other ≠ id) :
    (c.settle id spec outcome).inFlightRequests.get? other = c.inFlightRequests.get? other := by
  unfold PrefetchController.settle
  cases outcome.2 with
  | none => exact get?_erase_ne _ hne
  | some r => exact get?_set_ne _ _ hne

lemma mem_settle_ne (hne : other ≠ id) :
    other ∈ (c.settle id spec outcome).inFlightRequests ↔ other ∈ c.inFlightRequests := by
  rw [mem_iff_get?, mem_iff_get?, get?_settle_ne hne]

end

lemma Orderly.settle (h : Orderly cfg config queued c) (hid : id ∉ queued.map Prod.fst)
    (hlt : id < c.nextRequestId)
    (hsteps : Steps id cfg spec c.adapters.l2Adapters c.world outcome) :
    Orderly cfg config queued (c.settle id spec outcome) := by
  constructor
  · exact hsteps.reports h.reports
  · intro other request hget
    by_cases heq : other = id
    · subst heq
      rw [get?_settle_self] at hget
      obtain ⟨r, hout, rfl⟩ := Option.map_eq_some_iff.mp hget
      unfold Steps at hsteps
      rw [hout] at hsteps
      exact hsteps.2
    · rw [get?_settle_ne heq] at hget
      exact (h.flying other request hget).frame (hsteps.others heq)
  · intro other hother
    have hne : other ≠ id := by
      rintro rfl
      rcases hother with hwaiting | hle
      · exact hid hwaiting
      · exact absurd hlt (not_lt.mpr hle)
    exact (h.fresh other hother).trans (hsteps.others hne)
  · exact h.nodup
  · intro other hother
    have hne : other ≠ id := fun heq => hid (heq ▸ hother)
    rw [mem_settle_ne hne]
    exact h.apart other hother
  · intro other hother
    by_cases heq : other = id
    · exact heq ▸ hlt
    · exact h.known other ((mem_settle_ne heq).mp hother)

end

/-- Changes to the adapters, the world and the queues that concern no request in
flight. -/
lemma Orderly.mono (h : Orderly cfg config queued c) {c' : PrefetchController Key Obj}
    (hrequests : c'.inFlightRequests = c.inFlightRequests)
    (hnext : c'.nextRequestId = c.nextRequestId) (hworld : ∀ id, Frame id c.world c'.world)
    (hreports : WellReported c'.world.trace)
    (hattached : ∀ id, c.adapterInUse id → id ∈ c.adapters.l2Adapters →
      id ∈ c'.adapters.l2Adapters) : Orderly cfg config queued c' where
  reports := hreports
  flying id request hget := by
    rw [hrequests] at hget
    have hflying := (h.flying id request hget).frame (hworld id)
    refine ⟨hflying.owns, hflying.shape, fun adapter hrefs => ?_⟩
    refine hattached adapter (any_eq_true.mpr ⟨request, ?_, hrefs⟩)
      (hflying.attached adapter hrefs)
    exact mem_values.mpr ⟨id, hget⟩
  fresh id hid := by
    rw [hnext] at hid
    exact (h.fresh id hid).trans (hworld id)
  nodup := h.nodup
  apart id hid := by
    rw [hrequests, hnext]
    exact h.apart id hid
  known id hid := by
    rw [hrequests] at hid
    rw [hnext]
    exact h.known id hid

end

/-! ## The loop -/

lemma orderly_advance (h : Orderly cfg config queued c) (lookups loads : List Nat) (id : Nat) :
    Orderly cfg config queued (advance env cfg lookups loads c id) := by
  unfold advance
  split
  · exact h
  · rename_i request hget
    have hmem : id ∈ c.inFlightRequests := mem_iff_get?.mpr ⟨_, hget⟩
    exact h.settle (fun hwaiting => (h.apart id hwaiting).1 hmem) (h.known id hmem)
      (steps_advanceRequest lookups loads (h.flying id request hget))

lemma orderly_startHead {id : Nat} {spec : PrefetchTaskSpec Key}
    (h : Orderly cfg config ((id, spec) :: queued) c) : Orderly cfg config queued
      (c.settle id spec (startLookupPhase env cfg id spec c.adapters c.world)) := by
  have hnodup := nodup_cons.mp h.nodup
  have hhead := h.apart id mem_cons_self
  have hrest : Orderly cfg config queued c :=
    { h with
      fresh := fun other hother => h.fresh other (hother.imp_left (mem_cons_of_mem _))
      nodup := hnodup.2
      apart := fun other hother => h.apart other (mem_cons_of_mem _ hother) }
  exact hrest.settle hnodup.1 hhead.2
    (steps_startLookupPhase (owns_of_frame (h.fresh id (.inl mem_cons_self))))

variable (c) in
/-- The requests waiting to be started. -/
def waiting : List (Nat × PrefetchTaskSpec Key) :=
  c.pendingQueue ++ c.submissionQueue

variable (env cfg) in
/-- The queues of a step on a request are those before. -/
lemma advances_queues (lookups loads ids : List Nat) (c : PrefetchController Key Obj) :
    (ids.foldl (advance env cfg lookups loads) c).pendingQueue = c.pendingQueue ∧
      (ids.foldl (advance env cfg lookups loads) c).submissionQueue = c.submissionQueue := by
  induction ids generalizing c with
  | nil => exact ⟨rfl, rfl⟩
  | cons id ids ih =>
    obtain ⟨hpending, hsubmission⟩ := ih (advance env cfg lookups loads c id)
    have hstep : (advance env cfg lookups loads c id).pendingQueue = c.pendingQueue ∧
        (advance env cfg lookups loads c id).submissionQueue = c.submissionQueue := by
      unfold advance
      split <;> exact ⟨rfl, rfl⟩
    exact ⟨hpending.trans hstep.1, hsubmission.trans hstep.2⟩

variable (env cfg) in
lemma startPendingRequests_submissionQueue :
    ∀ (queue : List (Nat × PrefetchTaskSpec Key)) (c : PrefetchController Key Obj),
    (startPendingRequests env cfg queue c).submissionQueue = c.submissionQueue
  | [], _ => rfl
  | (id, spec) :: queue, c => by
    unfold startPendingRequests
    split
    · exact startPendingRequests_submissionQueue queue _
    · rfl

/-- `Q`, of the requests waiting to be started and the rest of the controller, is
kept by the parts of an iteration. -/
structure Kept (env : Environment Key Obj) (cfg : PrefetchConfig)
    (Q : List (Nat × PrefetchTaskSpec Key) → PrefetchController Key Obj → Prop) : Prop where
  queues : ∀ queued c pendingQueue submissionQueue, Q queued c →
    Q queued { c with pendingQueue, submissionQueue }
  wakeUp : ∀ queued c, Q queued c → Q queued c.wakeUp
  advance : ∀ queued c lookups loads id, Q queued c → Q queued (advance env cfg lookups loads c id)
  startHead : ∀ queued c id spec, Q ((id, spec) :: queued) c →
    Q queued (c.settle id spec (startLookupPhase env cfg id spec c.adapters c.world))
  finalizeDrained : ∀ queued c, Q queued c → Q queued c.finalizeDrained

section

variable {Q : List (Nat × PrefetchTaskSpec Key) → PrefetchController Key Obj → Prop}

lemma Kept.startPendingRequests (hk : Kept env cfg Q) (rest : List (Nat × PrefetchTaskSpec Key)) :
    ∀ (queue : List (Nat × PrefetchTaskSpec Key)) (c : PrefetchController Key Obj),
    Q (queue ++ rest) c → Q ((startPendingRequests env cfg queue c).pendingQueue ++ rest)
      (startPendingRequests env cfg queue c)
  | [], c, h => hk.queues _ c [] c.submissionQueue h
  | (id, spec) :: queue, c, h => by
    unfold PrefetchController.startPendingRequests
    split
    · exact hk.startPendingRequests rest queue _ (hk.startHead _ c id spec h)
    · exact hk.queues _ c _ c.submissionQueue h

lemma Kept.iterate (hk : Kept env cfg Q) (submissionReady : Bool) (lookups loads : List Nat)
    (h : Q c.waiting c) : Q (c.iterate env cfg submissionReady lookups loads).waiting
      (c.iterate env cfg submissionReady lookups loads) := by
  unfold PrefetchController.iterate
  split
  · exact h
  have hdrained : Q (c.wakeUp.drainSubmissionQueue submissionReady).waiting
      (c.wakeUp.drainSubmissionQueue submissionReady) := by
    have hwoken := hk.wakeUp _ c h
    unfold drainSubmissionQueue
    split
    · have hsame : (c.pendingQueue ++ c.submissionQueue) ++ [] = c.waiting := append_nil _
      show Q ((c.pendingQueue ++ c.submissionQueue) ++ []) _
      rw [hsame]
      exact hk.queues _ _ _ [] hwoken
    · exact hwoken
  generalize c.wakeUp.drainSubmissionQueue submissionReady = c at hdrained
  have hadvanced : Q (c.advanceSignaled env cfg lookups loads).waiting
      (c.advanceSignaled env cfg lookups loads) := by
    unfold advanceSignaled
    dsimp only
    split
    · exact hdrained
    · obtain ⟨hpending, hsubmission⟩ := advances_queues env cfg
        (lookups.filter fun idx => decide (idx ∈ c.adapters.l2Adapters))
        (loads.filter fun idx => decide (idx ∈ c.adapters.l2Adapters)) c.inFlightRequests.keys c
      rw [waiting, hpending, hsubmission]
      exact run_always (Q c.waiting) (fun c id => hk.advance _ c _ _ id) hdrained _
  generalize c.advanceSignaled env cfg lookups loads = c at hadvanced
  have hstarted := hk.startPendingRequests c.submissionQueue c.pendingQueue c hadvanced
  rw [← startPendingRequests_submissionQueue env cfg c.pendingQueue c] at hstarted
  exact hk.finalizeDrained _ _ hstarted

end

variable (env) in
lemma kept_orderly : Kept env cfg (Orderly cfg config) where
  queues _ _ _ _ h := h.mono rfl rfl (fun _ => .refl _) h.reports fun _ _ hid => hid
  wakeUp _ _ h := h.mono rfl rfl (fun _ => frame_record (by simp [Act.requester]) fun _ => rfl)
    (h.reports.concat trivial) fun _ _ hid => AdapterTable.mem_applyPendingAdapterOps hid
  advance _ _ lookups loads id h := orderly_advance h lookups loads id
  startHead _ _ _ _ h := orderly_startHead h
  finalizeDrained _ _ h := h.mono rfl rfl (fun _ => .refl _) h.reports fun _ hused hid =>
    AdapterTable.mem_finalizeDrainedAdapters hid hused

/-! ## The other events -/

variable (c) in
omit [DecidableEq Obj] in
lemma waiting_submit (spec : PrefetchTaskSpec Key) :
    (c.pendingQueue ++ (c.submissionQueue ++ [(c.nextRequestId, spec)])).map Prod.fst =
      c.waiting.map Prod.fst ++ [c.nextRequestId] := by
  simp [waiting]

/-- `submit_prefetch_request` queues the request or serves it from L1 at once. -/
lemma orderly_submit (spec : PrefetchTaskSpec Key) (h : Orderly cfg config c.waiting c) :
    Orderly cfg config (c.submitPrefetchRequest env cfg spec).waiting
      (c.submitPrefetchRequest env cfg spec) := by
  have hfree : c.nextRequestId ∉ c.inFlightRequests := fun hmem =>
    lt_irrefl _ (h.known _ hmem)
  have hnew : c.nextRequestId ∉ c.waiting.map Prod.fst := fun hmem =>
    lt_irrefl _ (h.apart _ hmem).2
  have hframe := h.fresh c.nextRequestId (.inr le_rfl)
  -- the id is taken
  have htaken : Orderly cfg config c.waiting { c with nextRequestId := c.nextRequestId + 1 } :=
    { h with
      fresh := fun id hid => h.fresh id (hid.imp_right Nat.le_of_succ_le)
      apart := fun id hid => ⟨(h.apart id hid).1, Nat.lt_succ_of_lt (h.apart id hid).2⟩
      known := fun id hid => Nat.lt_succ_of_lt (h.known id hid) }
  unfold submitPrefetchRequest
  dsimp only
  split
  · have hsteps : Steps c.nextRequestId cfg spec c.adapters.l2Adapters c.world
        (serveFromL1 env cfg c.nextRequestId spec c.world, none) :=
      ends_serveFromL1 (owns_of_frame hframe)
    have hserved := htaken.settle hnew (Nat.lt_succ_self _) hsteps
    unfold PrefetchController.settle at hserved
    rw [erase_of_not_mem (not_mem_iff_get?.mp hfree)] at hserved
    exact hserved
  · have hwaiting := waiting_submit c spec
    exact
      { reports := h.reports
        flying := h.flying
        known := htaken.known
        fresh := by
          intro id hid
          rw [waiting, hwaiting, mem_append, mem_singleton] at hid
          rcases hid with (hold | rfl) | hle
          · exact h.fresh id (.inl hold)
          · exact hframe
          · exact h.fresh id (.inr (Nat.le_of_succ_le hle))
        nodup := by
          rw [waiting, hwaiting]
          exact nodup_append.mpr ⟨h.nodup, nodup_singleton _, fun _ ha _ hb he =>
            hnew (mem_singleton.mp hb ▸ he ▸ ha)⟩
        apart := by
          intro id hid
          rw [waiting, hwaiting, mem_append, mem_singleton] at hid
          rcases hid with hold | rfl
          · exact htaken.apart id hold
          · exact ⟨hfree, Nat.lt_succ_self _⟩ }

lemma orderly_cleanup (h : Orderly cfg config queued c) (id : Nat) :
    Orderly cfg config queued (cleanup env c id) := by
  unfold cleanup
  split
  · exact h
  · rename_i request hget
    have hmem : id ∈ c.inFlightRequests := mem_iff_get?.mpr ⟨_, hget⟩
    have hflying := h.flying id request hget
    have hsteps : Steps id cfg request.spec c.adapters.l2Adapters c.world
        ((releaseAllLocks env id request.spec.keyGroups c.adapters.l2Adapters
          ⟨c.world, request.state⟩).record (.retire id (releaseAllLocks env id
            request.spec.keyGroups c.adapters.l2Adapters ⟨c.world, request.state⟩).l1
              .cleanedUp), none) :=
      ends_cleanup (s := ⟨c.world, request.state⟩) hflying.owns fun adapter hlocked =>
        hflying.attached adapter (RequestState.refersTo_iff.mpr (.inr (.inr hlocked)))
    exact h.settle (fun hqueued => (h.apart id hqueued).1 hmem) (h.known id hmem) hsteps

lemma orderly_stop (h : Orderly cfg config c.waiting c) :
    Orderly cfg config (c.stop env).waiting (c.stop env) := by
  refine foldlRecOn (motive := fun c : PrefetchController Key Obj =>
    Orderly cfg config c.waiting c) _ _
    (h.mono rfl rfl (fun _ => .refl _) h.reports fun _ _ hid => hid) fun c h id _ => ?_
  have hqueues : (cleanup env c id).waiting = c.waiting := by
    unfold cleanup
    split <;> rfl
  rw [hqueues]
  exact orderly_cleanup h id

variable (cfg c) in
omit [DecidableEq Obj] in
lemma requestAdapterOp_eq (op : AdapterOp) :
    ∃ adapters, c.requestAdapterOp cfg op = { c with adapters } ∧
      adapters.l2Adapters = c.adapters.l2Adapters := by
  unfold requestAdapterOp
  split
  · split <;> exact ⟨_, rfl, rfl⟩
  · exact ⟨_, rfl, rfl⟩

lemma orderly_requestAdapterOp (op : AdapterOp) (h : Orderly cfg config c.waiting c) :
    Orderly cfg config (c.requestAdapterOp cfg op).waiting (c.requestAdapterOp cfg op) := by
  obtain ⟨adapters, hop, hsame⟩ := requestAdapterOp_eq cfg c op
  rw [hop]
  exact h.mono rfl rfl (fun _ => .refl _) h.reports fun _ _ hid => hsame ▸ hid

lemma orderly_init (cfg : PrefetchConfig) (l2Adapters : List Nat) (hnodup : l2Adapters.Nodup)
    (config : Nat → L1ManagerConfig) :
    Orderly cfg config [] (init l2Adapters hnodup config : PrefetchController Key Obj) where
  reports k a ha := by simp [init] at ha
  flying id request hget := by simp [init] at hget
  fresh id _ := .refl _
  nodup := nodup_nil
  apart id hid := absurd hid not_mem_nil
  known id hid := absurd hid (not_mem_empty id)

variable (env cfg) in
lemma orderly_run (l2Adapters : List Nat) (hnodup : l2Adapters.Nodup)
    (config : Nat → L1ManagerConfig) (events : List (Event Key)) :
    Orderly cfg config (run (step env cfg) (init l2Adapters hnodup config) events).waiting
      (run (step env cfg) (init l2Adapters hnodup config) events) := by
  have hstart : Orderly cfg config (init l2Adapters hnodup config : PrefetchController Key Obj).waiting
      (init l2Adapters hnodup config : PrefetchController Key Obj) :=
    orderly_init cfg l2Adapters hnodup config
  refine run_always (fun c : PrefetchController Key Obj => Orderly cfg config c.waiting c)
    (fun c e h => ?_) hstart events
  cases e with
  | submit spec => exact orderly_submit spec h
  | adapterOp op => exact orderly_requestAdapterOp op h
  | iterate ready lookups loads => exact (kept_orderly env).iterate ready lookups loads h
  | stop => exact orderly_stop h

/-! ## A small deployment

One L1 manager, key groups of one row, and an environment without other
threads: the runs below are evaluated on it. -/

/-- The act is quiet and secure for the request: other threads only reserve
reads, the allocator keeps its promise and nothing in the manager has expired. -/
def calmAct (request : Nat) : Act Key Obj → Bool
  | .l1 caller _ found call =>
    SeenCall.calm ⟨found, decide (caller = some request), call⟩ &&
      (match call.op with
        | .reserveRead .. => true
        | _ => caller.isSome) &&
      found.staging.values.all fun entry => entry.writeLock.isLocked call.now
  | _ => true

lemma quiet_of_calm {request : Nat} {acts : List (Act Key Obj)}
    (h : acts.all (calmAct request)) : Quiet request acts ∧ SecureFor request acts := by
  constructor
  · intro caller idx found call hmem
    have hcalm := all_eq_true.mp h _ hmem
    simp only [calmAct, SeenCall.calm, Bool.and_eq_true, decide_eq_true_eq, all_eq_true,
      Bool.not_eq_true'] at hcalm
    obtain ⟨⟨⟨⟨⟨⟨hhonest, hforce⟩, -⟩, -⟩, -⟩, hcaller⟩, hlocked⟩ := hcalm
    refine ⟨hhonest, fun hnone => ⟨hforce, fun key hname => ?_⟩, fun key entry hentry => ?_⟩
    · rw [hnone] at hcaller
      split at hcaller
      · rename_i hop
        rw [hop] at hname
        exact hname
      · cases hcaller
    · exact hlocked entry (NestedDict.mem_values.mpr ⟨key, _, hentry⟩)
  · intro l1Idx
    refine secure_of_calm (all_eq_true.mpr fun c hc => ?_)
    obtain ⟨a, ha, hseen⟩ := mem_filterMap.mp hc
    have hcalm := all_eq_true.mp h a ha
    cases a with
    | l1 caller idx found call =>
      simp only [Act.seen, Option.ite_none_right_eq_some] at hseen
      obtain ⟨-, ⟨⟩⟩ := hseen
      simp only [calmAct, Bool.and_eq_true] at hcalm
      exact hcalm.1.1
    | _ => cases hseen

/-- The tags of the one L1 manager. -/
def hostTags : MemoryTags := ⟨.dram, .localHost⟩

/-- One L1 manager, into which every adapter loads. -/
def oneL1 : PrefetchConfig :=
  ⟨(∅ : Dict Nat MemoryTags).set 0 hostTags, fun _ => ⟨⟨.storage, .localHost⟩, [hostTags]⟩, true, 1⟩

/-- A request for one group of keys under the locking mode. -/
def oneGroup (keys : List Nat) (readers : Int) (hreaders : 1 ≤ readers) : PrefetchTaskSpec Nat where
  keyGroups := [⟨keys, 8, -1, readers, by decide, hreaders⟩]
  fetchingPolicy := .prefixPolicy
  lockMode := .lock
  allowedL1MemoryTags := none
  allowedL2MemoryTags := none
  nonempty := cons_ne_nil _ _
  same_size := by simp

/-- No other thread, an allocator that hands out `objects`, adapters that have
every key; `pace` milliseconds pass between two calls. -/
def alone (objects : List Nat) (pace : Int) : Environment Nat Nat where
  others _ := []
  clock n := pace * n
  allocate _ := ⟨.success, objects.map fun o => (o, 8)⟩
  hasSubscribers _ := false
  submit n := some n
  reply _ := .done fun _ => true
  memoryUsage _ _ := (0, 1000)

/-- The lookup and the load of one request at adapter `5`. -/
def loadOnce (spec : PrefetchTaskSpec Nat) : List (Event Nat) :=
  [.submit spec, .iterate true [] [], .iterate false [5] [], .iterate false [] [5]]

/-- The world after `events`, with write reservations of ten minutes. -/
def deployed (env : Environment Nat Nat) (l2Adapters : List Nat) (hnodup : l2Adapters.Nodup)
    (events : List (Event Nat)) : World Nat Nat :=
  (run (step env oneL1) (init l2Adapters hnodup fun _ => ⟨600, 300⟩) events).world

lemma nodup_five : [5].Nodup := by decide

/-- Key `7`, looked up and loaded at adapter `5`. -/
def loadSeven (readers : Int) (hreaders : 1 ≤ readers) (pace : Int) : World Nat Nat :=
  deployed (alone [100] pace) [5] nodup_five (loadOnce (oneGroup [7] readers hreaders))

/-- The act publishes, under the locking mode, a request for the one key and
that many readers: a hit, owned by the L1 manager, where the counter of the
key's read lock is this one. -/
def publishesHit (request key l1Idx : Nat) (readers : Int) (counter : Option Int) :
    Act Nat Nat → Bool
  | .publish id found spec result =>
    decide (((found l1Idx).objects.get? key).map (fun e => e.readLock.counter) = counter) &&
      decide (id = request) && decide (spec.lockMode = .lock) &&
      decide (spec.keyGroups.map (fun group => (group.keys, group.numKvReaders))
        = [([key], readers)]) &&
      result.hitCells.test 0 0 && decide (result.l1Owners.get? key = some l1Idx)
  | _ => false

/-- The publication of a hit, spelled out. -/
structure HitReport (request key l1Idx : Nat) (readers : Int) (counter : Option Int)
    (acts : List (Act Nat Nat)) (k : Nat) (found : Nat → L1State Nat Nat) (spec : PrefetchTaskSpec Nat)
    (result : PrefetchResult Nat spec.numRows spec.groupSize) : Prop where
  publish : acts[k]? = some (.publish request found spec result)
  lock : spec.lockMode = .lock
  groups : spec.keyGroups.map (fun group => (group.keys, group.numKvReaders)) = [([key], readers)]
  hit : result.hitCells.test 0 0
  owner : result.l1Owners.get? key = some l1Idx
  counted : ((found l1Idx).objects.get? key).map (fun e => e.readLock.counter) = counter

lemma exists_hitReport (request key l1Idx : Nat) (readers : Int) (counter : Option Int)
    (acts : List (Act Nat Nat)) (k : Nat)
    (h : acts[k]?.any (publishesHit request key l1Idx readers counter)) :
    ∃ found spec result, HitReport request key l1Idx readers counter acts k found spec result := by
  obtain ⟨a, hget, ha⟩ := (Option.any_eq_true ..).mp h
  cases a with
  | publish id found spec result =>
    simp only [publishesHit, Bool.and_eq_true, decide_eq_true_eq] at ha
    obtain ⟨⟨⟨⟨⟨hcounted, rfl⟩, hlock⟩, hgroups⟩, hhit⟩, howner⟩ := ha
    exact ⟨found, spec, result, hget, hlock, hgroups, hhit, howner, hcounted⟩
  | _ => cases ha

/-- The act retires the request; the objects handed out by the first L1 manager
are these. -/
def retiresWith (request : Nat) (how : Retirement) (live : List Nat) : Act Nat Nat → Bool
  | .retire id found how' =>
    decide (id = request) && decide (how' = how) && decide ((found 0).memoryManager.live = live)
  | _ => false

lemma exists_retirement (request : Nat) (how : Retirement) (live : List Nat)
    (acts : List (Act Nat Nat)) (k : Nat) (h : acts[k]?.any (retiresWith request how live)) :
    ∃ found, acts[k]? = some (.retire request found how) ∧ (found 0).memoryManager.live = live := by
  obtain ⟨a, hget, ha⟩ := (Option.any_eq_true ..).mp h
  cases a with
  | retire id found how' =>
    simp only [retiresWith, Bool.and_eq_true, decide_eq_true_eq] at ha
    obtain ⟨⟨rfl, rfl⟩, hlive⟩ := ha
    exact ⟨found, hget, hlive⟩
  | _ => cases ha

namespace HitReport

variable {request key l1Idx k : Nat} {readers : Int} {counter : Option Int}
  {acts : List (Act Nat Nat)} {found : Nat → L1State Nat Nat} {spec : PrefetchTaskSpec Nat}
  {result : PrefetchResult Nat spec.numRows spec.groupSize}

section

variable (h : HitReport request key l1Idx readers counter acts k found spec result)
include h

lemma keys : flattenedKeys spec.keyGroups = [key] := by
  have hkeys := congrArg (flatMap Prod.fst) h.groups
  simpa [flattenedKeys, flatMap_map] using hkeys

lemma keyAt_zero : keyAt spec.keyGroups 0 0 = some key := by
  obtain ⟨group, hgroup, hdata⟩ := map_eq_singleton_iff.mp h.groups
  simp [keyAt, hgroup, (Prod.mk.inj hdata).1]

end

end HitReport

/-! ## What the reports of a run say

A report is an act of the trace; what came before it is the part of the trace
before the act, and the L1 managers it found are recorded with it. -/

section

variable (env cfg) (l2Adapters : List Nat) (hnodup : l2Adapters.Nodup)
  (config : Nat → L1ManagerConfig) (events : List (Event Key))

section

variable (k request : Nat) (found : Nat → L1State Key Obj) (spec : PrefetchTaskSpec Key)
  (result : PrefetchResult Key spec.numRows spec.groupSize)
  (hpublish : (run (step env cfg) (init l2Adapters hnodup config) events).world.trace[k]?
    = some (.publish request found spec result))
  (hdistinct : (flattenedKeys spec.keyGroups).Nodup)

include hpublish hdistinct in
/-- At the publication of a result every key of the hit is resident and locked
for the request, if the keys are distinct, every load was admitted in time and the
trace is secure. -/
theorem granted_of_published (hnever : NeverMissed request
      ((run (step env cfg) (init l2Adapters hnodup config) events).world.trace.take k))
    (hsecure : SecureFor request
      ((run (step env cfg) (init l2Adapters hnodup config) events).world.trace.take k)) :
    Granted request spec
      ⟨found, (run (step env cfg) (init l2Adapters hnodup config) events).world.trace.take k⟩
      result := by
  have horderly := orderly_run env cfg l2Adapters hnodup config events
  have hkept : Published request spec ⟨found, _⟩ result := horderly.reports k _ hpublish
  exact hkept.granted hdistinct hnever hsecure

/-- A load that completes in time. -/
theorem loadSeven_granted : ∃ found spec result,
    HitReport 0 7 0 1 (some 1) (loadSeven 1 (by decide) 1).trace 12 found spec result ∧
    Granted 0 spec ⟨found, (loadSeven 1 (by decide) 1).trace.take 12⟩ result := by
  obtain ⟨found, spec, result, h⟩ :=
    exists_hitReport 0 7 0 1 (some 1) (loadSeven 1 (by decide) 1).trace 12 (by decide)
  refine ⟨found, spec, result, h, ?_⟩
  exact granted_of_published (alone [100] 1) oneL1 [5] (by decide) (fun _ => ⟨600, 300⟩)
    (loadOnce (oneGroup [7] 1 (by decide))) 12 0 found spec result h.publish
    (h.keys ▸ nodup_singleton 7)
    (fun a ha _ => by simpa using (all_eq_true (p := fun a => !a.misses)).mp (by decide) a ha)
    (quiet_of_calm (by decide)).2

/-- A load that completes after its staging entry expired: the key is reported
as a hit, but it is not resident. -/
theorem loadSeven_late_not_granted : ∃ found spec result,
    HitReport 0 7 0 1 none (loadSeven 1 (by decide) 200000).trace 12 found spec result ∧
    ¬ Granted 0 spec ⟨found, (loadSeven 1 (by decide) 200000).trace.take 12⟩ result := by
  obtain ⟨found, spec, result, h⟩ :=
    exists_hitReport 0 7 0 1 none (loadSeven 1 (by decide) 200000).trace 12 (by decide)
  refine ⟨found, spec, result, h, fun hgranted => ?_⟩
  obtain ⟨l1Idx, e, howner, hresident, -⟩ := hgranted h.lock 0 0 7 h.hit h.keyAt_zero
  obtain rfl : 0 = l1Idx := Option.mem_unique h.owner howner
  have habsent := h.counted
  rw [hresident] at habsent
  cases habsent

end

/-- What a retirement must leave behind: no lock at an adapter, no lookup that
would still take one, and the buffers of a load that still runs allocated. -/
structure LeavesNothing (cfg : PrefetchConfig) (request : Nat) (w : World Key Obj) : Prop where
  pins : ∀ adapter key, w.holds request (.pin adapter key) = 0
  lookups : ∀ adapter, w.holds request (.lookup adapter) = 0
  buffers : ∀ adapter task keys objects,
    .submitLoad request adapter (some task) keys objects ∈ w.trace →
    0 < w.holds request (.load adapter) →
    ∀ o ∈ objects, o ∈ (w.l1 (cfg.affinity adapter)).memoryManager.live

/-- No lookup and no load of the request is outstanding. -/
def NoTaskOutstanding (request : Nat) (w : World Key Obj) : Prop :=
  ∀ adapter, w.holds request (.lookup adapter) = 0 ∧ w.holds request (.load adapter) = 0

/-- A finished request leaves nothing behind, and neither does one that is
aborted or cleaned up while none of its tasks is outstanding. -/
theorem leavesNothing_of_retired (hidle : ∀ k request found how,
      (run (step env cfg) (init l2Adapters hnodup config) events).world.trace[k]?
      = some (.retire request found how) → how ≠ .finished → NoTaskOutstanding request ⟨found,
      (run (step env cfg) (init l2Adapters hnodup config) events).world.trace.take k⟩)
    (k request : Nat) (found : Nat → L1State Key Obj) (how : Retirement)
    (hretire : (run (step env cfg) (init l2Adapters hnodup config) events).world.trace[k]?
      = some (.retire request found how)) : LeavesNothing cfg request ⟨found,
      (run (step env cfg) (init l2Adapters hnodup config) events).world.trace.take k⟩ := by
  have horderly := orderly_run env cfg l2Adapters hnodup config events
  have hkept : Retired request ⟨found, _⟩ how := horderly.reports k _ hretire
  have hdone : NoTaskOutstanding request ⟨found,
      (run (step env cfg) (init l2Adapters hnodup config) events).world.trace.take k⟩ := by
    by_cases hhow : how = .finished
    · exact hkept.tasks hhow
    · exact hidle k request found how hretire hhow
  refine ⟨hkept.pins, fun adapter => (hdone adapter).1, fun adapter _ _ _ _ hload => ?_⟩
  exact absurd hload (by rw [(hdone adapter).2]; decide)

end

/-- The tasks of the act are at adapter `5`. -/
def atFive : Act Nat Nat → Bool
  | .submitLookup _ idx _ | .lookupReply _ idx _ _ | .submitLoad _ idx _ _ _
  | .loadReply _ idx _ _ => decide (idx = 5)
  | _ => true

lemma amount_of_atFive {a : Act Nat Nat} (h : atFive a) {adapter : Nat}
    (hne : 5 ≠ adapter) : a.amount (.lookup adapter) = 0 ∧ a.amount (.load adapter) = 0 := by
  constructor
  all_goals
    unfold Act.amount
    split <;> simp_all [atFive]

lemma noTaskOutstanding_of_atFive {request : Nat} {w : World Nat Nat}
    (h : w.trace.all atFive)
    (hfive : w.holds request (.lookup 5) = 0 ∧ w.holds request (.load 5) = 0) :
    NoTaskOutstanding request w := by
  intro adapter
  by_cases hne : 5 = adapter
  · exact hne ▸ hfive
  have hzero := fun a ha => amount_of_atFive (all_eq_true.mp h a ha) hne
  exact ⟨World.total_eq_zero fun a ha _ => (hzero a ha).1,
    World.total_eq_zero fun a ha _ => (hzero a ha).2⟩

/-- The load of key `7` cannot be submitted. -/
def loadRaises : World Nat Nat :=
  deployed { alone [100] 1 with submit := fun n => if n = 6 then none else some n } [5] nodup_five
    (loadOnce (oneGroup [7] 1 le_rfl))

/-- Only the act at `k` retires, and it retires the request `0`. -/
def retiresAt (k : Nat) : Act Nat Nat × Nat → Bool
  | (.retire request _ _, n) => decide (request = 0 ∧ n = k)
  | _ => true

/-- The request is aborted when its lookup has answered and nothing was loaded. -/
theorem loadRaises_leavesNothing : ∃ found,
    loadRaises.trace[10]? = some (.retire 0 found .aborted) ∧
    LeavesNothing oneL1 0 ⟨found, loadRaises.trace.take 10⟩ := by
  obtain ⟨found, hretire, -⟩ := exists_retirement 0 .aborted [] loadRaises.trace 10 (by decide)
  refine ⟨found, hretire, leavesNothing_of_retired _ oneL1 [5] nodup_five (fun _ => ⟨600, 300⟩)
    (loadOnce (oneGroup [7] 1 (by decide))) (fun k request found how hother _ => ?_)
    10 0 found .aborted hretire⟩
  have hall : loadRaises.trace.zipIdx.all (retiresAt 10) := by decide
  obtain ⟨rfl, rfl⟩ := of_decide_eq_true
    (all_eq_true.mp hall _ (mk_mem_zipIdx_iff_getElem?.mpr hother))
  have hat : (loadRaises.trace.take 10).all atFive := by decide
  have hfive : World.holds ⟨fun _ => .init ⟨600, 300⟩, loadRaises.trace.take 10⟩ 0 (.lookup 5) = 0 ∧
      World.holds ⟨fun _ => .init ⟨600, 300⟩, loadRaises.trace.take 10⟩ 0 (.load 5) = 0 := by
    decide
  exact noTaskOutstanding_of_atFive hat hfive

/-- Adapter `5` has the first key only, and the second load cannot be
submitted. -/
def secondLoadRaises : Environment Nat Nat :=
  { alone [100, 101] 1 with
    submit := fun n => if n = 10 then none else some n
    reply := fun n => .done fun j => n != 5 || j == 0 }

/-- Two keys, looked up at both adapters. -/
def loadTwice : World Nat Nat :=
  deployed secondLoadRaises [5, 6] (by decide)
    [.submit (oneGroup [7, 8] 1 Int.one_pos), .iterate true [] [], .iterate false [5, 6] []]

/-- The submission of a load raises while another load runs: the abort frees
the buffer the other load writes. -/
theorem loadTwice_frees_buffer : ∃ found, loadTwice.trace[15]? = some (.retire 0 found .aborted) ∧
    ¬ LeavesNothing oneL1 0 ⟨found, loadTwice.trace.take 15⟩ := by
  obtain ⟨found, hretire, hlive⟩ := exists_retirement 0 .aborted [] loadTwice.trace 15 (by decide)
  refine ⟨found, hretire, fun h => ?_⟩
  have hsubmit : loadTwice.trace[9]? = some (.submitLoad 0 5 (some 9) [7] [100]) := by rfl
  have hload : .submitLoad 0 5 (some 9) [7] [100] ∈ loadTwice.trace.take 15 :=
    mem_of_getElem? ((getElem?_take_of_lt (by decide)).trans hsubmit)
  have hruns : World.holds ⟨fun _ => .init ⟨600, 300⟩, loadTwice.trace.take 15⟩ 0 (.load 5) = 1 := by
    decide
  have hmem := h.buffers 5 9 [7] [100] hload (lt_of_lt_of_eq zero_lt_one hruns.symm) 100
    (mem_singleton_self _)
  have haffinity : oneL1.affinity 5 = 0 := by decide
  simp [haffinity, hlive] at hmem

end PrefetchController

end LMCache.StorageControllers
