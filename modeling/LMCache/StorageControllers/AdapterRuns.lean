/-
LMCache.StorageControllers.AdapterRuns — removing adapters while either
controller runs.

Both loops treat the adapter table alike: an iteration applies the queued
operations, works, and then detaches the draining adapters nothing refers to
(`AdapterTable.iteration`). So a remove request's event, once queued, is never
lost as long as no remove finds its adapter draining already, and it is set
by the first iteration that ends with the adapter not in use.
-/
import LMCache.StorageControllers.PrefetchRuns
import LMCache.StorageControllers.StoreAccounts

namespace LMCache.StorageControllers

open Lib Native L1Manager AdapterTable

variable {Key Obj Shape : Type} [DecidableEq Key] [DecidableEq Obj] [DecidableEq Shape]

/-! ## One iteration -/

namespace AdapterTable

/-- What an iteration that ends with these adapters in use does. -/
def iteration (t : AdapterTable) (inUse : Nat → Bool) : AdapterTable :=
  t.applyPendingAdapterOps.finalizeDrainedAdapters inUse

/-- No queued remove request finds its adapter draining when it is applied. -/
def AppliesCleanly (t : AdapterTable) : Prop :=
  NoOverwrite t.pendingAdapterOps { t with pendingAdapterOps := [] }

variable {t : AdapterTable} {id done : Nat}

lemma awaits_iteration (hclean : t.AppliesCleanly) (h : t.Awaits id done)
    (inUse : Nat → Bool) : (t.iteration inUse).Awaits id done ∧
      (inUse id = false → done ∈ (t.iteration inUse).eventsSet) := by
  have happlied : t.applyPendingAdapterOps.Awaits id done :=
    .inr (AdapterTable.foldl_applyOp_awaits t.pendingAdapterOps hclean h)
  refine finalizeDrainedAdapters_awaits inUse (happlied.resolve_left fun hmem => ?_)
  rw [AdapterTable.applyPendingAdapterOps, (AdapterTable.foldl_applyOp _ _).2] at hmem
  exact absurd hmem List.not_mem_nil

end AdapterTable

/-! ## Loops over adapters -/

/-- What the two controllers have in common: states with an adapter table,
adapters in use, remove requests and iterations that do nothing once the
controller is stopped. -/
structure AdapterLoop (C E : Type) where
  step : C → E → C
  adapters : C → AdapterTable
  inUse : C → Nat → Bool
  stopped : C → Bool
  remove : Nat → Nat → E
  iterates : E → Bool

namespace AdapterLoop

variable {C E : Type} {l : AdapterLoop C E} {start : C}

variable (l start) in
/-- In every state of a run the adapters in use are attached. -/
def KeepsUsed : Prop :=
  ∀ events id, l.inUse (run l.step start events) id →
    id ∈ (l.adapters (run l.step start events)).l2Adapters

/-- The iteration applies the queue without overwriting a waiter. -/
def DrainsOnce (l : AdapterLoop C E) (c : C) (e : E) : Prop :=
  l.iterates e → l.stopped c = false → (l.adapters c).AppliesCleanly

variable (l start) in
/-- In a run whose iterations drain once, the event of a remove request is set
by an iteration that ends with the adapter not in use. -/
def WakesRemovers : Prop :=
  ∀ before after last id done, l.iterates last →
    Along l.step l.DrainsOnce start (before ++ l.remove id done :: (after ++ [last])) →
    l.stopped (run l.step start (before ++ l.remove id done :: (after ++ [last]))) = false →
    l.inUse (run l.step start (before ++ l.remove id done :: (after ++ [last]))) id = false →
    done ∈ (l.adapters (run l.step start
      (before ++ l.remove id done :: (after ++ [last])))).eventsSet

/-- How a step may treat the adapter table, in states with `Inv`. -/
structure Lawful (l : AdapterLoop C E) (Inv : C → Prop) : Prop where
  inv : ∀ c e, Inv c → Inv (l.step c e)
  remove : ∀ c id done,
    l.adapters (l.step c (l.remove id done)) = (l.adapters c).request (.remove id done)
  iterate : ∀ c e, Inv c → l.iterates e → l.stopped c = false →
    l.adapters (l.step c e) = (l.adapters c).iteration (l.inUse (l.step c e))
  halted : ∀ c e, l.iterates e → l.stopped c → l.step c e = c
  other : ∀ c e, l.iterates e = false → l.adapters (l.step c e) = l.adapters c ∨
    ∃ op, l.adapters (l.step c e) = (l.adapters c).request op

lemma Lawful.awaits_step {Inv : C → Prop} (hl : l.Lawful Inv) {c : C} {e : E} {id done : Nat}
    (hinv : Inv c) (hclean : l.DrainsOnce c e) (h : (l.adapters c).Awaits id done) :
    (l.adapters (l.step c e)).Awaits id done := by
  cases hiter : l.iterates e with
  | true =>
    cases hstopped : l.stopped c with
    | true => rwa [hl.halted c e hiter hstopped]
    | false =>
      rw [hl.iterate c e hinv hiter hstopped]
      exact (awaits_iteration (hclean hiter hstopped) h _).1
  | false =>
    rcases hl.other c e hiter with hsame | ⟨op, hop⟩
    · rwa [hsame]
    · rw [hop]
      exact h.imp_left (List.mem_append_left _)

lemma Lawful.wakesRemovers {Inv : C → Prop} (hl : l.Lawful Inv) (hstart : Inv start) :
    l.WakesRemovers start := by
  intro before after last id done hiter hclean hrunning hidle
  rw [along_append] at hclean
  obtain ⟨-, hrest⟩ := hclean.2
  rw [along_append] at hrest
  obtain ⟨hafter, hlast, -⟩ := hrest
  simp only [run_append, run_cons, run_nil] at hrunning hidle ⊢
  have hbefore : Inv (run l.step start before) := run_always Inv hl.inv hstart before
  generalize run l.step start before = c at *
  -- the request queues its event, and no step up to the last loses it
  have hqueued : Inv (l.step c (l.remove id done)) ∧
      (l.adapters (l.step c (l.remove id done))).Awaits id done := by
    refine ⟨hl.inv c _ hbefore, ?_⟩
    rw [hl.remove]
    exact .inl (List.mem_append_right _ (List.mem_singleton_self _))
  have hawaits := run_inv (fun c => Inv c ∧ (l.adapters c).Awaits id done)
    (fun c e h hok => ⟨hl.inv c e h.1, hl.awaits_step h.1 hok h.2⟩) hqueued hafter
  generalize run l.step (l.step c (l.remove id done)) after = c at *
  have hstopped : l.stopped c = false := by
    cases hc : l.stopped c with
    | false => rfl
    | true =>
      rw [hl.halted c last hiter hc, hc] at hrunning
      cases hrunning
  rw [hl.iterate c last hawaits.1 hiter hstopped]
  exact (awaits_iteration (hlast hiter hstopped) hawaits.2 _).2 hidle

end AdapterLoop

/-! ## The prefetch controller -/

namespace PrefetchController

variable {env : Environment Key Obj} {cfg : PrefetchConfig} {c : PrefetchController Key Obj}
  {id done : Nat}

variable (env cfg) in
lemma advances_adapters (lookups loads ids : List Nat) (c : PrefetchController Key Obj) :
    (ids.foldl (advance env cfg lookups loads) c).adapters = c.adapters := by
  refine List.foldlRecOn (motive := fun c' : PrefetchController Key Obj => c'.adapters = c.adapters)
    ids _ rfl
    fun c' hc' id _ => ?_
  unfold advance
  split
  · exact hc'
  · exact hc'

variable (env cfg) in
lemma startPendingRequests_adapters :
    ∀ (queue : List (Nat × PrefetchTaskSpec Key)) (c : PrefetchController Key Obj),
    (startPendingRequests env cfg queue c).adapters = c.adapters
  | [], _ => rfl
  | (id, spec) :: queue, c => by
    unfold startPendingRequests
    split
    · exact startPendingRequests_adapters queue _
    · rfl

lemma iterate_adapters (hrunning : c.stopped = false) (ready : Bool) (lookups loads : List Nat) :
    (c.iterate env cfg ready lookups loads).adapters
      = c.adapters.iteration (c.iterate env cfg ready lookups loads).adapterInUse := by
  have hdrained : (c.wakeUp.drainSubmissionQueue ready).adapters
      = c.adapters.applyPendingAdapterOps := by
    unfold drainSubmissionQueue
    split <;> rfl
  have hadvanced : ((c.wakeUp.drainSubmissionQueue ready).advanceSignaled env cfg lookups
      loads).adapters = c.adapters.applyPendingAdapterOps := by
    rw [← hdrained]
    unfold advanceSignaled
    dsimp only
    split
    · rfl
    · exact advances_adapters env cfg _ _ _ _
  unfold iterate
  rw [if_neg (by simp [hrunning])]
  generalize (c.wakeUp.drainSubmissionQueue ready).advanceSignaled env cfg lookups loads = mid
    at hadvanced
  have hstarted := startPendingRequests_adapters env cfg mid.pendingQueue mid
  rw [iteration, ← hadvanced, ← hstarted]
  rfl

section

variable (env cfg)

/-- The prefetch controller as a loop over adapters. -/
def adapterLoop : AdapterLoop (PrefetchController Key Obj) (Event Key) where
  step := step env cfg
  adapters := adapters
  inUse := adapterInUse
  stopped := stopped
  remove id done := .adapterOp (.remove id done)
  iterates
    | .iterate _ _ _ => true
    | _ => false

lemma lawful_adapterLoop : (adapterLoop env cfg).Lawful fun _ => True where
  inv _ _ _ := trivial
  remove _ _ _ := rfl
  iterate c e _ hiter hrunning := by
    cases e with
    | iterate ready lookups loads => exact iterate_adapters hrunning ready lookups loads
    | _ => cases hiter
  halted c e hiter hstopped := by
    cases e with
    | iterate ready lookups loads => exact if_pos hstopped
    | _ => cases hiter
  other c e hiter := by
    cases e with
    | submit spec =>
      left
      show (c.submitPrefetchRequest env cfg spec).adapters = c.adapters
      unfold submitPrefetchRequest
      dsimp only
      split <;> rfl
    | adapterOp op =>
      cases op with
      | add id done =>
        show (c.requestAdapterOp cfg (.add id done)).adapters = c.adapters ∨
          ∃ op, (c.requestAdapterOp cfg (.add id done)).adapters = c.adapters.request op
        unfold requestAdapterOp
        dsimp only
        split
        · exact .inl rfl
        · exact .inr ⟨_, rfl⟩
      | remove id done => exact .inr ⟨_, rfl⟩
    | iterate => cases hiter
    | stop =>
      left
      refine List.foldlRecOn (motive := fun c' : PrefetchController Key Obj =>
        c'.adapters = c.adapters) _ (cleanup env) rfl fun c' hc' request _ => ?_
      unfold cleanup
      split
      · exact hc'
      · exact hc'

lemma keepsUsed_adapterLoop (l2Adapters : List Nat) (hnodup : l2Adapters.Nodup)
    (config : Nat → L1ManagerConfig) :
    (adapterLoop env cfg).KeepsUsed (init l2Adapters hnodup config) := by
  intro events id hused
  have horderly := orderly_run env cfg l2Adapters hnodup config events
  obtain ⟨request, hmem, hrefers⟩ := List.any_eq_true.mp hused
  obtain ⟨requestId, hget⟩ := Dict.mem_values.mp hmem
  exact (horderly.flying requestId request hget).attached id hrefers

end

end PrefetchController

/-! ## The store controller -/

namespace StoreController

variable {env : StoreEnvironment Key Obj} {shape : Key → Shape} {c : StoreController Key Obj}

variable (env) in
lemma retryDeferredL1Deletions_inUse (c : StoreController Key Obj) :
    (c.retryDeferredL1Deletions env).adapterInUse = c.adapterInUse ∧
      (c.retryDeferredL1Deletions env).adapters = c.adapters := by
  unfold retryDeferredL1Deletions
  split
  · exact ⟨rfl, rfl⟩
  · dsimp only
    split <;> exact ⟨rfl, rfl⟩

lemma iterate_adapters (h : Sound env c.adapters [] c) (hrunning : c.stopped = false)
    (keysReady : Bool) (signaled : List Nat) : (c.iterate env shape keysReady signaled).adapters
      = c.adapters.iteration (c.iterate env shape keysReady signaled).adapterInUse := by
  unfold iterate
  rw [if_neg (by simp [hrunning])]
  dsimp only
  have hcompleted := sound_handleCompletions (sound_takeKeys shape keysReady h) signaled
  generalize handleCompletions env _ signaled = mid at hcompleted
  obtain ⟨hused, hsame⟩ := retryDeferredL1Deletions_inUse env mid.finalizeDrained
  rw [hused, hsame, iteration, ← hcompleted.adapters]
  rfl

section

variable (env shape)

/-- The store controller as a loop over adapters. -/
def adapterLoop : AdapterLoop (StoreController Key Obj) (Event Key) where
  step := step env shape
  adapters := adapters
  inUse := adapterInUse
  stopped := stopped
  remove id done := .adapterOp (.remove id done)
  iterates
    | .iterate _ _ => true
    | _ => false

lemma lawful_adapterLoop : (adapterLoop env shape).Lawful fun c => Sound env c.adapters [] c where
  inv c e h := sound_step h e
  remove _ _ _ := rfl
  iterate c e h hiter hrunning := by
    cases e with
    | iterate keysReady signaled => exact iterate_adapters h hrunning keysReady signaled
    | _ => cases hiter
  halted c e hiter hstopped := by
    cases e with
    | iterate keysReady signaled => exact if_pos hstopped
    | _ => cases hiter
  other c e hiter := by
    cases e with
    | writeFinished keys => exact .inl rfl
    | adapterOp op => exact .inr ⟨op, rfl⟩
    | iterate => cases hiter
    | stop => exact .inl rfl

lemma keepsUsed_adapterLoop (l2Adapters : List Nat) (hnodup : l2Adapters.Nodup)
    (config : L1ManagerConfig) :
    (adapterLoop env shape).KeepsUsed (init l2Adapters hnodup config) := by
  intro events id hused
  have hsound := sound_run env shape l2Adapters hnodup config events
  obtain ⟨taskKey, hmem, heq⟩ := List.any_eq_true.mp hused
  obtain rfl := of_decide_eq_true heq
  obtain ⟨task, hget⟩ := Lib.Dict.mem_iff_get?.mp hmem
  exact (hsound.tasks taskKey task hget).attached

end

end StoreController

/-! ## Both controllers -/

/-- Neither controller detaches an adapter that work in flight refers to, and
in both every remove request's event is set once the adapter is not in use,
as long as no remove request finds its adapter draining. -/
theorem adapters_drain (prefetchEnv : Environment Key Obj) (cfg : PrefetchConfig)
    (l1Configs : Nat → L1ManagerConfig) (storeEnv : StoreEnvironment Key Obj) (shape : Key → Shape)
    (l1Config : L1ManagerConfig) (l2Adapters : List Nat) (hnodup : l2Adapters.Nodup) :
    ((PrefetchController.adapterLoop prefetchEnv cfg).KeepsUsed (.init l2Adapters hnodup l1Configs) ∧
      (PrefetchController.adapterLoop prefetchEnv cfg).WakesRemovers
        (.init l2Adapters hnodup l1Configs)) ∧
    (StoreController.adapterLoop storeEnv shape).KeepsUsed (.init l2Adapters hnodup l1Config) ∧
      (StoreController.adapterLoop storeEnv shape).WakesRemovers
        (.init l2Adapters hnodup l1Config) := by
  refine ⟨⟨PrefetchController.keepsUsed_adapterLoop _ _ _ _ _, ?_⟩,
    StoreController.keepsUsed_adapterLoop _ _ _ _ _, ?_⟩
  · exact (PrefetchController.lawful_adapterLoop prefetchEnv cfg).wakesRemovers trivial
  · refine (StoreController.lawful_adapterLoop storeEnv shape).wakesRemovers ?_
    exact StoreController.sound_run storeEnv shape l2Adapters hnodup l1Config []

/-- Key `7` is written, and its store completes. -/
def sevenStored : StoreEnvironment Nat Nat :=
  { StoreController.sevenWritten with popCompleted := fun _ => some [(3, true)] }

/-- In each controller the adapter is removed while it works on a task, a lookup
and a store. -/
theorem adapters_drain_busy :
    1 ∈ (run (PrefetchController.step (PrefetchController.alone [100] 1) PrefetchController.oneL1)
      (.init [5] PrefetchController.nodup_five fun _ => ⟨600, 300⟩)
      [.submit (PrefetchController.oneGroup [7] 1 (Int.le_refl 1)), .iterate true [] [],
       .adapterOp (.remove 5 1), .iterate false [] [], .iterate false [5] []]).adapters.eventsSet ∧
    1 ∈ (run (StoreController.step sevenStored fun _ => ())
      (.init [5] PrefetchController.nodup_five ⟨600, 300⟩)
      [.writeFinished [7], .iterate true [], .adapterOp (.remove 5 1), .iterate false [],
       .iterate false [5]]).adapters.eventsSet := by
  have h := adapters_drain (PrefetchController.alone [100] 1) PrefetchController.oneL1
    (fun _ => ⟨600, 300⟩) sevenStored (fun _ => ()) ⟨600, 300⟩ [5] PrefetchController.nodup_five
  have hidle : ∀ {p : Prop}, false → p := fun hf => absurd hf Bool.false_ne_true
  refine ⟨h.1.2 [.submit (PrefetchController.oneGroup [7] 1 (Int.le_refl 1)), .iterate true [] []]
    [.iterate false [] []] (.iterate false [5] []) 5 1 rfl ⟨hidle, fun _ _ => trivial, hidle,
      fun _ _ => ⟨fun _ _ _ => Dict.not_mem_empty _, trivial⟩, fun _ _ => trivial, trivial⟩
    (by decide) (by decide), h.2.2 [.writeFinished [7], .iterate true []] [.iterate false []]
    (.iterate false [5]) 5 1 rfl ⟨hidle, fun _ _ => trivial, hidle,
      fun _ _ => ⟨fun _ _ _ => Dict.not_mem_empty _, trivial⟩, fun _ _ => trivial, trivial⟩
    (by decide) (by decide)⟩

/-- Two remove requests of one adapter, queued before the loop runs. -/
def removeTwice : StoreController Nat Nat :=
  run (StoreController.step StoreController.sevenWritten fun _ => ())
    (.init [5] PrefetchController.nodup_five ⟨600, 300⟩)
    [.adapterOp (.remove 5 1), .adapterOp (.remove 5 2), .iterate false []]

/-- The second replaces the first as the one to wake: no later iteration sets
the event of the first. -/
theorem removeTwice_strands_first :
    removeTwice.stopped = false ∧ removeTwice.adapterInUse 5 = false ∧
    5 ∉ removeTwice.adapters.l2Adapters ∧
    ∀ n, 1 ∉ (run (StoreController.step StoreController.sevenWritten fun _ => ()) removeTwice
      (List.replicate n (.iterate false []))).adapters.eventsSet := by
  refine ⟨by decide, by decide, by decide, fun n => ?_⟩
  induction n with
  | zero => decide
  | succ n ih =>
    exact ih

end LMCache.StorageControllers
