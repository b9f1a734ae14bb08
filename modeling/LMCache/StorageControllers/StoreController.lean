/-
LMCache.StorageControllers.StoreController — copying what was written to L1
to the L2 adapters (`store_controller.py`).

The loop of the controller takes the keys whose writes finished, asks the
policy which adapter gets which keys, takes one read lock per key and adapter,
and submits one store task per adapter. When a task completes, or its
submission raises, or the controller stops, the locks of its keys are given
back.

As for the prefetch controller, the L1 manager comes with the calls made so
far, and what the controller does not decide (other threads, the clock, the
adapters, the policy) comes from an environment indexed by the number of those
calls. A task id is not handed out twice by one adapter.
-/
import LMCache.StorageControllers.AdapterLifecycle
import LMCache.L1Manager.ReadLocks
import LMCache.L1Manager.Reservations

namespace LMCache.StorageControllers

open Lib Native L1Manager

/-! ## The L1 manager and the environment -/

/-- A call on the L1 manager, with the manager as it found it, or on an
adapter. `own` are the calls of the controller; a task that is `none` is a
submission that raised. -/
inductive StoreAct (Key Obj : Type) [DecidableEq Key] where
  | l1 (own : Bool) (found : L1State Key Obj) (call : L1Call Key Obj)
  | submitStore (adapter : Nat) (task : Option Nat) (keys : List Key) (objects : List Obj)
  | popCompleted (adapter : Nat)

/-- What the controller does not decide, by the number of calls so far. A
completed task comes with its success; `none` is a call that raises. -/
structure StoreEnvironment (Key Obj : Type) where
  others : Nat → List (L1Call Key Obj)
  clock : Nat → Int
  submits : Nat → Bool
  taskId : Nat → Nat → Nat
  taskId_inj : ∀ adapter, Function.Injective (taskId adapter)
  popCompleted : Nat → Option (List (Nat × Bool))
  monotonic : Nat → Rat
  selectStoreTargets : Nat → List Key → List Nat → Option (Dict Nat (List Key))
  selectL1Deletions : Nat → List Key → Option (List Key)

/-- The L1 manager of the controller, and the calls made so far. -/
structure StoreWorld (Key Obj : Type) [DecidableEq Key] where
  l1 : L1State Key Obj
  trace : List (StoreAct Key Obj)

variable {Key Obj Shape : Type} [DecidableEq Key] [DecidableEq Obj] [DecidableEq Shape]

namespace StoreWorld

variable (env : StoreEnvironment Key Obj) (w : StoreWorld Key Obj)

/-- A call that leaves the L1 manager alone. -/
def record (a : StoreAct Key Obj) : StoreWorld Key Obj := { w with trace := w.trace ++ [a] }

/-- A call on the L1 manager. -/
def onL1 (own : Bool) (call : L1Call Key Obj) : StoreWorld Key Obj where
  l1 := w.l1.step call
  trace := w.trace ++ [.l1 own w.l1 call]

/-- The calls other threads get in before the next call. -/
def interleave : StoreWorld Key Obj :=
  (env.others w.trace.length).foldl (fun w call => w.onL1 false call) w

/-- The clock reading of the next call. -/
def time : Int := env.clock (w.interleave env).trace.length

/-- A call of the controller. -/
def callL1 (op : L1Op Key Obj) : StoreWorld Key Obj :=
  (w.interleave env).onL1 true ⟨w.time env, op⟩

end StoreWorld

/-! ## The controller -/

/-- `InFlightStoreTask`; the transferred bytes are left out. -/
structure InFlightStoreTask (Key : Type) where
  adapterIndex : Nat
  keys : List Key
  readLockedKeys : List Key
  l2StoreResult : Option Bool

/-- The fields of `StoreController` that change, with the pending keys of its
listener. -/
structure StoreController (Key Obj : Type) [DecidableEq Key] where
  adapters : AdapterTable
  pendingKeys : List Key
  inFlightTasks : Dict (Nat × Nat) (InFlightStoreTask Key)
  deferredL1Deletions : List Key
  lastL1DeletionRetry : Rat
  stopped : Bool
  world : StoreWorld Key Obj

/-- `_group_keys_by_shape`. -/
def groupKeysByShape (shape : Key → Shape) (keys : List Key) : Dict Shape (List Key) :=
  keys.foldl (fun groups key =>
    groups.set (shape key) ((groups.get? (shape key)).getD [] ++ [key])) ∅

section

variable (readResults : Dict Key (L1OperationResult Obj))

/-- A target key with its object, if `reserve_read` reports it as reserved. -/
def successfulRead (key : Key) : Option (Key × Obj) :=
  match readResults.get? key with
  | some (.success, some obj) => some (key, obj)
  | _ => none

/-- `successful_keys` and `successful_objs`. -/
def successfulReads (targetKeys : List Key) :
    List (Key × Obj) := targetKeys.filterMap (successfulRead readResults)

end

namespace StoreController

/-- `__init__`. -/
def init (l2Adapters : List Nat) (hnodup : l2Adapters.Nodup) (config : L1ManagerConfig) :
    StoreController Key Obj where
  adapters := .init l2Adapters hnodup
  pendingKeys := []
  inFlightTasks := ∅
  deferredL1Deletions := []
  lastL1DeletionRetry := 0
  stopped := false
  world := ⟨.init config, []⟩

variable (env : StoreEnvironment Key Obj) (shape : Key → Shape) (c : StoreController Key Obj)

/-- `_adapter_in_use`. -/
def adapterInUse (adapterId : Nat) : Bool :=
  c.inFlightTasks.keys.any fun taskKey => decide (taskKey.1 = adapterId)

/-- The submission of a store task, and what follows when it raises. -/
def submitStoreTask (adapterIndex : Nat) (reads : List (Key × Obj)) : StoreController Key Obj :=
  let keys := reads.map Prod.fst
  let n := c.world.trace.length
  if env.submits n then
    let taskId := env.taskId adapterIndex n
    { c with
      world := c.world.record (.submitStore adapterIndex (some taskId) keys (reads.map Prod.snd))
      inFlightTasks := c.inFlightTasks.set (adapterIndex, taskId) ⟨adapterIndex, keys, keys, none⟩ }
  else
    { c with
      world := (c.world.record (.submitStore adapterIndex none keys (reads.map Prod.snd))).callL1
        env (.finishRead keys 1) }

/-- The body of the loop of `_submit_store_for_single_shape`. -/
def storeToAdapter (c : StoreController Key Obj) (item : Nat × List Key) :
    StoreController Key Obj :=
  let (adapterIndex, targetKeys) := item
  if targetKeys.isEmpty || decide (adapterIndex ∉ c.adapters.l2Adapters) then c
  else
    let readResults := (reserveRead (c.world.time env) targetKeys 1 (c.world.interleave env).l1).1
    let c := { c with world := c.world.callL1 env (.reserveRead targetKeys 1) }
    let reads := successfulReads readResults targetKeys
    if reads.isEmpty then c else c.submitStoreTask env adapterIndex reads

/-- `_submit_store_for_single_shape`; whether the policy raised. -/
def submitStoreForSingleShape (keys : List Key) : StoreController Key Obj × Bool :=
  let routing := c.adapters.l2Adapters.filter fun id => decide (id ∉ c.adapters.draining)
  match env.selectStoreTargets c.world.trace.length keys routing with
  | none => (c, true)
  | some plan => (plan.entries.foldl (storeToAdapter env) c, false)

/-- The loop of `_process_new_keys`; an exception ends it. -/
def submitStores : List (List Key) → StoreController Key Obj → StoreController Key Obj
  | [], c => c
  | group :: groups, c =>
    let submitted := c.submitStoreForSingleShape env group
    if submitted.2 then submitted.1 else submitStores groups submitted.1

/-- `_process_new_keys`. -/
def processNewKeys (keys : List Key) : StoreController Key Obj :=
  submitStores env (groupKeysByShape shape keys).values
    { c with deferredL1Deletions := c.deferredL1Deletions.filter fun key => decide (key ∉ keys) }

/-- The listener's event: pop the pending keys and process them. -/
def processPendingKeys : StoreController Key Obj :=
  if c.pendingKeys.isEmpty then c
  else ({ c with pendingKeys := [] } : StoreController Key Obj).processNewKeys env shape
    c.pendingKeys

/-- Deposit one outcome on its task. -/
def depositResult (adapterIndex : Nat) (c : StoreController Key Obj) (result : Nat × Bool) :
    StoreController Key Obj :=
  match c.inFlightTasks.get? (adapterIndex, result.1) with
  | none => c
  | some task =>
    { c with
      inFlightTasks := c.inFlightTasks.set (adapterIndex, result.1)
        { task with l2StoreResult := some result.2 } }

/-- `_drain_l2_store_completions`; an exception ends it. -/
def drainL2StoreCompletions : List Nat → StoreController Key Obj → StoreController Key Obj
  | [], c => c
  | adapterIndex :: rest, c =>
    let completed := env.popCompleted c.world.trace.length
    let c := { c with world := c.world.record (.popCompleted adapterIndex) }
    match completed with
    | none => c
    | some results =>
      drainL2StoreCompletions rest (results.foldl (depositResult adapterIndex) c)

/-- `_delete_from_l1`. -/
def deleteFromL1 (keys : List Key) : StoreController Key Obj :=
  let answers := (delete (c.world.time env) keys false (c.world.interleave env).l1).1
  { c with
    world := c.world.callL1 env (.delete keys false)
    deferredL1Deletions := answers.entries.foldl (fun deferred answer =>
        if answer.2 = .keyIsLocked then
          if answer.1 ∈ deferred then deferred else deferred ++ [answer.1]
        else deferred.filter fun key => decide (key ≠ answer.1))
      c.deferredL1Deletions }

/-- `_finalize_store`. An exception of the policy ends it. -/
def finalizeStore (taskKey : Nat × Nat) (task : InFlightStoreTask Key) (success : Bool) :
    StoreController Key Obj :=
  let c := { c with
    world := c.world.callL1 env (.finishRead task.readLockedKeys 1)
    inFlightTasks := c.inFlightTasks.erase taskKey }
  if success then
    match env.selectL1Deletions c.world.trace.length task.keys with
    | none => c
    | some deleteKeys => if deleteKeys.isEmpty then c else c.deleteFromL1 env deleteKeys
  else c

/-- `_advance_request`, for a task of the table. -/
def advanceRequest (c : StoreController Key Obj) (taskKey : Nat × Nat) : StoreController Key Obj :=
  match c.inFlightTasks.get? taskKey with
  | none => c
  | some task =>
    match task.l2StoreResult with
    | none => c
    | some success => c.finalizeStore env taskKey task success

/-- Handle the completions of the signaled adapters. -/
def handleCompletions (signaled : List Nat) : StoreController Key Obj :=
  let signaled := signaled.filter fun id => decide (id ∈ c.adapters.l2Adapters)
  if signaled.isEmpty then c
  else
    let c := drainL2StoreCompletions env signaled c
    c.inFlightTasks.keys.foldl (advanceRequest env) c

/-- `_finalize_drained_adapters`. -/
def finalizeDrained : StoreController Key Obj :=
  { c with adapters := c.adapters.finalizeDrainedAdapters c.adapterInUse }

/-- `_retry_deferred_l1_deletions`: at most every `500` ms. -/
def retryDeferredL1Deletions : StoreController Key Obj :=
  if c.deferredL1Deletions.isEmpty then c
  else
    let now := env.monotonic c.world.trace.length
    if now - c.lastL1DeletionRetry < 1 / 2 then c
    else ({ c with lastL1DeletionRetry := now } : StoreController Key Obj).deleteFromL1 env
      c.deferredL1Deletions

/-- One iteration of `_store_loop`. `keysReady` and `signaled` are what the
poll reports; only attached adapters are polled. -/
def iterate (keysReady : Bool) (signaled : List Nat) : StoreController Key Obj :=
  if c.stopped then c
  else
    let c := { c with adapters := c.adapters.applyPendingAdapterOps }
    let c := if keysReady then c.processPendingKeys env shape else c
    ((c.handleCompletions env signaled).finalizeDrained).retryDeferredL1Deletions env

/-- `stop`, with `_cleanup_in_flight_tasks`. -/
def stop : StoreController Key Obj :=
  { c with
    stopped := true
    world := c.inFlightTasks.values.foldl
      (fun w task => w.callL1 env (.finishRead task.readLockedKeys 1)) c.world
    inFlightTasks := ∅ }

/-- What happens to the controller: writes that finish in L1, requests to add
or remove an adapter, iterations of the loop, and the stop. -/
inductive Event (Key : Type) where
  | writeFinished (keys : List Key)
  | adapterOp (op : AdapterOp)
  | iterate (keysReady : Bool) (signaled : List Nat)
  | stop

def step (c : StoreController Key Obj) : Event Key → StoreController Key Obj
  | .writeFinished keys => { c with pendingKeys := c.pendingKeys ++ keys }
  | .adapterOp op => { c with adapters := c.adapters.request op }
  | .iterate keysReady signaled => c.iterate env shape keysReady signaled
  | .stop => c.stop env

end StoreController

end LMCache.StorageControllers
