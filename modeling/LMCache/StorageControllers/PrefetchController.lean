/-
LMCache.StorageControllers.PrefetchController — the prefetch controller
(`storage_controllers/prefetch_controller.py`).

A request locks what L1 holds, asks every eligible L2 adapter, plans, reserves
L1 staging buffers for what it will load, submits one load task per adapter,
admits each adapter's objects as its task completes, and publishes the hit.
Each method is a function on a `Session`, the world together with the mutable
part of the request. A loop over calls that cannot raise is a `foldl`; a loop
over adapter calls, which can, is a recursion that returns whether it raised,
with the session as the exception leaves it. The calls of the L1 managers do
not raise on the arguments the controller passes, and `submit_unlock` must
succeed by its contract.

Left out: gauges and events, status reports, the result store beyond the
publishing itself, file descriptors (an iteration is given the adapters that
signaled), and the bytes of a load task.
-/
import LMCache.StorageControllers.World
import LMCache.StorageControllers.AdapterLifecycle

namespace LMCache.StorageControllers

open Lib Native L1Manager

/-! ## Configuration and state -/

/-- What the controller reads of an L2 adapter and its configuration. -/
structure L2AdapterDescriptor where
  memoryTags : MemoryTags
  wantedL1MemoryTags : List MemoryTags
  deriving DecidableEq, Repr

/-- `resolve_l1_affinity`; `none` is its `ValueError`. -/
def resolveL1Affinity (wanted : List MemoryTags) (l1Managers : Dict Nat MemoryTags) : Option Nat :=
  wanted.findSome? fun tags => (l1Managers.entries.find? fun item => item.2 = tags).map Prod.fst

/-- What stays the same while the controller runs. `retains` is what the
policy's `plan_l1_retention` answers for every key. -/
structure PrefetchConfig where
  l1Managers : Dict Nat MemoryTags
  adapter : Nat → L2AdapterDescriptor
  retains : Bool
  inflightWatermark : Rat

/-- `_get_l2_affinity_manager`, for an adapter whose affinity was resolved
when it was added. -/
def PrefetchConfig.affinity (cfg : PrefetchConfig) (adapterIdx : Nat) : Nat :=
  (resolveL1Affinity (cfg.adapter adapterIdx).wantedL1MemoryTags cfg.l1Managers).getD 0

/-- `_tags_allowed`. -/
def tagsAllowed (tags : MemoryTags) (allowed : Option (List MemoryTags)) : Bool :=
  allowed.all fun allowed => decide (tags ∈ allowed)

/-- `PrefetchKeyState`. -/
structure PrefetchKeyState (numRows numCols : Nat) where
  l1LockedKeys : MapState numRows numCols
  l2LockedKeys : MapState numRows numCols
  l1ReservedKeys : MapState numRows numCols

/-- The mutable fields of `InFlightPrefetchRequest`. `none` for the loaded
cells is the grid without rows they start as. -/
structure RequestState (numRows numCols : Nat) where
  keyStates : PrefetchKeyState numRows numCols
  inflightLookupTasks : Dict Nat Nat
  inflightLoadTasks : Dict Nat Nat
  l2LoadedCells : Option (Bitmap2D numRows numCols)
  l2FoundCells : Option (Bitmap2D numRows numCols)

/-- `_build_request`. -/
def RequestState.init {m n : Nat} : RequestState m n := ⟨⟨∅, ∅, ∅⟩, ∅, ∅, none, none⟩

/-- `InFlightPrefetchRequest`; its id is its key in the in-flight table. -/
structure InFlightPrefetchRequest (Key : Type) where
  spec : PrefetchTaskSpec Key
  state : RequestState spec.numRows spec.groupSize

/-- `PrefetchPhase`. -/
inductive PrefetchPhase where
  | lookup
  | planAndLoad
  deriving DecidableEq, Repr

variable {Key Obj : Type} [DecidableEq Key] [DecidableEq Obj] {m n : Nat}

/-- `phase`. -/
def RequestState.phase (r : RequestState m n) : PrefetchPhase :=
  if r.inflightLookupTasks.entries.isEmpty then .planAndLoad else .lookup

/-- A request being worked on. -/
structure Session (Key Obj : Type) [DecidableEq Key] (m n : Nat) where
  world : World Key Obj
  request : RequestState m n

namespace PrefetchTaskSpec

variable (spec : PrefetchTaskSpec Key)

/-- Cells of the request. -/
abbrev Grid := Bitmap2D spec.numRows spec.groupSize

/-- Cells of the request, by adapter or L1 manager. -/
abbrev Cells := MapState spec.numRows spec.groupSize

abbrev State := RequestState spec.numRows spec.groupSize

abbrev Result := PrefetchResult Key spec.numRows spec.groupSize

abbrev Session (Obj : Type) := StorageControllers.Session Key Obj spec.numRows spec.groupSize

end PrefetchTaskSpec

/-! ## Releasing -/

section Release

variable (env : Environment Key Obj) (requestId : Nat) (groups : List (GroupedObjectKeys Key))

/-- `finish_read` row by row. -/
def finishReadCells (l1Idx : Nat) (cells : Bitmap2D m n) (w : World Key Obj) : World Key Obj :=
  (gatherKeysByRow groups cells).foldl (fun w row =>
      if row.2.isEmpty then w
      else w.callL1 env requestId l1Idx (.finishRead row.2 row.1.numKvReaders)) w

/-- `submit_unlock` of the keys of the cells, if there are any. -/
def unlockCells (adapterIdx : Nat) (cells : Bitmap2D m n) (w : World Key Obj) : World Key Obj :=
  if (gatherKeys groups cells).isEmpty then w
  else w.record (.submitUnlock requestId adapterIdx (gatherKeys groups cells))

/-- `finish_write_and_delete` of the keys of the cells, if there are any. -/
def deleteCells (l1Idx : Nat) (cells : Bitmap2D m n) (w : World Key Obj) : World Key Obj :=
  if (gatherKeys groups cells).isEmpty then w
  else w.callL1 env requestId l1Idx
    (.finishWriteAndDelete (gatherKeys groups cells) (getPrefetchWriteTag requestId))

section

variable (cells : MapState m n) (w : World Key Obj)

/-- Release the read locks of every L1 manager's cells. -/
def finishReadMap : World Key Obj :=
  cells.items.foldl (fun w item => finishReadCells env requestId groups item.1 item.2 w) w

/-- Unlock every adapter's cells. -/
def unlockMap : World Key Obj :=
  cells.items.foldl (fun w item => unlockCells requestId groups item.1 item.2 w) w

/-- Delete the staging entries of every L1 manager's cells. -/
def deleteMap : World Key Obj :=
  cells.items.foldl (fun w item => deleteCells env requestId groups item.1 item.2 w) w

end

/-- `_release_all_locks`; an adapter that is no longer attached is skipped. -/
def releaseAllLocks (l2Adapters : List Nat) (s : Session Key Obj m n) : World Key Obj :=
  let states := s.request.keyStates
  let w := states.l2LockedKeys.items.foldl (fun w item =>
      if item.1 ∈ l2Adapters then unlockCells requestId groups item.1 item.2 w else w) s.world
  let w := deleteMap env requestId groups states.l1ReservedKeys w
  finishReadMap env requestId groups states.l1LockedKeys w

end Release

/-! ## Finishing -/

section Request

variable (env : Environment Key Obj) (cfg : PrefetchConfig) (requestId : Nat)
  (spec : PrefetchTaskSpec Key)

/-- The hit of `_finish_request`. The fold does not fail on grids of the
request's shape. -/
def hitCells (found : spec.Grid) : spec.Grid :=
  match spec.fetchingPolicy with
  | .prefixPolicy =>
    (neededCells (windowsOf spec.keyGroups) found .prefixPolicy).getD (.zeros _ _)
  | .fullPolicy => found.wholeColumns

/-- The read locks of one L1 manager that `_finish_request` does not leave to
the reader. -/
def releasedCells (hit locked : spec.Grid) : spec.Grid :=
  match spec.lockMode with
  | .noLock => locked
  | .lock => locked - hit

/-- Loop body of `_finish_request`: release, then touch the hit. -/
def settleL1 (hit : spec.Grid) (w : World Key Obj) (item : Nat × spec.Grid) : World Key Obj :=
  let w := finishReadCells env requestId spec.keyGroups item.1 (releasedCells spec hit item.2) w
  let hitKeys := gatherKeys spec.keyGroups (item.2.and hit)
  if hitKeys.isEmpty then w
  else w.callL1 env requestId item.1 (.touchKeys hitKeys (env.hasSubscribers w.trace.length))

/-- `l1_owners`: for each hit key the manager that holds its read locks. -/
def l1Owners (locked : spec.Cells) (hit : spec.Grid) : Dict Key Nat :=
  match spec.lockMode with
  | .noLock => ∅
  | .lock =>
    (locked.items.flatMap fun item =>
      (gatherKeys spec.keyGroups (item.2.and hit)).map fun key => (key, item.1)).foldl
      (fun owners p => owners.set p.1 p.2) ∅

/-- The result `_finish_request` publishes. -/
def finishedResult (r : spec.State) : spec.Result :=
  let found := r.keyStates.l1LockedKeys.merge
  let hit := hitCells spec found
  let l2Hit := (r.l2LoadedCells.map hit.and).getD (.zeros _ _)
  { hitCells := hit
    l1HitCells := hit - l2Hit
    l2HitCells := l2Hit
    foundCells :=
      match spec.fetchingPolicy with
      | .prefixPolicy => none
      | .fullPolicy => some ((r.l2FoundCells.map (found + ·)).getD found)
    l1Owners := l1Owners spec r.keyStates.l1LockedKeys hit }

/-- `_finish_request`. -/
def finishRequest (s : spec.Session Obj) : World Key Obj :=
  let result := finishedResult spec s.request
  let w := s.request.keyStates.l1LockedKeys.items.foldl
    (settleL1 env requestId spec result.hitCells) s.world
  w.record (.publish requestId w.l1 spec result)

/-- The result `_abort_request` publishes. -/
def missedResult : spec.Result :=
  ⟨.zeros _ _, .zeros _ _, .zeros _ _, none, ∅⟩

/-- `_abort_request`. -/
def abortRequest (l2Adapters : List Nat) (s : spec.Session Obj) : World Key Obj :=
  let w := releaseAllLocks env requestId spec.keyGroups l2Adapters s
  let w := w.record (.publish requestId w.l1 spec (missedResult spec))
  w.record (.retire requestId w.l1 .aborted)

/-! ## Planning -/

/-- The plan for what a request holds locked. -/
def planFor (activeL2Descs : List Nat) (states : PrefetchKeyState spec.numRows spec.groupSize) :
    PrefetchPlan spec.numRows spec.groupSize :=
  planLoad spec.keyGroups states.l1LockedKeys states.l2LockedKeys cfg.l1Managers.keys
    activeL2Descs spec.fetchingPolicy

/-- `_plan_load`, with the L2 cells the plan dropped. -/
def planLoadRequest (activeL2Descs : List Nat) (s : spec.Session Obj) :
    spec.Session Obj × spec.Cells :=
  let states := s.request.keyStates
  let plan := planFor cfg spec activeL2Descs states
  let l1Dropped := states.l1LockedKeys - plan.l1PlannedKeys
  let l2Dropped := states.l2LockedKeys - plan.l2PlannedKeys
  let w := finishReadMap env requestId spec.keyGroups l1Dropped s.world
  let w := unlockMap requestId spec.keyGroups l2Dropped w
  (⟨w, { s.request with
      keyStates := { states with
        l1LockedKeys := plan.l1PlannedKeys
        l2LockedKeys := plan.l2PlannedKeys } }⟩, l2Dropped)

/-! ## The lookup phase -/

/-- The rows of one `reserve_read` pass of `_lock_l1_keys`. -/
def reserveReadRow (l1Idx : Nat) (acc : World Key Obj × Dict Key (L1OperationResult Obj))
    (row : GroupedObjectKeys Key) : World Key Obj × Dict Key (L1OperationResult Obj) :=
  (acc.1.callL1 env requestId l1Idx (.reserveRead row.keys row.numKvReaders), acc.2.update
      (reserveRead (acc.1.time env) row.keys row.numKvReaders (acc.1.met env l1Idx)).1)

/-- The cells whose key the answers report as reserved. -/
def successBitmap (answers : Dict Key (L1OperationResult Obj)) : Bitmap :=
  .ofFn (flattenedKeys spec.keyGroups).length fun i =>
    ((flattenedKeys spec.keyGroups)[i]?.bind answers.get?).any fun r => decide (r.1 = .success)

/-- Loop body of `_lock_l1_keys`. -/
def lockL1Manager (s : spec.Session Obj) (item : Nat × MemoryTags) : spec.Session Obj :=
  if !tagsAllowed item.2 spec.allowedL1MemoryTags then s
  else
    let acc := spec.keyGroups.foldl (reserveReadRow env requestId item.1) (s.world, ∅)
    match scatterBitmapsFullGlobal (successBitmap spec acc.2) spec.numRows spec.groupSize with
    | .error _ => { s with world := acc.1 }
    | .ok cells =>
      ⟨acc.1, { s.request with
        keyStates := { s.request.keyStates with
          l1LockedKeys := s.request.keyStates.l1LockedKeys.set item.1 cells } }⟩

/-- `_lock_l1_keys`. -/
def lockL1Keys (s : spec.Session Obj) : spec.Session Obj :=
  cfg.l1Managers.entries.foldl (lockL1Manager env requestId spec) s

/-- `_needs_l2_lookup`. -/
def needsL2Lookup (l1LockedKeys : spec.Cells) : Bool :=
  match spec.fetchingPolicy with
  | .fullPolicy => decide (l1LockedKeys.merge.popcount < spec.numRows * spec.groupSize)
  | .prefixPolicy =>
    match foldUnfoldGrouped l1LockedKeys.merge.rows (windowsOf spec.keyGroups) with
    | .error _ => true
    | .ok (hitLength, _) => decide (hitLength < spec.groupSize)

section

variable (l2LockedKeys : MapState m n) (adapters : AdapterTable) (adapterIdx : Nat)

/-- `_is_l2_eligible`. -/
def isL2Eligible : Bool :=
  decide (adapterIdx ∉ adapters.draining) &&
    tagsAllowed (cfg.adapter adapterIdx).memoryTags spec.allowedL2MemoryTags

/-- Submit a lookup to each adapter; whether a submission raised. -/
def submitLookups : List Nat → spec.Session Obj → spec.Session Obj × Bool
  | [], s => (s, false)
  | adapterIdx :: rest, s =>
    let task := env.submit s.world.trace.length
    let w := s.world.record (.submitLookup requestId adapterIdx task)
    match task with
    | none => ({ s with world := w }, true)
    | some taskId =>
      submitLookups rest ⟨w, { s.request with
        inflightLookupTasks := s.request.inflightLookupTasks.set adapterIdx taskId }⟩

/-- What `_poll_lookup_results` records of a finished lookup. -/
def recordLookup (found : spec.Grid) (r : spec.State) : spec.State :=
  { r with
    keyStates := { r.keyStates with
      l2LockedKeys := r.keyStates.l2LockedKeys.set adapterIdx found }
    l2FoundCells :=
      match spec.fetchingPolicy with
      | .prefixPolicy => r.l2FoundCells
      | .fullPolicy => some ((r.l2FoundCells.map (· + found)).getD found)
    inflightLookupTasks := r.inflightLookupTasks.erase adapterIdx }

/-- `_poll_lookup_results` over the adapters of the in-flight lookups; whether
a query raised. -/
def pollLookupResults (signaled : List Nat) : List Nat → spec.Session Obj → spec.Session Obj × Bool
  | [], s => (s, false)
  | adapterIdx :: rest, s =>
    if adapterIdx ∉ signaled then pollLookupResults signaled rest s
    else
      match s.request.inflightLookupTasks.get? adapterIdx with
      | none => pollLookupResults signaled rest s
      | some taskId =>
        let noResult := { s with
          world := s.world.record (.lookupReply requestId adapterIdx taskId none) }
        match env.reply s.world.trace.length with
        | .raises => (noResult, true)
        | .pending => pollLookupResults signaled rest noResult
        | .done bits =>
          let result := Bitmap.ofFn (flattenedKeys spec.keyGroups).length bits
          match scatterBitmapsFullGlobal result spec.numRows spec.groupSize with
          | .error _ => (noResult, true)
          | .ok found =>
            pollLookupResults signaled rest
              ⟨s.world.record (.lookupReply requestId adapterIdx taskId
                  (some (result.gather (flattenedKeys spec.keyGroups)))),
                recordLookup spec adapterIdx found s.request⟩

/-! ## The load phase -/

/-- `_build_l1_allocation_plans`: the planned cells by the L1 manager that
receives them. -/
def buildL1AllocationPlans : MapState m n :=
  l2LockedKeys.items.foldl (fun cells item => cells.addCells (cfg.affinity item.1) item.2) ∅

/-- The locals of `_reserve_l1_cells` and of the reserving part of
`_transition_to_load_phase`. -/
structure Reserving (Key Obj : Type) [DecidableEq Key] (m n : Nat) where
  world : World Key Obj
  success : Bitmap2D m n
  objs : Dict Key Obj
  failedCount : Nat

/-- The answer for one key of `_reserve_l1_cells`. -/
def noteReserved (rowId : Nat) (results : Dict Key (L1OperationResult Obj))
    (acc : Reserving Key Obj m n) (cell : Nat × Key) : Reserving Key Obj m n :=
  match results.get? cell.2 with
  | some (.success, some memObj) =>
    { acc with success := acc.success.set rowId cell.1, objs := acc.objs.set cell.2 memObj }
  | _ => { acc with failedCount := acc.failedCount + 1 }

/-- Whether the keys the request loads stay resident after the reader. -/
def retains : Bool := decide (spec.lockMode = .noLock) || cfg.retains

/-- One row of `_reserve_l1_cells`. -/
def reserveRow (l1Idx : Nat) (acc : Reserving Key Obj m n)
    (item : (GroupedObjectKeys Key × Bitmap) × Nat) : Reserving Key Obj m n :=
  let cols := item.1.2.getIndices
  if cols.isEmpty then acc
  else
    let keys := item.1.2.gather item.1.1.keys
    let isTemporary := keys.map fun _ => !retains cfg spec
    let tag := getPrefetchWriteTag requestId
    let alloc := acc.world.allocated env
    let results :=
      match reserveWrite (acc.world.time env) keys isTemporary tag alloc
          (acc.world.met env l1Idx) with
      | .ok (ret, _) => ret
      | .error _ => ∅
    (cols.zip keys).foldl (noteReserved item.2 results) { acc with
        world := acc.world.callL1 env requestId l1Idx (.reserveWrite keys isTemporary tag alloc) }

/-- `_reserve_l1_cells`. -/
def reserveL1Cells (l1Idx : Nat) (cells : Bitmap2D m n) (w : World Key Obj) :
    Reserving Key Obj m n :=
  (spec.keyGroups.zip cells.rows).zipIdx.foldl (reserveRow env cfg requestId spec l1Idx)
    ⟨w, .zeros m n, ∅, 0⟩

/-- The locals of `_transition_to_load_phase`. -/
structure Reserved (Key Obj : Type) [DecidableEq Key] (m n : Nat) where
  world : World Key Obj
  l1ReservedKeys : MapState m n
  reservedObjs : Dict Key Obj
  numFailedReservations : Nat

/-- Step 3 for one L1 manager. -/
def reserveL1Manager (acc : Reserved Key Obj m n) (item : Nat × Bitmap2D m n) :
    Reserved Key Obj m n :=
  let r := reserveL1Cells env cfg requestId spec item.1 item.2 acc.world
  { world := r.world
    l1ReservedKeys := acc.l1ReservedKeys.set item.1 r.success
    reservedObjs := acc.reservedObjs.update r.objs
    numFailedReservations := acc.numFailedReservations + r.failedCount }

/-- Step 3. -/
def reservePlanned (w : World Key Obj) : Reserved Key Obj m n :=
  (buildL1AllocationPlans cfg l2LockedKeys).items.foldl
    (reserveL1Manager env cfg requestId spec) ⟨w, ∅, ∅, 0⟩

/-- Step 3.5 for one L1 manager. -/
def trimL1Manager (kept : Bitmap2D m n) (acc : Reserved Key Obj m n)
    (item : Nat × Bitmap2D m n) : Reserved Key Obj m n :=
  let releaseKeys := gatherKeys spec.keyGroups (item.2 - kept)
  if releaseKeys.isEmpty then acc
  else
    { acc with
      world := deleteCells env requestId spec.keyGroups item.1 (item.2 - kept) acc.world
      l1ReservedKeys := acc.l1ReservedKeys.set item.1 (item.2.and kept)
      reservedObjs := releaseKeys.foldl Dict.erase acc.reservedObjs }

/-- Step 3.5: a whole-columns request keeps whole columns only. -/
def trimToColumns (acc : Reserved Key Obj m n) : Reserved Key Obj m n :=
  if spec.fetchingPolicy = .fullPolicy ∧ 0 < acc.numFailedReservations then
    acc.l1ReservedKeys.items.foldl
      (trimL1Manager env requestId spec acc.l1ReservedKeys.merge.wholeColumns) acc
  else acc

/-- Steps 3 and 3.5. -/
def reserveStaging (s : spec.Session Obj) : Reserved Key Obj spec.numRows spec.groupSize :=
  trimToColumns env requestId spec
    (reservePlanned env cfg requestId spec s.request.keyStates.l2LockedKeys s.world)

/-- `l2_locked_keys_new`: the locked cells that are reserved in the L1 manager
they load into. -/
def reservedPart (l1ReservedKeys : MapState m n) : MapState m n :=
  ⟨l2LockedKeys.state.mapValues fun l2Idx grid =>
    grid.and (l1ReservedKeys.grid (cfg.affinity l2Idx))⟩

/-- Step 4: drop the L2 locks whose reservation failed. -/
def dropUnreserved (s : spec.Session Obj) : spec.Session Obj :=
  let states := s.request.keyStates
  let l2LockedKeysNew := reservedPart cfg states.l2LockedKeys states.l1ReservedKeys
  ⟨unlockMap requestId spec.keyGroups (states.l2LockedKeys - l2LockedKeysNew) s.world,
    { s.request with keyStates := { states with l2LockedKeys := l2LockedKeysNew } }⟩

/-- Step 5 for one adapter: delete the staging buffers the replan dropped. -/
def dropStaging (acc : spec.Session Obj × Dict Key Obj) (item : Nat × spec.Grid) :
    spec.Session Obj × Dict Key Obj :=
  let keys := gatherKeys spec.keyGroups item.2
  if keys.isEmpty then acc
  else
    let l1Idx := cfg.affinity item.1
    let states := acc.1.request.keyStates
    (⟨deleteCells env requestId spec.keyGroups l1Idx item.2 acc.1.world, { acc.1.request with
        keyStates := { states with
          l1ReservedKeys :=
            states.l1ReservedKeys.set l1Idx (states.l1ReservedKeys.grid l1Idx - item.2) } }⟩,
      keys.foldl Dict.erase acc.2)

/-- Step 5: plan again on what is reserved. -/
def replan (activeL2Descs : List Nat) (s : spec.Session Obj)
    (reservedObjs : Dict Key Obj) : spec.Session Obj × Dict Key Obj :=
  let planned := planLoadRequest env cfg requestId spec activeL2Descs s
  planned.2.items.foldl (dropStaging env cfg requestId spec) (planned.1, reservedObjs)

/-- `_submit_load_tasks`; whether it raised. -/
def submitLoadTasks (reservedObjs : Dict Key Obj) : List (Nat × spec.Grid) →
    spec.Session Obj → spec.Session Obj × Bool
  | [], s => (s, false)
  | (l2Idx, cells) :: rest, s =>
    let keys := gatherKeys spec.keyGroups cells
    if keys.isEmpty then submitLoadTasks reservedObjs rest s
    else
      match keys.mapM reservedObjs.get? with
      | none => (s, true)
      | some objects =>
        let task := env.submit s.world.trace.length
        let w := s.world.record (.submitLoad requestId l2Idx task keys objects)
        match task with
        | none => ({ s with world := w }, true)
        | some taskId =>
          submitLoadTasks reservedObjs rest ⟨w, { s.request with
            inflightLoadTasks := s.request.inflightLoadTasks.set l2Idx taskId }⟩

section

variable (s : spec.Session Obj)

/-- `_transition_to_load_phase` up to the submission of the load tasks. -/
def prepareLoad : spec.Session Obj × Dict Key Obj :=
  let activeL2Descs := adapters.l2Adapters.filter (isL2Eligible cfg spec adapters)
  let s := (planLoadRequest env cfg requestId spec activeL2Descs s).1
  let reserved := reserveStaging env cfg requestId spec s
  let s : spec.Session Obj :=
    ⟨reserved.world, { s.request with
      keyStates := { s.request.keyStates with l1ReservedKeys := reserved.l1ReservedKeys } }⟩
  if 0 < reserved.numFailedReservations then
    replan env cfg requestId spec activeL2Descs (dropUnreserved cfg requestId spec s)
      reserved.reservedObjs
  else (s, reserved.reservedObjs)

/-- `_transition_to_load_phase`; whether it raised. -/
def transitionToLoadPhase : spec.Session Obj × Bool :=
  let acc := prepareLoad env cfg requestId spec adapters s
  submitLoadTasks env requestId spec acc.2 acc.1.request.keyStates.l2LockedKeys.items acc.1

/-- The L1 and L2 calls `_poll_load_results` makes for one finished load. -/
def admitLoaded (planned loaded : spec.Grid) (w : World Key Obj) : World Key Obj :=
  let l1Idx := cfg.affinity adapterIdx
  let w := (gatherKeysByRow spec.keyGroups loaded).foldl (fun w row =>
      if row.2.isEmpty then w
      else w.callL1 env requestId l1Idx (.finishWriteAndReserveRead row.2 row.1.numKvReaders
        (getPrefetchWriteTag requestId))) w
  let w := deleteCells env requestId spec.keyGroups l1Idx (planned - loaded) w
  w.record (.submitUnlock requestId adapterIdx (gatherKeys spec.keyGroups planned))

/-- What `_poll_load_results` records of a finished load. -/
def recordLoad (planned loaded : spec.Grid) (r : spec.State) : spec.State :=
  let l1Idx := cfg.affinity adapterIdx
  let states := r.keyStates
  { r with
    keyStates :=
      { l1LockedKeys := states.l1LockedKeys.addCells l1Idx loaded
        l2LockedKeys := states.l2LockedKeys.erase adapterIdx
        l1ReservedKeys :=
          states.l1ReservedKeys.set l1Idx (states.l1ReservedKeys.grid l1Idx - planned) }
    inflightLoadTasks := r.inflightLoadTasks.erase adapterIdx
    l2LoadedCells := some ((r.l2LoadedCells.map (· + loaded)).getD loaded) }

/-- `_poll_load_results` over the adapters of the in-flight loads; whether a
query raised. -/
def pollLoadResults (signaled : List Nat) : List Nat → spec.Session Obj → spec.Session Obj × Bool
  | [], s => (s, false)
  | adapterIdx :: rest, s =>
    if adapterIdx ∉ signaled then pollLoadResults signaled rest s
    else
      match s.request.inflightLoadTasks.get? adapterIdx with
      | none => pollLoadResults signaled rest s
      | some taskId =>
        let noResult := { s with
          world := s.world.record (.loadReply requestId adapterIdx taskId none) }
        match env.reply s.world.trace.length with
        | .raises => (noResult, true)
        | .pending => pollLoadResults signaled rest noResult
        | .done bits =>
          let planned := s.request.keyStates.l2LockedKeys.grid adapterIdx
          let result := Bitmap.ofFn (selectedIndices planned).length bits
          match scatterBitmaps planned result with
          | .error _ => (noResult, true)
          | .ok loaded =>
            let w := s.world.record (.loadReply requestId adapterIdx taskId
              (some (gatherKeys spec.keyGroups loaded)))
            pollLoadResults signaled rest
              ⟨admitLoaded env cfg requestId spec adapterIdx planned loaded w,
                recordLoad cfg spec adapterIdx planned loaded s.request⟩

/-! ## One request, one step

The result is the world and the request as it stays in flight, `none` once it
is retired. -/

/-- `_finish_request` and `_retire_request`. -/
def finishAndRetire : World Key Obj :=
  let w := finishRequest env requestId spec s
  w.record (.retire requestId w.l1 .finished)

end

/-- `_start_lookup_phase`, with the handler of `_start_pending_requests`. -/
def startLookupPhase (w : World Key Obj) : World Key Obj × Option (spec.State) :=
  let s := lockL1Keys env cfg requestId spec ⟨w, .init⟩
  let activeAdapters := adapters.l2Adapters.filter (isL2Eligible cfg spec adapters)
  if activeAdapters.isEmpty || !needsL2Lookup spec s.request.keyStates.l1LockedKeys then
    (finishAndRetire env requestId spec (planLoadRequest env cfg requestId spec [] s).1, none)
  else
    let submitted := submitLookups env requestId spec activeAdapters s
    if submitted.2 then (abortRequest env requestId spec adapters.l2Adapters submitted.1, none)
    else (submitted.1.world, some submitted.1.request)

variable (signaledLookups signaledLoads : List Nat) (s : spec.Session Obj)

/-- The polling half of `_advance_request`; whether it raised. -/
def pollRequest : spec.Session Obj × Bool :=
  match s.request.phase with
  | .lookup =>
    let polled := pollLookupResults env requestId spec signaledLookups
      s.request.inflightLookupTasks.keys s
    if polled.2 then polled
    else if polled.1.request.inflightLookupTasks.entries.isEmpty then
      transitionToLoadPhase env cfg requestId spec adapters polled.1
    else polled
  | .planAndLoad =>
    pollLoadResults env cfg requestId spec signaledLoads s.request.inflightLoadTasks.keys s

/-- The signaled adapters a request in the phase waits for. -/
def signaledFor : PrefetchPhase → List Nat
  | .lookup => signaledLookups
  | .planAndLoad => signaledLoads

/-- `_advance_request`, with the handler of the loop. -/
def advanceRequest : World Key Obj × Option (spec.State) :=
  if (signaledFor signaledLookups signaledLoads s.request.phase).isEmpty then
    (s.world, some s.request)
  else
    let polled := pollRequest env cfg requestId spec adapters signaledLookups signaledLoads s
    if polled.2 then (abortRequest env requestId spec adapters.l2Adapters polled.1, none)
    else if polled.1.request.phase = .planAndLoad ∧
        polled.1.request.inflightLoadTasks.entries.isEmpty then
      (finishAndRetire env requestId spec polled.1, none)
    else (polled.1.world, some polled.1.request)

end

/-- A request served from L1 on the thread of `submit_prefetch_request`. -/
def serveFromL1 (w : World Key Obj) : World Key Obj :=
  let s := lockL1Keys env cfg requestId spec ⟨w, .init⟩
  finishRequest env requestId spec (planLoadRequest env cfg requestId spec [] s).1

end Request

/-! ## The controller -/

/-- Whether a request still refers to an adapter. -/
def RequestState.refersTo (r : RequestState m n) (adapterId : Nat) : Bool :=
  decide (adapterId ∈ r.inflightLookupTasks) || decide (adapterId ∈ r.inflightLoadTasks) ||
    decide (adapterId ∈ r.keyStates.l2LockedKeys)

/-- The fields of `PrefetchController` that change. -/
structure PrefetchController (Key Obj : Type) [DecidableEq Key] where
  adapters : AdapterTable
  inFlightRequests : Dict Nat (InFlightPrefetchRequest Key)
  pendingQueue : List (Nat × PrefetchTaskSpec Key)
  submissionQueue : List (Nat × PrefetchTaskSpec Key)
  nextRequestId : Nat
  stopped : Bool
  world : World Key Obj

namespace PrefetchController

/-- `__init__`. -/
def init (l2Adapters : List Nat) (hnodup : l2Adapters.Nodup) (config : Nat → L1ManagerConfig) :
    PrefetchController Key Obj where
  adapters := .init l2Adapters hnodup
  inFlightRequests := ∅
  pendingQueue := []
  submissionQueue := []
  nextRequestId := 0
  stopped := false
  world := ⟨fun idx => .init (config idx), []⟩

variable (env : Environment Key Obj) (cfg : PrefetchConfig) (c : PrefetchController Key Obj)

/-- `_adapter_in_use`. -/
def adapterInUse (adapterId : Nat) : Bool :=
  c.inFlightRequests.values.any fun request => request.state.refersTo adapterId

/-- `_get_max_load_bytes`. -/
def getMaxLoadBytes (groups : List (GroupedObjectKeys Key)) : Nat :=
  (groups.map fun group => group.keys.length * group.objectBytes).sum

/-- `_can_admit_new_prefetch`. -/
def canAdmitNewPrefetch (spec : PrefetchTaskSpec Key) : Bool :=
  if c.inFlightRequests.entries.isEmpty then true
  else
    let requestBytes : Int := getMaxLoadBytes spec.keyGroups
    let lookupBytes : Int :=
      ((c.inFlightRequests.values.filter fun request =>
        decide (request.state.phase = .lookup)).map fun request =>
          getMaxLoadBytes request.spec.keyGroups).sum
    let targets := (c.adapters.l2Adapters.filter fun idx =>
      decide (idx ∉ c.adapters.draining)).map cfg.affinity
    targets.all fun l1Idx =>
      let (usedBytes, totalBytes) := env.memoryUsage c.world.trace.length l1Idx
      let stagedBytes := (c.world.l1 l1Idx).stagingBytes + lookupBytes
      !decide ((stagedBytes : Rat) ≥ cfg.inflightWatermark * totalBytes) &&
        !decide ((totalBytes : Int) - usedBytes - lookupBytes < requestBytes)

/-- Put a request back into the in-flight table, or take it out. -/
def settle (requestId : Nat) (spec : PrefetchTaskSpec Key)
    (outcome : World Key Obj × Option (spec.State)) : PrefetchController Key Obj :=
  { c with
    world := outcome.1
    inFlightRequests :=
      match outcome.2 with
      | some state => c.inFlightRequests.set requestId ⟨spec, state⟩
      | none => c.inFlightRequests.erase requestId }

/-- `_start_pending_requests`. -/
def startPendingRequests : List (Nat × PrefetchTaskSpec Key) → PrefetchController Key Obj →
    PrefetchController Key Obj
  | [], c => { c with pendingQueue := [] }
  | (requestId, spec) :: rest, c =>
    if c.canAdmitNewPrefetch env cfg spec then
      startPendingRequests rest (c.settle requestId spec
        (startLookupPhase env cfg requestId spec c.adapters c.world))
    else { c with pendingQueue := (requestId, spec) :: rest }

/-- Loop body over the in-flight requests. -/
def advance (signaledLookups signaledLoads : List Nat) (c : PrefetchController Key Obj)
    (requestId : Nat) : PrefetchController Key Obj :=
  match c.inFlightRequests.get? requestId with
  | none => c
  | some request =>
    c.settle requestId request.spec (advanceRequest env cfg requestId request.spec c.adapters
      signaledLookups signaledLoads ⟨c.world, request.state⟩)

/-- The top of an iteration: `_apply_pending_adapter_ops`. -/
def wakeUp : PrefetchController Key Obj :=
  { c with
    world := c.world.record .wake
    adapters := c.adapters.applyPendingAdapterOps }

/-- `_drain_submission_queue`, when the submission event is set. -/
def drainSubmissionQueue (submissionReady : Bool) : PrefetchController Key Obj :=
  if submissionReady then
    { c with pendingQueue := c.pendingQueue ++ c.submissionQueue, submissionQueue := [] }
  else c

/-- Advance the in-flight requests, if an attached adapter signaled. -/
def advanceSignaled (lookups loads : List Nat) : PrefetchController Key Obj :=
  let lookups := lookups.filter fun idx => decide (idx ∈ c.adapters.l2Adapters)
  let loads := loads.filter fun idx => decide (idx ∈ c.adapters.l2Adapters)
  if lookups.isEmpty && loads.isEmpty then c
  else c.inFlightRequests.keys.foldl (advance env cfg lookups loads) c

/-- `_finalize_drained_adapters`. -/
def finalizeDrained : PrefetchController Key Obj :=
  { c with adapters := c.adapters.finalizeDrainedAdapters c.adapterInUse }

/-- One iteration of `_prefetch_loop`. `submissionReady` and the two lists are
what the poll reports; only attached adapters are polled. -/
def iterate (submissionReady : Bool) (lookups loads : List Nat) : PrefetchController Key Obj :=
  if c.stopped then c
  else
    let c := (c.wakeUp.drainSubmissionQueue submissionReady).advanceSignaled env cfg lookups loads
    (startPendingRequests env cfg c.pendingQueue c).finalizeDrained

/-- `submit_prefetch_request`. -/
def submitPrefetchRequest (spec : PrefetchTaskSpec Key) : PrefetchController Key Obj :=
  let requestId := c.nextRequestId
  let c := { c with nextRequestId := requestId + 1 }
  if spec.allowedL2MemoryTags = some [] ∨ c.adapters.l2Adapters = [] then
    { c with world := serveFromL1 env cfg requestId spec c.world }
  else { c with submissionQueue := c.submissionQueue ++ [(requestId, spec)] }

/-- Loop body of `_cleanup_in_flight_requests`. -/
def cleanup (c : PrefetchController Key Obj) (requestId : Nat) : PrefetchController Key Obj :=
  match c.inFlightRequests.get? requestId with
  | none => c
  | some request =>
    let w := releaseAllLocks env requestId request.spec.keyGroups c.adapters.l2Adapters
      ⟨c.world, request.state⟩
    { c with
      world := w.record (.retire requestId w.l1 .cleanedUp)
      inFlightRequests := c.inFlightRequests.erase requestId }

/-- `stop`. -/
def stop : PrefetchController Key Obj :=
  c.inFlightRequests.keys.foldl (cleanup env) { c with stopped := true }

/-- `add_adapter` and `request_remove_adapter`: an adapter without an L1
manager to load into is refused on the caller's thread. -/
def requestAdapterOp (op : AdapterOp) : PrefetchController Key Obj :=
  match op with
  | .add adapterId _ =>
    if (resolveL1Affinity (cfg.adapter adapterId).wantedL1MemoryTags cfg.l1Managers).isNone then c
    else { c with adapters := c.adapters.request op }
  | .remove _ _ => { c with adapters := c.adapters.request op }

/-- What happens to the controller. -/
inductive Event (Key : Type) where
  | submit (spec : PrefetchTaskSpec Key)
  | adapterOp (op : AdapterOp)
  | iterate (submissionReady : Bool) (lookups loads : List Nat)
  | stop

def step (c : PrefetchController Key Obj) : Event Key → PrefetchController Key Obj
  | .submit spec => c.submitPrefetchRequest env cfg spec
  | .adapterOp op => c.requestAdapterOp cfg op
  | .iterate submissionReady lookups loads => c.iterate env cfg submissionReady lookups loads
  | .stop => c.stop env

end PrefetchController

end LMCache.StorageControllers
