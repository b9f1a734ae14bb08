/-
LMCache.L1Manager.Base — the object lifecycle state machine of the L1
cache (`lmcache/v1/distributed/l1_manager/base.py`).

Each public method of `BaseL1Manager` is a function from the manager's
state to its result and next state; the method's `for key in keys` loop is
a `foldl` of a named loop body, with the method's local lists as the
accumulator. Four things stand outside the manager and are made explicit:

* the clock — `now` is what `TTLLock` reads during the call. Methods run
  under the manager lock; one reading serves the whole call.
* the allocator — `reserve_write` receives the outcome of its one
  `allocate` call as an argument (`AllocOutcome`), and the state records
  which objects are handed out (`MemoryManager.live`) and every free of an
  object that is not (`MemoryManager.doubleFreed`).
* the listeners and the event bus — `log` is the sequence of callbacks and
  published events, oldest first. Every listener sees the same callbacks
  in this order and none of them calls back into the manager.
* object sizes — `get_size()` is read when an object is staged, so it
  comes with the allocator's outcome.

Keys are only compared, so the key type is a parameter; so is the type of
memory objects. Left out: logging, gauges, the `meta` and `l1_tag` fields
of events, status reporting.
-/
import LMCache.Lib.Dict
import LMCache.Native.TTLLock

namespace LMCache.L1Manager

open Lib Native

/-! ## Data -/

/-- `error.py`, `L1Error`. -/
inductive L1Error where
  | success
  | keyNotExist
  | keyNotReadable
  | keyNotWritable
  | keyInWrongState
  | keyIsLocked
  | outOfMemory
  deriving DecidableEq, Repr

/-- `L1OperationResult`: an error code and, on success, the object. -/
abbrev L1OperationResult (Obj : Type) := L1Error × Option Obj

/-- Callbacks of `L1ManagerListener`. -/
inductive L1Notice (Key : Type) where
  | reservedRead (keys : List Key)
  | readFinished (keys : List Key)
  | reservedWrite (keys : List Key)
  | writeFinished (keys : List Key)
  | finishWriteAndReserveRead (keys : List Key)
  | deletedByManager (keys : List Key)
  | accessed (keys : List Key)
  deriving DecidableEq, Repr

/-- Events the manager publishes on the event bus. -/
inductive L1Event (Key : Type) where
  | readReserved (keys : List Key)
  | readFinished (keys : List Key)
  | writeReserved (keys : List Key) (tag : String)
  | writeFinished (keys : List Key)
  | writeFinishedAndReadReserved (keys : List Key)
  | keysEvicted (keys : List Key)
  | keysAccessed (keys : List Key)
  deriving DecidableEq, Repr

inductive Report (Key : Type) where
  | notice (n : L1Notice Key)
  | event (e : L1Event Key)
  deriving DecidableEq, Repr

/-- `L1ObjectState`. -/
structure L1ObjectState (Obj : Type) where
  memoryObj : Obj
  writeLock : TTLLock
  readLock : TTLLock
  isTemporary : Bool
  stagingCharge : Nat
  deriving DecidableEq, Repr

/-- The allocator as the manager sees it: what is handed out, and what was
passed to `free` without being handed out. -/
structure MemoryManager (Obj : Type) where
  live : List Obj
  doubleFreed : List Obj
  deriving DecidableEq, Repr

/-- The answer of one `allocate(layout, count)` call: an error code and
the objects with their sizes. -/
structure AllocOutcome (Obj : Type) where
  err : L1Error
  objs : List (Obj × Nat)
  deriving DecidableEq, Repr

/-- The part of `L1ManagerConfig` the manager reads. -/
structure L1ManagerConfig where
  writeTtlSeconds : Nat
  readTtlSeconds : Nat
  deriving DecidableEq, Repr

/-- The fields of `BaseL1Manager`. -/
structure L1State (Key Obj : Type) [DecidableEq Key] where
  config : L1ManagerConfig
  objects : Dict Key (L1ObjectState Obj)
  staging : NestedDict Key String (L1ObjectState Obj)
  stagingBytes : Int
  memoryManager : MemoryManager Obj
  log : List (Report Key)

variable {Key Obj : Type} [DecidableEq Key] [DecidableEq Obj]

/-- `__init__`. -/
def L1State.init (config : L1ManagerConfig) : L1State Key Obj where
  config := config
  objects := ∅
  staging := ∅
  stagingBytes := 0
  memoryManager := ⟨[], []⟩
  log := []

/-- `MAX_READ_LOCK_COUNT`. -/
def maxReadLockCount : Int := 128

/-- `validate_read_locks`. -/
def validateReadLocks (readLocks : Int) : Nat :=
  if readLocks < 1 then 1
  else if readLocks > maxReadLockCount then maxReadLockCount.toNat
  else readLocks.toNat

/-! ## The allocator -/

namespace MemoryManager

variable (m : MemoryManager Obj)

def handOut (objs : List Obj) : MemoryManager Obj :=
  { m with live := objs ++ m.live }

def freeOne (o : Obj) : MemoryManager Obj :=
  if o ∈ m.live then { m with live := m.live.erase o }
  else { m with doubleFreed := m.doubleFreed ++ [o] }

/-- `free(objs)`. -/
def free (objs : List Obj) : MemoryManager Obj :=
  objs.foldl freeOne m

end MemoryManager

namespace L1State

variable (s : L1State Key Obj)

def free (objs : List Obj) : L1State Key Obj :=
  { s with memoryManager := s.memoryManager.free objs }

def report (rs : List (Report Key)) : L1State Key Obj := { s with log := s.log ++ rs }

/-! ## Private helpers -/

section

variable (key : Key) (tag : String)

/-- `_get_staging`. -/
def getStaging : Option (L1ObjectState Obj) :=
  s.staging.get? key tag

/-- `_put_staging`; `size` is `entry.memory_obj.get_size()`. -/
def putStaging (entry : L1ObjectState Obj) (size : Nat) : L1State Key Obj :=
  { s with
    staging := s.staging.put key tag { entry with stagingCharge := size }
    stagingBytes := s.stagingBytes + size }

/-- `_pop_staging`; `none` is the `KeyError` of a caller that did not check. -/
def popStaging : Option (L1ObjectState Obj × L1State Key Obj) :=
  match s.staging.get? key tag with
  | none => none
  | some entry =>
    some ({ entry with stagingCharge := 0 }, { s with
        staging := s.staging.pop key tag
        stagingBytes := s.stagingBytes - entry.stagingCharge })

end

section

variable (now : Int) (key : Key) (force : Bool)

/-- `_take_staging`. -/
def takeStaging (tag : String) : (L1Error × Option (L1ObjectState Obj)) × L1State Key Obj :=
  match s.getStaging key tag with
  | none => ((.keyNotExist, none), s)
  | some staged =>
    if !staged.writeLock.isLocked now then ((.keyInWrongState, none), s)
    else
      match s.popStaging key tag with
      | none => ((.keyNotExist, none), s)
      | some (entry, s') =>
        -- the entry is unlocked before it is popped; the two commute
        ((.success, some { entry with writeLock := entry.writeLock.unlock }), s')

/-- Loop body of `_reclaim_staging`. -/
def reclaimTag (acc : L1State Key Obj × List Obj) (item : String × L1ObjectState Obj) :
    L1State Key Obj × List Obj :=
  if item.2.writeLock.isLocked now && !force then acc
  else
    match acc.1.popStaging key item.1 with
    | none => acc
    | some (entry, s') => (s', acc.2 ++ [entry.memoryObj])

/-- `_reclaim_staging`: the number of staging objects freed, and the state. -/
def reclaimStaging : Nat × L1State Key Obj :=
  let acc := (s.staging.inner key).entries.foldl (reclaimTag now key force) (s, [])
  (acc.2.length, acc.1.free acc.2)

end

variable (keys : List Key)

/-- `_report_read_reserved`. -/
def reportReadReserved : L1State Key Obj :=
  s.report [.notice (.reservedRead keys), .event (.readReserved keys)]

/-- `_report_staging_gone`. -/
def reportStagingGone : L1State Key Obj :=
  if keys.isEmpty then s else s.report [.notice (.deletedByManager keys)]

/-- `_free_and_report_deleted`. -/
def freeAndReportDeleted (objs : List Obj) : L1State Key Obj :=
  (s.free objs).report [.notice (.deletedByManager keys), .event (.keysEvicted keys)]

end L1State

/-! ## Reading -/

structure ReserveReadAcc (Key Obj : Type) [DecidableEq Key] where
  st : L1State Key Obj
  ret : Dict Key (L1OperationResult Obj)
  successfulKeys : List Key

section

variable (now : Int) (keys : List Key) (force : Bool)

def reserveReadKey (total : Nat) (acc : ReserveReadAcc Key Obj) (key : Key) :
    ReserveReadAcc Key Obj :=
  match acc.st.objects.get? key with
  | none => { acc with ret := acc.ret.set key (.keyNotExist, none) }
  | some entry =>
    { st := { acc.st with
        objects := acc.st.objects.set key
          { entry with readLock := entry.readLock.lockTimes now total } }
      ret := acc.ret.set key (.success, some entry.memoryObj)
      successfulKeys := acc.successfulKeys ++ [key] }

section

variable (total : Nat) (readLocks : Int)

section

variable (s : L1State Key Obj)

/-- `reserve_read`. -/
def reserveRead : Dict Key (L1OperationResult Obj) × L1State Key Obj :=
  let acc := keys.foldl (reserveReadKey now (validateReadLocks readLocks)) ⟨s, ∅, []⟩
  (acc.ret, acc.st.reportReadReserved acc.successfulKeys)

def unsafeReadKey (ret : Dict Key (L1OperationResult Obj)) (key : Key) :
    Dict Key (L1OperationResult Obj) :=
  match s.objects.get? key with
  | none => ret.set key (.keyNotExist, none)
  | some entry =>
    if !entry.readLock.isLocked now then ret.set key (.keyNotReadable, none)
    else ret.set key (.success, some entry.memoryObj)

/-- `unsafe_read`. -/
def unsafeRead : Dict Key (L1OperationResult Obj) :=
  keys.foldl (unsafeReadKey now s) ∅

structure FinishReadAcc (Key Obj : Type) [DecidableEq Key] where
  st : L1State Key Obj
  ret : Dict Key L1Error
  needToFree : List Obj
  needToFreeKeys : List Key
  successfulKeys : List Key

def finishReadKey (acc : FinishReadAcc Key Obj) (key : Key) : FinishReadAcc Key Obj :=
  match acc.st.objects.get? key with
  | none => { acc with ret := acc.ret.set key .keyNotExist }
  | some entry =>
    if !entry.readLock.isLocked now then { acc with ret := acc.ret.set key .keyInWrongState }
    else
      let readLock := entry.readLock.unlockTimes total
      if entry.isTemporary && !readLock.isLocked now then
        { st := { acc.st with objects := acc.st.objects.erase key }
          ret := acc.ret.set key .success
          needToFree := acc.needToFree ++ [entry.memoryObj]
          needToFreeKeys := acc.needToFreeKeys ++ [key]
          successfulKeys := acc.successfulKeys ++ [key] }
      else
        { acc with
          st := { acc.st with
            objects := acc.st.objects.set key { entry with readLock := readLock } }
          ret := acc.ret.set key .success
          successfulKeys := acc.successfulKeys ++ [key] }

/-- `finish_read`. -/
def finishRead : Dict Key L1Error × L1State Key Obj :=
  let acc := keys.foldl (finishReadKey now (validateReadLocks readLocks)) ⟨s, ∅, [], [], []⟩
  (acc.ret, (acc.st.free acc.needToFree).report
    [.notice (.readFinished acc.successfulKeys), .notice (.deletedByManager acc.needToFreeKeys),
     .event (.readFinished acc.successfulKeys), .event (.keysEvicted acc.needToFreeKeys)])

end

/-! ## Writing -/

structure ReserveWriteAcc (Key Obj : Type) [DecidableEq Key] where
  st : L1State Key Obj
  ret : Dict Key (L1OperationResult Obj)
  successfulKeys : List Key
  needToAllocate : List (Key × Bool)

def reserveWriteKey (tag : String) (acc : ReserveWriteAcc Key Obj) (item : Key × Bool) :
    ReserveWriteAcc Key Obj :=
  let (key, isTemp) := item
  if key ∈ acc.st.objects then
    { acc with ret := acc.ret.set key (.keyNotWritable, none) }
  else
    match acc.st.getStaging key tag with
    | none => { acc with needToAllocate := acc.needToAllocate ++ [(key, isTemp)] }
    | some staged =>
      if staged.writeLock.isLocked now then
        { acc with ret := acc.ret.set key (.keyNotWritable, none) }
      else
        -- the previous reservation expired: hand the buffer over
        { acc with
          st := { acc.st with
            staging := acc.st.staging.put key tag { staged with
                writeLock := staged.writeLock.lock now
                isTemporary := isTemp } }
          ret := acc.ret.set key (.success, some staged.memoryObj)
          successfulKeys := acc.successfulKeys ++ [key] }

def stageAllocated (tag : String) (acc : ReserveWriteAcc Key Obj)
    (item : (Key × Bool) × (Obj × Nat)) : ReserveWriteAcc Key Obj :=
  let ((key, isTemp), (memObj, size)) := item
  let entry : L1ObjectState Obj :=
    { memoryObj := memObj
      writeLock := (TTLLock.new acc.st.config.writeTtlSeconds).lock now
      readLock := TTLLock.new acc.st.config.readTtlSeconds
      isTemporary := isTemp
      stagingCharge := 0 }
  { acc with
    st := acc.st.putStaging key tag entry size
    ret := acc.ret.set key (.success, some memObj)
    successfulKeys := acc.successfulKeys ++ [key] }

/-- The allocation half of `reserve_write`, entered with a non-empty
`need_to_allocate`. -/
def allocateAndStage (tag : String) (alloc : AllocOutcome Obj) (acc : ReserveWriteAcc Key Obj) :
    ReserveWriteAcc Key Obj :=
  let objs := alloc.objs.map Prod.fst
  let handed : L1State Key Obj :=
    { acc.st with memoryManager := acc.st.memoryManager.handOut objs }
  if alloc.err ≠ .success then
    { acc with
      st := handed.free objs
      ret := acc.needToAllocate.foldl (fun ret p => ret.set p.1 (.outOfMemory, none)) acc.ret }
  else
    (acc.needToAllocate.zip alloc.objs).foldl (stageAllocated now tag) { acc with st := handed }

/-- `reserve_write`. The error is the `ValueError` of lists of different
lengths. -/
def reserveWrite (isTemporary : List Bool) (tag : String) (alloc : AllocOutcome Obj)
    (s : L1State Key Obj) : Except String (Dict Key (L1OperationResult Obj) × L1State Key Obj) :=
  if keys.length ≠ isTemporary.length then
    .error s!"L1Manager.reserve_write: {keys.length} keys but {isTemporary.length} is_temporary flags"
  else
    let acc := (keys.zip isTemporary).foldl (reserveWriteKey now tag) ⟨s, ∅, [], []⟩
    if acc.needToAllocate.length = 0 then .ok (acc.ret, acc.st)
    else
      let acc := allocateAndStage now tag alloc acc
      .ok (acc.ret, acc.st.report [.notice (.reservedWrite acc.successfulKeys),
         .event (.writeReserved acc.successfulKeys tag)])

structure FinishWriteAcc (Key Obj : Type) [DecidableEq Key] where
  st : L1State Key Obj
  ret : Dict Key L1Error
  notificationKeys : List Key
  discarded : List Obj

variable (tag : String) (s : L1State Key Obj)

def finishWriteKey (acc : FinishWriteAcc Key Obj) (key : Key) : FinishWriteAcc Key Obj :=
  let ((err, entry?), st) := acc.st.takeStaging now key tag
  let acc := { acc with st := st, ret := acc.ret.set key err }
  match entry? with
  | none => acc
  | some entry =>
    if key ∈ st.objects then { acc with discarded := acc.discarded ++ [entry.memoryObj] }
    else
      { acc with
        st := { st with objects := st.objects.set key entry }
        notificationKeys :=
          if !entry.isTemporary then acc.notificationKeys ++ [key] else acc.notificationKeys }

/-- `finish_write`. -/
def finishWrite : Dict Key L1Error × L1State Key Obj :=
  let acc := keys.foldl (finishWriteKey now tag) ⟨s, ∅, [], []⟩
  let st := acc.st.free acc.discarded
  (acc.ret, if acc.notificationKeys.isEmpty then st
    else st.report [.notice (.writeFinished acc.notificationKeys),
                    .event (.writeFinished acc.notificationKeys)])

structure FinishWriteReserveReadAcc (Key Obj : Type) [DecidableEq Key] where
  st : L1State Key Obj
  ret : Dict Key (L1OperationResult Obj)
  successfulKeys : List Key
  residentKeys : List Key
  discarded : List Obj

def finishWriteAndReserveReadKey (acc : FinishWriteReserveReadAcc Key Obj) (key : Key) :
    FinishWriteReserveReadAcc Key Obj :=
  let ((err, entry?), st) := acc.st.takeStaging now key tag
  match entry? with
  | none => { acc with st := st, ret := acc.ret.set key (err, none) }
  | some entry =>
    match st.objects.get? key with
    | none =>
      { acc with
        st := { st with
          objects := st.objects.set key
            { entry with readLock := entry.readLock.lockTimes now total } }
        successfulKeys := acc.successfulKeys ++ [key]
        ret := acc.ret.set key (.success, some entry.memoryObj) }
    | some resident =>
      { acc with
        st := { st with
          objects := st.objects.set key
            { resident with readLock := resident.readLock.lockTimes now total } }
        discarded := acc.discarded ++ [entry.memoryObj]
        residentKeys := acc.residentKeys ++ [key]
        ret := acc.ret.set key (.success, some resident.memoryObj) }

/-- `finish_write_and_reserve_read`. -/
def finishWriteAndReserveRead : Dict Key (L1OperationResult Obj) × L1State Key Obj :=
  let acc := keys.foldl
    (finishWriteAndReserveReadKey now (validateReadLocks readLocks) tag) ⟨s, ∅, [], [], []⟩
  let st := acc.st.free acc.discarded
  let st := if acc.residentKeys.isEmpty then st else st.reportReadReserved acc.residentKeys
  (acc.ret, st.report [.notice (.finishWriteAndReserveRead acc.successfulKeys),
                       .event (.writeFinishedAndReadReserved acc.successfulKeys)])

end

structure FinishWriteDeleteAcc (Key Obj : Type) [DecidableEq Key] where
  st : L1State Key Obj
  ret : Dict Key L1Error
  discarded : List Obj
  goneKeys : List Key

def finishWriteAndDeleteKey (tag : String) (acc : FinishWriteDeleteAcc Key Obj) (key : Key) :
    FinishWriteDeleteAcc Key Obj :=
  let ((err, entry?), st) := acc.st.takeStaging now key tag
  let acc := { acc with st := st, ret := acc.ret.set key err }
  match entry? with
  | none => acc
  | some entry =>
    { acc with
      discarded := acc.discarded ++ [entry.memoryObj]
      goneKeys :=
        if key ∉ st.objects ∧ key ∉ st.staging then acc.goneKeys ++ [key] else acc.goneKeys }

/-- `finish_write_and_delete`. -/
def finishWriteAndDelete (tag : String) (s : L1State Key Obj) :
    Dict Key L1Error × L1State Key Obj :=
  let acc := keys.foldl (finishWriteAndDeleteKey now tag) ⟨s, ∅, [], []⟩
  (acc.ret, (acc.st.free acc.discarded).reportStagingGone acc.goneKeys)

/-! ## Deleting -/

structure DeleteAcc (Key Obj : Type) [DecidableEq Key] where
  st : L1State Key Obj
  ret : Dict Key L1Error
  needToFree : List Obj
  successfulKeys : List Key
  goneKeys : List Key

def deleteKey (acc : DeleteAcc Key Obj) (key : Key) : DeleteAcc Key Obj :=
  let entry? := acc.st.objects.get? key
  if entry?.isNone ∧ key ∉ acc.st.staging then
    { acc with ret := acc.ret.set key .keyNotExist }
  else
    let acc := { acc with st := (acc.st.reclaimStaging now key force).2 }
    -- a live reservation still pins the key
    if key ∈ acc.st.staging then { acc with ret := acc.ret.set key .keyIsLocked }
    else
      match entry? with
      | none =>
        { acc with ret := acc.ret.set key .success, goneKeys := acc.goneKeys ++ [key] }
      | some entry =>
        if entry.readLock.isLocked now && !force then
          { acc with ret := acc.ret.set key .keyIsLocked }
        else
          { acc with
            st := { acc.st with objects := acc.st.objects.erase key }
            ret := acc.ret.set key .success
            needToFree := acc.needToFree ++ [entry.memoryObj]
            successfulKeys := acc.successfulKeys ++ [key] }

/-- `delete`. -/
def delete (s : L1State Key Obj) : Dict Key L1Error × L1State Key Obj :=
  let acc := keys.foldl (deleteKey now force) ⟨s, ∅, [], [], []⟩
  (acc.ret, (acc.st.freeAndReportDeleted acc.successfulKeys acc.needToFree).reportStagingGone
    acc.goneKeys)

section

variable (gone : Nat → L1State Key Obj → Key → Bool)

/-- Loop body of the staging half of `clear`; `gone` decides from the number
of reclaimed entries and the state after the reclaim whether to report. -/
def clearStagingKey (acc : L1State Key Obj × List Key) (key : Key) : L1State Key Obj × List Key :=
  let r := acc.1.reclaimStaging now key force
  (r.2, if gone r.1 r.2 key then acc.2 ++ [key] else acc.2)

/-- The staging half of `clear`. -/
def clearStaging (s : L1State Key Obj) : L1State Key Obj × List Key :=
  s.staging.keys.foldl (clearStagingKey now force gone) (s, [])

end

/-- `reclaimed and key not in self._staging and key not in self._objects`. -/
def goneKey (reclaimed : Nat) (st : L1State Key Obj) (key : Key) : Bool :=
  decide (reclaimed ≠ 0) && decide (key ∉ st.staging) && decide (key ∉ st.objects)

section

variable (s : L1State Key Obj)

/-- `clear(force=True)`. -/
def clearForced : L1State Key Obj :=
  let allKeys := s.objects.keys
  let allMemoryObjs := s.objects.values.map L1ObjectState.memoryObj
  let st := { s.free allMemoryObjs with objects := ∅ }
  let st := st.report [.notice (.deletedByManager allKeys), .event (.keysEvicted allKeys)]
  let stagingKeys := st.staging.keys.filter (fun k => k ∉ allKeys)
  (clearStaging now true (fun _ _ _ => false) st).1.reportStagingGone stagingKeys

/-- `clear(force=False)`. -/
def clearUnlocked : L1State Key Obj :=
  let unlocked := s.objects.entries.filter (fun p => !p.2.readLock.isLocked now)
  let keysToClear := unlocked.map Prod.fst
  let objsToFree := unlocked.map (fun p => p.2.memoryObj)
  let st := { s with objects := keysToClear.foldl Dict.erase s.objects }
  let st := if keysToClear.isEmpty then st else st.freeAndReportDeleted keysToClear objsToFree
  let cleared := clearStaging now false goneKey st
  cleared.1.reportStagingGone cleared.2

/-- `clear`. -/
def clear : L1State Key Obj :=
  if force then clearForced now s else clearUnlocked now s

end

/-! ## Access hints -/

/-- `touch_keys`; `hasSubscribers` is the bus's answer for `L1_KEYS_ACCESSED`. -/
def touchKeys (hasSubscribers : Bool) (s : L1State Key Obj) : L1State Key Obj :=
  s.report (.notice (.accessed keys) ::
    if hasSubscribers then [.event (.keysAccessed keys)] else [])

end

/-! ## The manager as a state machine -/

/-- One call on the manager. The allocator's answer travels with the call
that asks for it. -/
inductive L1Op (Key Obj : Type) where
  | reserveRead (keys : List Key) (readLocks : Int)
  | unsafeRead (keys : List Key)
  | finishRead (keys : List Key) (readLocks : Int)
  | reserveWrite (keys : List Key) (isTemporary : List Bool) (tag : String)
      (alloc : AllocOutcome Obj)
  | finishWrite (keys : List Key) (tag : String)
  | finishWriteAndReserveRead (keys : List Key) (readLocks : Int) (tag : String)
  | finishWriteAndDelete (keys : List Key) (tag : String)
  | delete (keys : List Key) (force : Bool)
  | clear (force : Bool)
  | touchKeys (keys : List Key) (hasSubscribers : Bool)
  deriving DecidableEq, Repr

/-- A call and the clock reading it is served at. -/
structure L1Call (Key Obj : Type) where
  now : Int
  op : L1Op Key Obj
  deriving DecidableEq, Repr

/-- The state after a call. A call that raises leaves the state as it was. -/
def L1State.step (s : L1State Key Obj) (c : L1Call Key Obj) : L1State Key Obj :=
  match c.op with
  | .reserveRead keys n => (reserveRead c.now keys n s).2
  | .unsafeRead _ => s
  | .finishRead keys n => (finishRead c.now keys n s).2
  | .reserveWrite keys temps tag alloc =>
    match reserveWrite c.now keys temps tag alloc s with
    | .ok (_, s') => s'
    | .error _ => s
  | .finishWrite keys tag => (finishWrite c.now keys tag s).2
  | .finishWriteAndReserveRead keys n tag => (finishWriteAndReserveRead c.now keys n tag s).2
  | .finishWriteAndDelete keys tag => (finishWriteAndDelete c.now keys tag s).2
  | .delete keys force => (delete c.now keys force s).2
  | .clear force => clear c.now force s
  | .touchKeys keys hasSubscribers => touchKeys keys hasSubscribers s

end LMCache.L1Manager
