/-
LMCache.RawBlock.Core — the raw-block store in memory: key index, in-flight
writes, lock counts and the slot allocator.

A `put_many` reserves slots under the store's lock, writes to the device
without it, and takes the lock again to commit or give the slots back. Each
function here is one such section under the lock, so a run of the store with
any number of threads is a sequence of them (`Section`). The sections say
nothing about which thread runs them: no result below needs it.

The free pool exists twice when slot affinity is on. `freeSlots` has every
free slot; `freeSlotsByPlacementId` files those whose last placement
identifier (`slotPlacementIds`) is known. Both are Python dictionaries used
as stacks: `popitem` takes the newest entry.
-/
import LMCache.Lib.Dict

namespace LMCache.RawBlock

open Lib

variable {Key Meta : Type} [DecidableEq Key]

/-- What the constructor fixes: the layout on the device and the switches. -/
structure Config where
  blockAlign : Nat
  headerBytes : Nat
  slotBytes : Nat
  dataBaseOffset : Nat
  maxSlots : Nat
  requiresTransferAlignment : Bool
  fdpSlotAffinityEnabled : Bool
  header_lt_slot : headerBytes < slotBytes

structure Entry (Meta : Type) where
  offset : Nat
  size : Nat
  metadata : Meta
deriving DecidableEq

structure Inflight (Meta : Type) where
  offset : Nat
  size : Nat
  metadata : Meta
  canceled : Bool
deriving DecidableEq

structure RawBlockCore (Key Meta : Type) where
  index : Dict Key (Entry Meta)
  lockRefcnt : Dict Key Nat
  inflight : Dict Key (Inflight Meta)
  nextSlot : Nat
  freeSlots : Dict Nat Unit
  freeSlotsByPlacementId : NestedDict Nat Nat Unit
  slotPlacementIds : Dict Nat Nat
  fdpSlotAffinityHitCount : Nat
  fdpSlotAffinityFallbackCount : Nat
  metaDirtyTotal : Nat
  metaPersisted : Nat
  metaSeq : Nat
  closed : Bool

/-- A key with the object to store under it. -/
structure PutItem (Key Meta : Type) where
  key : Key
  size : Nat
  metadata : Meta
  placementId : Option Nat

section

variable (cfg : Config) (slot : Nat)

def Config.slotToOffset : Nat := cfg.dataBaseOffset + slot * cfg.slotBytes

def Config.offsetToSlot (offset : Nat) : Nat :=
  (offset - cfg.dataBaseOffset) / cfg.slotBytes

lemma Config.offsetToSlot_slotToOffset : cfg.offsetToSlot (cfg.slotToOffset slot) = slot := by
  have hpos : 0 < cfg.slotBytes := Nat.lt_of_le_of_lt (Nat.zero_le _) cfg.header_lt_slot
  rw [Config.offsetToSlot, Config.slotToOffset, Nat.add_sub_cancel_left, Nat.mul_div_cancel _ hpos]

def roundUp (x align : Nat) : Nat := (x + align - 1) / align * align

/-- `_payload_fits_slot` -/
def Config.payloadFitsSlot (payloadLen : Nat) : Bool :=
  let payloadCapacity := cfg.slotBytes - cfg.headerBytes
  if payloadLen > payloadCapacity then false
  else if cfg.requiresTransferAlignment then roundUp payloadLen cfg.blockAlign ≤ payloadCapacity
  else true

end

namespace RawBlockCore

def empty : RawBlockCore Key Meta where
  index := ∅
  lockRefcnt := ∅
  inflight := ∅
  nextSlot := 0
  freeSlots := ∅
  freeSlotsByPlacementId := ∅
  slotPlacementIds := ∅
  fdpSlotAffinityHitCount := 0
  fdpSlotAffinityFallbackCount := 0
  metaDirtyTotal := 0
  metaPersisted := 0
  metaSeq := 0
  closed := false

variable (cfg : Config) (c : RawBlockCore Key Meta)

/-! ## Slots -/

section

variable (slot : Nat) (placementId : Option Nat)

/-- `_set_slot_placement_id_locked` -/
def setSlotPlacementId : RawBlockCore Key Meta :=
  { c with
    slotPlacementIds :=
      match placementId with
      | some pid =>
        if cfg.fdpSlotAffinityEnabled then c.slotPlacementIds.set slot pid
        else c.slotPlacementIds.erase slot
      | none => c.slotPlacementIds.erase slot }

/-- `_remove_slot_from_affinity_pool_locked` -/
def removeSlotFromAffinityPool : RawBlockCore Key Meta :=
  match c.slotPlacementIds.get? slot with
  | none => c
  | some pid => { c with freeSlotsByPlacementId := c.freeSlotsByPlacementId.pop pid slot }

/-- `popitem()` of the pool of `placement_id`, if affinity is on and it has one. -/
def affinitySlot? : Option (Nat × Nat) :=
  match placementId with
  | some pid =>
    if cfg.fdpSlotAffinityEnabled then
      (c.freeSlotsByPlacementId.inner pid).entries.getLast?.map fun slot => (pid, slot.1)
    else none
  | none => none

/-- `_allocate_slot_locked`; `none` where it raises. -/
def allocateSlot : Option (Nat × RawBlockCore Key Meta) :=
  match c.affinitySlot? cfg placementId with
  | some (pid, slot) =>
    let c :=
      { c with
        freeSlotsByPlacementId := c.freeSlotsByPlacementId.pop pid slot
        freeSlots := c.freeSlots.erase slot
        fdpSlotAffinityHitCount := c.fdpSlotAffinityHitCount + 1 }
    some (cfg.slotToOffset slot, c.setSlotPlacementId cfg slot placementId)
  | none =>
    match c.freeSlots.entries.getLast? with
    | some (slot, _) =>
      let c := { c with freeSlots := c.freeSlots.erase slot }
      let c := c.removeSlotFromAffinityPool slot
      let c :=
        if cfg.fdpSlotAffinityEnabled ∧ placementId.isSome then
          { c with fdpSlotAffinityFallbackCount := c.fdpSlotAffinityFallbackCount + 1 }
        else c
      some (cfg.slotToOffset slot, c.setSlotPlacementId cfg slot placementId)
    | none =>
      if c.nextSlot < cfg.maxSlots then
        let slot := c.nextSlot
        let c := { c with nextSlot := c.nextSlot + 1 }
        some (cfg.slotToOffset slot, c.setSlotPlacementId cfg slot placementId)
      else none

/-- `_append_free_slot_locked` -/
def appendFreeSlot : RawBlockCore Key Meta :=
  if slot ≥ cfg.maxSlots then c
  else if slot ∈ c.freeSlots then c
  else
    let c := { c with freeSlots := c.freeSlots.set slot () }
    if cfg.fdpSlotAffinityEnabled then
      match c.slotPlacementIds.get? slot with
      | some pid => { c with freeSlotsByPlacementId := c.freeSlotsByPlacementId.put pid slot () }
      | none => c
    else c

end

/-! ## Puts -/

/-- The first section of a put: what `put_many` does for one key. The batched
path asks `requireFit` first; the other finds out when it writes. -/
def reserve (requireFit : Bool) (item : PutItem Key Meta) : RawBlockCore Key Meta :=
  if c.closed then c
  else if item.key ∈ c.index then c
  else if item.key ∈ c.inflight then c
  else if requireFit ∧ cfg.payloadFitsSlot item.size = false then c
  else
    match c.allocateSlot cfg item.placementId with
    | none => c
    | some (offset, c) =>
      { c with inflight := c.inflight.set item.key ⟨offset, item.size, item.metadata, false⟩ }

/-- The first section of `_put_many_batch_io_chunk`. A key that occurs again in
the chunk is in flight by then, so its own branch leaves the store alone too. -/
def reserveChunk (items : List (PutItem Key Meta)) : RawBlockCore Key Meta :=
  items.foldl (fun c item => c.reserve cfg true item) c

/-- The slot of a popped in-flight write goes back to the pool. -/
def giveSlotBack (offset : Nat) : RawBlockCore Key Meta :=
  let c := c.appendFreeSlot cfg (cfg.offsetToSlot offset)
  { c with metaDirtyTotal := c.metaDirtyTotal + 1 }

/-- The section after a failed buffer preparation. -/
def abandon (key : Key) : RawBlockCore Key Meta :=
  match c.inflight.get? key with
  | none => c
  | some write => { c with inflight := c.inflight.erase key }.giveSlotBack cfg write.offset

/-- The last section of a put: commit, or give the slot back when the write
failed or a delete came in between. -/
def settle (success : Bool) (key : Key) : RawBlockCore Key Meta :=
  match c.inflight.get? key with
  | none => c
  | some write =>
    let c := { c with inflight := c.inflight.erase key }
    if write.canceled ∨ success = false then c.giveSlotBack cfg write.offset
    else
      { c with
        index := c.index.set key ⟨write.offset, write.size, write.metadata⟩
        metaDirtyTotal := c.metaDirtyTotal + 1 }

/-- The last section of `_put_many_batch_io_chunk`: one result for all keys
whose buffers were written. -/
def settleChunk (success : Bool) (keys : List Key) : RawBlockCore Key Meta :=
  keys.foldl (fun c key => c.settle cfg success key) c

/-! ## Locks and deletes -/

def lockOne (key : Key) : RawBlockCore Key Meta :=
  if key ∈ c.index then
    { c with lockRefcnt := c.lockRefcnt.set key ((c.lockRefcnt.get? key).getD 0 + 1) }
  else c

/-- `exists_many`. A failed I/O worker reports misses and locks nothing. -/
def existsMany (workerFailed : Bool) (keys : List Key) (lock : Bool) :
    RawBlockCore Key Meta × List Bool :=
  if workerFailed then (c, keys.map fun _ => false)
  else (if lock then keys.foldl lockOne c else c, keys.map (· ∈ c.index))

section

variable (keys : List Key) (force : Bool) (key : Key)

/-- `get_metadata_prefix`: the leading hits, locked unless the caller already
protects them. -/
def getMetadataPrefix (lock : Bool) (skipLocked : List Key) : RawBlockCore Key Meta × List Meta :=
  let hits := keys.takeWhile (· ∈ c.index)
  (if lock then (hits.filter (· ∉ skipLocked)).foldl lockOne c else c,
    hits.filterMap fun key => (c.index.get? key).map (·.metadata))

def unlockOne : RawBlockCore Key Meta :=
  let refcnt := (c.lockRefcnt.get? key).getD 0
  { c with
    lockRefcnt := if refcnt ≤ 1 then c.lockRefcnt.erase key else c.lockRefcnt.set key (refcnt - 1) }

def unlockMany : RawBlockCore Key Meta := keys.foldl unlockOne c

/-- One key of `delete_many`. A write in flight is canceled, not removed: its
slot goes back when the write settles. -/
def deleteOne : RawBlockCore Key Meta × Bool :=
  let entry := c.index.get? key
  let locked := 0 < (c.lockRefcnt.get? key).getD 0
  if entry.isSome ∧ locked ∧ force = false then (c, false)
  else
    let write := c.inflight.get? key
    let c :=
      { c with
        index := c.index.erase key
        inflight :=
          match write with
          | some w => c.inflight.set key { w with canceled := true }
          | none => c.inflight
        lockRefcnt := c.lockRefcnt.erase key }
    match entry with
    | some e => (c.giveSlotBack cfg e.offset, true)
    | none => (c, write.isSome)

def deleteMany : RawBlockCore Key Meta × List Bool :=
  keys.foldl (fun (c, deleted) key =>
    let (c, ok) := deleteOne cfg c force key
    (c, deleted ++ [ok])) (c, [])

end

def close : RawBlockCore Key Meta := { c with closed := true }

end RawBlockCore

/-- The sections that take the store's lock and change what it protects. -/
inductive Section (Key Meta : Type)
  | reserve (item : PutItem Key Meta)
  | reserveChunk (items : List (PutItem Key Meta))
  | abandon (key : Key)
  | settle (key : Key) (success : Bool)
  | settleChunk (keys : List Key) (success : Bool)
  | existsMany (workerFailed : Bool) (keys : List Key) (lock : Bool)
  | getMetadataPrefix (keys : List Key) (lock : Bool) (skipLocked : List Key)
  | unlockMany (keys : List Key)
  | deleteMany (keys : List Key) (force : Bool)
  | close

namespace RawBlockCore

def step (cfg : Config) (c : RawBlockCore Key Meta) : Section Key Meta → RawBlockCore Key Meta
  | .reserve item => c.reserve cfg false item
  | .reserveChunk items => c.reserveChunk cfg items
  | .abandon key => c.abandon cfg key
  | .settle key success => c.settle cfg success key
  | .settleChunk keys success => c.settleChunk cfg success keys
  | .existsMany workerFailed keys lock => (c.existsMany workerFailed keys lock).1
  | .getMetadataPrefix keys lock skipLocked => (c.getMetadataPrefix keys lock skipLocked).1
  | .unlockMany keys => c.unlockMany keys
  | .deleteMany keys force => (c.deleteMany cfg keys force).1
  | .close => c.close

end RawBlockCore

end LMCache.RawBlock
