/-
LMCache.Coordinator.KeyDirectory — where the keys of the fleet are.

The directory applies the admitted batches. Four structures are kept next to
each other: the records of the keys with their placements, the totals of each
tier, for each instance the keys it reported L1 placements of, and for each
chunk hash the token binding with the keys that share it. The blend index is
derived from the bindings.

The records, totals and reverse index do not depend on the bindings, so the
bindings are a structure of their own, `TokenBindings`, with the operations
that change them. A Python set is a list without duplicates; nothing below
depends on its order. Lookup counters and logs are left out.
-/
import LMCache.Coordinator.EventGate
import LMCache.Coordinator.BlendIndex

namespace LMCache.Coordinator

open Lib
open Multiprocess (ObjectKey)

variable {Digest : Type}

/-! ## Token bindings -/

/-- `_TokenBinding`. -/
structure TokenBinding (Digest : Type) where
  tokenIds : List UInt32
  tokenOffset : Int
  keys : List (ObjectKey Digest)

/-- The token bindings of a directory and its blend index. -/
structure TokenBindings (Digest : Type) where
  table : Dict Digest (TokenBinding Digest)
  blendIndex : BlendIndex Digest
  blendLookupEnabled : Bool
  blendChunkSize : Option Nat
  blendProbeStride : Nat

/-- `np.asarray(token_ids, dtype=np.uint32)`: none when a value is outside. -/
def asTokens (tokenIds : List Int) : Option (List UInt32) :=
  tokenIds.mapM fun t => if 0 ≤ t ∧ t < 2 ^ 32 then some (UInt32.ofNat t.toNat) else none

namespace TokenBindings

variable [DecidableEq Digest] (bindings : TokenBindings Digest)

/-- `_claim_binding`. -/
def claimBinding (chunkHash : Digest) (binding : TokenBinding Digest) (key : ObjectKey Digest) :
    TokenBindings Digest :=
  if bindings.blendLookupEnabled ∧ binding.tokenIds ≠ [] ∧
      binding.tokenOffset ≠ unknownTokenOffset then
    { bindings with
      blendIndex := bindings.blendIndex.add binding.tokenIds chunkHash binding.tokenOffset
        (.fromObjectKey key) }
  else bindings

/-- `_token_bindings[chunk_hash] = binding`. -/
def setBinding (chunkHash : Digest) (binding : TokenBinding Digest) : TokenBindings Digest :=
  { bindings with table := bindings.table.set chunkHash binding }

section

variable (key : ObjectKey Digest)

/-- `_add_token_binding`. -/
def addTokenBinding : TokenBindings Digest :=
  match bindings.table.get? key.chunkHash with
  | none => bindings.setBinding key.chunkHash ⟨[], unknownTokenOffset, [key]⟩
  | some binding =>
    let joined := { binding with keys := binding.keys.insert key }
    (bindings.setBinding key.chunkHash joined).claimBinding key.chunkHash joined key

/-- `_remove_token_binding`. -/
def removeTokenBinding : TokenBindings Digest :=
  match bindings.table.get? key.chunkHash with
  | none => bindings
  | some binding =>
    let keys := binding.keys.erase key
    let ns := BlendNamespace.fromObjectKey key
    let released :=
      if bindings.blendLookupEnabled ∧ binding.tokenIds ≠ [] ∧
          ¬ keys.any (fun held => BlendNamespace.fromObjectKey held = ns) then
        { bindings with
          blendIndex := bindings.blendIndex.removeClaim binding.tokenIds key.chunkHash ns }
      else bindings
    if keys = [] then { released with table := released.table.erase key.chunkHash }
    else released.setBinding key.chunkHash { binding with keys }

/-- `_create_token_binding`. The key has joined the binding of its chunk. -/
def createTokenBinding (entry : CacheEventEntry Digest) : TokenBindings Digest :=
  match asTokens entry.tokenIds, bindings.table.get? key.chunkHash with
  | some tokenIds, some binding =>
    let replaced := bindings.blendLookupEnabled ∧ binding.tokenIds ≠ [] ∧
      binding.tokenIds ≠ tokenIds
    let retired :=
      if replaced then
        { bindings with
          blendIndex := bindings.blendIndex.removeChunk binding.tokenIds key.chunkHash }
      else bindings
    let filled := { binding with tokenIds, tokenOffset := entry.tokenOffset }
    let stored := retired.setBinding key.chunkHash filled
    if replaced ∨ binding.tokenIds = [] then
      filled.keys.foldl (fun bindings held => bindings.claimBinding key.chunkHash filled held) stored
    else stored.claimBinding key.chunkHash filled key
  | _, _ => bindings

end

/-- The index rebuilt from the bindings, as `bind_chunk_size` does. -/
def rebuildIndex (idx : BlendIndex Digest) : BlendIndex Digest :=
  bindings.table.entries.foldl (fun idx p =>
    if p.2.tokenIds = [] ∨ p.2.tokenOffset = unknownTokenOffset then idx
    else
      ((p.2.keys.map BlendNamespace.fromObjectKey).dedup).foldl
        (fun idx ns => idx.add p.2.tokenIds p.1 p.2.tokenOffset ns) idx) idx

/-- `bind_chunk_size`. -/
def bindChunkSize (chunkSize : Nat) : Except String (TokenBindings Digest) :=
  if ¬ bindings.blendLookupEnabled ∨ bindings.blendChunkSize = some chunkSize then .ok bindings
  else do
    let idx ← BlendIndex.new chunkSize bindings.blendProbeStride
    pure { bindings with
      blendIndex := bindings.rebuildIndex idx, blendChunkSize := some chunkSize }

/-- `blend_match`. -/
def blendMatch (tokens : List UInt64) (ns : BlendNamespace) : List (BlendMatch Digest) :=
  if bindings.blendLookupEnabled then bindings.blendIndex.findMatches tokens ns else []

end TokenBindings

/-! ## Placements -/

/-- `Placement`. -/
structure Placement where
  instanceId : String
  incarnation : Nat
  tier : Tier
  backend : String
  sizeBytes : Nat
  shared : Bool
  deriving DecidableEq

/-- `_KeyRecord`. -/
structure KeyRecord where
  placements : List Placement := []
  lastAccess : Nat := 0
  accessCount : Nat := 0
  deriving DecidableEq

/-- `_TierPlacementStats`. -/
structure TierPlacementStats where
  count : Int := 0
  sizeBytes : Int := 0
  deriving DecidableEq

/-- `KeyDirectory`. -/
structure KeyDirectory (Digest : Type) where
  directory : Dict (ObjectKey Digest) KeyRecord
  placementStats : Tier → TierPlacementStats
  l1KeysByInstance : Dict String (List (ObjectKey Digest))
  bindings : TokenBindings Digest

section

variable (stats : Tier → TierPlacementStats)

/-- `_adjust_placement_stats`. -/
def adjustPlacementStats (tier : Tier) (countDelta sizeBytesDelta : Int) :
    Tier → TierPlacementStats :=
  fun t => if t = tier then ⟨(stats t).count + countDelta, (stats t).sizeBytes + sizeBytesDelta⟩
    else stats t

/-- The totals without a placement. -/
def dropPlacementStats (placement : Placement) : Tier → TierPlacementStats :=
  adjustPlacementStats stats placement.tier (-1) (-(placement.sizeBytes : Int))

/-- The placement is the one the batch is about. -/
def Placement.matchesBatch (batch : CacheEventBatch Digest) (placement : Placement) : Bool :=
  placement.shared = batch.shared ∧ (batch.shared ∨ placement.instanceId = batch.instanceId) ∧
    placement.tier = batch.tier ∧ placement.backend = batch.backend

/-- `_find_placement`. -/
def findPlacement (placements : List Placement) (batch : CacheEventBatch Digest) : Option Nat :=
  placements.findIdx? (·.matchesBatch batch)

variable (batch : CacheEventBatch Digest) (entry : CacheEventEntry Digest)
  (placements : List Placement)

/-- The placement a stored entry reports. -/
def placementOf : Placement where
  instanceId := batch.instanceId
  incarnation := batch.incarnation
  tier := batch.tier
  backend := batch.backend
  sizeBytes := entry.sizeBytes
  shared := batch.shared

/-- The placements of a key after a store: upserted at its identity. -/
def stored : List Placement :=
  match findPlacement placements batch with
  | none => placements ++ [placementOf batch entry]
  | some i => placements.set i (placementOf batch entry)

/-- The placements of a key after a delete. -/
def deleted : List Placement :=
  match findPlacement placements batch with
  | none => placements
  | some i => placements.eraseIdx i

/-- The totals after a store. -/
def storedStats : Tier → TierPlacementStats :=
  match findPlacement placements batch with
  | none => adjustPlacementStats stats batch.tier 1 entry.sizeBytes
  | some i => adjustPlacementStats stats batch.tier 0
      (entry.sizeBytes - ((placements[i]?).elim 0 Placement.sizeBytes : Nat))

/-- The totals after a delete. -/
def deletedStats : Tier → TierPlacementStats :=
  match findPlacement placements batch with
  | none => stats
  | some i => (placements[i]?).elim stats (dropPlacementStats stats)

end

/-- The L1 placements of an instance. -/
def Placement.isL1Of (instanceId : String) (placement : Placement) : Bool :=
  placement.tier = .l1 ∧ placement.instanceId = instanceId

namespace KeyDirectory

/-- A new directory; `blend` is the chunk size and probe stride that
`enable_blend_lookup` was called with. -/
def new (blend : Option (Nat × Nat)) : Except String (KeyDirectory Digest) := do
  let idx ← BlendIndex.new (blend.elim 256 Prod.fst) (blend.elim 1 Prod.snd)
  pure ⟨∅, fun _ => {}, ∅, ⟨∅, idx, blend.isSome, blend.map Prod.fst, blend.elim 1 Prod.snd⟩⟩

variable [DecidableEq Digest] (d : KeyDirectory Digest)

section

variable (batch : CacheEventBatch Digest) (entry : CacheEventEntry Digest) (instanceId : String)

/-- The keys that an instance reported L1 placements of. -/
def l1Keys : List (ObjectKey Digest) :=
  (d.l1KeysByInstance.get? instanceId).getD []

/-- `_apply_entry` for a `STORE`. -/
def storeEntry : KeyDirectory Digest :=
  let record := (d.directory.get? entry.key).getD {}
  let joined := if entry.key ∈ d.directory then d.bindings else d.bindings.addTokenBinding entry.key
  { directory := d.directory.set entry.key { record with
      placements := stored batch entry record.placements
      lastAccess := max record.lastAccess batch.ts }
    placementStats := storedStats d.placementStats batch entry record.placements
    l1KeysByInstance :=
      if batch.tier = .l1 then
        d.l1KeysByInstance.set batch.instanceId ((d.l1Keys batch.instanceId).insert entry.key)
      else d.l1KeysByInstance
    bindings := if entry.tokenIds ≠ [] then joined.createTokenBinding entry.key entry else joined }

/-- A record whose placements changed: a key without placements is dropped. -/
def putPlacements (directory : Dict (ObjectKey Digest) KeyRecord) (key : ObjectKey Digest)
    (record : KeyRecord) (placements : List Placement) : Dict (ObjectKey Digest) KeyRecord :=
  if placements = [] then directory.erase key else directory.set key { record with placements }

/-- `_apply_entry` for a `DELETE`. -/
def deleteEntry : KeyDirectory Digest :=
  match d.directory.get? entry.key with
  | none => d
  | some record =>
    let kept := deleted batch record.placements
    { directory := putPlacements d.directory entry.key record kept
      placementStats := deletedStats d.placementStats batch record.placements
      l1KeysByInstance :=
        if batch.tier = .l1 ∧ ¬ kept.any (·.isL1Of batch.instanceId) then
          d.l1KeysByInstance.set batch.instanceId ((d.l1Keys batch.instanceId).erase entry.key)
        else d.l1KeysByInstance
      bindings := if kept = [] then d.bindings.removeTokenBinding entry.key else d.bindings }

/-- `_apply_entry` for an `ACCESS`. -/
def accessEntry : KeyDirectory Digest :=
  match d.directory.get? entry.key with
  | none => d
  | some record =>
    { d with
      directory := d.directory.set entry.key { record with
        lastAccess := max record.lastAccess batch.ts, accessCount := record.accessCount + 1 } }

/-- `_apply_entry`. -/
def applyEntry : KeyDirectory Digest :=
  match batch.eventType with
  | .store => d.storeEntry batch entry
  | .delete => d.deleteEntry batch entry
  | .access => d.accessEntry batch entry
  | .config => d

/-- `_l1_keys_by_instance.setdefault(instance_id, set())`. -/
def withInstance : KeyDirectory Digest :=
  if instanceId ∈ d.l1KeysByInstance then d
  else { d with l1KeysByInstance := d.l1KeysByInstance.set instanceId [] }

/-- `consume`. -/
def consume : KeyDirectory Digest :=
  batch.entries.foldl (fun d entry => d.applyEntry batch entry) (d.withInstance batch.instanceId)

/-- One key of the loop of `_drop_l1_placements`. -/
def dropKey (key : ObjectKey Digest) : KeyDirectory Digest :=
  match d.directory.get? key with
  | none => d
  | some record =>
    let gone := record.placements.filter (·.isL1Of instanceId)
    let kept := record.placements.filter fun p => ¬ p.isL1Of instanceId
    { d with
      directory := putPlacements d.directory key record kept
      placementStats := gone.foldl dropPlacementStats d.placementStats
      bindings := if kept = [] then d.bindings.removeTokenBinding key else d.bindings }

/-- `fence_instance`. -/
def fenceInstance : KeyDirectory Digest :=
  let dropped := (d.l1Keys instanceId).foldl (fun d key => d.dropKey instanceId key) d
  { dropped with l1KeysByInstance := dropped.l1KeysByInstance.erase instanceId }

end

/-- `bind_chunk_size`. -/
def bindChunkSize (chunkSize : Nat) : Except String (KeyDirectory Digest) :=
  (d.bindings.bindChunkSize chunkSize).map fun bindings => { d with bindings }

/-- What the broadcaster hands to the directory. -/
def deliver : Signal Digest → KeyDirectory Digest
  | .broadcast batch => d.consume batch
  | .fenceInstance instanceId => d.fenceInstance instanceId

/-- What happens to a directory. -/
inductive Event (Digest : Type) where
  | deliver (signal : Signal Digest)
  | bindChunkSize (chunkSize : Nat)

/-- A call that raises leaves the directory as it was. -/
def step : Event Digest → KeyDirectory Digest
  | .deliver signal => d.deliver signal
  | .bindChunkSize chunkSize => (d.bindChunkSize chunkSize).toOption.getD d

end KeyDirectory

end LMCache.Coordinator
