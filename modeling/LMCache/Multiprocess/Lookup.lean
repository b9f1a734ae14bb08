/-
LMCache.Multiprocess.Lookup — lookups and the release of their read locks.

A lookup hashes the chunks of a request, hands the chunks past the prefix the
engine covers to a prefetch, one row of keys for each object group and kv
rank, and records on the session how many chunks were hit. The prefetch
leaves the hit read-locked. Whoever does not read a locked range gives it
back by its token range: `resolvePrefetchedObjKeys` recomputes the locked
keys of the range from the recorded hit and the windows of the groups, and
`finishLookupRead` releases each of them as often as it has readers.
-/
import LMCache.Multiprocess.Session
import LMCache.StorageControllers.PrefetchController

namespace LMCache.Multiprocess

open Lib Native StorageControllers L1Manager

variable {Token Hash Digest : Type}

/-- What `MPCacheServerContext` holds for a lookup: the hasher, the registered
layouts by model and world size, and the KV load policy, asked with the number
of tokens of the lookup. -/
structure ServerContext (Token Hash Digest : Type) where
  tokenHasher : TokenHasher Token Hash Digest
  layoutDescRegistry : String → Nat → Option LayoutDescEntry
  shouldLoad : IPCCacheServerKey Token → Nat → Bool

namespace ServerContext

variable (ctx : ServerContext Token Hash Digest)

def chunkSize : Nat := ctx.tokenHasher.chunkSize

/-- The registration of a key's model and world size. -/
def entryOf (key : IPCCacheServerKey Token) : Option LayoutDescEntry :=
  ctx.layoutDescRegistry key.modelName key.worldSize

end ServerContext

/-- The error of a lookup without a registration. -/
def noRegistration (key : IPCCacheServerKey Token) : ValueError :=
  ⟨s!"No KV cache registered for model {key.modelName} with world size {key.worldSize}"⟩

/-! ## Looking up -/

/-- `_PrefetchJob`; without a spec nothing was submitted. The fields that only
feed events are left out. -/
structure PrefetchJob (Digest : Type) where
  spec : Option (PrefetchTaskSpec (ObjectKey Digest))
  numObjectGroups : Nat
  startChunk : Nat

/-- The job of `_register_empty_prefetch_job`. -/
def emptyPrefetchJob (numObjectGroups startChunk : Nat) : PrefetchJob Digest :=
  ⟨none, numObjectGroups, startChunk⟩

section

variable (ctx : ServerContext Token Hash Digest) (key : IPCCacheServerKey Token)

/-- The first chunk a lookup covers. -/
def startChunkOf (chunkHashes : List Digest) : Nat :=
  min (key.start / ctx.chunkSize) chunkHashes.length

/-- `lookup`: the job it registers. -/
def lookup : Except ValueError (PrefetchJob Digest) :=
  match ctx.entryOf key with
  | none => .ok (emptyPrefetchJob 1 0)
  | some entry =>
    let chunkHashes := ctx.tokenHasher.computePackedChunkHashes key.tokens none 0 (some key.stop)
    let groups := entry.attnDesc.numObjectGroups
    if chunkHashes.isEmpty then .ok (emptyPrefetchJob 1 0)
    else if entry.groupLayoutDescs.entries.isEmpty then .ok (emptyPrefetchJob 1 0)
    else if !ctx.shouldLoad key (chunkHashes.length * ctx.chunkSize) then
      .ok (emptyPrefetchJob groups 0)
    else
      let startChunk := startChunkOf ctx key chunkHashes
      if (chunkHashes.drop startChunk).isEmpty then .ok (emptyPrefetchJob groups startChunk)
      else do
        let rows ← ipcKeyToGroupedObjectKeys key (chunkHashes.drop startChunk) (List.range groups)
          entry
        let spec ← prefetchTaskSpec rows
        return ⟨some spec, groups, startChunk⟩

/-- The answers of the storage manager to status queries, by what was
submitted. -/
abbrev PrefetchResults (Digest : Type) :=
  (spec : PrefetchTaskSpec (ObjectKey Digest)) →
    PrefetchResult (ObjectKey Digest) spec.numRows spec.groupSize

/-- What `_consume_prefetch_result` records of a finished job: the hit in
chunks of the request, and the object groups that were locked. -/
def consumePrefetchResult (job : PrefetchJob Digest) (results : PrefetchResults Digest) :
    Except ValueError (Nat × List Nat) :=
  match job.spec with
  | none => .ok (job.startChunk, List.range job.numObjectGroups)
  | some spec => do
    let (foundCount, _) ← foldUnfoldGrouped (results spec).hitCells.rows (windowsOf spec.keyGroups)
    return (foundCount + job.startChunk, List.range job.numObjectGroups)

/-! ## Releasing -/

/-- The locked chunks of a group within `[startChunk, endChunk)`; a negative
hit stands for a lookup without a result. -/
def lockedRange (window hitChunks : Int) (startChunk endChunk : Nat) : Option (Nat × Nat) :=
  if hitChunks < 0 then
    if 0 ≤ window then none else some (startChunk, endChunk)
  else
    let lo := if window < 0 then 0 else hitChunks.toNat - window.toNat
    some (max lo startChunk, min hitChunks.toNat endChunk)

/-- The body of the loop of `resolve_prefetched_obj_keys`. -/
def resolveGroup (desc : ShardReplicationDesc) (chunkHashes : List Digest) (startChunk : Nat)
    (hitChunks : Int) (lockedGids : List Nat) (group : Int × Nat) : List (ObjectKey Digest) :=
  if !lockedGids.isEmpty && !lockedGids.contains group.2 then []
  else
    match lockedRange group.1 hitChunks startChunk (startChunk + chunkHashes.length) with
    | none => []
    | some (lo, hi) =>
      if hi ≤ lo then []
      else
        (ipcKeyToObjectKeys key ((chunkHashes.drop (lo - startChunk)).take (hi - lo)) [group.2]
          desc).flatten

/-- `resolve_prefetched_obj_keys`. -/
def resolvePrefetchedObjKeys (hitChunks : Int) (lockedGids : List Nat) :
    Except ValueError (List (ObjectKey Digest)) :=
  let chunkHashes :=
    ctx.tokenHasher.computePackedChunkHashes key.tokens none key.start (some key.stop)
  if chunkHashes.isEmpty then .ok []
  else
    match ctx.entryOf key with
    | none => .error (noRegistration key)
    | some entry =>
      .ok (entry.attnDesc.numChunksInSw.zipIdx.flatMap
        (resolveGroup key entry.shardReplicationDesc chunkHashes (key.start / ctx.chunkSize)
          hitChunks lockedGids))

/-- The keys by the number of read locks to release, `by_read_locks`. -/
def byReadLocks (desc : ShardReplicationDesc) (objKeys : List (ObjectKey Digest)) :
    Dict Int (List (ObjectKey Digest)) :=
  objKeys.foldl (fun d objKey => d.push (desc.numKvReaders objKey.objectGroupId) objKey) ∅

/-- The calls of `finish_read_prefetched` that `finish_lookup_read` makes: the
read locks to release of each key, and the keys. -/
def finishLookupRead (objKeys : List (ObjectKey Digest)) :
    Except ValueError (List (Int × List (ObjectKey Digest))) :=
  match ctx.entryOf key with
  | none => .error (noRegistration key)
  | some entry => .ok (byReadLocks entry.shardReplicationDesc objKeys).entries

end

/-- The locks a list of calls releases, key by key, as often as the L1 manager
lets it. -/
def releases (calls : List (Int × List (ObjectKey Digest))) : List (ObjectKey Digest × Nat) :=
  calls.flatMap fun call => call.2.map fun objKey => (objKey, validateReadLocks call.1)

/-- `free_lookup_locks` on a session whose lookup result was consumed: the
calls it makes. The range is raised to the start of the lookup; each extra
range is resolved with its own end as the hit. -/
def freeLookupLocks (ctx : ServerContext Token Hash Digest) (session : Session Token Hash Digest)
    (key : IPCCacheServerKey Token) (extraRanges : List (Nat × Nat)) :
    Except ValueError (List (Int × List (ObjectKey Digest))) :=
  if key.stop ≤ key.start && extraRanges.isEmpty then .ok []
  else if session.prefetchHitChunks < 0 then .ok []
  else do
    let lockFloor := session.lookupIpcKey.elim 0 IPCCacheServerKey.start
    let objKeys ← if key.start < key.stop then
        resolvePrefetchedObjKeys ctx { key with start := max key.start lockFloor }
          session.prefetchHitChunks session.prefetchLockedGids
      else .ok []
    let extraKeys ← (extraRanges.filter fun range => range.1 < range.2).mapM fun range =>
      resolvePrefetchedObjKeys ctx { key with start := range.1, stop := range.2 }
        (range.2 / ctx.chunkSize : Nat) session.prefetchLockedGids
    let objKeys := objKeys ++ extraKeys.flatten
    if objKeys.isEmpty then .ok [] else finishLookupRead ctx key objKeys

end LMCache.Multiprocess
