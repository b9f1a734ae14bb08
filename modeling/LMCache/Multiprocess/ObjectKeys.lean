/-
LMCache.Multiprocess.ObjectKeys — from the key of a request to the keys of
its objects.

A request names a model, a token range and, unless it is a lookup, a worker.
Each chunk of the range is stored as one object for every object group and
every kv rank that holds a shard of it. Two expansions list these objects:
`ipcKeyToObjectKeys` chunk by chunk, with the ranks inside, and
`ipcKeyToGroupedObjectKeys` as the rows of a prefetch, one row for each group
and rank, with the chunks inside. They list the same objects in different
orders; both build a key with `objectKey`.
-/
import LMCache.StorageControllers.World
import LMCache.Multiprocess.TokenHasher

namespace LMCache.Multiprocess

open Lib Native StorageControllers

variable {Token Digest : Type}

/-! ## Keys -/

/-- `IPCCacheServerKey`: the tokens `[start, stop)` of a request. Of the
request configs only the matching tags reach an object key. -/
structure IPCCacheServerKey (Token : Type) where
  modelName : String
  worldSize : Nat
  workerId : Option Nat
  tokens : List Token
  start : Nat
  stop : Nat
  requestId : String
  cacheSalt : String
  requestTags : List (String × String)
  deriving DecidableEq

/-- `ObjectKey` by its identity; the attributes that equality ignores are
left out. -/
structure ObjectKey (Digest : Type) where
  chunkHash : Digest
  modelName : String
  kvRank : Nat
  objectGroupId : Nat
  cacheSalt : String
  tags : List (String × String)
  deriving DecidableEq

/-- `ObjectKey.ComputeKVRank`. -/
def computeKVRank (worldSize globalRank localWorldSize localRank : Nat) : Nat :=
  (worldSize <<< 24) ||| (globalRank <<< 16) ||| (localWorldSize <<< 8) ||| localRank

/-- `_lookup_kv_ranks`. -/
def lookupKvRanks (key : IPCCacheServerKey Token) (tpReplicas dcpShards : Nat) : List Nat :=
  let workerIds := match key.workerId with
    | none =>
      (List.range' 0 ((key.worldSize + tpReplicas - 1) / tpReplicas) tpReplicas).flatMap
        fun first => (List.range dcpShards).map fun shard => first + shard
    | some w => [w - w % tpReplicas + w % dcpShards]
  workerIds.map fun workerId => computeKVRank key.worldSize workerId key.worldSize workerId

/-- The key of one object of a request. -/
def objectKey (key : IPCCacheServerKey Token) (objectGroupId kvRank : Nat) (chunkHash : Digest) :
    ObjectKey Digest where
  chunkHash := chunkHash
  modelName := key.modelName
  kvRank := kvRank
  objectGroupId := objectGroupId
  cacheSalt := key.cacheSalt
  tags := key.requestTags

/-! ## Registrations -/

/-- `AttnWindowDesc`, with the check of its constructor. -/
structure AttnWindowDesc where
  numChunksInSw : List Int
  windows_ok : ∀ w ∈ numChunksInSw, w = -1 ∨ 1 ≤ w

def AttnWindowDesc.numObjectGroups (desc : AttnWindowDesc) : Nat := desc.numChunksInSw.length

/-- `ShardReplicationDesc`, with the check of its constructor. A count of
zero raises in every use. -/
structure ShardReplicationDesc where
  groupTpReplicas : List Nat
  groupDcpShards : List Nat
  lengths_ok : groupDcpShards = [] ∨ groupDcpShards.length = groupTpReplicas.length
  replicas_pos : ∀ n ∈ groupTpReplicas, 0 < n
  shards_pos : ∀ n ∈ groupDcpShards, 0 < n

namespace ShardReplicationDesc

variable (desc : ShardReplicationDesc) (objectGroupIdx : Nat)

/-- `tp_replicas`: one for every group when no group is replicated. -/
def tpReplicas : Nat := desc.groupTpReplicas.getD objectGroupIdx 1

/-- `dcp_shards`. -/
def dcpShards : Nat := desc.groupDcpShards.getD objectGroupIdx 1

/-- `num_kv_readers`. -/
def numKvReaders : Int :=
  (max 1 (desc.tpReplicas objectGroupIdx / desc.dcpShards objectGroupIdx) : Nat)

/-- The kv ranks that hold a shard of a chunk of the group. -/
def kvRanks (key : IPCCacheServerKey Token) : List Nat :=
  lookupKvRanks key (desc.tpReplicas objectGroupIdx) (desc.dcpShards objectGroupIdx)

end ShardReplicationDesc

/-- `_LayoutDescEntry`, with the check of `register`. A group's layout counts
through the bytes of its objects. -/
structure LayoutDescEntry where
  attnDesc : AttnWindowDesc
  groupLayoutDescs : Dict Nat Nat
  shardReplicationDesc : ShardReplicationDesc
  groups_ok : shardReplicationDesc.groupTpReplicas = [] ∨
    shardReplicationDesc.groupTpReplicas.length = attnDesc.numObjectGroups

/-! ## Expansions -/

section

variable {Key : Type} (key : IPCCacheServerKey Token) (chunkHashes : List Digest)

section

variable (objectGroupIds : List Nat) (entry : LayoutDescEntry)

/-- `ipc_key_to_object_keys`. -/
def ipcKeyToObjectKeys (desc : ShardReplicationDesc) : List (List (ObjectKey Digest)) :=
  objectGroupIds.map fun objectGroupId =>
    chunkHashes.flatMap fun chunkHash =>
      (desc.kvRanks objectGroupId key).map fun kvRank =>
        objectKey key objectGroupId kvRank chunkHash

/-- The constructor of `GroupedObjectKeys`. -/
def groupedObjectKeys (keys : List Key) (objectBytes : Nat) (slidingWindowSize numKvReaders : Int) :
    Except ValueError (GroupedObjectKeys Key) :=
  if hw : slidingWindowSize = -1 ∨ 1 ≤ slidingWindowSize then
    if hr : 1 ≤ numKvReaders then
      .ok ⟨keys, objectBytes, slidingWindowSize, numKvReaders, hw, hr⟩
    else
      .error ⟨s!"GroupedObjectKeys: num_kv_readers={numKvReaders} must be >= 1 (read locks per object)"⟩
  else
    .error ⟨s!"GroupedObjectKeys: sliding_window_size must be -1 (full attention) or >= 1 chunk, got {slidingWindowSize}"⟩

/-- The rows of one object group, one for each kv rank. -/
def groupRows (objectGroupId : Nat) :
    Except ValueError (List (GroupedObjectKeys (ObjectKey Digest))) :=
  match entry.groupLayoutDescs.get? objectGroupId with
  | none =>
    .error ⟨s!"ipc_key_to_grouped_object_keys: no layout for object group {objectGroupId} (have {entry.groupLayoutDescs.keys})"⟩
  | some objectBytes =>
    match entry.attnDesc.numChunksInSw[objectGroupId]? with
    | none =>
      .error ⟨s!"ipc_key_to_grouped_object_keys: object group {objectGroupId} is outside attn_desc's {entry.attnDesc.numObjectGroups} groups"⟩
    | some window =>
      (entry.shardReplicationDesc.kvRanks objectGroupId key).mapM fun kvRank =>
        groupedObjectKeys (chunkHashes.map (objectKey key objectGroupId kvRank)) objectBytes window
          (entry.shardReplicationDesc.numKvReaders objectGroupId)

/-- `ipc_key_to_grouped_object_keys`. -/
def ipcKeyToGroupedObjectKeys :
    Except ValueError (List (GroupedObjectKeys (ObjectKey Digest))) := do
  let rows ← objectGroupIds.mapM (groupRows key chunkHashes entry)
  return rows.flatten

end

/-- The constructor of `PrefetchTaskSpec` with its defaults. -/
def prefetchTaskSpec (keyGroups : List (GroupedObjectKeys Key)) :
    Except ValueError (PrefetchTaskSpec Key) :=
  if hne : keyGroups = [] then
    .error ⟨"PrefetchTaskSpec: key_groups must not be empty"⟩
  else if hsize : ∀ row ∈ keyGroups, ∀ row' ∈ keyGroups, row.keys.length = row'.keys.length then
    .ok ⟨keyGroups, .prefixPolicy, .lock, none, none, hne, hsize⟩
  else
    .error ⟨s!"PrefetchTaskSpec: every key group must have the same number of keys, got {keyGroups.map fun row => row.keys.length}"⟩

/-! ## What the rows are -/

lemma map_of_mapM_ok {α β γ : Type} {f : α → Except ValueError β} {g : β → γ} {h : α → γ}
    (hf : ∀ a b, f a = .ok b → g b = h a) :
    ∀ {as : List α} {bs : List β}, as.mapM f = .ok bs → bs.map g = as.map h
  | [], bs, hbs => by
    obtain rfl : [] = bs := by simpa [pure, Except.pure] using hbs
    rfl
  | a :: as, bs, hbs => by
    rw [List.mapM_cons] at hbs
    obtain ⟨b, ha, hbs⟩ := bind_ok hbs
    obtain ⟨bs', has, hbs⟩ := bind_ok hbs
    cases hbs
    simp [hf a b ha, map_of_mapM_ok hf has]

/-- What a row is used for: its keys, its window and its readers. -/
def rowData (row : GroupedObjectKeys Key) : List Key × Int × Int :=
  (row.keys, row.slidingWindowSize, row.numKvReaders)

lemma rowData_groupedObjectKeys {keys : List Key} {objectBytes : Nat} {window readers : Int}
    {row : GroupedObjectKeys Key} (h : groupedObjectKeys keys objectBytes window readers = .ok row) :
    rowData row = (keys, window, readers) := by
  unfold groupedObjectKeys at h
  split at h
  · split at h
    · cases h
      rfl
    · cases h
  · cases h

/-- The window of an object group. -/
def AttnWindowDesc.window (desc : AttnWindowDesc) (objectGroupId : Nat) : Int :=
  desc.numChunksInSw.getD objectGroupId (-1)

/-- The data of the rows of one group. -/
def groupRowData (entry : LayoutDescEntry) (objectGroupId : Nat) :
    List (List (ObjectKey Digest) × Int × Int) :=
  (entry.shardReplicationDesc.kvRanks objectGroupId key).map fun kvRank =>
    (chunkHashes.map (objectKey key objectGroupId kvRank), entry.attnDesc.window objectGroupId,
      entry.shardReplicationDesc.numKvReaders objectGroupId)

end

variable {rows : List (GroupedObjectKeys (ObjectKey Digest))} {key : IPCCacheServerKey Token}
  {chunkHashes : List Digest} {entry : LayoutDescEntry}

lemma groupRows_ok {objectGroupId : Nat}
    (h : groupRows key chunkHashes entry objectGroupId = .ok rows) :
    rows.map rowData = groupRowData key chunkHashes entry objectGroupId := by
  unfold groupRows at h
  split at h
  · cases h
  · split at h
    · cases h
    · rename_i window hwindow
      have hget : entry.attnDesc.window objectGroupId = window := by
        simp [AttnWindowDesc.window, hwindow]
      rw [groupRowData, hget]
      exact map_of_mapM_ok (fun kvRank row hrow => rowData_groupedObjectKeys hrow) h

/-- The rows are group-major and rank-minor. -/
lemma ipcKeyToGroupedObjectKeys_ok {objectGroupIds : List Nat}
    (h : ipcKeyToGroupedObjectKeys key chunkHashes objectGroupIds entry = .ok rows) :
    rows.map rowData = objectGroupIds.flatMap (groupRowData key chunkHashes entry) := by
  obtain ⟨groups, hrows, h⟩ := bind_ok h
  cases h
  have hgroups := map_of_mapM_ok (g := List.map rowData)
    (fun objectGroupId rows hrows => groupRows_ok hrows) hrows
  rw [List.map_flatten, hgroups, List.flatMap_def]

lemma prefetchTaskSpec_ok {Key : Type} {keyGroups : List (GroupedObjectKeys Key)}
    {spec : PrefetchTaskSpec Key} (h : prefetchTaskSpec keyGroups = .ok spec) :
    spec.keyGroups = keyGroups ∧ spec.fetchingPolicy = .prefixPolicy ∧ spec.lockMode = .lock := by
  unfold prefetchTaskSpec at h
  split at h
  · cases h
  · split at h
    · cases h
      exact ⟨rfl, rfl, rfl⟩
    · cases h

end LMCache.Multiprocess
