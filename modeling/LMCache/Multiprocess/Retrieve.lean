/-
LMCache.Multiprocess.Retrieve — what the workers of a server read.

A retrieve of a token range reads, for every object group, the last chunks of
the range that the group's window holds, on the rank of the worker that asks.
One read takes one of the locks the lookup left on the key. `reads_perm`
lists the reads of all workers as a loop over groups, ranks and chunks: where
the registration describes whole replica sets, each key is read by as many
workers as the lookup counted on.
-/
import LMCache.Multiprocess.LookupLocks

namespace LMCache.Multiprocess

open List Lib Native StorageControllers L1Manager

variable {Token Hash Digest : Type}

/-! ## Retrieving -/

section

variable (ctx : ServerContext Token Hash Digest) (session : Session Token Hash Digest)
  (key : IPCCacheServerKey Token)

/-- `resolve_obj_keys` of `MPCacheServerContext`, without the session it
leaves. -/
def resolveObjKeys (objectGroupIds : List Nat) : Except String (List (List (ObjectKey Digest))) :=
  match (session.setTokens key.tokens).getHashes ctx.tokenHasher key.start (some key.stop) with
  | .error message => .error message
  | .ok (_, hashes) =>
    if key.workerId = none then .error "Must resolve keys with worker_id != None"
    else
      match ctx.entryOf key with
      | none => .error (noRegistration key).message
      | some entry =>
        .ok (ipcKeyToObjectKeys key (hashes.map ctx.tokenHasher.hashToBytes) objectGroupIds
          entry.shardReplicationDesc)

/-- The chunks before the window of a group. -/
def groupSkip (numChunks : Nat) (window : Int) : Nat :=
  if window < 0 then 0 else numChunks - window.toNat

/-- The keys `retrieve` reads for one worker, `retained_keys`; the windows are
those of the registration. -/
def retrieve : Except String (List (ObjectKey Digest)) :=
  match ctx.entryOf key with
  | none => .error (noRegistration key).message
  | some entry =>
    match resolveObjKeys ctx session key (range entry.attnDesc.numObjectGroups) with
    | .error message => .error message
    | .ok objKeysPerObjGroup =>
      let numChunks := (objKeysPerObjGroup.head?.map length).getD 0
      .ok ((objKeysPerObjGroup.zip entry.attnDesc.numChunksInSw).flatMap fun group =>
        group.1.drop (groupSkip numChunks group.2))

end

/-! ## Workers and ranks -/

section

variable (desc : ShardReplicationDesc)

/-- The workers form whole replica sets, these whole shard sets, and no key
has more readers than the L1 manager counts. -/
structure WholeShards (worldSize objectGroupId : Nat) : Prop where
  replicas : desc.tpReplicas objectGroupId ∣ worldSize
  shards : desc.dcpShards objectGroupId ∣ desc.tpReplicas objectGroupId
  readers : desc.numKvReaders objectGroupId ≤ maxReadLockCount

lemma ShardReplicationDesc.tpReplicas_pos (objectGroupId : Nat) :
    0 < desc.tpReplicas objectGroupId := by
  rw [tpReplicas, getD_eq_getElem?_getD]
  cases h : desc.groupTpReplicas[objectGroupId]? with
  | none => exact Nat.one_pos
  | some replicas => exact desc.replicas_pos replicas (mem_of_getElem? h)

lemma ShardReplicationDesc.dcpShards_pos (objectGroupId : Nat) :
    0 < desc.dcpShards objectGroupId := by
  rw [dcpShards, getD_eq_getElem?_getD]
  cases h : desc.groupDcpShards[objectGroupId]? with
  | none => exact Nat.one_pos
  | some shards => exact desc.shards_pos shards (mem_of_getElem? h)

end

/-- The workers of `q` replica sets, each of `k` times all shards: every first
holder of a shard stands for `k` workers. -/
lemma holders_perm {α : Type} (f : Nat → α) (k dcp q : Nat) :
    ((range' 0 q (k * dcp)).flatMap fun first =>
      (range dcp).flatMap fun shard => replicate k (f (first + shard))).Perm
      ((range (q * (k * dcp))).map fun w => f (w - w % (k * dcp) + w % dcp)) := by
  have hset : range' 0 q (k * dcp) = (range q).map (· * (k * dcp)) := by
    refine ext_getElem (by simp) fun i h₁ h₂ => ?_
    simp [mul_comm]
  rw [hset, range_mul, map_flatMap, flatMap_map]
  refine Perm.flatMap_left _ fun a _ => ?_
  have hmember : ((range (k * dcp)).map fun b => a * (k * dcp) + b).map
        (fun w => f (w - w % (k * dcp) + w % dcp))
      = (range (k * dcp)).map fun b => f (a * (k * dcp) + b % dcp) := by
    rw [map_map]
    refine map_congr_left fun b hb => ?_
    have hmod : (a * (k * dcp) + b) % (k * dcp) = b := by
      rw [Nat.mul_add_mod_self_right, Nat.mod_eq_of_lt (mem_range.mp hb)]
    have hshard : (a * (k * dcp) + b) % dcp = b % dcp := by
      rw [← Nat.mul_assoc, Nat.mul_add_mod_self_right]
    simp only [Function.comp_apply, hmod, hshard, Nat.add_sub_cancel]
  have hblocks : ((range (k * dcp)).map fun b => f (a * (k * dcp) + b % dcp))
      = (range k).flatMap fun _ => (range dcp).flatMap fun shard =>
          [f (a * (k * dcp) + shard)] := by
    rw [range_mul, map_flatMap]
    refine flatMap_congr fun c _ => ?_
    rw [map_map, map_eq_flatMap]
    refine flatMap_congr fun b hb => ?_
    simp [Nat.mod_eq_of_lt (mem_range.mp hb)]
  rw [hmember, hblocks]
  refine (Perm.of_eq ?_).trans (flatMap_perm_comm ..)
  refine flatMap_congr fun shard _ => ?_
  rw [← map_eq_flatMap, map_const', length_range]

/-- The rank of a worker. -/
def kvRankOf (worldSize workerId : Nat) : Nat := computeKVRank worldSize workerId worldSize workerId

/-- Each rank a lookup addresses is that of as many workers as it has
readers. -/
lemma ranks_perm {desc : ShardReplicationDesc} {objectGroupId : Nat}
    {key : IPCCacheServerKey Token} (hkey : key.workerId = none)
    (h : WholeShards desc key.worldSize objectGroupId) : ((desc.kvRanks objectGroupId key).flatMap
      (replicate (desc.tpReplicas objectGroupId / desc.dcpShards objectGroupId))).Perm
      ((range key.worldSize).flatMap fun w =>
      desc.kvRanks objectGroupId { key with workerId := some w }) := by
  obtain ⟨q, hq⟩ := h.replicas
  obtain ⟨k, hk⟩ := h.shards
  have hdcp : 0 < desc.dcpShards objectGroupId := desc.dcpShards_pos objectGroupId
  have htp : 0 < desc.tpReplicas objectGroupId := desc.tpReplicas_pos objectGroupId
  rw [mul_comm] at hk hq
  have hreaders : desc.tpReplicas objectGroupId / desc.dcpShards objectGroupId = k := by
    rw [hk, Nat.mul_div_cancel _ hdcp]
  have hsets : (key.worldSize + desc.tpReplicas objectGroupId - 1) / desc.tpReplicas objectGroupId
      = q := by
    rw [hq, Nat.add_sub_assoc htp, mul_comm, Nat.mul_add_div htp,
      Nat.div_eq_of_lt (Nat.sub_lt htp Nat.one_pos), add_zero]
  have hperm := holders_perm (kvRankOf key.worldSize) k (desc.dcpShards objectGroupId) q
  rw [← hk, ← hq] at hperm
  have hsome : ((range key.worldSize).flatMap fun w =>
        desc.kvRanks objectGroupId { key with workerId := some w })
      = (range key.worldSize).map fun w => kvRankOf key.worldSize
          (w - w % desc.tpReplicas objectGroupId + w % desc.dcpShards objectGroupId) := by
    rw [map_eq_flatMap]
    rfl
  rw [hsome, hreaders]
  refine (Perm.of_eq ?_).trans hperm
  simp only [ShardReplicationDesc.kvRanks, lookupKvRanks, hkey, hsets, flatMap_assoc, flatMap_map]
  rfl

/-! ## What is read -/

section Reads

variable {ctx : ServerContext Token Hash Digest} {key : IPCCacheServerKey Token}
  {entry : LayoutDescEntry}

variable (ctx key) in
/-- The key of a worker's retrieve of some chunks. -/
def ServerContext.workerKey (piece : Nat × Nat) (w : Nat) : IPCCacheServerKey Token :=
  { ctx.pieceKey key piece with workerId := some w }

variable (ctx key entry) in
/-- The keys a worker reads of some chunks. -/
def workerReads (piece : Nat × Nat) (w : Nat) : List (ObjectKey Digest) :=
  (range entry.attnDesc.numObjectGroups).flatMap fun objectGroupId =>
    (entry.shardReplicationDesc.kvRanks objectGroupId { key with workerId := some w }).flatMap
      fun kvRank =>
        (List.Ico (max (lockStart (entry.attnDesc.window objectGroupId) piece.2) piece.1)
            piece.2).map fun c => objectKey key objectGroupId kvRank (ctx.digest key c)

lemma zip_windows {α : Type} (desc : AttnWindowDesc) (f : Nat → α) :
    ((range desc.numObjectGroups).map f).zip desc.numChunksInSw
      = (range desc.numObjectGroups).map fun g => (f g, desc.window g) := by
  refine ext_getElem? fun i => ?_
  by_cases hi : i < desc.numChunksInSw.length
  · simp [AttnWindowDesc.numObjectGroups, AttnWindowDesc.window, hi]
  · simp [AttnWindowDesc.numObjectGroups, hi]

/-- The window of the retrieved range, in chunks of the request. -/
lemma drop_groupSkip (start stop : Nat) (window : Int) :
    (Ico start stop).drop (groupSkip (stop - start) window)
      = Ico (max (lockStart window stop) start) stop := by
  rw [drop_Ico, groupSkip, lockStart]
  by_cases hle : start ≤ stop
  · congr 1
    split <;> omega
  · rw [Ico.eq_nil_of_le (by omega), Ico.eq_nil_of_le (by omega)]

/-- A retrieve whose session has the hashes of its tokens reads the windows of
the range on the worker's rank. -/
lemma retrieve_ok {session : Session Token Hash Digest} (hentry : ctx.entryOf key = some entry)
    (hcurrent : (session.setTokens key.tokens).Current ctx.tokenHasher) {piece : Nat × Nat}
    (hin : piece.2 * ctx.chunkSize ≤ key.tokens.length) (w : Nat) :
    retrieve ctx session (ctx.workerKey key piece w) = .ok (workerReads ctx key entry piece w) := by
  obtain ⟨session', hashes, hquery, hhashes⟩ := hcurrent (piece.1 * ctx.chunkSize)
    (some (piece.2 * ctx.chunkSize)) (Nat.mul_mod_left ..) (by
      intro e he
      obtain rfl := Option.some.inj he
      exact ⟨Nat.mul_mod_left .., hin⟩)
  have hbytes := hhashes.trans (piece_hashes hin)
  have hentry' : ctx.entryOf (ctx.workerKey key piece w) = some entry := hentry
  have hresolve : resolveObjKeys ctx session (ctx.workerKey key piece w)
        (range entry.attnDesc.numObjectGroups)
      = .ok ((range entry.attnDesc.numObjectGroups).map fun objectGroupId =>
          (Ico piece.1 piece.2).flatMap fun c =>
            (entry.shardReplicationDesc.kvRanks objectGroupId { key with workerId := some w }).map
              fun kvRank => objectKey key objectGroupId kvRank (ctx.digest key c)) := by
    have hquery' : (session.setTokens (ctx.workerKey key piece w).tokens).getHashes ctx.tokenHasher
        (ctx.workerKey key piece w).start (some (ctx.workerKey key piece w).stop)
          = .ok (session', hashes) := hquery
    rw [resolveObjKeys, hquery', hentry']
    simp only [hbytes, ipcKeyToObjectKeys, flatMap_map]
    rfl
  -- a worker has one rank, so a group has one key for every chunk
  have hgroup : ∀ objectGroupId, ∃ kvRank,
      entry.shardReplicationDesc.kvRanks objectGroupId { key with workerId := some w } = [kvRank] :=
    fun objectGroupId => ⟨_, rfl⟩
  simp only [retrieve, hentry', hresolve, zip_windows, flatMap_map]
  congr 1
  refine flatMap_congr fun objectGroupId hmem => ?_
  have hcount : ((((range entry.attnDesc.numObjectGroups).map fun objectGroupId =>
          (Ico piece.1 piece.2).flatMap fun c =>
            (entry.shardReplicationDesc.kvRanks objectGroupId { key with workerId := some w }).map
              fun kvRank => objectKey key objectGroupId kvRank (ctx.digest key c)).head?.map
            length).getD 0) = piece.2 - piece.1 := by
    obtain ⟨first, rest, hrange⟩ := exists_cons_of_ne_nil (ne_nil_of_mem hmem)
    obtain ⟨kvRank, hrank⟩ := hgroup first
    simp [hrange, hrank]
  obtain ⟨kvRank, hrank⟩ := hgroup objectGroupId
  simp only [hcount, hrank, map_cons, map_nil, flatMap_cons, flatMap_nil,
    append_nil, ← map_eq_flatMap, ← map_drop, drop_groupSkip]

/-- The locks one by one. -/
def units (locks : List (ObjectKey Digest × Nat)) : List (ObjectKey Digest) :=
  locks.flatMap fun lock => replicate lock.2 lock.1

lemma units_perm {locks locks' : List (ObjectKey Digest × Nat)} (h : locks.Perm locks') :
    (units locks).Perm (units locks') :=
  h.flatMap_right _

/-- A lock counts the readers of its key. -/
lemma validateReadLocks_numKvReaders {desc : ShardReplicationDesc} {worldSize objectGroupId : Nat}
    (h : WholeShards desc worldSize objectGroupId) :
    validateReadLocks (desc.numKvReaders objectGroupId)
      = desc.tpReplicas objectGroupId / desc.dcpShards objectGroupId := by
  have hle := Nat.le_of_dvd (desc.tpReplicas_pos objectGroupId) h.shards
  have hpos := Nat.div_pos hle (desc.dcpShards_pos objectGroupId)
  have hmax : desc.numKvReaders objectGroupId
      = ((desc.tpReplicas objectGroupId / desc.dcpShards objectGroupId : Nat) : Int) := by
    rw [ShardReplicationDesc.numKvReaders, Nat.max_eq_right hpos]
  have hreaders := h.readers
  rw [hmax] at hreaders ⊢
  rw [validateReadLocks, if_neg (by omega), if_neg (by omega), Int.toNat_natCast]

/-- Together the workers read each key of the windows of a range as often as a
lookup of it would lock it. -/
lemma reads_perm {sessions : Nat → Session Token Hash Digest} (hkey : key.workerId = none)
    (hentry : ctx.entryOf key = some entry)
    (hwhole : ∀ objectGroupId, WholeShards entry.shardReplicationDesc key.worldSize objectGroupId)
    (hcurrent : ∀ w, ((sessions w).setTokens key.tokens).Current ctx.tokenHasher)
    {piece : Nat × Nat} (hin : piece.2 * ctx.chunkSize ≤ key.tokens.length) :
    ∃ reads, (range key.worldSize).mapM
      (fun w => retrieve ctx (sessions w) (ctx.workerKey key piece w)) = .ok reads ∧
      reads.flatten.Perm (units (pieceLocks ctx key entry piece.2 piece)) := by
  obtain ⟨reads, hreads, hall⟩ := exists_mapM_ok
    (R := fun w keys => keys.Perm (workerReads ctx key entry piece w))
    fun w (_ : w ∈ range key.worldSize) =>
      ⟨_, retrieve_ok hentry (hcurrent w) hin w, Perm.refl _⟩
  refine ⟨reads, hreads, (flatten_perm hall).trans ((flatMap_perm_comm ..).trans ?_)⟩
  simp only [units, pieceLocks, flatMap_assoc]
  refine Perm.flatMap_left _ fun objectGroupId _ => ?_
  have hranks := (ranks_perm hkey (hwhole objectGroupId)).flatMap_right fun kvRank =>
    (Ico (max (lockStart (entry.attnDesc.window objectGroupId) piece.2) piece.1) piece.2).map
      fun c => objectKey key objectGroupId kvRank (ctx.digest key c)
  simp only [flatMap_assoc] at hranks
  refine hranks.symm.trans ?_
  simp only [flatMap_map, lockOf, validateReadLocks_numKvReaders (hwhole objectGroupId)]
  refine Perm.trans ?_ (flatMap_perm_comm ..)
  refine Perm.flatMap_left _ fun kvRank _ => ?_
  have hloop : ∀ {α : Type} (k : Nat) (a : α), replicate k a = (range k).map fun _ => a := by
    intro α k a
    rw [map_const', length_range]
  simp only [hloop, map_eq_flatMap, flatMap_assoc, flatMap_cons, flatMap_nil, append_nil]
  exact flatMap_perm_comm ..

end Reads

end LMCache.Multiprocess
