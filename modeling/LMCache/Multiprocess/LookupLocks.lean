/-
LMCache.Multiprocess.LookupLocks — what a lookup locked and what is released.

The prefetch leaves locked the cells its hit needs: rows of a full-attention
group the whole hit, rows of a sliding-window group its last chunks. A
release recomputes the same keys from the hit length and the windows alone.
`pieces_release` says the two agree for every way to cut the hit range into
consecutive pieces: together the pieces release each locked key as often as
it was locked, and each key in one piece.

The proof brings both sides to one shape, a loop over groups, chunks and
ranks: `leftLocked_eq` from the folded rows, `pieceReleases_ok` from the
resolved ranges. They differ in the order of the loops and in the cut.
-/
import LMCache.Multiprocess.Lookup
import LMCache.StorageControllers.PrefetchOutcome

namespace LMCache.Multiprocess

open List Lib Native StorageControllers L1Manager AttnWindowDesc

variable {Token Hash Digest : Type}

/-! ## The hit -/

/-- The cells a prefix needs serve that prefix and no longer one. -/
lemma longestPrefix_needed {windows : List Int} {n length : Nat} {has : Nat → Nat → Bool}
    (hpos : 0 < windows.length) (hle : length ≤ n)
    (h : ∀ i j, has i j ↔ NeededAt windows length i j) :
    longestPrefix windows n has = length := by
  apply Nat.le_antisymm
  · by_contra hlt
    -- the last chunk of a longer prefix is not there
    have hserves := servesPrefix_longestPrefix windows n has (windows[0], 0)
      (mem_zipIdx_iff_getElem?.mpr (by simp)) (longestPrefix windows n has - 1) (by omega)
      (Nat.le_sub_one_of_lt (windowStart_lt (by omega)))
    obtain ⟨w, -, -, hlast⟩ := (h _ _).mp hserves
    omega
  · refine Nat.le_findGreatest hle fun p hp j hj hlo => ?_
    exact (h p.2 j).mpr ⟨p.1, mem_zipIdx_iff_getElem?.mp hp, hlo, hj⟩

/-- The cells of the hit are those a prefix of `length` chunks needs. -/
structure HitLength {Key : Type} (spec : PrefetchTaskSpec Key)
    (result : PrefetchResult Key spec.numRows spec.groupSize) (length : Nat) : Prop where
  le : length ≤ spec.groupSize
  cells : ∀ i j, result.hitCells.test i j ↔ NeededAt (windowsOf spec.keyGroups) length i j

variable {Key : Type}

lemma length_windowsOf (spec : PrefetchTaskSpec Key) :
    (windowsOf spec.keyGroups).length = spec.numRows := by
  simp [windowsOf, PrefetchTaskSpec.numRows]

/-- A finished prefix request hits the longest prefix it holds locked. -/
lemma hitLength_finished [DecidableEq Key] (spec : PrefetchTaskSpec Key)
    (hpolicy : spec.fetchingPolicy = .prefixPolicy)
    (request : RequestState spec.numRows spec.groupSize) :
    HitLength spec (finishedResult spec request) (longestPrefix (windowsOf spec.keyGroups)
      spec.groupSize request.keyStates.l1LockedKeys.merge.test) where
  le := longestPrefix_le ..
  cells := by
    intro i j
    obtain ⟨needed, hneeded, htest⟩ := neededCells_prefix request.keyStates.l1LockedKeys.merge
      (length_windowsOf spec) spec.rows.pos
    simp only [finishedResult, hitCells, hpolicy, hneeded]
    exact htest i j

lemma gather_range {row : Bitmap} {keys : List Key} {lo hi : Nat} (hle : hi ≤ keys.length)
    (h : ∀ j, row.test j ↔ lo ≤ j ∧ j < hi) : row.gather keys = (keys.take hi).drop lo := by
  have hindices : row.getIndices = Ico lo hi := by
    have hsorted := row.getIndices_pairwise
    refine List.Perm.eq_of_pairwise (fun a b _ _ hab hba => absurd hab (Nat.lt_asymm hba))
      hsorted (Ico.pairwise_lt lo hi) ?_
    refine (perm_ext_iff_of_nodup (hsorted.imp Nat.ne_of_lt) (Ico.nodup lo hi)).mpr ?_
    intro j
    rw [Bitmap.mem_getIndices, h, Ico.mem]
  rw [Bitmap.gather, hindices, filterMap_Ico keys hle]

lemma gatherKeysByRow_range {m n : Nat} {groups : List (GroupedObjectKeys Key)}
    (hrows : Rows groups m n) {grid : Bitmap2D m n} {length : Nat} (hle : length ≤ n)
    (h : ∀ i j, grid.test i j ↔ NeededAt (windowsOf groups) length i j) :
    gatherKeysByRow groups grid = groups.map fun group =>
      (group, (group.keys.take length).drop (windowStart group.slidingWindowSize length)) := by
  refine ext_getElem? fun i => ?_
  rw [gatherKeysByRow, getElem?_zipWith, getElem?_map]
  cases hg : groups[i]? with
  | none => simp
  | some group =>
    have hi : i < m := hrows.length ▸ (List.getElem?_eq_some_iff.mp hg).1
    obtain ⟨row, hrow, -⟩ := grid.exists_row hi
    have hkeys := hrows.width group (mem_of_getElem? hg)
    have htest : ∀ j, row.test j ↔
        windowStart group.slidingWindowSize length ≤ j ∧ j < length := by
      intro j
      rw [← grid.test_eq hrow, h]
      simp [NeededAt, windowsOf, hg]
    simp only [hrow, Option.map_some]
    rw [gather_range (by omega) htest]

/-! ## What stays locked -/

variable {job : PrefetchJob Digest} {results : PrefetchResults Digest}

variable (job results) in
/-- The locks a finished prefetch leaves to the readers, key by key. -/
def leftLocked : List (ObjectKey Digest × Nat) :=
  job.spec.elim [] fun spec =>
    (gatherKeysByRow spec.keyGroups (results spec).hitCells).flatMap fun row =>
      row.2.map fun objKey => (objKey, validateReadLocks row.1.numKvReaders)

/-- They are the read locks that the L1 managers count for the request when its
result is published. -/
lemma leftLocked_held {Obj : Type} [DecidableEq Obj] [DecidableEq Digest] {request : Nat}
    {w : World (ObjectKey Digest) Obj} {spec : PrefetchTaskSpec (ObjectKey Digest)}
    (hspec : job.spec = some spec) (hmode : spec.lockMode = .lock)
    (hsettled : Settled request spec w (results spec)) :
    (∀ lock ∈ leftLocked job results,
      ∃ l1Idx, (w.holders request l1Idx lock.1).count true = lock.2) ∧
    ∀ objKey l1Idx, 0 < (w.holders request l1Idx objKey).count true →
      (objKey, (w.holders request l1Idx objKey).count true) ∈ leftLocked job results := by
  simp only [leftLocked, hspec, Option.elim_some, mem_flatMap, mem_map]
  constructor
  · rintro _ ⟨row, hrow, objKey, hkey, rfl⟩
    obtain ⟨i, j, hij, hg, hkeyj⟩ := mem_gatherKeysByRow.mp ⟨row, hrow, rfl, hkey⟩
    obtain ⟨l1Idx, howner⟩ := hsettled.owned hmode i j objKey hij (by simp [keyAt, hg, hkeyj])
    exact ⟨l1Idx, (hsettled.reads i j row.1 objKey hg hkeyj l1Idx).trans
      (if_pos ⟨hmode, hij, howner⟩)⟩
  · intro objKey l1Idx hpos
    have hmem : objKey ∈ flattenedKeys spec.keyGroups := by
      by_contra hnot
      exact absurd (hsettled.others objKey hnot l1Idx) (Nat.ne_of_gt hpos)
    obtain ⟨group, hgroup, hkey⟩ := mem_flatMap.mp hmem
    obtain ⟨i, hg⟩ := mem_iff_getElem?.mp hgroup
    obtain ⟨j, hkeyj⟩ := mem_iff_getElem?.mp hkey
    have hreads := hsettled.reads i j group objKey hg hkeyj l1Idx
    rw [hreads] at hpos ⊢
    split_ifs at hpos with hheld
    · obtain ⟨row, hrow, rfl, hin⟩ := mem_gatherKeysByRow.mpr ⟨i, j, hheld.2.1, hg, hkeyj⟩
      exact ⟨row, hrow, objKey, hin, by rw [if_pos hheld]⟩
    · cases hpos

variable {ctx : ServerContext Token Hash Digest} {key : IPCCacheServerKey Token}

variable (ctx key) in
/-- The bytes of the hash of a chunk of the request. -/
def ServerContext.digest (c : Nat) : Digest :=
  ctx.tokenHasher.hashToBytes (ctx.tokenHasher.chainHash key.tokens c)

variable {entry : LayoutDescEntry}

variable (ctx key entry) in
/-- One lock of the request: a chunk's object of a group and rank, with its
number of readers. -/
def lockOf (objectGroupId kvRank c : Nat) : ObjectKey Digest × Nat :=
  (objectKey key objectGroupId kvRank (ctx.digest key c),
    validateReadLocks (entry.shardReplicationDesc.numKvReaders objectGroupId))

/-- The first chunk of the request a group keeps for a hit. -/
def lockStart (window : Int) (hit : Nat) : Nat :=
  if window < 0 then 0 else hit - window.toNat

lemma max_lockStart {window : Int} (hwindow : window = -1 ∨ 1 ≤ window) (start length : Nat) :
    max (lockStart window (length + start)) start = start + windowStart window length := by
  unfold lockStart windowStart
  split <;> split <;> omega

variable (ctx key entry) in
/-- The locks of a hit from `start` on, as a loop over groups, ranks and
chunks. -/
def hitLocks (start hit : Nat) : List (ObjectKey Digest × Nat) :=
  (range entry.attnDesc.numObjectGroups).flatMap fun objectGroupId =>
    (entry.shardReplicationDesc.kvRanks objectGroupId key).flatMap fun kvRank =>
      (Ico (max (lockStart (entry.attnDesc.window objectGroupId) hit) start) hit).map
        (lockOf ctx key entry objectGroupId kvRank)

/-- The rows of a prefetch as a loop over groups and ranks. -/
lemma flatMap_rows {chunkHashes : List Digest} {objectGroupIds : List Nat}
    {rows : List (GroupedObjectKeys (ObjectKey Digest))}
    (h : ipcKeyToGroupedObjectKeys key chunkHashes objectGroupIds entry = .ok rows) (length : Nat) :
    ((rows.map fun row =>
      (row, (row.keys.take length).drop (windowStart row.slidingWindowSize length))).flatMap
      fun row => row.2.map fun objKey => (objKey, validateReadLocks row.1.numKvReaders))
    = objectGroupIds.flatMap fun objectGroupId =>
      (entry.shardReplicationDesc.kvRanks objectGroupId key).flatMap fun kvRank =>
      ((chunkHashes.take length).drop
      (windowStart (entry.attnDesc.window objectGroupId) length)).map fun chunkHash =>
      (objectKey key objectGroupId kvRank chunkHash,
      validateReadLocks (entry.shardReplicationDesc.numKvReaders objectGroupId)) := by
  have hdata := congrArg (flatMap fun data =>
    ((data.1.take length).drop (windowStart data.2.1 length)).map fun objKey =>
      (objKey, validateReadLocks data.2.2)) (ipcKeyToGroupedObjectKeys_ok h)
  simp only [rowData, groupRowData, flatMap_map, flatMap_assoc, ← map_take,
    ← map_drop, map_map, Function.comp_def] at hdata
  simpa only [flatMap_map] using hdata

/-! ## A lookup that submits a prefetch -/

section

variable (ctx key)

/-- The chunks of the request a lookup covers end here. -/
def ServerContext.endChunk : Nat :=
  ctx.tokenHasher.numComplete key.tokens (some key.stop)

/-- What a lookup submitted: the rows of all groups for the chunks from its
start on. -/
structure Submitted (job : PrefetchJob Digest) (entry : LayoutDescEntry)
    (spec : PrefetchTaskSpec (ObjectKey Digest)) : Prop where
  entry_eq : ctx.entryOf key = some entry
  job_eq : job.spec = some spec
  groups : job.numObjectGroups = entry.attnDesc.numObjectGroups
  start_le : job.startChunk ≤ ctx.endChunk key
  rows : ipcKeyToGroupedObjectKeys key
    ((Ico job.startChunk (ctx.endChunk key)).map (ctx.digest key))
    (range entry.attnDesc.numObjectGroups) entry = .ok spec.keyGroups
  policy : spec.fetchingPolicy = .prefixPolicy
  lock : spec.lockMode = .lock

lemma lookup_hashes : ctx.tokenHasher.computePackedChunkHashes key.tokens none 0 (some key.stop)
      = (Ico 0 (ctx.endChunk key)).map (ctx.digest key) := by
  have haligned := ctx.tokenHasher.computePackedChunkHashes_aligned key.tokens 0 (some key.stop)
  rwa [Nat.zero_mul] at haligned

end

/-- A lookup registers an empty job or submits a prefetch. -/
lemma lookup_cases (h : lookup ctx key = .ok job) :
    (job.spec = none ∧ job.startChunk ≤ min (key.start / ctx.chunkSize) (ctx.endChunk key)) ∨
      ∃ entry spec, Submitted ctx key job entry spec ∧
      job.startChunk = key.start / ctx.chunkSize := by
  unfold lookup at h
  split at h
  · cases h
    exact .inl ⟨rfl, Nat.zero_le _⟩
  · rename_i entry hentry
    have hstart : startChunkOf ctx key ((Ico 0 (ctx.endChunk key)).map (ctx.digest key))
        = min (key.start / ctx.chunkSize) (ctx.endChunk key) := by
      simp [startChunkOf]
    simp only [lookup_hashes, hstart] at h
    split at h
    · cases h
      exact .inl ⟨rfl, Nat.zero_le _⟩
    split at h
    · cases h
      exact .inl ⟨rfl, Nat.zero_le _⟩
    split at h
    · cases h
      exact .inl ⟨rfl, Nat.zero_le _⟩
    split_ifs at h with hdrop
    · cases h
      exact .inl ⟨rfl, le_rfl⟩
    · have hlt : key.start / ctx.chunkSize < ctx.endChunk key := by simpa using hdrop
      rw [← map_drop, drop_Ico, zero_add] at h
      obtain ⟨rows, hrows, h⟩ := bind_ok h
      obtain ⟨spec, hspec, h⟩ := bind_ok h
      obtain ⟨hgroups, hpolicy, hlock⟩ := prefetchTaskSpec_ok hspec
      cases h
      exact .inr ⟨entry, spec, ⟨hentry, rfl, rfl, Nat.min_le_right .., hgroups ▸ hrows, hpolicy, hlock⟩,
        Nat.min_eq_left (le_of_lt hlt)⟩

namespace Submitted

variable {spec : PrefetchTaskSpec (ObjectKey Digest)}

section

variable (h : Submitted ctx key job entry spec)
include h

lemma groupSize : spec.groupSize = ctx.endChunk key - job.startChunk := by
  obtain ⟨row, hrow⟩ := exists_mem_of_ne_nil _ spec.nonempty
  have hmem := mem_map_of_mem (f := rowData) hrow
  rw [ipcKeyToGroupedObjectKeys_ok h.rows, mem_flatMap] at hmem
  obtain ⟨objectGroupId, -, hdata⟩ := hmem
  obtain ⟨kvRank, -, hdata⟩ := mem_map.mp hdata
  have hkeys : ctx.endChunk key - job.startChunk = row.keys.length := by
    simpa [rowData] using congrArg (fun data => data.1.length) hdata
  rw [hkeys, spec.rows.width row hrow]

variable {length : Nat}

section

variable (hhit : HitLength spec (results spec) length)
include hhit

/-- The session records the hit in chunks of the request. -/
lemma consume : consumePrefetchResult job results
      = .ok (length + job.startChunk, range entry.attnDesc.numObjectGroups) := by
  have hfold := foldUnfold_grid (results spec).hitCells (length_windowsOf spec) spec.rows.pos
  rw [longestPrefix_needed ((length_windowsOf spec).symm ▸ spec.rows.pos) hhit.le hhit.cells]
    at hfold
  simp [consumePrefetchResult, h.job_eq, hfold, bind, Except.bind, pure, Except.pure, h.groups]

lemma hit_le : length + job.startChunk ≤ ctx.endChunk key := by
  have hsize := h.groupSize
  have hstart := h.start_le
  have hle := hhit.le
  omega

lemma leftLocked_eq : leftLocked job results
      = hitLocks ctx key entry job.startChunk (length + job.startChunk) := by
  have hmin : min (job.startChunk + length) (ctx.endChunk key) = length + job.startChunk := by
    have hle := h.hit_le hhit
    omega
  rw [leftLocked, h.job_eq, Option.elim_some, gatherKeysByRow_range spec.rows hhit.le hhit.cells,
    flatMap_rows h.rows]
  refine flatMap_congr fun objectGroupId hgroup => ?_
  have hlt : objectGroupId < entry.attnDesc.numChunksInSw.length := mem_range.mp hgroup
  rw [max_lockStart (entry.attnDesc.windows_ok _ (by simp [window, hlt]))]
  simp only [← map_take, ← map_drop, take_Ico, drop_Ico, map_map, hmin]
  rfl

end

end

end Submitted

/-! ## What a piece releases -/

variable {piece : Nat × Nat}

variable (ctx key piece) in
/-- A part of the request's range, in chunks. -/
def ServerContext.pieceKey : IPCCacheServerKey Token :=
  { key with start := piece.1 * ctx.chunkSize, stop := piece.2 * ctx.chunkSize }

variable (ctx key) in
/-- The locks released for a piece of the hit range. -/
def pieceReleases (hitChunks : Nat) (lockedGids : List Nat) (piece : Nat × Nat) :
    Except ValueError (List (ObjectKey Digest × Nat)) := do
  let objKeys ← resolvePrefetchedObjKeys ctx (ctx.pieceKey key piece) hitChunks lockedGids
  if objKeys.isEmpty then return []
  else return releases (← finishLookupRead ctx key objKeys)

lemma flatMap_zipIdx_windows {γ : Type} (desc : AttnWindowDesc) (f : Int × Nat → List γ) :
    desc.numChunksInSw.zipIdx.flatMap f
      = (range desc.numObjectGroups).flatMap fun g => f (desc.window g, g) := by
  have hzip : desc.numChunksInSw.zipIdx
      = (range desc.numObjectGroups).map fun g => (desc.window g, g) := by
    refine ext_getElem? fun i => ?_
    by_cases hi : i < desc.numChunksInSw.length
    · simp [numObjectGroups, window, hi]
    · simp [numObjectGroups, hi]
  rw [hzip, flatMap_map]

variable (ctx key entry) in
/-- The keys of a piece of the hit range, group by group. -/
def pieceKeys (hit : Nat) (piece : Nat × Nat) : List (ObjectKey Digest) :=
  (range entry.attnDesc.numObjectGroups).flatMap fun objectGroupId =>
    (Ico (max (lockStart (entry.attnDesc.window objectGroupId) hit) piece.1) piece.2).flatMap
      fun c => (entry.shardReplicationDesc.kvRanks objectGroupId key).map fun kvRank =>
        objectKey key objectGroupId kvRank (ctx.digest key c)

section Piece

lemma piece_hashes (hin : piece.2 * ctx.chunkSize ≤ key.tokens.length) :
    ctx.tokenHasher.computePackedChunkHashes (ctx.pieceKey key piece).tokens none
      (ctx.pieceKey key piece).start (some (ctx.pieceKey key piece).stop)
      = (Ico piece.1 piece.2).map (ctx.digest key) := by
  have haligned := ctx.tokenHasher.computePackedChunkHashes_aligned key.tokens piece.1
    (some (piece.2 * ctx.chunkSize))
  rwa [ServerContext.chunkSize, ctx.tokenHasher.numComplete_aligned key.tokens hin] at haligned

lemma resolveGroup_piece {desc : ShardReplicationDesc} {hit : Nat} (hle : piece.1 ≤ piece.2)
    (hhit : piece.2 ≤ hit) (window : Int) {objectGroupId : Nat} {lockedGids : List Nat}
    (hlocked : objectGroupId ∈ lockedGids) :
    resolveGroup (ctx.pieceKey key piece) desc ((Ico piece.1 piece.2).map (ctx.digest key))
      piece.1 hit lockedGids (window, objectGroupId)
      = (Ico (max (lockStart window hit) piece.1) piece.2).flatMap fun c =>
      (desc.kvRanks objectGroupId key).map fun kvRank =>
      objectKey key objectGroupId kvRank (ctx.digest key c) := by
  have hrange : lockedRange window hit piece.1
      (piece.1 + ((Ico piece.1 piece.2).map (ctx.digest key)).length)
        = some (max (lockStart window hit) piece.1, piece.2) := by
    have hend : min hit (piece.1 + (piece.2 - piece.1)) = piece.2 := by omega
    simp [lockedRange, lockStart, hend]
  rw [resolveGroup, hrange]
  simp only [contains_eq_mem, hlocked, decide_true, Bool.not_true, Bool.and_false,
    Bool.false_eq_true, if_false]
  split_ifs with hempty
  · rw [Ico.eq_nil_of_le hempty]
    rfl
  · have hslice : ((Ico piece.1 piece.2).drop (max (lockStart window hit) piece.1 - piece.1)).take
        (piece.2 - max (lockStart window hit) piece.1)
          = Ico (max (lockStart window hit) piece.1) piece.2 := by
      rw [drop_Ico, take_Ico]
      congr 1 <;> omega
    rw [← map_drop, ← map_take, hslice]
    simp only [ipcKeyToObjectKeys, map_cons, map_nil, flatten_cons, flatten_nil,
      append_nil, flatMap_map]
    rfl

lemma resolve_piece (hentry : ctx.entryOf key = some entry) {hit : Nat} (hle : piece.1 ≤ piece.2)
    (hhit : piece.2 ≤ hit) (hin : piece.2 * ctx.chunkSize ≤ key.tokens.length) :
    resolvePrefetchedObjKeys ctx (ctx.pieceKey key piece) hit
      (range entry.attnDesc.numObjectGroups) = .ok (pieceKeys ctx key entry hit piece) := by
  have hstart : (ctx.pieceKey key piece).start / ctx.chunkSize = piece.1 :=
    Nat.mul_div_cancel _ ctx.tokenHasher.chunkSize_pos
  have hentry' : ctx.entryOf (ctx.pieceKey key piece) = some entry := hentry
  rw [resolvePrefetchedObjKeys, piece_hashes hin, hstart, hentry']
  by_cases hempty : piece.2 ≤ piece.1
  · have hnone : ∀ lo, Ico (max lo piece.1) piece.2 = [] := fun lo =>
      Ico.eq_nil_of_le (by omega)
    simp [pieceKeys, Ico.eq_nil_of_le hempty, hnone]
  · have hne : ((Ico piece.1 piece.2).map (ctx.digest key)).isEmpty = false := by
      simp [hempty]
    simp only [hne, Bool.false_eq_true, if_false]
    rw [flatMap_zipIdx_windows]
    congr 1
    refine flatMap_congr fun objectGroupId hgroup => ?_
    exact resolveGroup_piece hle hhit _ hgroup

lemma releases_byReadLocks (desc : ShardReplicationDesc) (objKeys : List (ObjectKey Digest)) :
    (releases (byReadLocks desc objKeys).entries).Perm (objKeys.map fun objKey =>
      (objKey, validateReadLocks (desc.numKvReaders objKey.objectGroupId))) := by
  have hpairs : ∀ (objKeys : List (ObjectKey Digest)) (d : Dict Int (List (ObjectKey Digest))),
      (objKeys.foldl (fun d objKey => d.push (desc.numKvReaders objKey.objectGroupId) objKey)
        d).pairs.Perm
        (objKeys.map (fun objKey => (desc.numKvReaders objKey.objectGroupId, objKey)) ++ d.pairs) := by
    intro objKeys
    induction objKeys with
    | nil => intro d; simp
    | cons objKey objKeys ih =>
      intro d
      refine (ih _).trans ((List.Perm.append_left _ (Dict.pairs_push ..)).trans ?_)
      simp
  have hall := hpairs objKeys ∅
  rw [Dict.pairs_empty] at hall
  have hmap := hall.map fun p => (p.2, validateReadLocks p.1)
  simpa [releases, byReadLocks, Dict.pairs, map_flatMap, Function.comp_def] using hmap

end Piece

/-! ## All pieces -/

variable (ctx key entry) in
/-- The locks of a piece, in the order of its keys. -/
def pieceLocks (hit : Nat) (piece : Nat × Nat) : List (ObjectKey Digest × Nat) :=
  (range entry.attnDesc.numObjectGroups).flatMap fun objectGroupId =>
    (Ico (max (lockStart (entry.attnDesc.window objectGroupId) hit) piece.1) piece.2).flatMap
      fun c => (entry.shardReplicationDesc.kvRanks objectGroupId key).map fun kvRank =>
        lockOf ctx key entry objectGroupId kvRank c

section Pieces

/-- A piece of the hit range releases its locks. -/
lemma pieceReleases_ok (hentry : ctx.entryOf key = some entry) {hit : Nat}
    (hle : piece.1 ≤ piece.2) (hhit : piece.2 ≤ hit)
    (hin : piece.2 * ctx.chunkSize ≤ key.tokens.length) :
    ∃ released, pieceReleases ctx key hit (range entry.attnDesc.numObjectGroups) piece
      = .ok released ∧ released.Perm (pieceLocks ctx key entry hit piece) := by
  have hresolve := resolve_piece hentry hle hhit hin
  have hlocks : pieceLocks ctx key entry hit piece = (pieceKeys ctx key entry hit piece).map
      fun objKey => (objKey, validateReadLocks
        (entry.shardReplicationDesc.numKvReaders objKey.objectGroupId)) := by
    simp only [pieceKeys, map_flatMap, map_map]
    rfl
  rw [hlocks]
  by_cases hempty : pieceKeys ctx key entry hit piece = []
  · simp [pieceReleases, hresolve, hempty, bind, Except.bind, pure, Except.pure]
  · refine ⟨_, ?_, releases_byReadLocks ..⟩
    simp [pieceReleases, hresolve, hempty, finishLookupRead, hentry, bind, Except.bind, pure,
      Except.pure]

lemma exists_mapM_ok {ε α β : Type} {f : α → Except ε β} {R : α → β → Prop} :
    ∀ {as : List α}, (∀ a ∈ as, ∃ b, f a = .ok b ∧ R a b) →
      ∃ bs, as.mapM f = .ok bs ∧ Forall₂ R as bs
  | [], _ => ⟨[], by simp [pure, Except.pure], .nil⟩
  | a :: as, h => by
    obtain ⟨b, hb, hab⟩ := h a mem_cons_self
    obtain ⟨bs, hbs, hall⟩ := exists_mapM_ok fun a' ha' => h a' (mem_cons_of_mem _ ha')
    exact ⟨b :: bs, by simp [hb, hbs, bind, Except.bind, pure, Except.pure], .cons hab hall⟩

lemma flatten_perm {α β : Type} {f : α → List β} {as : List α} {bs : List (List β)}
    (h : Forall₂ (fun a b => b.Perm (f a)) as bs) : bs.flatten.Perm (as.flatMap f) := by
  induction h with
  | nil => simp
  | cons hab _ ih => simpa using hab.append ih

/-- Together the pieces release the locks of the hit. -/
lemma pieceLocks_perm {start hit : Nat} {pieces : List (Nat × Nat)}
    (hcut : Consecutive start hit pieces) :
    (pieces.flatMap (pieceLocks ctx key entry hit)).Perm (hitLocks ctx key entry start hit) := by
  refine (flatMap_perm_comm pieces (range entry.attnDesc.numObjectGroups) _).trans ?_
  refine List.Perm.flatMap_left _ fun objectGroupId _ => ?_
  rw [← flatMap_assoc, hcut.flatMap_clip]
  simp only [map_eq_flatMap]
  exact flatMap_perm_comm ..

variable (ctx key) in
/-- No two chunks of the request have one hash. -/
def DistinctHashes : Prop :=
  ∀ c < ctx.endChunk key, ∀ c' < ctx.endChunk key, ctx.digest key c = ctx.digest key c' → c = c'

/-- A lock of the hit is in the pieces that hold its chunk. -/
lemma mem_pieceLocks_iff (hdistinct : DistinctHashes ctx key) {start hit : Nat}
    (hhit : hit ≤ ctx.endChunk key) {objectGroupId kvRank c : Nat}
    (hgroup : objectGroupId ∈ range entry.attnDesc.numObjectGroups)
    (hrank : kvRank ∈ entry.shardReplicationDesc.kvRanks objectGroupId key)
    (hc : c ∈ Ico (max (lockStart (entry.attnDesc.window objectGroupId) hit) start) hit)
    (hpiece : piece.2 ≤ hit) : objectKey key objectGroupId kvRank (ctx.digest key c)
      ∈ (pieceLocks ctx key entry hit piece).map Prod.fst ↔ inRange c piece := by
  rw [Ico.mem] at hc
  simp only [pieceLocks, map_flatMap, map_map, mem_flatMap, mem_map, Ico.mem, inRange_iff]
  constructor
  · rintro ⟨objectGroupId', -, c', hc', kvRank', -, hkey⟩
    have hdigest := congrArg ObjectKey.chunkHash hkey
    obtain rfl : c' = c := hdistinct c' (by omega) c (by omega) hdigest
    omega
  · intro hin
    exact ⟨objectGroupId, hgroup, c, by omega, kvRank, hrank, rfl⟩

lemma countP_of_forall₂ {α β : Type} {R : α → β → Prop} {p : α → Bool} {q : β → Bool}
    (hpq : ∀ a b, R a b → q b = p a) {as : List α} {bs : List β} (h : Forall₂ R as bs) :
    bs.countP q = as.countP p := by
  induction h with
  | nil => rfl
  | cons hab _ ih => simp [countP_cons, hpq _ _ hab, ih]

end Pieces

/-! ## Release and lock agree -/

variable (results) in
/-- What a prefetch may answer: the result of a finished or of an aborted
request. -/
def Ended [DecidableEq Digest] : Prop :=
  ∀ spec, (∃ request, results spec = finishedResult spec request) ∨ results spec = missedResult spec

lemma Ended.hitLength [DecidableEq Digest] (h : Ended results)
    (spec : PrefetchTaskSpec (ObjectKey Digest)) (hpolicy : spec.fetchingPolicy = .prefixPolicy) :
    ∃ length, HitLength spec (results spec) length := by
  rcases h spec with ⟨request, hfinished⟩ | hmissed
  · exact ⟨_, hfinished ▸ hitLength_finished spec hpolicy request⟩
  · -- an aborted request hits nothing
    exact ⟨0, hmissed ▸ ⟨Nat.zero_le _, by simp [missedResult, NeededAt]⟩⟩

variable (ctx key) in
lemma pieceReleases_empty (hit : Nat) (lockedGids : List Nat) (hempty : piece.2 ≤ piece.1) :
    pieceReleases ctx key hit lockedGids piece = .ok [] := by
  have hnone : ctx.tokenHasher.computePackedChunkHashes (ctx.pieceKey key piece).tokens none
      (ctx.pieceKey key piece).start (some (ctx.pieceKey key piece).stop) = [] := by
    have hle : ctx.tokenHasher.numComplete key.tokens (some (piece.2 * ctx.chunkSize)) ≤ piece.2 := by
      refine Nat.div_le_of_le_mul ?_
      rw [mul_comm]
      exact Nat.min_le_right ..
    have haligned := ctx.tokenHasher.computePackedChunkHashes_aligned key.tokens piece.1
      (some (piece.2 * ctx.chunkSize))
    rwa [Ico.eq_nil_of_le (le_trans hle hempty)] at haligned
  simp [pieceReleases, resolvePrefetchedObjKeys, hnone, bind, Except.bind, pure, Except.pure]

namespace Submitted

variable {spec : PrefetchTaskSpec (ObjectKey Digest)} {length : Nat}

lemma pieces (h : Submitted ctx key job entry spec)
    (hlength : HitLength spec (results spec) length) {pieces : List (Nat × Nat)}
    (hcut : Consecutive job.startChunk (length + job.startChunk) pieces) :
    ∃ released, pieces.mapM (pieceReleases ctx key (length + job.startChunk)
      (range entry.attnDesc.numObjectGroups)) = .ok released ∧
      Forall₂ (fun piece locks => piece.2 ≤ length + job.startChunk ∧
      locks.Perm (pieceLocks ctx key entry (length + job.startChunk) piece)) pieces released := by
  refine exists_mapM_ok fun piece hpiece => ?_
  obtain ⟨-, hle, hend⟩ := hcut.piece_le hpiece
  have hin : piece.2 * ctx.chunkSize ≤ key.tokens.length :=
    le_trans (Nat.mul_le_mul_right _ (le_trans hend (h.hit_le hlength)))
      (ctx.tokenHasher.numComplete_mul_le key.tokens (some key.stop))
  obtain ⟨locks, hok, hperm⟩ := pieceReleases_ok h.entry_eq hle hend hin
  exact ⟨locks, hok, hend, hperm⟩

/-- Each locked key is released in exactly one piece. -/
lemma released_once [DecidableEq Digest] (h : Submitted ctx key job entry spec)
    (hlength : HitLength spec (results spec) length) (hdistinct : DistinctHashes ctx key)
    {pieces : List (Nat × Nat)} (hcut : Consecutive job.startChunk (length + job.startChunk) pieces)
    {released : List (List (ObjectKey Digest × Nat))}
    (hpieces : Forall₂ (fun piece locks => piece.2 ≤ length + job.startChunk ∧
      locks.Perm (pieceLocks ctx key entry (length + job.startChunk) piece)) pieces released)
    {lock : ObjectKey Digest × Nat} (hlock : lock ∈ leftLocked job results) :
    released.countP (fun locks => decide (lock.1 ∈ locks.map Prod.fst)) = 1 := by
  rw [h.leftLocked_eq hlength] at hlock
  simp only [hitLocks, mem_flatMap, mem_map] at hlock
  obtain ⟨objectGroupId, hgroup, kvRank, hrank, c, hc, rfl⟩ := hlock
  have hmem : ∀ piece (locks : List (ObjectKey Digest × Nat)), (piece.2 ≤ length + job.startChunk ∧
        locks.Perm (pieceLocks ctx key entry (length + job.startChunk) piece)) →
      decide ((lockOf ctx key entry objectGroupId kvRank c).1 ∈ locks.map Prod.fst)
        = inRange c piece := by
    rintro piece locks ⟨hend, hperm⟩
    rw [Bool.eq_iff_iff, decide_eq_true_eq, (hperm.map Prod.fst).mem_iff]
    exact mem_pieceLocks_iff hdistinct (h.hit_le hlength) hgroup hrank hc hend
  rw [countP_of_forall₂ hmem hpieces]
  have hbounds := Ico.mem.mp hc
  exact hcut.countP (by omega) hbounds.2

end Submitted

/-- However the hit range of a lookup is cut into consecutive pieces, the
pieces together release exactly the locks the prefetch left, each key as often
as it was locked; and, if no two chunks of the request have one hash, each key
in exactly one piece. -/
theorem pieces_release [DecidableEq Digest] (ctx : ServerContext Token Hash Digest)
    (key : IPCCacheServerKey Token) (job : PrefetchJob Digest) (hlookup : lookup ctx key = .ok job)
    (results : PrefetchResults Digest) (hended : Ended results) :
    ∃ hit lockedGids, consumePrefetchResult job results = .ok (hit, lockedGids) ∧
      ∀ pieces, Consecutive job.startChunk hit pieces →
      ∃ released, pieces.mapM (pieceReleases ctx key hit lockedGids) = .ok released ∧
      released.flatten.Perm (leftLocked job results) ∧
      (DistinctHashes ctx key → ∀ lock ∈ leftLocked job results,
      released.countP (fun locks => decide (lock.1 ∈ locks.map Prod.fst)) = 1) := by
  rcases lookup_cases hlookup with ⟨hnone, -⟩ | ⟨entry, spec, hsub, -⟩
  · -- nothing was submitted: the hit is the start, and every piece is empty
    refine ⟨job.startChunk, range job.numObjectGroups, by simp [consumePrefetchResult, hnone],
      fun pieces hcut => ?_⟩
    have hall : ∀ piece ∈ pieces, ∃ locks,
        pieceReleases ctx key job.startChunk (range job.numObjectGroups) piece = .ok locks ∧
          locks.Perm [] := by
      intro piece hpiece
      obtain ⟨h1, -, h3⟩ := hcut.piece_le hpiece
      exact ⟨[], pieceReleases_empty ctx key _ _ (le_trans h3 h1), .nil⟩
    obtain ⟨released, hok, hperm⟩ := exists_mapM_ok hall
    refine ⟨released, hok, (flatten_perm hperm).trans ?_, by simp [leftLocked, hnone]⟩
    simp [leftLocked, hnone]
  · obtain ⟨length, hlength⟩ := hended.hitLength spec hsub.policy
    refine ⟨_, _, hsub.consume hlength, fun pieces hcut => ?_⟩
    obtain ⟨released, hok, hpieces⟩ := hsub.pieces hlength hcut
    refine ⟨released, hok, ?_, fun hdistinct lock hlock =>
      hsub.released_once hlength hdistinct hcut hpieces hlock⟩
    rw [hsub.leftLocked_eq hlength]
    exact (flatten_perm (hpieces.imp fun _ _ h => h.2)).trans (pieceLocks_perm hcut)

/-- Two object groups on two workers: full attention, stored once for both,
and a sliding window of one chunk, stored on each. -/
def twoGroups : LayoutDescEntry where
  attnDesc := ⟨[-1, 1], by decide⟩
  groupLayoutDescs := ⟨[(0, 16), (1, 16)], by decide⟩
  shardReplicationDesc := ⟨[2, 1], [], by decide, by decide, by decide⟩
  groups_ok := by decide

/-- A server with this layout for every model. -/
def twoGroupServer : ServerContext Nat (List (List Nat)) (List (List Nat)) :=
  ⟨Hashed.recording, fun _ _ => some twoGroups, fun _ _ => true⟩

/-- Four chunks, the first of them covered by the engine. -/
def fourChunks : IPCCacheServerKey Nat :=
  ⟨"model", 2, none, [5, 6, 7, 8], 1, 4, "request", "", []⟩

/-- A prefetch that found every cell in the first L1 manager. -/
def foundAll : PrefetchResults (List (List Nat)) := fun spec =>
  finishedResult spec { RequestState.init with
      keyStates := ⟨(∅ : MapState spec.numRows spec.groupSize).set 0
        ⟨replicate spec.numRows (Bitmap.ones spec.groupSize), by simp, fun row hrow => by
          rw [eq_of_mem_replicate hrow, Bitmap.size_ones]⟩, ∅, ∅⟩ }

/-- The job of the lookup. -/
def fourChunksJob : PrefetchJob (List (List Nat)) :=
  ((lookup twoGroupServer fourChunks).toOption).getD (emptyPrefetchJob 0 0)

/-- The hit is cut in the middle. It holds three chunks of the full-attention
group and, on each rank, one of the window. -/
theorem fourChunks_release :
    (leftLocked fourChunksJob foundAll).map (fun lock => (lock.1.objectGroupId, lock.2))
      = [(0, 2), (0, 2), (0, 2), (1, 1), (1, 1)] ∧
    ∃ hit lockedGids, consumePrefetchResult fourChunksJob foundAll = .ok (hit, lockedGids) ∧
      ∀ pieces, Consecutive fourChunksJob.startChunk hit pieces →
      ∃ released, pieces.mapM (pieceReleases twoGroupServer fourChunks hit lockedGids)
      = .ok released ∧ released.flatten.Perm (leftLocked fourChunksJob foundAll) ∧
      ∀ lock ∈ leftLocked fourChunksJob foundAll,
      released.countP (fun locks => decide (lock.1 ∈ locks.map Prod.fst)) = 1 := by
  have hdistinct : DistinctHashes twoGroupServer fourChunks := by
    unfold DistinctHashes
    decide
  obtain ⟨hit, lockedGids, hconsume, hpieces⟩ := pieces_release twoGroupServer fourChunks
    fourChunksJob rfl foundAll fun _ => .inl ⟨_, rfl⟩
  refine ⟨by decide +kernel, hit, lockedGids, hconsume, fun pieces hcut => ?_⟩
  obtain ⟨released, hok, hperm, honce⟩ := hpieces pieces hcut
  exact ⟨released, hok, hperm, honce hdistinct⟩

end LMCache.Multiprocess
