/-
LMCache.Multiprocess.HitMismatch — several servers, one hit.

Every server locked what its own hit needs. The lookup resolves to the
smallest hit, the servers above it get their tails released, and the workers
then retrieve the smaller prefix. For a full-attention group that leaves
exactly what is read. A sliding window moves with the end of the hit: cutting
the hit by some chunks drops as many chunks from the end of the locked window
and asks for as many before its start, which nobody locked.

`Fleet` is the deployment; the lookup is the state machine of
`Vllm.LookupState`, whose releases the servers process here.
-/
import LMCache.Multiprocess.Retrieve
import LMCache.Vllm.LookupRuns
import Mathlib.Algebra.Order.Group.Nat

namespace LMCache.Multiprocess

open List Lib Native StorageControllers L1Manager ShardReplicationDesc Session
open Vllm (LookupConfig LookupState Rpc)

variable {Token Hash Digest : Type}

/-! ## The deployment -/

/-- Several servers that looked up one request past `startChunk`, each with its
prefetch ended in its own way, and the sessions their workers' retrieves
find. -/
structure Fleet (Token Hash Digest : Type) [DecidableEq Digest] (n : Nat) where
  cfg : LookupConfig
  key : IPCCacheServerKey Token
  startChunk : Nat
  ctx : Fin n → ServerContext Token Hash Digest
  job : Fin n → PrefetchJob Digest
  results : Fin n → PrefetchResults Digest
  sessions : Fin n → Nat → Session Token Hash Digest
  allWorkers : key.workerId = none
  start_eq : key.start = startChunk * cfg.tokensPerChunk
  numTokens : cfg.numTokens = key.tokens.length
  chunkSize : ∀ url, (ctx url).chunkSize = cfg.tokensPerChunk
  looked : ∀ url, lookup (ctx url) key = .ok (job url)
  ended : ∀ url, Ended (results url)
  whole : ∀ url, ∀ entry ∈ (ctx url).entryOf key, ∀ objectGroupId,
    WholeShards entry.shardReplicationDesc key.worldSize objectGroupId
  current : ∀ url w, ((sessions url w).setTokens key.tokens).Current (ctx url).tokenHasher

namespace Fleet

variable [DecidableEq Digest] {n : Nat} (fleet : Fleet Token Hash Digest n)

section

variable (url : Fin n) (record : Nat × List Nat)

/-- What the session of a server records of the lookup. -/
def recorded : Except ValueError (Nat × List Nat) :=
  consumePrefetchResult (fleet.job url) (fleet.results url)

/-- The session of the lookup once its result was recorded. -/
def session : Session Token Hash Digest :=
  (new.beginLookup fleet.key).recordPrefetchResult record.1 record.2 ∅

/-- What a server releases for an RPC of the lookup. -/
def release (rpc : Rpc n) : Except ValueError (List (ObjectKey Digest × Nat)) :=
  match rpc.call with
  | .freeLookupLocks start stop =>
    (freeLookupLocks (fleet.ctx url) (fleet.session record) { fleet.key with start, stop } []).map
      releases
  | _ => .ok []

/-- What the workers of a server read of the resolved prefix; without chunks
there is no retrieve. -/
def reads (minChunks : Nat) : Except String (List (List (ObjectKey Digest))) :=
  if minChunks ≤ fleet.startChunk then .ok []
  else
    (range fleet.key.worldSize).mapM fun w =>
      retrieve (fleet.ctx url) (fleet.sessions url w)
        ((fleet.ctx url).workerKey fleet.key (fleet.startChunk, minChunks) w)

end

/-- What the lookup left locked on the server is what the releases of the
resolved lookup give back and what the retrieves of the prefix read. -/
def Exact (st : LookupState n) (minChunks : Nat) (url : Fin n) : Prop :=
  ∃ record released reads, fleet.recorded url = .ok record ∧
    (st.releasesTo url).mapM (fleet.release url record) = .ok released ∧
    fleet.reads url minChunks = .ok reads ∧
    (units (leftLocked (fleet.job url) (fleet.results url))).Perm
      (units released.flatten ++ reads.flatten)

/-- Cutting the hit of the server moves no window: the server has the smallest
hit, the window reaches back to the start of the lookup, or nothing is
retrieved. -/
def WindowsHold (hitChunks minChunks : Nat) (url : Fin n) : Prop :=
  ∀ entry ∈ (fleet.ctx url).entryOf fleet.key, ∀ window ∈ entry.attnDesc.numChunksInSw,
    window < 0 ∨ hitChunks = minChunks ∨ hitChunks ≤ fleet.startChunk + window.toNat ∨
      minChunks ≤ fleet.startChunk

end Fleet

/-! ## The start of a lookup -/

variable {job : PrefetchJob Digest} {ctx : ServerContext Token Hash Digest}
  {key : IPCCacheServerKey Token} {entry : LayoutDescEntry}
  {spec : PrefetchTaskSpec (ObjectKey Digest)}

lemma Submitted.worldSize_pos (h : Submitted ctx key job entry spec) (hkey : key.workerId = none) :
    0 < key.worldSize := by
  rw [Nat.pos_iff_ne_zero]
  intro hzero
  have hrows := ipcKeyToGroupedObjectKeys_ok h.rows
  have hnone : ∀ objectGroupId, entry.shardReplicationDesc.kvRanks objectGroupId key = [] := by
    intro objectGroupId
    have hdiv : (entry.shardReplicationDesc.tpReplicas objectGroupId - 1)
        / entry.shardReplicationDesc.tpReplicas objectGroupId = 0 :=
      Nat.div_eq_of_lt (by have := entry.shardReplicationDesc.tpReplicas_pos objectGroupId; omega)
    simp [kvRanks, lookupKvRanks, hkey, hzero, hdiv]
  have hempty : spec.keyGroups.map rowData = [] := by
    rw [hrows]
    simp [groupRowData, hnone]
  exact spec.nonempty (map_eq_nil_iff.mp hempty)

/-! ## Counting -/

lemma eq_of_sum_eq {α : Type} {f g : α → Nat} :
    ∀ {l : List α}, (∀ x ∈ l, f x ≤ g x) → (l.map f).sum = (l.map g).sum → ∀ x ∈ l, f x = g x
  | [], _, _, x, hx => by cases hx
  | a :: l, hle, hsum, x, hx => by
    have ha := hle a mem_cons_self
    have hl : (l.map f).sum ≤ (l.map g).sum :=
      sum_le_sum fun y hy => hle y (mem_cons_of_mem _ hy)
    simp only [map_cons, sum_cons] at hsum
    rcases mem_cons.mp hx with rfl | hx
    · omega
    · exact eq_of_sum_eq (fun y hy => hle y (mem_cons_of_mem _ hy)) (by omega) x hx

section Count

/-- How many locks a group has on one chunk. -/
def locksPerChunk (entry : LayoutDescEntry) (key : IPCCacheServerKey Token) (objectGroupId : Nat) :
    Nat :=
  (entry.shardReplicationDesc.kvRanks objectGroupId key).length
    * validateReadLocks (entry.shardReplicationDesc.numKvReaders objectGroupId)

lemma locksPerChunk_pos (hkey : key.workerId = none) (hpos : 0 < key.worldSize)
    (objectGroupId : Nat) : 0 < locksPerChunk entry key objectGroupId := by
  refine Nat.mul_pos ?_ ?_
  · have htp := entry.shardReplicationDesc.tpReplicas_pos objectGroupId
    have hsets : 0 < (key.worldSize + entry.shardReplicationDesc.tpReplicas objectGroupId - 1)
        / entry.shardReplicationDesc.tpReplicas objectGroupId := Nat.div_pos (by omega) htp
    simpa [kvRanks, lookupKvRanks, hkey] using
      Nat.mul_pos hsets (entry.shardReplicationDesc.dcpShards_pos objectGroupId)
  · unfold validateReadLocks maxReadLockCount
    split
    · exact Nat.one_pos
    · split <;> omega

lemma length_units_pieceLocks (hit : Nat) (piece : Nat × Nat) :
    (units (pieceLocks ctx key entry hit piece)).length
      = ((range entry.attnDesc.numObjectGroups).map fun objectGroupId =>
      (piece.2 - max (lockStart (entry.attnDesc.window objectGroupId) hit) piece.1)
      * locksPerChunk entry key objectGroupId).sum := by
  simp only [units, pieceLocks, flatMap_assoc, length_flatMap, flatMap_map]
  congr 1
  refine map_congr_left fun objectGroupId _ => ?_
  simp [lockOf, locksPerChunk]

lemma pieceLocks_empty (hit : Nat) {piece : Nat × Nat} (h : piece.2 ≤ piece.1) :
    pieceLocks ctx key entry hit piece = [] := by
  rw [pieceLocks, flatMap_eq_nil_iff]
  intro objectGroupId _
  rw [Ico.eq_nil_of_le (by omega), flatMap_nil]

/-- The window of a group covers the same chunks of the prefix before and after
the cut. -/
def SameWindow (start minChunks hit : Nat) (window : Int) : Prop :=
  window < 0 ∨ hit = minChunks ∨ hit ≤ start + window.toNat

lemma sameWindow_iff {start minChunks hit : Nat} (hlt : start < minChunks) (hle : minChunks ≤ hit)
    {window : Int} (hwindow : window = -1 ∨ 1 ≤ window) :
    minChunks - max (lockStart window hit) start = minChunks - max (lockStart window minChunks) start ↔
      SameWindow start minChunks hit window := by
  unfold SameWindow lockStart
  split <;> omega

lemma max_lockStart_of_sameWindow {start minChunks hit : Nat} (hle : minChunks ≤ hit) {window : Int}
    (h : SameWindow start minChunks hit window) :
    max (lockStart window hit) start = max (lockStart window minChunks) start := by
  unfold SameWindow at h
  unfold lockStart
  split <;> omega

variable (ctx entry) in
/-- What is left of the locks of a hit, cut to a smaller prefix, is what the
prefix reads, iff no window moves. -/
lemma cut_perm_iff (hkey : key.workerId = none) (hpos : 0 < key.worldSize)
    {start minChunks hit : Nat} (hlt : start < minChunks) (hle : minChunks ≤ hit) :
    (units (pieceLocks ctx key entry hit (start, minChunks))).Perm
      (units (pieceLocks ctx key entry minChunks (start, minChunks))) ↔
      ∀ window ∈ entry.attnDesc.numChunksInSw, SameWindow start minChunks hit window := by
  have hwindow : ∀ objectGroupId < entry.attnDesc.numObjectGroups,
      entry.attnDesc.window objectGroupId ∈ entry.attnDesc.numChunksInSw := by
    intro objectGroupId hgroup
    have hlt : objectGroupId < entry.attnDesc.numChunksInSw.length := hgroup
    simp [AttnWindowDesc.window, hlt]
  constructor
  · intro hperm window hmem
    obtain ⟨objectGroupId, hgroup, rfl⟩ := mem_iff_getElem.mp hmem
    have hlength := hperm.length_eq
    rw [length_units_pieceLocks, length_units_pieceLocks] at hlength
    have hmono : ∀ g, (minChunks - max (lockStart (entry.attnDesc.window g) hit) start)
          * locksPerChunk entry key g
        ≤ (minChunks - max (lockStart (entry.attnDesc.window g) minChunks) start)
          * locksPerChunk entry key g := by
      intro g
      refine Nat.mul_le_mul_right _ ?_
      unfold lockStart
      split <;> omega
    have hterm := eq_of_sum_eq (fun g _ => hmono g) hlength objectGroupId (mem_range.mpr hgroup)
    have heq := Nat.eq_of_mul_eq_mul_right (locksPerChunk_pos hkey hpos objectGroupId) hterm
    have hget : entry.attnDesc.window objectGroupId = entry.attnDesc.numChunksInSw[objectGroupId] := by
      simp [AttnWindowDesc.window, hgroup]
    rw [hget] at heq
    exact (sameWindow_iff hlt hle (entry.attnDesc.windows_ok _ hmem)).mp heq
  · intro hsame
    have heq : pieceLocks ctx key entry hit (start, minChunks)
        = pieceLocks ctx key entry minChunks (start, minChunks) := by
      refine flatMap_congr fun objectGroupId hgroup => ?_
      rw [max_lockStart_of_sameWindow hle (hsame _ (hwindow objectGroupId (mem_range.mp hgroup)))]
    rw [heq]

end Count

/-! ## One server -/

namespace Fleet

variable [DecidableEq Digest] {n : Nat} {fleet : Fleet Token Hash Digest n} {url : Fin n}

variable (fleet) in
lemma chunk_pos (url : Fin n) : 0 < fleet.cfg.tokensPerChunk :=
  fleet.chunkSize url ▸ (fleet.ctx url).tokenHasher.chunkSize_pos

variable (fleet url) in
lemma startChunk_eq : fleet.key.start / (fleet.ctx url).chunkSize = fleet.startChunk := by
  rw [fleet.start_eq, fleet.chunkSize url, Nat.mul_div_cancel _ (fleet.chunk_pos url)]

variable {minChunks : Nat}

/-- A server processes the release of a tail as the release of the chunks
past the minimum and past the start of its lookup. -/
lemma release_tail (fleet : Fleet Token Hash Digest n) (url : Fin n) (gids : List Nat) {hit : Nat}
    (hlt : minChunks < hit) (hin : hit * fleet.cfg.tokensPerChunk ≤ fleet.key.tokens.length)
    {start stop : Nat} (hstart : start = minChunks * fleet.cfg.tokensPerChunk)
    (hstop : stop = min (hit * fleet.cfg.tokensPerChunk) fleet.cfg.numTokens) :
    fleet.release url (hit, gids) ⟨url, .freeLookupLocks start stop⟩
      = pieceReleases (fleet.ctx url) fleet.key hit gids (max minChunks fleet.startChunk, hit) := by
  have hstop' : stop = hit * fleet.cfg.tokensPerChunk := by
    rw [hstop, fleet.numTokens, Nat.min_eq_left hin]
  have hrange : start < stop := by
    rw [hstart, hstop']
    exact Nat.mul_lt_mul_of_pos_right hlt (fleet.chunk_pos url)
  have hmax : max start fleet.key.start
      = max minChunks fleet.startChunk * (fleet.ctx url).chunkSize := by
    rw [hstart, fleet.start_eq, fleet.chunkSize url, Nat.mul_max_mul_right]
  have hkey : { fleet.key with start := max start fleet.key.start, stop := stop }
      = (fleet.ctx url).pieceKey fleet.key (max minChunks fleet.startChunk, hit) := by
    rw [hmax, hstop', ← fleet.chunkSize url]
    rfl
  have hnot : ¬ stop ≤ start := by omega
  simp only [release, freeLookupLocks, session, recordPrefetchResult, beginLookup,
    Option.elim_some, hrange, hnot, if_true, decide_false, Bool.false_and, Bool.false_eq_true,
    if_false, hkey, pieceReleases]
  rw [if_neg (by omega)]
  cases resolvePrefetchedObjKeys (fleet.ctx url)
      ((fleet.ctx url).pieceKey fleet.key (max minChunks fleet.startChunk, hit)) hit gids with
  | error e => rfl
  | ok objKeys =>
    cases objKeys with
    | nil => rfl
    | cons objKey objKeys =>
      simp only [filter_nil, mapM_nil, pure, Except.pure, bind, Except.bind,
        flatten_nil, append_nil, isEmpty_cons, Bool.false_eq_true, if_false]
      cases hentry : (fleet.ctx url).entryOf fleet.key with
      | none =>
        rfl
      | some entry =>
        have hentry' : (fleet.ctx url).entryOf { fleet.key with start := start, stop := stop }
            = some entry := hentry
        simp only [finishLookupRead, hentry, hentry', Except.map]

section

variable (hsub : Submitted (fleet.ctx url) fleet.key (fleet.job url) entry spec)
include hsub

/-- The locks left by a submitted lookup, cut at the minimum. -/
lemma leftLocked_cut {length : Nat} (hlength : HitLength spec (fleet.results url spec) length)
    (hstart : (fleet.job url).startChunk = fleet.startChunk)
    (hle : minChunks ≤ length + fleet.startChunk) :
    (leftLocked (fleet.job url) (fleet.results url)).Perm
      (pieceLocks (fleet.ctx url) fleet.key entry (length + fleet.startChunk)
      (max minChunks fleet.startChunk, length + fleet.startChunk)
      ++ pieceLocks (fleet.ctx url) fleet.key entry (length + fleet.startChunk)
      (fleet.startChunk, max minChunks fleet.startChunk)) := by
  have hcut : Consecutive fleet.startChunk (length + fleet.startChunk)
      [(fleet.startChunk, max minChunks fleet.startChunk),
        (max minChunks fleet.startChunk, length + fleet.startChunk)] :=
    ⟨rfl, Nat.le_max_right .., rfl, Nat.max_le.mpr ⟨hle, Nat.le_add_left ..⟩, rfl⟩
  have hleft := hsub.leftLocked_eq hlength
  rw [hstart] at hleft
  rw [hleft]
  refine (pieceLocks_perm hcut).symm.trans ?_
  simpa using perm_append_comm

variable {st : LookupState n}

omit hsub in
/-- What the releases of a resolved lookup give back on one server. -/
lemma released_ok (hentry : (fleet.ctx url).entryOf fleet.key = some entry) {hit : Nat}
    (hle : minChunks ≤ hit) (hstart : fleet.startChunk ≤ hit)
    (hin : hit * fleet.cfg.tokensPerChunk ≤ fleet.key.tokens.length)
    (hhit : (st.servers url).hitChunks = hit)
    (hreleases : st.releasesTo url = if minChunks < hit then
      [LookupState.tailRelease fleet.cfg minChunks st url] else []) :
    ∃ released, (st.releasesTo url).mapM
      (fleet.release url (hit, range entry.attnDesc.numObjectGroups)) = .ok released ∧
      released.flatten.Perm (pieceLocks (fleet.ctx url) fleet.key entry hit
      (max minChunks fleet.startChunk, hit)) := by
  rw [hreleases]
  by_cases hlt : minChunks < hit
  · have htail := release_tail fleet url (range entry.attnDesc.numObjectGroups) hlt hin rfl rfl
    have hpiece : (max minChunks fleet.startChunk, hit).1 ≤ (max minChunks fleet.startChunk, hit).2 :=
      Nat.max_le.mpr ⟨hle, hstart⟩
    obtain ⟨locks, hok, hperm⟩ := pieceReleases_ok hentry hpiece (Nat.le_refl hit)
      (fleet.chunkSize url ▸ hin)
    refine ⟨[locks], ?_, by simpa using hperm⟩
    rw [if_pos hlt, LookupState.tailRelease, hhit]
    simp [htail, hok, bind, Except.bind, pure, Except.pure]
  · refine ⟨[], by simp [hlt, pure, Except.pure], ?_⟩
    rw [pieceLocks_empty _ (by simp only; omega)]
    rfl

lemma hit_tokens {length : Nat} (hlength : HitLength spec (fleet.results url spec) length)
    (hstart : (fleet.job url).startChunk = fleet.startChunk) :
    (length + fleet.startChunk) * fleet.cfg.tokensPerChunk ≤ fleet.key.tokens.length := by
  have hle := hsub.hit_le hlength
  rw [hstart] at hle
  rw [← fleet.chunkSize url]
  exact le_trans (Nat.mul_le_mul_right _ hle)
    ((fleet.ctx url).tokenHasher.numComplete_mul_le fleet.key.tokens (some fleet.key.stop))

end

/-- A lookup that submitted nothing left no locks, and the prefix has nothing
past its start. -/
lemma exact_of_none {gids : List Nat} (hnone : (fleet.job url).spec = none)
    (hstart : (fleet.job url).startChunk ≤ min (fleet.key.start / (fleet.ctx url).chunkSize)
      ((fleet.ctx url).endChunk fleet.key))
    (hrecorded : fleet.recorded url = .ok ((st.servers url).hitChunks, gids))
    (hle : minChunks ≤ (st.servers url).hitChunks)
    (hreleases : st.releasesTo url = if minChunks < (st.servers url).hitChunks then
      [LookupState.tailRelease fleet.cfg minChunks st url] else []) :
    minChunks ≤ fleet.startChunk ∧ fleet.Exact st minChunks url := by
  have hrecord := hrecorded
  simp only [recorded, consumePrefetchResult, hnone, Except.ok.injEq, Prod.mk.injEq] at hrecord
  rw [hrecord.1, fleet.startChunk_eq url] at hstart
  have hhit := le_trans hstart (Nat.min_le_left ..)
  have hin : (st.servers url).hitChunks * fleet.cfg.tokensPerChunk ≤ fleet.key.tokens.length := by
    rw [← fleet.chunkSize url]
    exact le_trans (Nat.mul_le_mul_right _ (le_trans hstart (Nat.min_le_right ..)))
      ((fleet.ctx url).tokenHasher.numComplete_mul_le fleet.key.tokens (some fleet.key.stop))
  have hmin : minChunks ≤ fleet.startChunk := le_trans hle hhit
  have hleft : leftLocked (fleet.job url) (fleet.results url) = [] := by rw [leftLocked, hnone]; rfl
  have hreads : fleet.reads url minChunks = .ok [] := if_pos hmin
  obtain ⟨released, hreleased, hempty⟩ : ∃ released,
      (st.releasesTo url).mapM (fleet.release url ((st.servers url).hitChunks, gids)) = .ok released ∧
        released.flatten = [] := by
    rw [hreleases]
    split_ifs with hlt
    · have htail := release_tail fleet url gids hlt hin rfl rfl
      rw [pieceReleases_empty _ _ _ _ (le_trans hhit (Nat.le_max_right ..))] at htail
      simp [LookupState.tailRelease, htail, bind, Except.bind, pure, Except.pure]
    · exact ⟨[], rfl, rfl⟩
  refine ⟨hmin, _, released, [], hrecorded, hreleased, hreads, ?_⟩
  rw [hleft, hempty]
  exact Perm.refl _

/-- One server of a resolved lookup: the locks are what is released and read
iff no window moves. -/
lemma exact_iff {gids : List Nat}
    (hrecorded : fleet.recorded url = .ok ((st.servers url).hitChunks, gids))
    (hle : minChunks ≤ (st.servers url).hitChunks)
    (hreleases : st.releasesTo url = if minChunks < (st.servers url).hitChunks then
      [LookupState.tailRelease fleet.cfg minChunks st url] else []) :
    fleet.Exact st minChunks url ↔ fleet.WindowsHold (st.servers url).hitChunks minChunks url := by
  rcases lookup_cases (fleet.looked url) with ⟨hnone, hstart⟩ | ⟨entry, spec, hsub, hkey⟩
  · obtain ⟨hmin, hexact⟩ := exact_of_none hnone hstart hrecorded hle hreleases
    exact ⟨fun _ _ _ _ _ => .inr (.inr (.inr hmin)), fun _ => hexact⟩
  · obtain ⟨length, hlength⟩ := (fleet.ended url).hitLength spec hsub.policy
    have hstart : (fleet.job url).startChunk = fleet.startChunk := by
      rw [hkey, fleet.startChunk_eq url]
    have hconsume := hsub.consume hlength
    have hrecord := hrecorded
    rw [recorded, hconsume, hstart] at hrecord
    obtain ⟨hhit, hgids⟩ := Prod.mk.inj (Except.ok.inj hrecord)
    rw [← hhit] at hle
    have htokens := hit_tokens hsub hlength hstart
    obtain ⟨released, hreleased, hrperm⟩ := released_ok hsub.entry_eq hle (Nat.le_add_left ..)
      htokens hhit.symm (hhit ▸ hreleases)
    have hleft := (units_perm (leftLocked_cut hsub hlength hstart hle)).trans
      (Perm.of_eq flatMap_append)
    -- the releases are determined, so exactness is about what is left and what is read
    have hexact : ∀ reads, fleet.reads url minChunks = .ok reads → (fleet.Exact st minChunks url ↔
          (units (pieceLocks (fleet.ctx url) fleet.key entry (length + fleet.startChunk)
            (fleet.startChunk, max minChunks fleet.startChunk))).Perm reads.flatten) := by
      intro reads hreads
      have hcancel : (units (leftLocked (fleet.job url) (fleet.results url))).Perm
            (units released.flatten ++ reads.flatten) ↔
          (units (pieceLocks (fleet.ctx url) fleet.key entry (length + fleet.startChunk)
            (fleet.startChunk, max minChunks fleet.startChunk))).Perm reads.flatten := by
        have hfront := (units_perm hrperm).append_right reads.flatten
        exact ⟨fun h => (perm_append_left_iff _).mp (hleft.symm.trans (h.trans hfront)),
          fun h => hleft.trans ((h.append_left _).trans hfront.symm)⟩
      rw [← hcancel]
      constructor
      · rintro ⟨record', released', reads', hrecord', hreleased', hreads', hperm⟩
        obtain rfl := Except.ok.inj (hrecorded.symm.trans hrecord')
        rw [← hhit, ← hgids] at hreleased'
        obtain rfl := Except.ok.inj (hreleased.symm.trans hreleased')
        obtain rfl := Except.ok.inj (hreads.symm.trans hreads')
        exact hperm
      · intro hperm
        refine ⟨_, released, reads, hrecorded, ?_, hreads, hperm⟩
        rw [← hhit, ← hgids]
        exact hreleased
    have hentry : ∀ entry' ∈ (fleet.ctx url).entryOf fleet.key, entry' = entry := by
      intro entry' hmem
      exact (Option.mem_unique hsub.entry_eq hmem).symm
    by_cases hmin : minChunks ≤ fleet.startChunk
    · rw [hexact [] (if_pos hmin), Nat.max_eq_right hmin, pieceLocks_empty _ le_rfl]
      exact ⟨fun _ _ _ _ _ => .inr (.inr (.inr hmin)), fun _ => Perm.refl _⟩
    · obtain ⟨reads, hreads, hperm⟩ := reads_perm fleet.allWorkers hsub.entry_eq
        (fleet.whole url entry hsub.entry_eq) (fleet.current url)
        (show (fleet.startChunk, minChunks).2 * _ ≤ _ from
          fleet.chunkSize url ▸ le_trans (Nat.mul_le_mul_right _ hle) htokens)
      have hcut := cut_perm_iff (fleet.ctx url) entry fleet.allWorkers
        (hsub.worldSize_pos fleet.allWorkers) (Nat.lt_of_not_le hmin) hle
      have hswap := (hexact reads ((if_neg hmin).trans hreads)).trans
        ⟨fun h => h.trans hperm, fun h => h.trans hperm.symm⟩
      rw [Nat.max_eq_left (Nat.le_of_not_le hmin)] at hswap
      rw [hswap, hcut, ← hhit]
      constructor
      · intro hsame entry' hmem window hwindow
        rw [hentry entry' hmem] at hwindow
        exact (hsame window hwindow).imp_right (Or.imp_right .inl)
      · intro hhold window hwindow
        refine (hhold entry hsub.entry_eq window hwindow).imp_right (Or.imp_right fun h => ?_)
        exact h.resolve_right hmin

end Fleet

/-! ## The resolved lookup -/

/-- Once all servers have reported and the lookup has resolved, what a server
still holds for the request when it has processed its tail release is exactly
what the retrieves of the resolved prefix read there, iff the cut of its hit
moves none of its windows. -/
theorem exact_iff_windowsHold [DecidableEq Digest] {n : Nat} (fleet : Fleet Token Hash Digest n)
    (now : Nat) (events : List (LookupState.Event n)) (gids : Fin n → List Nat) (minChunks : Nat)
    (hresult : (run (LookupState.step fleet.cfg) (.submit fleet.cfg now) events).result
      = some (minChunks * fleet.cfg.tokensPerChunk))
    (hresolved : ∀ url, ((run (LookupState.step fleet.cfg) (.submit fleet.cfg now)
      events).servers url).phase = .resolved)
    (hrecorded : ∀ url, fleet.recorded url = .ok (((run (LookupState.step fleet.cfg)
      (.submit fleet.cfg now) events).servers url).hitChunks, gids url)) (url : Fin n) :
    fleet.Exact (run (LookupState.step fleet.cfg) (.submit fleet.cfg now) events) minChunks url ↔
      fleet.WindowsHold ((run (LookupState.step fleet.cfg) (.submit fleet.cfg now)
      events).servers url).hitChunks minChunks url := by
  obtain ⟨least, -, hle, hmin, hreleases⟩ :=
    (LookupState.orderly_run fleet.cfg now events).resolved url hresolved
  obtain rfl : least = minChunks := by
    rw [hresult, Option.some.injEq] at hmin
    exact (Nat.eq_of_mul_eq_mul_right (fleet.chunk_pos url) hmin).symm
  exact Fleet.exact_iff (hrecorded url) (hle url) (hreleases url)

/-! ## Two servers -/

/-- A prefetch that found the first chunks in the first L1 manager. -/
def foundFirst (chunks : Nat) : PrefetchResults (List (List Nat)) := fun spec =>
  finishedResult spec { RequestState.init with
      keyStates := ⟨(∅ : MapState spec.numRows spec.groupSize).set 0
        ⟨replicate spec.numRows ((Bitmap.zeros spec.groupSize).setRange 0 chunks), by simp,
          fun row hrow => by rw [eq_of_mem_replicate hrow]; simp⟩, ∅, ∅⟩ }

/-- Four chunks looked up from the start. -/
def wholeRequest : IPCCacheServerKey Nat := { fourChunks with start := 0 }

/-- Two servers with one layout; the second holds a chunk more than the
first. -/
def twoServers (entry : LayoutDescEntry)
    (hwhole : ∀ objectGroupId, WholeShards entry.shardReplicationDesc 2 objectGroupId)
    (job : PrefetchJob (List (List Nat)))
    (hjob : lookup ⟨Hashed.recording, fun _ _ => some entry, fun _ _ => true⟩ wholeRequest = .ok job) :
    Fleet Nat (List (List Nat)) (List (List Nat)) 2 where
  cfg := ⟨1, 10, 4⟩
  key := wholeRequest
  startChunk := 0
  ctx _ := ⟨Hashed.recording, fun _ _ => some entry, fun _ _ => true⟩
  job _ := job
  results url := foundFirst (url + 2)
  sessions _ _ := .new
  allWorkers := rfl
  start_eq := rfl
  numTokens := rfl
  chunkSize _ := rfl
  looked _ := hjob
  ended _ _ := .inl ⟨_, rfl⟩
  whole _ entry' hentry := by
    obtain rfl := Option.some.inj hentry
    exact hwhole
  current _ _ := Hashed.current_of_agrees
    (s := ⟨new.setTokens wholeRequest.tokens, []⟩) ⟨rfl, rfl, rfl⟩ fun c _ h => by cases h

lemma whole_twoGroups (objectGroupId : Nat) :
    WholeShards twoGroups.shardReplicationDesc 2 objectGroupId := by
  match objectGroupId with
  | 0 => exact ⟨by decide, by decide, by decide⟩
  | 1 => exact ⟨by decide, by decide, by decide⟩
  | n + 2 =>
    -- Past the described groups every count is one.
    have hreplicas : twoGroups.shardReplicationDesc.tpReplicas (n + 2) = 1 := by
      simp [tpReplicas, twoGroups]
    have hshards : twoGroups.shardReplicationDesc.dcpShards (n + 2) = 1 := by
      simp [dcpShards, twoGroups]
    exact ⟨by simp [hreplicas], by simp [hshards],
      by simp [numKvReaders, hreplicas, hshards, maxReadLockCount]⟩

/-- The same groups with a window of three chunks. -/
def wideGroups : LayoutDescEntry :=
  { twoGroups with attnDesc := ⟨[-1, 3], by decide⟩, groups_ok := by decide }

def jobOf (entry : LayoutDescEntry) : PrefetchJob (List (List Nat)) :=
  ((lookup ⟨Hashed.recording, fun _ _ => some entry, fun _ _ => true⟩ wholeRequest).toOption).getD
    (emptyPrefetchJob 0 0)

def narrowServers : Fleet Nat (List (List Nat)) (List (List Nat)) 2 :=
  twoServers twoGroups whole_twoGroups (jobOf twoGroups) rfl

def wideServers : Fleet Nat (List (List Nat)) (List (List Nat)) 2 :=
  twoServers wideGroups whole_twoGroups (jobOf wideGroups) rfl

/-- The lookup resolves to two chunks; the window reaches back to the start. -/
theorem wideServers_exact :
    wideServers.Exact (run (LookupState.step wideServers.cfg) (.submit wideServers.cfg 0)
      LookupState.mismatch) 2 1 := by
  refine (exact_iff_windowsHold wideServers 0 LookupState.mismatch (fun _ => [0, 1]) 2
    (by decide) (by decide) (by decide +kernel) 1).mpr ?_
  intro entry hentry window hwindow
  obtain rfl := Option.some.inj hentry
  revert window
  decide +kernel

/-- With a window of one chunk the second server has released its window and
is asked for the chunk before it. -/
theorem narrowServers_not_exact :
    (run (LookupState.step narrowServers.cfg) (.submit narrowServers.cfg 0)
      LookupState.mismatch).result = some 2 ∧
      (∀ url, ((run (LookupState.step narrowServers.cfg) (.submit narrowServers.cfg 0)
      LookupState.mismatch).servers url).phase = .resolved) ∧
      (∀ url, narrowServers.recorded url = .ok (((run (LookupState.step narrowServers.cfg)
      (.submit narrowServers.cfg 0) LookupState.mismatch).servers url).hitChunks, [0, 1])) ∧
      ¬ narrowServers.Exact (run (LookupState.step narrowServers.cfg) (.submit narrowServers.cfg 0)
      LookupState.mismatch) 2 1 := by
  have hrecorded : ∀ url, narrowServers.recorded url = .ok (((run (LookupState.step narrowServers.cfg)
      (.submit narrowServers.cfg 0) LookupState.mismatch).servers url).hitChunks, [0, 1]) := by
    decide +kernel
  refine ⟨by decide, by decide, hrecorded, fun hexact => ?_⟩
  have hhold := (Fleet.exact_iff (hrecorded 1) (by decide) (by decide)).mp hexact twoGroups rfl 1
    (by decide)
  revert hhold
  decide

end LMCache.Multiprocess
