/-
LMCache.Multiprocess.Session — the hashes a session caches.

A session holds the tokens of its request and the hashes of the chunks it was
asked for. `getHashes` hashes what is still missing and returns a slice of
the cache; `setTokens` replaces the tokens and leaves the cache alone. So the
cache is a chain over the chunks that WERE hashed, which need not be the
chunks of the current tokens.

`Hashed` keeps those chunks beside the session. The cached hashes are always
the chain over them (`CacheInv`). They are the chain over the current tokens,
for every range that can be asked for, in all states of a run iff each
`setTokens` keeps the chunks that were hashed and are complete in the new
sequence (`current_iff_keeps`).
-/
import LMCache.Multiprocess.ObjectKeys

namespace LMCache.Multiprocess

open Lib List TokenHasher

variable {Token Hash Digest : Type}

/-! ## Sessions -/

/-- `Session`; the creation time and the `extras` of other modules are left
out. -/
structure Session (Token Hash Digest : Type) where
  tokens : List Token
  chunkHashes : List Hash
  lastPrefixHash : Option Hash
  numChunksProcessed : Nat
  lookupIpcKey : Option (IPCCacheServerKey Token)
  prefetchHitChunks : Int
  prefetchLockedGids : List Nat
  prefetchOwners : Dict (ObjectKey Digest) Nat

namespace Session

/-- A new session. -/
def new : Session Token Hash Digest := ⟨[], [], none, 0, none, -1, [], ∅⟩

/-- `set_tokens`. -/
def setTokens (packedTokenIds : List Token) (s : Session Token Hash Digest) :
    Session Token Hash Digest :=
  { s with tokens := packedTokenIds }

/-- The body of the loop of `_compute_hash`. -/
def hashNext (hasher : TokenHasher Token Hash Digest) (s : Session Token Hash Digest) :
    Session Token Hash Digest :=
  let h := hasher.hashPackedChunk (hasher.chunkAt s.tokens s.numChunksProcessed) s.lastPrefixHash
  { s with
    lastPrefixHash := some h
    chunkHashes := s.chunkHashes ++ [h]
    numChunksProcessed := s.numChunksProcessed + 1 }

/-- `_compute_hash`. -/
def computeHash (hasher : TokenHasher Token Hash Digest) (endChunk : Nat)
    (s : Session Token Hash Digest) : Session Token Hash Digest :=
  (hashNext hasher)^[endChunk - s.numChunksProcessed] s

/-- The end of a query: by default the last full-chunk boundary. -/
def stopOf (hasher : TokenHasher Token Hash Digest) (s : Session Token Hash Digest) :
    Option Nat → Except String Nat
  | none => .ok (s.tokens.length - s.tokens.length % hasher.chunkSize)
  | some stop =>
    if s.tokens.length < stop then
      .error s!"get_hashes end ({stop}) exceeds the session's {s.tokens.length} token(s); the session may have been recreated after request cleanup"
    else .ok stop

/-- `get_hashes`; an error leaves the session as it is. -/
def getHashes (hasher : TokenHasher Token Hash Digest) (start : Nat) (stop : Option Nat)
    (s : Session Token Hash Digest) : Except String (Session Token Hash Digest × List Hash) :=
  if start % hasher.chunkSize ≠ 0 then
    .error s!"start ({start}) must be a multiple of chunk_size ({hasher.chunkSize})"
  else
    match stopOf hasher s stop with
    | .error message => .error message
    | .ok stop =>
      if stop % hasher.chunkSize ≠ 0 then
        .error s!"end ({stop}) must be a multiple of chunk_size ({hasher.chunkSize})"
      else
        let s' := computeHash hasher (stop / hasher.chunkSize) s
        .ok (s', (s'.chunkHashes.take (stop / hasher.chunkSize)).drop (start / hasher.chunkSize))

/-- `begin_lookup`. -/
def beginLookup (key : IPCCacheServerKey Token) (s : Session Token Hash Digest) :
    Session Token Hash Digest :=
  { s with
    lookupIpcKey := some key
    prefetchHitChunks := -1
    prefetchLockedGids := []
    prefetchOwners := ∅ }

/-- `record_prefetch_result`. -/
def recordPrefetchResult (hitChunks : Nat) (lockedGids : List Nat)
    (l1Owners : Dict (ObjectKey Digest) Nat) (s : Session Token Hash Digest) :
    Session Token Hash Digest :=
  { s with
    prefetchHitChunks := hitChunks
    prefetchLockedGids := lockedGids
    prefetchOwners := l1Owners }

end Session

/-! ## The chain over the hashed chunks -/

namespace TokenHasher

variable (hasher : TokenHasher Token Hash Digest)

/-- The hash of a sequence of chunks. -/
def chainOver (chunks : List (List Token)) : Hash :=
  chunks.foldl (fun h chunk => hasher.hashPackedChunk chunk (some h)) hasher.noneHash

/-- The first `n` chunks of a buffer. -/
def chunks (packed : List Token) (n : Nat) : List (List Token) :=
  (range n).map (hasher.chunkAt packed)

variable (packed : List Token) (n : Nat)

lemma chunks_succ :
    hasher.chunks packed (n + 1) = hasher.chunks packed n ++ [hasher.chunkAt packed n] := by
  simp [chunks, range_succ]

section

variable (chunks : List (List Token))

lemma chainOver_concat (chunk : List Token) : hasher.chainOver (chunks ++ [chunk])
      = hasher.hashPackedChunk chunk (some (hasher.chainOver chunks)) := by
  simp [chainOver]

lemma chainOver_chunks :
    hasher.chainOver (hasher.chunks packed n) = hasher.prefixHashAt packed hasher.noneHash n := by
  induction n with
  | zero => rfl
  | succ n ih => rw [chunks_succ, chainOver_concat, ih, prefixHashAt]

/-- The hashes of a sequence of chunks, each with all chunks before it. -/
def chainHashes : List Hash :=
  (range chunks.length).map fun c => hasher.chainOver (chunks.take (c + 1))

lemma chainHashes_concat (chunk : List Token) : hasher.chainHashes (chunks ++ [chunk])
      = hasher.chainHashes chunks ++ [hasher.chainOver (chunks ++ [chunk])] := by
  rw [chainHashes, length_append, length_singleton, range_succ, map_append]
  congr 1
  · refine map_congr_left fun c hc => ?_
    rw [take_append_of_le_length (Nat.succ_le_of_lt (mem_range.mp hc))]
  · simp [take_of_length_le]

lemma take_chainHashes (n : Nat) :
    (hasher.chainHashes chunks).take n = hasher.chainHashes (chunks.take n) := by
  rw [chainHashes, chainHashes, ← map_take, take_range, length_take]
  refine map_congr_left fun c hc => ?_
  rw [take_take, Nat.min_eq_left (Nat.succ_le_of_lt ?_)]
  exact (Nat.lt_min.mp (mem_range.mp hc)).1

end

lemma chainHashes_chunks :
    hasher.chainHashes (hasher.chunks packed n) = (range n).map (hasher.chainHash packed) := by
  have hlen : (hasher.chunks packed n).length = n := by simp [chunks]
  rw [chainHashes, hlen]
  refine map_congr_left fun c hc => ?_
  have htake : (hasher.chunks packed n).take (c + 1) = hasher.chunks packed (c + 1) := by
    rw [chunks, chunks, ← map_take, take_range,
      Nat.min_eq_left (Nat.succ_le_of_lt (mem_range.mp hc))]
  rw [htake, chainOver_chunks, chainHash]

/-- No two inputs have one hash, and no two hashes the same bytes. -/
structure CollisionFree : Prop where
  packed : ∀ chunk prefixHash chunk' prefixHash',
    hasher.packedHashFunc chunk prefixHash = hasher.packedHashFunc chunk' prefixHash' →
      chunk = chunk' ∧ prefixHash = prefixHash'
  bytes : ∀ h h', hasher.hashToBytes h = hasher.hashToBytes h' → h = h'

variable {hasher}

/-- Without collisions the hash names the chunks. -/
lemma CollisionFree.chainOver_inj (hfree : hasher.CollisionFree) :
    ∀ {n : Nat} {chunks chunks' : List (List Token)}, chunks.length = n → chunks'.length = n →
      hasher.chainOver chunks = hasher.chainOver chunks' → chunks = chunks'
  | 0, chunks, chunks', hlen, hlen', _ => by
    rw [eq_nil_of_length_eq_zero hlen, eq_nil_of_length_eq_zero hlen']
  | n + 1, chunks, chunks', hlen, hlen', h => by
    obtain ⟨front, last, rfl⟩ := eq_nil_or_concat chunks |>.resolve_left
      (ne_nil_of_length_eq_add_one hlen)
    obtain ⟨front', last', rfl⟩ := eq_nil_or_concat chunks' |>.resolve_left
      (ne_nil_of_length_eq_add_one hlen')
    simp only [concat_eq_append] at hlen hlen' h ⊢
    rw [chainOver_concat, chainOver_concat] at h
    obtain ⟨hlast, hfront⟩ := hfree.packed _ _ _ _ h
    rw [hlast, hfree.chainOver_inj (by simpa using hlen) (by simpa using hlen')
      (show hasher.chainOver front = hasher.chainOver front' from hfront)]

end TokenHasher

/-! ## Runs -/

/-- A session with the chunks behind its cached hashes. -/
structure Hashed (Token Hash Digest : Type) where
  session : Session Token Hash Digest
  hashed : List (List Token)

/-- A call on a session. -/
inductive SessionCall (Token : Type) where
  | setTokens (packedTokenIds : List Token)
  | getHashes (start : Nat) (stop : Option Nat)

namespace Hashed

variable (hasher : TokenHasher Token Hash Digest)

/-- A new session. -/
def new : Hashed Token Hash Digest := ⟨.new, []⟩

section

variable (s : Hashed Token Hash Digest)

/-- One call. -/
def step : SessionCall Token → Hashed Token Hash Digest
  | .setTokens packedTokenIds => { s with session := s.session.setTokens packedTokenIds }
  | .getHashes start stop =>
    match s.session.getHashes hasher start stop with
    | .error _ => s
    | .ok (session, _) =>
      ⟨session, s.hashed ++ (List.Ico s.session.numChunksProcessed session.numChunksProcessed).map
        (hasher.chunkAt s.session.tokens)⟩

/-- The cache holds the chain over the hashed chunks. -/
structure CacheInv : Prop where
  processed : s.session.numChunksProcessed = s.hashed.length
  hashes : s.session.chunkHashes = hasher.chainHashes s.hashed
  last : s.session.lastPrefixHash.getD hasher.noneHash = hasher.chainOver s.hashed

/-- The hashed chunks that are complete in `tokens` are chunks of `tokens`. -/
def Agrees (tokens : List Token) (hashed : List (List Token)) : Prop :=
  ∀ c < tokens.length / hasher.chunkSize, c < hashed.length →
    hashed.getD c [] = hasher.chunkAt tokens c

instance [DecidableEq Token] (tokens : List Token) (hashed : List (List Token)) :
    Decidable (Agrees hasher tokens hashed) :=
  inferInstanceAs (Decidable (∀ c < tokens.length / hasher.chunkSize, c < hashed.length →
    hashed.getD c [] = hasher.chunkAt tokens c))

/-- The call keeps the chunks that were hashed. -/
def Keeps : SessionCall Token → Prop
  | .setTokens packedTokenIds => Agrees hasher packedTokenIds s.hashed
  | .getHashes _ _ => True

end

instance [DecidableEq Token] (s : Hashed Token Hash Digest) :
    (call : SessionCall Token) → Decidable (Keeps hasher s call)
  | .setTokens packedTokenIds =>
    inferInstanceAs (Decidable (Agrees hasher packedTokenIds s.hashed))
  | .getHashes _ _ => inferInstanceAs (Decidable True)

end Hashed

/-- Every query inside the current tokens is answered with their hashes. -/
def Session.Current (hasher : TokenHasher Token Hash Digest) (s : Session Token Hash Digest) :
    Prop :=
  ∀ start stop, start % hasher.chunkSize = 0 →
    (∀ e ∈ stop, e % hasher.chunkSize = 0 ∧ e ≤ s.tokens.length) →
    ∃ s' hashes, s.getHashes hasher start stop = .ok (s', hashes) ∧
      hashes.map hasher.hashToBytes = hasher.computePackedChunkHashes s.tokens none start stop

namespace Hashed

variable {hasher : TokenHasher Token Hash Digest}

/-! ## One call -/

variable {session : Session Token Hash Digest} {hashed : List (List Token)}

lemma CacheInv.hashNext (h : CacheInv hasher ⟨session, hashed⟩) :
    CacheInv hasher ⟨session.hashNext hasher,
      hashed ++ [hasher.chunkAt session.tokens session.numChunksProcessed]⟩ := by
  have hhash : hasher.hashPackedChunk (hasher.chunkAt session.tokens session.numChunksProcessed)
        session.lastPrefixHash
      = hasher.chainOver (hashed ++ [hasher.chunkAt session.tokens session.numChunksProcessed]) := by
    rw [hasher.chainOver_concat, hashPackedChunk, h.last]
    rfl
  constructor
  · simpa [Session.hashNext] using h.processed
  · simp only [Session.hashNext, hasher.chainHashes_concat, hhash]
    rw [h.hashes]
  · exact hhash

lemma CacheInv.iterate (h : CacheInv hasher ⟨session, hashed⟩) (n : Nat) :
    CacheInv hasher ⟨(Session.hashNext hasher)^[n] session,
      hashed ++ (Ico session.numChunksProcessed (session.numChunksProcessed + n)).map
      (hasher.chunkAt session.tokens)⟩ := by
  induction n generalizing session hashed with
  | zero => simpa using h
  | succ n ih =>
    have hnext := ih h.hashNext
    have hsplit : Ico session.numChunksProcessed (session.numChunksProcessed + (n + 1))
        = session.numChunksProcessed ::
          Ico (session.numChunksProcessed + 1) (session.numChunksProcessed + 1 + n) := by
      rw [Ico.eq_cons (by omega)]
      congr 2
      omega
    rw [hsplit]
    simpa [Session.hashNext] using hnext

variable (hasher session) in
lemma numChunksProcessed_iterate (n : Nat) :
    ((Session.hashNext hasher)^[n] session).numChunksProcessed = session.numChunksProcessed + n := by
  induction n generalizing session with
  | zero => rfl
  | succ n ih =>
    rw [Function.iterate_succ_apply, ih]
    simp only [Session.hashNext]
    omega

variable (session) in
lemma tokens_iterate (n : Nat) :
    ((Session.hashNext hasher)^[n] session).tokens = session.tokens := by
  induction n generalizing session with
  | zero => rfl
  | succ n ih => exact (Function.iterate_succ_apply ..) ▸ ih _

variable (hasher) in
/-- The chunks behind the cache once everything before `endChunk` is hashed. -/
def hashedUpTo (s : Hashed Token Hash Digest) (endChunk : Nat) : List (List Token) :=
  s.hashed ++ (List.Ico s.session.numChunksProcessed endChunk).map (hasher.chunkAt s.session.tokens)

variable {s : Hashed Token Hash Digest}

section

variable (h : CacheInv hasher s)
include h

lemma CacheInv.computeHash (endChunk : Nat) :
    CacheInv hasher ⟨s.session.computeHash hasher endChunk, hashedUpTo hasher s endChunk⟩ := by
  have hiter := h.iterate (endChunk - s.session.numChunksProcessed)
  by_cases hle : s.session.numChunksProcessed ≤ endChunk
  · rwa [Nat.add_sub_cancel' hle] at hiter
  · rw [hashedUpTo, Ico.eq_nil_of_le (by omega)]
    simpa [Session.computeHash, Nat.sub_eq_zero_of_le (Nat.le_of_not_le hle)] using h

lemma getHashes_inside {start : Nat} {stop : Option Nat} (hstart : start % hasher.chunkSize = 0)
    (hstop : ∀ e ∈ stop, e % hasher.chunkSize = 0 ∧ e ≤ s.session.tokens.length) :
    s.session.getHashes hasher start stop
      = .ok (s.session.computeHash hasher (hasher.numComplete s.session.tokens stop),
      ((hasher.chainHashes (hashedUpTo hasher s (hasher.numComplete s.session.tokens stop))).take
      (hasher.numComplete s.session.tokens stop)).drop (start / hasher.chunkSize)) := by
  have hbound : ∃ e, Session.stopOf hasher s.session stop = .ok e ∧ e % hasher.chunkSize = 0 ∧
      e / hasher.chunkSize = hasher.numComplete s.session.tokens stop := by
    cases stop with
    | none =>
      have hfull : s.session.tokens.length - s.session.tokens.length % hasher.chunkSize
          = hasher.chunkSize * (s.session.tokens.length / hasher.chunkSize) := by
        have := Nat.div_add_mod s.session.tokens.length hasher.chunkSize
        omega
      refine ⟨_, rfl, by rw [hfull, Nat.mul_mod_right], ?_⟩
      rw [hfull, Nat.mul_div_cancel_left _ hasher.chunkSize_pos]
      rfl
    | some e =>
      obtain ⟨hmod, hle⟩ := hstop e rfl
      refine ⟨e, ?_, hmod, ?_⟩
      · simp [Session.stopOf, hle]
      · simp [numComplete, hle]
  obtain ⟨e, hof, hmod, hdiv⟩ := hbound
  have hcache := (h.computeHash (hasher.numComplete s.session.tokens stop)).hashes
  simp only at hcache
  simp [Session.getHashes, hstart, hof, hmod, hdiv, hcache]

section

variable (hagree : Agrees hasher s.session.tokens s.hashed)
include hagree

/-- With agreeing chunks, the chunks behind the cache are those of the tokens. -/
lemma take_hashedUpTo {endChunk : Nat}
    (hend : endChunk ≤ s.session.tokens.length / hasher.chunkSize) :
    (hashedUpTo hasher s endChunk).take endChunk = hasher.chunks s.session.tokens endChunk := by
  refine ext_getElem? fun c => ?_
  by_cases hc : c < endChunk
  · by_cases hold : c < s.hashed.length
    · have hget := hagree c (by omega) hold
      simp [hashedUpTo, chunks, hold, hc, getElem?_append_left] at hget ⊢
      exact hget
    · have hidx : s.hashed.length + (c - s.hashed.length) = c := by omega
      have hlt : c - s.hashed.length < endChunk - s.hashed.length := by omega
      simp [hashedUpTo, chunks, hc, getElem?_append_right (Nat.le_of_not_lt hold),
        h.processed, Ico, hlt, hidx]
  · simp [hc, chunks]

omit hagree in
omit h in
lemma numComplete_le (packed : List Token) (stop : Option Nat) :
    hasher.numComplete packed stop ≤ packed.length / hasher.chunkSize := by
  cases stop with
  | none => exact le_rfl
  | some stop => exact Nat.div_le_div_right (Nat.min_le_left ..)

lemma current_of_agrees : s.session.Current hasher := by
  intro start stop hstart hstop
  refine ⟨_, _, getHashes_inside h hstart hstop, ?_⟩
  have haligned := Nat.div_mul_cancel (Nat.dvd_of_mod_eq_zero hstart)
  have hspec := hasher.computePackedChunkHashes_aligned s.session.tokens
    (start / hasher.chunkSize) stop
  rw [haligned] at hspec
  rw [hspec, hasher.take_chainHashes, take_hashedUpTo h hagree (numComplete_le ..),
    hasher.chainHashes_chunks, ← map_drop, range_eq_range', Ico]
  simp

omit hagree in
omit h in
lemma getHashes_ok {session' : Session Token Hash Digest} {start : Nat} {stop : Option Nat}
    {hashes : List Hash} (h : session.getHashes hasher start stop = .ok (session', hashes)) :
    ∃ endChunk, session' = session.computeHash hasher endChunk := by
  unfold Session.getHashes at h
  split at h
  · cases h
  · split at h
    · cases h
    · rename_i e _
      split at h
      · cases h
      · cases h
        exact ⟨e / hasher.chunkSize, rfl⟩

omit hagree in
omit h in
/-- The session after a query, and the chunks behind its cache. -/
lemma step_getHashes (s : Hashed Token Hash Digest) (start : Nat) (stop : Option Nat) :
    step hasher s (.getHashes start stop) = s ∨ ∃ endChunk, step hasher s (.getHashes start stop)
      = ⟨s.session.computeHash hasher endChunk, hashedUpTo hasher s endChunk⟩ := by
  cases hquery : s.session.getHashes hasher start stop with
  | error message => exact .inl (by simp [step, hquery])
  | ok result =>
    obtain ⟨endChunk, hsession⟩ := getHashes_ok hquery
    refine .inr ⟨endChunk, ?_⟩
    have hcount := numChunksProcessed_iterate hasher s.session
      (endChunk - s.session.numChunksProcessed)
    simp only [step, hquery, hsession, hashedUpTo, Session.computeHash, hcount]
    by_cases hle : s.session.numChunksProcessed ≤ endChunk
    · rw [Nat.add_sub_cancel' hle]
    · rw [Ico.eq_nil_of_le (by omega), Ico.eq_nil_of_le (by omega)]

/-- What a query hashes are chunks of the tokens. -/
lemma agrees_hashedUpTo (endChunk : Nat) :
    Agrees hasher s.session.tokens (hashedUpTo hasher s endChunk) := by
  intro c hc hlt
  by_cases hold : c < s.hashed.length
  · have hget := hagree c hc hold
    rw [getD_eq_getElem?_getD] at hget ⊢
    rwa [hashedUpTo, getElem?_append_left hold]
  · simp only [hashedUpTo, length_append, length_map, Ico.length, h.processed] at hlt
    have hidx : s.hashed.length + (c - s.hashed.length) = c := by omega
    have hlt' : c - s.hashed.length < endChunk - s.hashed.length := by omega
    simp [hashedUpTo, getElem?_append_right (Nat.le_of_not_lt hold), h.processed, Ico, hlt', hidx]

/-- A query keeps the cache and the agreement. -/
lemma inv_getHashes (start : Nat) (stop : Option Nat) :
    CacheInv hasher (step hasher s (.getHashes start stop)) ∧
      Agrees hasher (step hasher s (.getHashes start stop)).session.tokens
      (step hasher s (.getHashes start stop)).hashed := by
  rcases step_getHashes s start stop with hsame | ⟨endChunk, hnext⟩
  · rw [hsame]
    exact ⟨h, hagree⟩
  · rw [hnext]
    refine ⟨h.computeHash endChunk, ?_⟩
    rw [Session.computeHash, tokens_iterate]
    exact agrees_hashedUpTo h hagree endChunk

end

end

/-- A query over hashed chunks is answered from the cache. -/
lemma agrees_of_current (hfree : hasher.CollisionFree) (h : CacheInv hasher s)
    (hcurrent : s.session.Current hasher) : Agrees hasher s.session.tokens s.hashed := by
  intro c hc hhashed
  have hinside := le_trans (Nat.mul_le_mul_right _ hc) (Nat.div_mul_le_self ..)
  have hstop : ∀ e ∈ some ((c + 1) * hasher.chunkSize),
      e % hasher.chunkSize = 0 ∧ e ≤ s.session.tokens.length := by
    simp [hinside]
  obtain ⟨s', hashes, hquery, hhashes⟩ := hcurrent 0 _ (Nat.zero_mod _) hstop
  have hcomplete := hasher.numComplete_aligned s.session.tokens hinside
  have hcached : hashedUpTo hasher s (c + 1) = s.hashed := by
    rw [hashedUpTo, Ico.eq_nil_of_le (by rw [h.processed]; omega)]
    simp
  rw [getHashes_inside h (Nat.zero_mod _) hstop, hcomplete, hcached, hasher.take_chainHashes]
    at hquery
  simp only [Nat.zero_div, drop_zero, Except.ok.injEq, Prod.mk.injEq] at hquery
  rw [← hquery.2, ← Nat.zero_mul hasher.chunkSize, hasher.computePackedChunkHashes_aligned,
    hcomplete, Ico.zero_bot] at hhashes
  -- the last hash of the query covers all its chunks
  have hlast := congrArg (·[c]?) hhashes
  have hlen : (s.hashed.take (c + 1)).length = c + 1 := by simp; omega
  simp only [chainHashes, hlen, getElem?_map, getElem?_range
    (Nat.lt_succ_self c), Option.map_some, Option.some.injEq, take_take, Nat.min_self] at hlast
  have hchain := hfree.bytes _ _ hlast
  rw [chainHash, ← hasher.chainOver_chunks] at hchain
  have hchunks := hfree.chainOver_inj hlen (by simp [chunks]) hchain
  have hget := congrArg (·[c]?) hchunks
  simpa [chunks, hhashed] using hget

/-! ## Whole runs -/

variable (hasher s) in
/-- The cache is sound, and sound for the current tokens. -/
def Sound : Prop :=
  CacheInv hasher s ∧ Agrees hasher s.session.tokens s.hashed

lemma sound_new : Sound hasher (new : Hashed Token Hash Digest) :=
  ⟨⟨rfl, rfl, rfl⟩, fun c hc => by simp [new, Session.new] at hc⟩

lemma cacheInv_setTokens (h : CacheInv hasher s) (packedTokenIds : List Token) :
    CacheInv hasher (step hasher s (.setTokens packedTokenIds)) :=
  ⟨h.processed, h.hashes, h.last⟩

variable (s) in
lemma sound_step (call : SessionCall Token) (h : Sound hasher s) (hkeeps : Keeps hasher s call) :
    Sound hasher (step hasher s call) := by
  cases call with
  | setTokens packedTokenIds => exact ⟨cacheInv_setTokens h.1 packedTokenIds, hkeeps⟩
  | getHashes start stop => exact inv_getHashes h.1 h.2 start stop

/-- A call after which every query is answered right keeps the hashed chunks. -/
lemma keeps_of_current (hfree : hasher.CollisionFree) (s : Hashed Token Hash Digest)
    (call : SessionCall Token) (h : Sound hasher s)
    (hcurrent : (step hasher s call).session.Current hasher) : Keeps hasher s call := by
  cases call with
  | setTokens packedTokenIds =>
    exact agrees_of_current hfree (cacheInv_setTokens h.1 packedTokenIds) hcurrent
  | getHashes start stop => trivial

/-- In all states of a run every query inside the current tokens is answered
with their hashes, if each replacement of the tokens keeps the chunks that
were hashed; and, unless hashes collide, only then. -/
theorem current_iff_keeps (hasher : TokenHasher Token Hash Digest)
    (calls : List (SessionCall Token)) : (Along (step hasher) (Keeps hasher) new calls →
      ∀ n, (run (step hasher) new (calls.take n)).session.Current hasher) ∧ (hasher.CollisionFree →
      (∀ n, (run (step hasher) new (calls.take n)).session.Current hasher) →
      Along (step hasher) (Keeps hasher) new calls) := by
  constructor
  · intro hkeeps n
    rw [← take_append_drop n calls] at hkeeps
    have hsound := run_inv (Sound hasher) sound_step sound_new (along_append.mp hkeeps).1
    exact current_of_agrees hsound.1 hsound.2
  · intro hfree hcurrent
    exact (good_iff_along (Sound hasher) (fun s h => current_of_agrees h.1 h.2)
      (fun s call h _ hkeeps => sound_step s call h hkeeps)
      (fun s call h _ hgood => keeps_of_current hfree s call h hgood)
      sound_new (along_of_forall (fun _ _ => trivial) calls new)).mp hcurrent

/-- A hasher that records what it hashed, in chunks of one token. -/
def recording : TokenHasher Nat (List (List Nat)) (List (List Nat)) where
  chunkSize := 1
  noneHash := []
  packedHashFunc := fun chunk prefixHash => prefixHash ++ [chunk]
  hashToBytes := id
  chunkSize_pos := Nat.one_pos

/-- The request grew by a token. -/
def grown : List (SessionCall Nat) :=
  [.setTokens [1], .getHashes 0 none, .setTokens [1, 2], .getHashes 0 (some 2)]

theorem grown_current : ∀ n, (run (step recording) new (grown.take n)).session.Current recording :=
  (current_iff_keeps recording grown).1 (by decide)

/-- The request's only token was replaced after it was hashed: the hash of
the new token is reported to be that of the old one. -/
theorem replaced_stale : (run (step recording) new
      [.setTokens [1], .getHashes 0 none, .setTokens [2]]).session.tokens = [2] ∧
    ∃ s', (run (step recording) new
      [.setTokens [1], .getHashes 0 none, .setTokens [2]]).session.getHashes recording 0 (some 1)
      = .ok (s', [[[1]]]) ∧ recording.computePackedChunkHashes [2] none 0 (some 1) = [[[2]]] :=
  ⟨rfl, _, rfl, rfl⟩

end Hashed

end LMCache.Multiprocess
