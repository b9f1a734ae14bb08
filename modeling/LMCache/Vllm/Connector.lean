/-
LMCache.Vllm.Connector — lookups and locks of one request, scheduler side.

The scheduler asks the connector how many tokens LMCache can load, as often
as it likes, and then allocates blocks. The first poll submits a lookup past
the prefix that vLLM's own cache covers; the lookup read-locks its hit. A
later poll may find the covered prefix smaller than the lookup assumed: the
lookup is abandoned, its locks are put on the tracker's list of pending
ranges, and the full prefix is looked up. At allocation the connector frees
what will not be retrieved, together with the pending ranges, and the rest is
left to the retrieve.

The state is the tracker of the request, the adapter's entry for its lookup
and what the servers remember of it. `locked` collects the range of every
lookup that was answered; nothing reads it. The servers stay healthy, and a
lookup that was answered keeps its answer.
-/
import LMCache.Lib.Ranges
import LMCache.Lib.Run

namespace LMCache.Vllm

open Lib

/-! ## States -/

/-- The settings of the connector; the constructor checks that chunks end on
the boundaries of every group's blocks. -/
structure ConnectorConfig where
  tokensPerChunk : Nat
  hitAlignmentTokens : Nat
  prefixReplayTokens : Nat
  reserveLastToken : Bool
  chunk_pos : 0 < tokensPerChunk
  alignment_pos : 0 < hitAlignmentTokens
  alignment_dvd : hitAlignmentTokens ∣ tokensPerChunk

namespace ConnectorConfig

variable (cfg : ConnectorConfig)

/-- Rounded down to a boundary of every group's blocks. -/
def alignHit (tokens : Nat) : Nat := tokens / cfg.hitAlignmentTokens * cfg.hitAlignmentTokens

/-- Rounded down to a chunk boundary. -/
def alignChunk (tokens : Nat) : Nat := tokens / cfg.tokensPerChunk * cfg.tokensPerChunk

/-- The chunks of a token range. -/
def chunks (range : Nat × Nat) : Nat × Nat :=
  (range.1 / cfg.tokensPerChunk, range.2 / cfg.tokensPerChunk)

end ConnectorConfig

/-- `LMCacheMPRequestState`. -/
inductive RequestState where
  | prefetching
  | waitingForLoad
  | ready
  | bypassLmcache
  deriving DecidableEq, Repr

/-- The fields of `LMCacheMPRequestTracker` that lookups and locks use. -/
structure Tracker where
  numStoredTokens : Nat
  numVllmHitTokens : Nat
  numLmcacheHitTokens : Nat
  apcCoveredTokens : Nat
  needFullLookup : Bool
  pendingFreeRanges : List (Nat × Nat)
  state : RequestState
  deriving DecidableEq

def Tracker.new : Tracker := ⟨0, 0, 0, 0, false, [], .prefetching⟩

/-- `needs_retrieve`. -/
def Tracker.needsRetrieve (t : Tracker) : Bool :=
  decide (t.numVllmHitTokens < t.numLmcacheHitTokens) &&
    !decide (t.state = .ready) && !decide (t.state = .bypassLmcache)

/-- A submitted lookup of the tokens `[start, stop)`, and its answer. -/
structure Lookup where
  start : Nat
  stop : Nat
  result : Option Nat
  deriving DecidableEq

/-- One request, as connector, adapter and servers know it. `lockFloor` is the
start of the servers' last lookup, `answer` the last answer to the scheduler
(`none` to ask again later). -/
structure Request where
  numTokens : Nat
  tracker : Tracker
  lookup : Option Lookup
  lockFloor : Nat
  locked : List (Nat × Nat)
  answer : Option Nat
  deriving DecidableEq

def Request.new (numTokens : Nat) : Request := ⟨numTokens, .new, none, 0, [], none⟩

/-! ## The adapter -/

variable (cfg : ConnectorConfig) (numComputedTokens ret : Nat)

/-- `maybe_submit_lookup_request`. -/
def maybeSubmitLookupRequest (start : Nat) (r : Request) : Request × Bool :=
  match r.lookup with
  | some _ => (r, false)
  | none =>
    let lookupTokens := r.numTokens - cfg.reserveLastToken.toNat
    ({ r with lookup := some ⟨start, cfg.alignChunk lookupTokens, none⟩, lockFloor := start }, true)

/-- `check_lookup_result`, when the servers have answered `reply` by now. -/
def checkLookupResult (reply : Option Nat) (r : Request) : Request × Option Nat :=
  match r.lookup with
  | none => (r, some 0)
  | some lookup =>
    match lookup.result, reply with
    | some result, _ => (r, some result)
    | none, none => (r, none)
    | none, some result =>
      ({ r with
          lookup := some { lookup with result := some result }
          locked := r.locked ++ [(lookup.start, result)] }, some result)

/-- `cleanup_lookup_result`. -/
def cleanupLookupResult (r : Request) : Request := { r with lookup := none }

/-- The chunk ranges a server releases for `free_lookup_locks` of the tokens
`[0, stop)` and the extra ranges. -/
def freeLookupLocks (stop : Nat) (extraRanges : List (Nat × Nat)) (r : Request) :
    List (Nat × Nat) :=
  (if 0 < stop then [cfg.chunks (r.lockFloor, stop)] else []) ++
    (extraRanges.filter fun range => range.1 < range.2).map cfg.chunks

/-! ## Polling -/

/-- A call of `get_num_new_matched_tokens`: the tokens vLLM has locally, the
request's own count, and the answer of the servers so far. -/
structure Poll where
  numComputedTokens : Nat
  requestComputedTokens : Nat
  reply : Option Nat
  deriving DecidableEq

section

variable (r : Request)

/-- A failed asynchronous load: forget the lookup. -/
def bypass : Request :=
  { cleanupLookupResult r with
    tracker := { r.tracker with
      numStoredTokens := 0
      numVllmHitTokens := 0
      numLmcacheHitTokens := 0
      apcCoveredTokens := 0
      state := .bypassLmcache }
    answer := some 0 }

/-- The covered prefix shrank: abandon the lookup and look up everything. -/
def relookup : Request :=
  let abandoned := if r.tracker.apcCoveredTokens < ret then [(r.tracker.apcCoveredTokens, ret)] else []
  let r := { cleanupLookupResult r with
    tracker := { r.tracker with
      pendingFreeRanges := r.tracker.pendingFreeRanges ++ abandoned
      needFullLookup := true
      apcCoveredTokens := 0
      numStoredTokens := 0
      numLmcacheHitTokens := 0 } }
  { (maybeSubmitLookupRequest cfg 0 r).1 with answer := none }

/-- The hit covers the whole prompt: something is left to compute. -/
def fullPromptHit : Request :=
  if 0 < cfg.prefixReplayTokens then
    let aligned := cfg.alignChunk (ret - 1)
    let r := if aligned < ret then
        { r with tracker := { r.tracker with
          pendingFreeRanges := r.tracker.pendingFreeRanges ++ [(aligned, ret)]
          numLmcacheHitTokens := aligned } }
      else r
    { r with answer := some (aligned - numComputedTokens) }
  else { r with answer := some (ret - numComputedTokens - 1) }

/-- A hit. -/
def takeHit : Request :=
  let r := { r with tracker := { r.tracker with
    numStoredTokens := ret
    numLmcacheHitTokens := ret } }
  if ret = r.numTokens then fullPromptHit cfg numComputedTokens ret r
  else { r with answer := some (ret - numComputedTokens) }

/-- What a poll does with an answered lookup, once it recorded vLLM's hit. -/
def settleHit : Request :=
  if 0 < r.tracker.apcCoveredTokens ∧ r.tracker.numVllmHitTokens < r.tracker.apcCoveredTokens then
    relookup cfg ret r
  else if ret = 0 then { r with answer := some 0 }
  else takeHit cfg numComputedTokens ret r

/-- What a poll does with an answered lookup. -/
def settle : Request :=
  settleHit cfg numComputedTokens ret
    { r with tracker := { r.tracker with numVllmHitTokens := cfg.alignHit numComputedTokens } }

/-- The lookup a poll finds: submitted before, or now past the covered
prefix. -/
def ensureLookup : Request :=
  let lookupStart :=
    if r.tracker.needFullLookup then 0 else cfg.alignChunk (cfg.alignHit numComputedTokens)
  match maybeSubmitLookupRequest cfg lookupStart r with
  | (r, false) => r
  | (r, true) => { r with tracker := { r.tracker with apcCoveredTokens := lookupStart } }

/-- `get_num_new_matched_tokens`. -/
def getNumNewMatchedTokens (poll : Poll) : Request :=
  if r.tracker.state = .bypassLmcache then { r with answer := some 0 }
  else if r.tracker.state = .ready ∧ poll.requestComputedTokens = 0 ∧
      0 < r.tracker.numLmcacheHitTokens then bypass r
  else
    match checkLookupResult poll.reply (ensureLookup cfg poll.numComputedTokens r) with
    | (r, none) => { r with answer := none }
    | (r, some ret) => settle cfg poll.numComputedTokens ret r

end

/-- `on_new_request`: an eager connector looks up everything at once. -/
def onNewRequest (eagerPrefetch : Bool) (r : Request) : Request :=
  if eagerPrefetch then (maybeSubmitLookupRequest cfg 0 r).1 else r

/-! ## Allocation -/

/-- `update_state_after_alloc`: the request and the chunk ranges it frees. -/
def updateStateAfterAlloc (numExternalTokens : Nat) (r : Request) : Request × List (Nat × Nat) :=
  match r.tracker.state with
  | .bypassLmcache => ({ r with tracker := { r.tracker with state := .ready } }, [])
  | .prefetching =>
    let condition := decide (0 < numExternalTokens) && r.tracker.needsRetrieve
    let freeEnd :=
      if r.tracker.numLmcacheHitTokens = 0 then 0
      else if condition then r.tracker.numVllmHitTokens else r.tracker.numLmcacheHitTokens
    let freed :=
      if freeEnd = 0 ∧ r.tracker.pendingFreeRanges = [] then []
      else freeLookupLocks cfg freeEnd r.tracker.pendingFreeRanges r
    ({ cleanupLookupResult r with
        tracker := { r.tracker with
          pendingFreeRanges := []
          state := if condition then .waitingForLoad else .ready } }, freed)
  | _ => (r, [])

/-- `GetRetrieveMetadata`: the token range to retrieve. -/
def getRetrieveMetadata (t : Tracker) : Option (Nat × Nat) :=
  let start := cfg.alignChunk t.numVllmHitTokens
  if t.state = .waitingForLoad ∧ t.needsRetrieve ∧ start < t.numLmcacheHitTokens then
    some (start, t.numLmcacheHitTokens)
  else none

end LMCache.Vllm
