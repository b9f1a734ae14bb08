/-
LMCache.Vllm.LookupState — one lookup on every server.

Each server runs its own chain: LOOKUP, then QUERY_PREFETCH_STATUS once the
LOOKUP was answered, asked again while the answer is None or a failure. The
last server to report its hit resolves the lookup to the smallest hit and
releases the tails of the others.

Everything below runs under one lock, so a step is one locked section: a reply
callback, one of the two sections of a scheduler check, or a close. A future
is the number of its RPC in the list of all RPCs sent; `replies` is what the
network has delivered so far. A callback runs at any time after its reply, and
between the sections of a check anything may happen. `checkedAt` marks where
the last scheduler check began; nothing reads it.
-/
import LMCache.Lib.Run
import Mathlib.Data.List.FinRange

namespace LMCache.Vllm

open Lib

/-! ## States -/

/-- `_Phase`. -/
inductive Phase where
  | lookupInFlight
  | queryPrefetchStatusInFlight
  | needsRequery
  | resolved
  | timedOut
  deriving DecidableEq, Repr

/-- `_Server`; the times are those of one clock. -/
structure LookupServer where
  phase : Phase := .lookupInFlight
  future : Option Nat := none
  deadline : Nat := 0
  schedulerChecked : Bool := false
  hitChunks : Nat := 0
  deriving DecidableEq

inductive Call where
  | lookup
  | queryPrefetchStatus
  | freeLookupLocks (start stop : Nat)
  deriving DecidableEq, Repr

structure Rpc (n : Nat) where
  server : Fin n
  call : Call
  deriving DecidableEq

/-- How an RPC ended; a LOOKUP that was answered has no hit to tell. -/
inductive Reply where
  | failed
  | answered (hit : Option Nat)
  deriving DecidableEq, Repr

structure LookupConfig where
  tokensPerChunk : Nat
  timeout : Nat
  numTokens : Nat

structure LookupState (n : Nat) where
  servers : Fin n → LookupServer
  result : Option Nat
  rpcs : List (Rpc n)
  replies : Nat → Option Reply
  checkedAt : Nat

variable {n : Nat} (cfg : LookupConfig)

namespace LookupState

/-! ## Locked sections -/

def setServer (st : LookupState n) (url : Fin n) (server : LookupServer) : LookupState n :=
  { st with servers := Function.update st.servers url server }

section

variable (clock : Fin n → Nat) (now : Nat)

/-- `submit`: LOOKUP to every server. -/
def submit : LookupState n where
  servers url := { future := some url, deadline := now + cfg.timeout }
  result := none
  rpcs := (List.finRange n).map fun url => ⟨url, .lookup⟩
  replies _ := none
  checkedAt := 0

/-- `close`. -/
def close (st : LookupState n) : LookupState n :=
  { st with result := some (st.result.getD 0) }

/-- `_send_query_prefetch_status`. -/
def sendQueryPrefetchStatus (url : Fin n) (st : LookupState n) : LookupState n :=
  { st with
    rpcs := st.rpcs ++ [⟨url, .queryPrefetchStatus⟩]
    servers := Function.update st.servers url { st.servers url with
        phase := .queryPrefetchStatusInFlight
        future := some st.rpcs.length
        deadline := now + cfg.timeout
        schedulerChecked := false } }

/-- The release of the chunks past the minimum. -/
def tailRelease (minChunks : Nat) (st : LookupState n) (url : Fin n) : Rpc n :=
  ⟨url, .freeLookupLocks (minChunks * cfg.tokensPerChunk)
    (min ((st.servers url).hitChunks * cfg.tokensPerChunk) cfg.numTokens)⟩

/-- `_maybe_resolve_lookup_result`. -/
def maybeResolveLookupResult (st : LookupState n) : LookupState n :=
  if ∃ url, (st.servers url).phase ≠ .resolved then st
  else
    let hitChunks := (List.finRange n).map fun url => (st.servers url).hitChunks
    let minChunks := hitChunks.min?.getD 0
    let tails :=
      if minChunks ≠ hitChunks.max?.getD 0 then
        ((List.finRange n).filter fun url => minChunks < (st.servers url).hitChunks).map
          (tailRelease cfg minChunks st)
      else []
    { st with
      rpcs := st.rpcs ++ tails
      result := some (minChunks * cfg.tokensPerChunk) }

/-- `_handle_lookup_reply`: a failed LOOKUP is queried like any other. -/
def handleLookupReply (url : Fin n) (st : LookupState n) : LookupState n :=
  sendQueryPrefetchStatus cfg now url st

/-- `_handle_query_prefetch_status_reply`. -/
def handleQueryPrefetchStatusReply (url : Fin n) (reply : Reply) (st : LookupState n) :
    LookupState n :=
  match reply with
  | .answered (some hit) =>
    maybeResolveLookupResult cfg (st.setServer url
      { st.servers url with phase := .resolved, future := none, hitChunks := hit })
  | _ =>
    if (st.servers url).schedulerChecked then sendQueryPrefetchStatus cfg now url st
    else st.setServer url { st.servers url with phase := .needsRequery, future := none }

/-- One turn of `_handle_completed_rpcs`; the loop breaks at a result. -/
def handleCompletedRpc (st : LookupState n) (url : Fin n) : LookupState n :=
  if st.result.isSome then st
  else
    match (st.servers url).future.bind st.replies with
    | none => st
    | some reply =>
      if (st.servers url).phase = .lookupInFlight then handleLookupReply cfg (clock url) url st
      else handleQueryPrefetchStatusReply cfg (clock url) url reply st

/-- `_handle_completed_rpcs`. -/
def handleCompletedRpcs (st : LookupState n) : LookupState n :=
  (List.finRange n).foldl (handleCompletedRpc cfg clock) st

/-- `on_lookup_finished`. -/
def onLookupFinished (url : Fin n) (future : Nat) (st : LookupState n) : LookupState n :=
  if st.result.isSome ∨ (st.servers url).phase ≠ .lookupInFlight ∨
      (st.servers url).future ≠ some future then st
  else handleLookupReply cfg now url st

/-- `on_query_prefetch_status_finished`. -/
def onQueryPrefetchStatusFinished (url : Fin n) (future : Nat) (reply : Reply) (st : LookupState n) :
    LookupState n :=
  if st.result.isSome ∨ (st.servers url).phase ≠ .queryPrefetchStatusInFlight ∨
      (st.servers url).future ≠ some future then st
  else handleQueryPrefetchStatusReply cfg now url reply st

variable (st : LookupState n)

/-- The servers with a query in flight have seen a check. -/
def markChecked : LookupState n :=
  { st with
    servers := fun url =>
      if (st.servers url).phase = .queryPrefetchStatusInFlight then
        { st.servers url with schedulerChecked := true }
      else st.servers url
    checkedAt := st.rpcs.length }

/-- One turn of the loop that asks deferred queries again. -/
def requery (url : Fin n) : LookupState n :=
  if (st.servers url).phase = .needsRequery then sendQueryPrefetchStatus cfg (clock url) url st
  else st

/-- The first locked section of `on_scheduler_check`. -/
def beginCheck : LookupState n :=
  if st.result.isSome then st
  else (List.finRange n).foldl (requery cfg clock) (handleCompletedRpcs cfg clock st.markChecked)

/-- `_get_expired_servers`. -/
def getExpiredServers : List (Fin n) :=
  (List.finRange n).filter fun url =>
    match (st.servers url).future with
    | none => false
    | some future => (st.replies future).isNone && decide ((st.servers url).deadline ≤ now)

/-- The servers past their deadline make the result 0. -/
def expire : LookupState n :=
  let expired := getExpiredServers now st
  { st with
    servers := fun url =>
      if url ∈ expired then { st.servers url with phase := .timedOut, future := none }
      else st.servers url
    result := if expired = [] then st.result else some 0 }

end

/-- The second locked section of `on_scheduler_check`. -/
def endCheck (clock : Fin n → Nat) (now : Nat) (st : LookupState n) : LookupState n :=
  if st.result.isSome then st else expire now (handleCompletedRpcs cfg clock st)

/-! ## Steps -/

/-- A reply arrives, its callback runs, or the scheduler acts. The times are
read inside the section, by server where a section may send several RPCs. -/
inductive Event (n : Nat) where
  | reply (future : Nat) (reply : Reply)
  | lookupFinished (now : Nat) (url : Fin n) (future : Nat)
  | queryFinished (now : Nat) (url : Fin n) (future : Nat)
  | beginCheck (clock : Fin n → Nat)
  | endCheck (clock : Fin n → Nat) (now : Nat)
  | close

def deliver (st : LookupState n) (future : Nat) (reply : Reply) : LookupState n :=
  { st with replies := Function.update st.replies future (some reply) }

def step (st : LookupState n) : Event n → LookupState n
  | .reply future reply =>
    if future < st.rpcs.length ∧ st.replies future = none then st.deliver future reply else st
  | .lookupFinished now url future =>
    match st.replies future with
    | none => st
    | some _ => onLookupFinished cfg now url future st
  | .queryFinished now url future =>
    match st.replies future with
    | none => st
    | some reply => onQueryPrefetchStatusFinished cfg now url future reply st
  | .beginCheck clock => beginCheck cfg clock st
  | .endCheck clock now => endCheck cfg clock now st
  | .close => close st

end LookupState

end LMCache.Vllm
