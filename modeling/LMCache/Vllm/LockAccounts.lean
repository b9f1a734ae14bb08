/-
LMCache.Vllm.LockAccounts — every lock of a lookup is given back once.

Whatever the polls, the ranges the connector has put on its pending list and
the range it still keeps open for the current lookup make up what the lookups
locked, plus the ranges it put on the list twice (`Books`). Allocation
frees the pending ranges and the part of the open range that vLLM has, and
leaves the rest to the retrieve. So the books balance iff nothing was put on
the list twice.

Under prefix replay a hit of the whole prompt gives its last chunk back at
once, and again at every later poll of the same answer. That is the only way
to get a range twice.
-/
import LMCache.Vllm.Connector

namespace LMCache.Vllm

open Lib List

variable {cfg : ConnectorConfig}

/-! ## Chunk ranges -/

/-- How many of the token ranges the chunk is in. -/
def ConnectorConfig.cover (cfg : ConnectorConfig) (ranges : List (Nat × Nat)) (c : Nat) : Nat :=
  Lib.cover (ranges.map cfg.chunks) c

variable (ranges : List (Nat × Nat)) (c : Nat)

@[simp] lemma cover_nil : cfg.cover [] c = 0 := rfl

@[simp] lemma cover_append (ranges' : List (Nat × Nat)) (c : Nat) :
    cfg.cover (ranges ++ ranges') c = cfg.cover ranges c + cfg.cover ranges' c := by
  simp [ConnectorConfig.cover, Lib.cover_append]

lemma cover_empty {lo hi : Nat} (h : hi ≤ lo) (c : Nat) : cfg.cover [(lo, hi)] c = 0 := by
  have hdiv := Nat.div_le_div_right (c := cfg.tokensPerChunk) h
  simp only [ConnectorConfig.cover, Lib.cover, map_cons, map_nil, countP_singleton,
    inRange_iff, ConnectorConfig.chunks]
  rw [if_neg (by omega)]

/-- Two ranges that follow one another hold the chunks of their union. -/
lemma cover_split (cfg : ConnectorConfig) {lo mid hi : Nat} (h1 : lo ≤ mid) (h2 : mid ≤ hi) (c : Nat) :
    cfg.cover [(lo, mid)] c + cfg.cover [(mid, hi)] c = cfg.cover [(lo, hi)] c := by
  have hdiv1 := Nat.div_le_div_right (c := cfg.tokensPerChunk) h1
  have hdiv2 := Nat.div_le_div_right (c := cfg.tokensPerChunk) h2
  simp only [ConnectorConfig.cover, Lib.cover, map_cons, map_nil, countP_singleton,
    inRange_iff, ConnectorConfig.chunks]
  split <;> split <;> split <;> omega

/-- A range with a whole chunk holds a chunk. -/
lemma exists_cover {lo hi : Nat} (h : lo / cfg.tokensPerChunk < hi / cfg.tokensPerChunk) :
    cfg.cover [(lo, hi)] (lo / cfg.tokensPerChunk) = 1 := by
  simp only [ConnectorConfig.cover, Lib.cover, map_cons, map_nil, countP_singleton, inRange_iff]
  rw [if_pos ⟨le_rfl, h⟩]

lemma alignChunk_div (cfg : ConnectorConfig) (tokens : Nat) :
    cfg.alignChunk tokens / cfg.tokensPerChunk = tokens / cfg.tokensPerChunk :=
  Nat.mul_div_cancel _ cfg.chunk_pos

lemma alignChunk_le (cfg : ConnectorConfig) (tokens : Nat) : cfg.alignChunk tokens ≤ tokens :=
  Nat.div_mul_le_self ..

/-- A whole prompt's last chunk lies past what vLLM has. -/
lemma alignChunk_pred_lt {tokens : Nat} (h : 0 < tokens) : cfg.alignChunk (tokens - 1) < tokens :=
  Nat.lt_of_le_of_lt (alignChunk_le cfg (tokens - 1)) (by omega)

/-! ## The books -/

/-- What is kept of a hit: under prefix replay a hit of the whole prompt gives
back its last chunk. -/
def keptHit (cfg : ConnectorConfig) (numTokens ret : Nat) : Nat :=
  if ret = numTokens ∧ 0 < cfg.prefixReplayTokens then cfg.alignChunk (ret - 1) else ret

/-- The part of the current lookup's locks that is not on the pending list. -/
def openRange (r : Request) : Nat × Nat :=
  match r.lookup with
  | none => (0, 0)
  | some lookup =>
    match lookup.result with
    | none => (0, 0)
    | some ret =>
      (lookup.start, if r.tracker.numStoredTokens = 0 then ret else r.tracker.numLmcacheHitTokens)

/-- A poll took the hit of the current lookup. -/
def Taken (cfg : ConnectorConfig) (r : Request) : Prop :=
  ∃ lookup ret, r.lookup = some lookup ∧ lookup.result = some ret ∧ 0 < ret ∧
    r.tracker.numStoredTokens = ret ∧
    r.tracker.numLmcacheHitTokens = keptHit cfg r.numTokens ret

/-- The state between polls; `doubled` are the ranges put on the pending list
a second time. -/
structure Books (cfg : ConnectorConfig) (r : Request) (doubled : List (Nat × Nat)) : Prop where
  state : r.tracker.state = .prefetching
  start : ∀ lookup ∈ r.lookup,
    lookup.start = r.tracker.apcCoveredTokens ∧ lookup.start = r.lockFloor
  covered : r.tracker.apcCoveredTokens ≤ cfg.alignChunk (r.numTokens - 1)
  taken : (r.tracker.numStoredTokens = 0 ∧ r.tracker.numLmcacheHitTokens = 0) ∨ Taken cfg r
  result : ∀ lookup ∈ r.lookup, ∀ ret ∈ lookup.result,
    ret % cfg.tokensPerChunk = 0 ∧ (ret = 0 ∨ lookup.start ≤ ret)
  balance : ∀ c, cfg.cover r.locked c + cfg.cover doubled c
    = cfg.cover r.tracker.pendingFreeRanges c + cfg.cover [openRange r] c

/-- The last poll was answered with a number. -/
structure Answered (r : Request) (lookup : Lookup) (ret : Nat) : Prop where
  lookup_eq : r.lookup = some lookup
  result_eq : lookup.result = some ret
  start_le : lookup.start ≤ r.tracker.numVllmHitTokens
  taken : ret ≠ 0 → r.tracker.numStoredTokens = ret

/-- vLLM has fewer tokens than the request, and the servers report whole
chunks of the range that was looked up, or nothing. -/
structure Admissible (cfg : ConnectorConfig) (r : Request) (poll : Poll) : Prop where
  computed : poll.numComputedTokens < r.numTokens
  reply : ∀ ret ∈ poll.reply, ∀ lookup ∈ (ensureLookup cfg poll.numComputedTokens r).lookup,
    ret % cfg.tokensPerChunk = 0 ∧ ret ≤ lookup.stop ∧ (ret = 0 ∨ lookup.start ≤ ret)

instance decidableAdmissible (cfg : ConnectorConfig) (r : Request) (poll : Poll) :
    Decidable (Admissible cfg r poll) :=
  decidable_of_iff (poll.numComputedTokens < r.numTokens ∧
      ∀ ret ∈ poll.reply, ∀ lookup ∈ (ensureLookup cfg poll.numComputedTokens r).lookup,
        ret % cfg.tokensPerChunk = 0 ∧ ret ≤ lookup.stop ∧ (ret = 0 ∨ lookup.start ≤ ret))
    ⟨fun h => ⟨h.1, h.2⟩, fun h => ⟨h.computed, h.reply⟩⟩

/-- The poll does not find a hit of the whole prompt that an earlier poll
took, under prefix replay. -/
def GivesBackOnce (cfg : ConnectorConfig) (r : Request) (_ : Poll) : Prop :=
  0 < cfg.prefixReplayTokens → r.lookup.bind Lookup.result = some r.numTokens →
    r.tracker.numStoredTokens = 0

lemma books_new (numTokens : Nat) (eagerPrefetch : Bool) :
    Books cfg (onNewRequest cfg eagerPrefetch (Request.new numTokens)) [] := by
  cases eagerPrefetch <;>
  · constructor <;>
      simp [onNewRequest, maybeSubmitLookupRequest, Request.new, Tracker.new, openRange, cover_empty]

variable {doubled : List (Nat × Nat)} {r : Request}

lemma Books.submitted (h : Books cfg r doubled) {start : Nat} (hnone : r.lookup = none)
    (hstart : start ≤ cfg.alignChunk (r.numTokens - 1)) :
    Books cfg { (maybeSubmitLookupRequest cfg start r).1 with
      tracker := { r.tracker with apcCoveredTokens := start } } doubled := by
  have hfresh : r.tracker.numStoredTokens = 0 ∧ r.tracker.numLmcacheHitTokens = 0 := by
    rcases h.taken with hfresh | ⟨lookup, ret, hlookup, -⟩
    · exact hfresh
    · rw [hnone] at hlookup
      cases hlookup
  have hbalance := h.balance
  constructor
  · exact h.state
  · simp [maybeSubmitLookupRequest, hnone]
  · simpa [maybeSubmitLookupRequest, hnone] using hstart
  · exact .inl hfresh
  · simp [maybeSubmitLookupRequest, hnone]
  · simpa [maybeSubmitLookupRequest, hnone, openRange] using hbalance

lemma Books.ensured (h : Books cfg r doubled) {numComputedTokens : Nat}
    (hlt : numComputedTokens < r.numTokens) :
    Books cfg (ensureLookup cfg numComputedTokens r) doubled := by
  cases hlookup : r.lookup with
  | some lookup => simpa [ensureLookup, maybeSubmitLookupRequest, hlookup] using h
  | none =>
    have hstart : (if r.tracker.needFullLookup then 0
        else cfg.alignChunk (cfg.alignHit numComputedTokens)) ≤ cfg.alignChunk (r.numTokens - 1) := by
      split
      · exact Nat.zero_le _
      · refine Nat.mul_le_mul_right _ (Nat.div_le_div_right ?_)
        exact le_trans (Nat.div_mul_le_self ..) (by omega)
    have hsubmit := h.submitted hlookup hstart
    simpa [ensureLookup, maybeSubmitLookupRequest, hlookup] using hsubmit

variable {lookup : Lookup}

/-- A poll looks at the lookup. Either it is still running and nothing
changes, or it has an answer. -/
lemma Books.checked (h : Books cfg r doubled) (hlookup : r.lookup = some lookup)
    {reply : Option Nat}
    (hreply : ∀ ret ∈ reply, ret % cfg.tokensPerChunk = 0 ∧ (ret = 0 ∨ lookup.start ≤ ret)) :
    checkLookupResult reply r = (r, none) ∨ ∃ r' ret,
      checkLookupResult reply r = (r', some ret) ∧ Books cfg r' doubled ∧
      r'.lookup = some { lookup with result := some ret } ∧ r'.tracker = r.tracker ∧
      r'.numTokens = r.numTokens := by
  cases hresult : lookup.result with
  | some ret =>
    refine .inr ⟨r, ret, by simp [checkLookupResult, hlookup, hresult], h, ?_, rfl, rfl⟩
    rw [hlookup, ← hresult]
  | none =>
    cases reply with
    | none => exact .inl (by simp [checkLookupResult, hlookup, hresult])
    | some ret =>
      have hfresh : r.tracker.numStoredTokens = 0 ∧ r.tracker.numLmcacheHitTokens = 0 := by
        rcases h.taken with hfresh | ⟨lookup', ret', hlookup', hresult', -⟩
        · exact hfresh
        · rw [hlookup] at hlookup'
          cases hlookup'
          rw [hresult] at hresult'
          cases hresult'
      obtain ⟨hapc, hfloor⟩ := h.start lookup hlookup
      have hbalance := h.balance
      simp only [openRange, hlookup, hresult] at hbalance
      refine .inr ⟨{ r with
        lookup := some { lookup with result := some ret }
        locked := r.locked ++ [(lookup.start, ret)] }, ret,
        by simp only [checkLookupResult, hlookup, hresult], ?_, rfl, rfl, rfl⟩
      constructor
      · exact h.state
      · simpa using And.intro hapc hfloor
      · exact h.covered
      · exact .inl hfresh
      · simpa using hreply ret rfl
      · intro c
        have hc := hbalance c
        rw [cover_empty (Nat.le_refl 0)] at hc
        simp only [openRange, hfresh.1, cover_append, if_true]
        omega

/-! ## Polls -/

variable {ret : Nat}

/-- The open range and the taken hit, by whether a poll took it. -/
lemma Books.open_cases (h : Books cfg r doubled) (hlookup : r.lookup = some lookup)
    (hresult : lookup.result = some ret) :
    (r.tracker.numStoredTokens = 0 ∧ r.tracker.numLmcacheHitTokens = 0 ∧
      openRange r = (r.tracker.apcCoveredTokens, ret)) ∨
    (r.tracker.numStoredTokens = ret ∧ 0 < ret ∧
      r.tracker.numLmcacheHitTokens = keptHit cfg r.numTokens ret ∧
      openRange r = (r.tracker.apcCoveredTokens, keptHit cfg r.numTokens ret)) := by
  have hapc := (h.start lookup hlookup).1
  rcases h.taken with ⟨hstored, hhit⟩ | ⟨lookup', ret', hlookup', hresult', hpos, hstored, hhit⟩
  · exact .inl ⟨hstored, hhit, by simp [openRange, hlookup, hresult, hstored, hapc]⟩
  · rw [hlookup] at hlookup'
    cases hlookup'
    rw [hresult] at hresult'
    cases hresult'
    refine .inr ⟨hstored, hpos, hhit, ?_⟩
    have hne : r.tracker.numStoredTokens ≠ 0 := by omega
    simp [openRange, hlookup, hresult, hne, hhit, hapc]

variable (cfg r ret) in
/-- The ranges a poll of an answered lookup puts on the pending list again. -/
def doubledBy : List (Nat × Nat) :=
  if ret = r.numTokens ∧ 0 < cfg.prefixReplayTokens ∧ r.tracker.numStoredTokens ≠ 0 then
    [(cfg.alignChunk (ret - 1), ret)]
  else []

/-- What taking a hit puts on the pending list. -/
def givenBack (cfg : ConnectorConfig) (numTokens ret : Nat) : List (Nat × Nat) :=
  if ret = numTokens ∧ 0 < cfg.prefixReplayTokens then [(cfg.alignChunk (ret - 1), ret)] else []

section

variable (h : Books cfg r doubled)
include h

/-- A hit is what is kept of it and what is given back. -/
lemma Books.cover_givenBack (hpos : 0 < ret) (c : Nat) :
    cfg.cover [(r.tracker.apcCoveredTokens, keptHit cfg r.numTokens ret)] c
      + cfg.cover (givenBack cfg r.numTokens ret) c
      = cfg.cover [(r.tracker.apcCoveredTokens, ret)] c := by
  unfold keptHit givenBack
  split_ifs with hfull
  · have hle := h.covered
    rw [← hfull.1] at hle
    exact cover_split cfg hle (Nat.le_of_lt (alignChunk_pred_lt hpos)) c
  · rw [cover_nil, add_zero]

section

variable (hlookup : r.lookup = some lookup)
include hlookup

section

variable (hresult : lookup.result = some ret)
include hresult

/-- The open range, with what a second poll gives back again, is the hit. -/
lemma Books.cover_open (c : Nat) : cfg.cover [openRange r] c + cfg.cover (doubledBy cfg r ret) c
      = cfg.cover [(r.tracker.apcCoveredTokens, ret)] c := by
  rcases h.open_cases hlookup hresult with ⟨hstored, -, hopen⟩ | ⟨hstored, hpos, -, hopen⟩
  · simp [hopen, doubledBy, hstored]
  · have hdoubled : doubledBy cfg r ret = givenBack cfg r.numTokens ret := by
      have hne : r.tracker.numStoredTokens ≠ 0 := by omega
      simp [doubledBy, givenBack, hne]
    rw [hopen, hdoubled]
    exact h.cover_givenBack hpos c

lemma Books.relookedUp : Books cfg (relookup cfg ret r) (doubled ++ doubledBy cfg r ret) := by
  have hrange : ∀ c, cfg.cover (if r.tracker.apcCoveredTokens < ret
      then [(r.tracker.apcCoveredTokens, ret)] else []) c
        = cfg.cover [(r.tracker.apcCoveredTokens, ret)] c := by
    intro c
    split
    · rfl
    · rw [cover_empty (by omega), cover_nil]
  constructor
  · exact h.state
  · simp [relookup, maybeSubmitLookupRequest, cleanupLookupResult]
  · simp [relookup, maybeSubmitLookupRequest, cleanupLookupResult]
  · exact .inl ⟨rfl, rfl⟩
  · simp [relookup, maybeSubmitLookupRequest, cleanupLookupResult]
  · intro c
    have hc := h.balance c
    have hopen := h.cover_open hlookup hresult c
    simp only [relookup, maybeSubmitLookupRequest, cleanupLookupResult, openRange,
      cover_append, cover_empty (Nat.le_refl 0), hrange]
    omega

omit hresult in
omit hlookup in
omit h in
lemma takeHit_eq (cfg : ConnectorConfig) (numComputedTokens : Nat) (hpos : 0 < ret) (r : Request) :
    ∃ need, takeHit cfg numComputedTokens ret r = { r with
      tracker := { r.tracker with
      numStoredTokens := ret
      numLmcacheHitTokens := keptHit cfg r.numTokens ret
      pendingFreeRanges := r.tracker.pendingFreeRanges ++ givenBack cfg r.numTokens ret }
      answer := some need } := by
  have hlt : cfg.alignChunk (ret - 1) < ret := alignChunk_pred_lt hpos
  by_cases hfull : ret = r.numTokens
  · by_cases hreplay : 0 < cfg.prefixReplayTokens
    · have hboth : ret = r.numTokens ∧ 0 < cfg.prefixReplayTokens := ⟨hfull, hreplay⟩
      simp only [takeHit, fullPromptHit, keptHit, givenBack, if_pos hfull, if_pos hreplay,
        if_pos hboth, if_pos hlt]
      exact ⟨_, rfl⟩
    · have hboth : ¬ (ret = r.numTokens ∧ 0 < cfg.prefixReplayTokens) := fun h => hreplay h.2
      simp only [takeHit, fullPromptHit, keptHit, givenBack, if_pos hfull, if_neg hreplay,
        if_neg hboth, append_nil]
      exact ⟨_, rfl⟩
  · have hboth : ¬ (ret = r.numTokens ∧ 0 < cfg.prefixReplayTokens) := fun h => hfull h.1
    simp only [takeHit, keptHit, givenBack, if_neg hfull, if_neg hboth, append_nil]
    exact ⟨_, rfl⟩

lemma Books.tookHit (hpos : 0 < ret) (hvllm : lookup.start ≤ r.tracker.numVllmHitTokens)
    (numComputedTokens : Nat) :
    Books cfg (takeHit cfg numComputedTokens ret r) (doubled ++ doubledBy cfg r ret) ∧
      Answered (takeHit cfg numComputedTokens ret r) lookup ret := by
  obtain ⟨need, htake⟩ := takeHit_eq cfg numComputedTokens hpos r
  rw [htake]
  have hne : ret ≠ 0 := by omega
  refine ⟨?_, hlookup, hresult, hvllm, fun _ => rfl⟩
  constructor
  · exact h.state
  · exact h.start
  · exact h.covered
  · exact .inr ⟨lookup, ret, hlookup, hresult, hpos, rfl, rfl⟩
  · exact h.result
  · intro c
    have hc := h.balance c
    have hopen := (h.cover_open hlookup hresult c).trans (h.cover_givenBack hpos c).symm
    simp only [openRange, hlookup, hresult, hne, if_false, cover_append, (h.start lookup hlookup).1]
    omega

lemma Books.settled (numComputedTokens : Nat) :
    Books cfg (settleHit cfg numComputedTokens ret r) (doubled ++ doubledBy cfg r ret) ∧
      ((settleHit cfg numComputedTokens ret r).answer ≠ none →
      Answered (settleHit cfg numComputedTokens ret r) lookup ret) := by
  unfold settleHit
  split
  · exact ⟨h.relookedUp hlookup hresult, fun hanswer => absurd rfl hanswer⟩
  · have hvllm : lookup.start ≤ r.tracker.numVllmHitTokens := by
      have hapc := (h.start lookup hlookup).1
      omega
    split
    · rename_i hzero
      have hnone : doubledBy cfg r ret = [] := by
        refine if_neg fun hagain => ?_
        rcases h.open_cases hlookup hresult with ⟨hstored, -⟩ | ⟨-, hpos, -⟩
        · exact hagain.2.2 hstored
        · omega
      rw [hnone, append_nil]
      exact ⟨⟨h.state, h.start, h.covered, h.taken, h.result, h.balance⟩,
        fun _ => ⟨hlookup, hresult, hvllm, fun hne => absurd hzero hne⟩⟩
    · rename_i hne
      have htake := h.tookHit hlookup hresult (Nat.pos_of_ne_zero hne) hvllm numComputedTokens
      exact ⟨htake.1, fun _ => htake.2⟩

end

end

lemma Books.vllmHit (tokens : Nat) :
    Books cfg { r with tracker := { r.tracker with numVllmHitTokens := tokens } } doubled :=
  ⟨h.state, h.start, h.covered, h.taken, h.result, h.balance⟩

end

variable (cfg doubled) in
/-- The ranges put on the list twice hold a chunk each. -/
def Whole : Prop :=
  ∀ range ∈ doubled, (cfg.chunks range).1 < (cfg.chunks range).2

lemma whole_doubledBy (hmod : ret % cfg.tokensPerChunk = 0)
    (hpos : r.tracker.numStoredTokens ≠ 0 → 0 < ret) : Whole cfg (doubledBy cfg r ret) := by
  intro range hrange
  unfold doubledBy at hrange
  split at hrange
  · obtain rfl := mem_singleton.mp hrange
    obtain ⟨k, rfl⟩ := Nat.dvd_of_mod_eq_zero hmod
    have hT := cfg.chunk_pos
    simp only [ConnectorConfig.chunks, alignChunk_div, Nat.mul_div_cancel_left k hT]
    rw [Nat.div_lt_iff_lt_mul hT, mul_comm k]
    omega
  · cases hrange

lemma exists_ensureLookup (cfg : ConnectorConfig) (numComputedTokens : Nat) (r : Request) :
    ∃ lookup, (ensureLookup cfg numComputedTokens r).lookup = some lookup := by
  cases hr : r.lookup with
  | some lookup => exact ⟨lookup, by simp [ensureLookup, maybeSubmitLookupRequest, hr]⟩
  | none =>
    simp only [ensureLookup, maybeSubmitLookupRequest, hr]
    exact ⟨_, rfl⟩

lemma check_of_result (h : r.lookup.bind Lookup.result = some ret) (cfg : ConnectorConfig)
    (numComputedTokens : Nat) (reply : Option Nat) :
    checkLookupResult reply (ensureLookup cfg numComputedTokens r) = (r, some ret) := by
  obtain ⟨lookup, hlookup, hresult⟩ := Option.bind_eq_some_iff.mp h
  simp [checkLookupResult, ensureLookup, maybeSubmitLookupRequest, hlookup, hresult]

/-- One poll: the books stay in order, and a range is doubled iff the poll
takes a hit of the whole prompt again. -/
lemma Books.poll_eq (h : Books cfg r doubled) (poll : Poll) : getNumNewMatchedTokens cfg r poll
    = match checkLookupResult poll.reply (ensureLookup cfg poll.numComputedTokens r) with
      | (r, none) => { r with answer := none }
      | (r, some ret) => settle cfg poll.numComputedTokens ret r :=
  (if_neg (by simp [h.state])).trans ((if_neg (by simp [h.state])).trans rfl)

lemma Books.polled (h : Books cfg r doubled) {poll : Poll} (hadm : Admissible cfg r poll) :
    ∃ more, Books cfg (getNumNewMatchedTokens cfg r poll) (doubled ++ more) ∧ Whole cfg more ∧
      (more = [] ↔ GivesBackOnce cfg r poll) ∧ ((getNumNewMatchedTokens cfg r poll).answer ≠ none →
      ∃ lookup ret, Answered (getNumNewMatchedTokens cfg r poll) lookup ret) := by
  obtain ⟨lookup, hlookup⟩ := exists_ensureLookup cfg poll.numComputedTokens r
  -- submitting a lookup does not touch the hit or the request
  obtain ⟨hstored, hnum⟩ : (ensureLookup cfg poll.numComputedTokens r).tracker.numStoredTokens
      = r.tracker.numStoredTokens ∧ (ensureLookup cfg _ r).numTokens = r.numTokens := by
    cases hr : r.lookup <;> simp [ensureLookup, maybeSubmitLookupRequest, hr]
  have hensured := h.ensured hadm.computed
  have hreply : ∀ ret ∈ poll.reply, ret % cfg.tokensPerChunk = 0 ∧
      (ret = 0 ∨ lookup.start ≤ ret) := by
    intro ret hret
    obtain ⟨hmod, -, hstart⟩ := hadm.reply ret hret lookup hlookup
    exact ⟨hmod, hstart⟩
  rcases hensured.checked hlookup hreply with hwait | ⟨r', ret, hcheck, hbooks, hlookup', htracker, hsame⟩
  · -- a lookup without an answer was not taken
    have hopen : GivesBackOnce cfg r poll := by
      intro _ hresult
      rw [check_of_result hresult] at hwait
      simp at hwait
    rw [h.poll_eq, hwait]
    refine ⟨[], ?_, by simp [Whole], by simp [hopen], fun hanswer => absurd rfl hanswer⟩
    rw [append_nil]
    exact ⟨hensured.state, hensured.start, hensured.covered, hensured.taken, hensured.result,
      hensured.balance⟩
  · rw [h.poll_eq, hcheck]
    obtain ⟨hsettled, hanswered⟩ := (hbooks.vllmHit (cfg.alignHit poll.numComputedTokens)).settled
      hlookup' rfl poll.numComputedTokens
    have hcases := hbooks.open_cases hlookup' rfl
    refine ⟨_, hsettled, whole_doubledBy ?_ ?_, ?_, fun hanswer => ⟨_, _, hanswered hanswer⟩⟩
    · exact (hbooks.result _ hlookup' ret rfl).1
    · intro hne
      rcases hcases with ⟨hzero, -⟩ | ⟨-, hpos, -⟩
      · exact absurd hzero hne
      · exact hpos
    · have hstored' : r'.tracker.numStoredTokens = r.tracker.numStoredTokens := by
        rw [htracker, hstored]
      have hnum' : r'.numTokens = r.numTokens := hsame.trans hnum
      simp only [doubledBy, hstored', hnum']
      constructor
      · intro hnil hreplay hresult
        rw [check_of_result hresult] at hcheck
        obtain rfl : r.numTokens = ret := by simpa using (Prod.mk.inj hcheck).2
        by_contra hne
        rw [if_pos ⟨rfl, hreplay, hne⟩] at hnil
        cases hnil
      · intro honce
        refine if_neg fun hagain => hagain.2.2 (honce hagain.2.1 ?_)
        rcases h.taken with ⟨hzero, -⟩ | ⟨lk, ret', hlk, hresult, -⟩
        · exact absurd hzero hagain.2.2
        · have hbind : r.lookup.bind Lookup.result = some ret' := by simp [hlk, hresult]
          rw [check_of_result hbind] at hcheck
          obtain rfl : ret' = ret := by simpa using (Prod.mk.inj hcheck).2
          rw [hbind, hagain.1]

/-! ## Allocation -/

/-- What is freed at allocation and what is left to the retrieve is what the
lookups locked, every chunk as often as it was locked. -/
def Balanced (cfg : ConnectorConfig) (numExternalTokens : Nat) (r : Request) : Prop :=
  ∀ c, Lib.cover (updateStateAfterAlloc cfg numExternalTokens r).2 c
      + cfg.cover (getRetrieveMetadata cfg
          (updateStateAfterAlloc cfg numExternalTokens r).1.tracker).toList c
    = cfg.cover r.locked c

lemma cover_filter : Lib.cover ((ranges.filter fun range => range.1 < range.2).map cfg.chunks) c
      = cfg.cover ranges c := by
  induction ranges with
  | nil => rfl
  | cons range ranges ih =>
    have hcons : cfg.cover (range :: ranges) c = cfg.cover [range] c + cfg.cover ranges c :=
      cover_append [range] ranges c
    rw [hcons, ← ih]
    by_cases hlt : range.1 < range.2
    · simp only [filter_cons, hlt]
      exact Lib.cover_append [cfg.chunks range] _ c
    · rw [filter_cons_of_neg (by simpa using hlt), cover_empty (Nat.le_of_not_lt hlt), zero_add]

/-- A release of the tokens before `stop` and of the pending ranges. -/
lemma cover_freeLookupLocks {stop : Nat} : Lib.cover (freeLookupLocks cfg stop ranges r) c
      = cfg.cover [(r.lockFloor, stop)] c + cfg.cover ranges c := by
  rw [freeLookupLocks, Lib.cover_append, cover_filter]
  split
  · rfl
  · rw [cover_empty (by omega), Lib.cover_nil]

/-- The range between vLLM's hit and the end of the hit is left to the
retrieve. -/
lemma cover_retrieve {t : Tracker} (hlt : t.numVllmHitTokens < t.numLmcacheHitTokens) (c : Nat) :
    cfg.cover (getRetrieveMetadata cfg
      { t with pendingFreeRanges := [], state := .waitingForLoad }).toList c
      = cfg.cover [(t.numVllmHitTokens, t.numLmcacheHitTokens)] c := by
  have hstart := Nat.lt_of_le_of_lt (alignChunk_le cfg _) hlt
  simp [getRetrieveMetadata, Tracker.needsRetrieve, hlt, hstart, ConnectorConfig.cover,
    ConnectorConfig.chunks, alignChunk_div]

/-- Allocation gives back the pending ranges and the open range. -/
lemma Books.allocated (h : Books cfg r doubled) (hanswered : Answered r lookup ret)
    (numExternalTokens c : Nat) : Lib.cover (updateStateAfterAlloc cfg numExternalTokens r).2 c
      + cfg.cover (getRetrieveMetadata cfg
      (updateStateAfterAlloc cfg numExternalTokens r).1.tracker).toList c
      = cfg.cover r.tracker.pendingFreeRanges c + cfg.cover [openRange r] c := by
  obtain ⟨hapc, hfloor⟩ := h.start lookup hanswered.lookup_eq
  have hfloor' : r.lockFloor = r.tracker.apcCoveredTokens := hfloor.symm.trans hapc
  have hvllm := hanswered.start_le
  have hopen : openRange r = (r.tracker.apcCoveredTokens, r.tracker.numLmcacheHitTokens) := by
    rcases h.open_cases hanswered.lookup_eq hanswered.result_eq with
      ⟨hstored, hhit, hopen⟩ | ⟨-, -, hhit, hopen⟩
    · have hzero : ret = 0 := by
        by_contra hne
        exact hne ((hanswered.taken hne).symm.trans hstored)
      rw [hopen, hhit, hzero]
    · rw [hopen, hhit]
  have hfreed : ∀ stop, Lib.cover (if stop = 0 ∧ r.tracker.pendingFreeRanges = [] then []
      else freeLookupLocks cfg stop r.tracker.pendingFreeRanges r) c
        = cfg.cover [(r.tracker.apcCoveredTokens, stop)] c
          + cfg.cover r.tracker.pendingFreeRanges c := by
    intro stop
    split_ifs with hnone
    · rw [hnone.1, hnone.2, cover_empty (Nat.zero_le _)]
      rfl
    · rw [cover_freeLookupLocks, hfloor']
  simp only [updateStateAfterAlloc, h.state, hopen, hfreed]
  by_cases hhit : r.tracker.numLmcacheHitTokens = 0
  · simp [hhit, getRetrieveMetadata, add_comm]
  · by_cases hcond : (decide (0 < numExternalTokens) && r.tracker.needsRetrieve)
    · have hlt : r.tracker.numVllmHitTokens < r.tracker.numLmcacheHitTokens := by
        simp only [Bool.and_eq_true, Tracker.needsRetrieve, decide_eq_true_eq] at hcond
        exact hcond.2.1.1
      have hsplit := cover_split cfg (show r.tracker.apcCoveredTokens ≤ _ from hapc ▸ hvllm)
        (le_of_lt hlt) c
      rw [if_neg hhit, if_pos hcond, if_pos hcond, cover_retrieve hlt]
      omega
    · rw [if_neg hhit, if_neg hcond, if_neg hcond]
      simp [getRetrieveMetadata, add_comm]

/-! ## Runs -/

/-- No range was put on the list twice iff no chunk of such a range is
counted. -/
lemma Whole.cover_eq_zero_iff (h : Whole cfg doubled) :
    (∀ c, cfg.cover doubled c = 0) ↔ doubled = [] := by
  constructor
  · intro hzero
    cases doubled with
    | nil => rfl
    | cons range doubled =>
      have hone := exists_cover (h range (by simp))
      have hsum : cfg.cover (range :: doubled) (range.1 / cfg.tokensPerChunk)
          = cfg.cover [range] _ + cfg.cover doubled _ := cover_append [range] doubled _
      rw [hzero, hone] at hsum
      omega
  · intro hnil c
    rw [hnil]
    rfl

lemma Books.run_polled (h : Books cfg r doubled)
    (hanswer : r.answer ≠ none → ∃ lookup ret, Answered r lookup ret) {polls : List Poll}
    (hadm : Along (getNumNewMatchedTokens cfg) (Admissible cfg) r polls) :
    ∃ more, Books cfg (run (getNumNewMatchedTokens cfg) r polls) (doubled ++ more) ∧
      Whole cfg more ∧ (more = [] ↔ Along (getNumNewMatchedTokens cfg) (GivesBackOnce cfg) r polls) ∧
      ((run (getNumNewMatchedTokens cfg) r polls).answer ≠ none →
      ∃ lookup ret, Answered (run (getNumNewMatchedTokens cfg) r polls) lookup ret) := by
  induction polls generalizing r doubled with
  | nil => exact ⟨[], by simpa using h, by simp [Whole], by simp [Along], hanswer⟩
  | cons poll polls ih =>
    obtain ⟨more, hbooks, hwhole, hmore, hanswer'⟩ := h.polled hadm.1
    obtain ⟨rest, hrun, hwhole', hrest, hend⟩ := ih hbooks hanswer' hadm.2
    refine ⟨more ++ rest, by simpa using hrun, ?_, ?_, hend⟩
    · intro range hrange
      exact (mem_append.mp hrange).elim (hwhole range) (hwhole' range)
    · rw [append_eq_nil_iff, hmore, hrest]
      rfl

/-- Every chunk the lookups of a request locked is freed at allocation or left
to the retrieve exactly once, iff no poll finds a hit of the whole prompt a
second time under prefix replay. -/
theorem balanced_iff_givesBackOnce (cfg : ConnectorConfig) (numTokens : Nat) (eagerPrefetch : Bool)
    (polls : List Poll) (numExternalTokens : Nat)
    (hadm : Along (getNumNewMatchedTokens cfg) (Admissible cfg)
      (onNewRequest cfg eagerPrefetch (Request.new numTokens)) polls)
    (hanswer : (run (getNumNewMatchedTokens cfg)
      (onNewRequest cfg eagerPrefetch (Request.new numTokens)) polls).answer ≠ none) :
    Balanced cfg numExternalTokens (run (getNumNewMatchedTokens cfg)
      (onNewRequest cfg eagerPrefetch (Request.new numTokens)) polls) ↔
      Along (getNumNewMatchedTokens cfg) (GivesBackOnce cfg)
      (onNewRequest cfg eagerPrefetch (Request.new numTokens)) polls := by
  have hfresh : (onNewRequest cfg eagerPrefetch (Request.new numTokens)).answer = none := by
    cases eagerPrefetch <;> rfl
  obtain ⟨doubled, hbooks, hwhole, honce, hend⟩ :=
    (books_new numTokens eagerPrefetch).run_polled (fun h => absurd hfresh h) hadm
  obtain ⟨lookup, ret, hanswered⟩ := hend hanswer
  rw [← honce, ← hwhole.cover_eq_zero_iff]
  refine forall_congr' fun c => ?_
  have hbalance := hbooks.balance c
  rw [hbooks.allocated hanswered]
  simp only [nil_append] at hbalance
  omega

/-- Chunks of four tokens, with replay of a token. -/
def replaying : ConnectorConfig where
  tokensPerChunk := 4
  hitAlignmentTokens := 2
  prefixReplayTokens := 1
  reserveLastToken := false
  chunk_pos := by decide
  alignment_pos := Nat.two_pos
  alignment_dvd := by decide

/-- A poll of a request that was not scheduled yet. -/
def poll (numComputedTokens : Nat) (reply : Option Nat) : Poll := ⟨numComputedTokens, 0, reply⟩

/-- A lookup past the first chunk is abandoned when vLLM loses that chunk; the
full lookup hits the whole prompt and its last chunk is given back. -/
theorem balanced_shrunk : Balanced replaying 4 (run (getNumNewMatchedTokens replaying)
      (onNewRequest replaying false (Request.new 8)) [poll 5 none, poll 1 (some 8), poll 1 (some 8)]) :=
  (balanced_iff_givesBackOnce replaying 8 false _ 4 (by decide) (by decide)).mpr
    (by simp only [Along, GivesBackOnce]; decide)

/-- Polled twice, the whole hit gives back its last chunk twice. -/
theorem polledTwice_releases_twice : Along (getNumNewMatchedTokens replaying) (Admissible replaying)
      (onNewRequest replaying false (Request.new 8)) [poll 0 (some 8), poll 0 (some 8)] ∧
      (run (getNumNewMatchedTokens replaying) (onNewRequest replaying false (Request.new 8))
      [poll 0 (some 8), poll 0 (some 8)]).answer = some 4 ∧
      ¬ Balanced replaying 4 (run (getNumNewMatchedTokens replaying)
      (onNewRequest replaying false (Request.new 8)) [poll 0 (some 8), poll 0 (some 8)]) := by
  refine ⟨by decide, by decide, fun h => ?_⟩
  have hlast := h 1
  revert hlast
  decide

end LMCache.Vllm
