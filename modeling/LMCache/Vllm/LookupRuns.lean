/-
LMCache.Vllm.LookupRuns — what a lookup sends, and what it resolves to.

While there is no result, every server is described by `ServerInv`: the RPC it
has in flight, if any, is the one its record names, its LOOKUP was answered
before its first status query, and its record tells whether it may be asked
again before the next check. One RPC at a time, one status query per check and
the shape of the result (`Orderly`) follow, and stay when the result is final,
since nothing is sent any more.

The bound on the queries rests on the flag `schedulerChecked`. It is set only
when a check begins, and cleared by every query, so a server that may be asked
again at once has not been asked since the check began.
-/
import LMCache.Vllm.LookupState

namespace LMCache.Vllm

open Lib List

def Call.isRelease : Call → Bool
  | .freeLookupLocks _ _ => true
  | _ => false

variable {n : Nat} {cfg : LookupConfig} {server : LookupServer} {st : LookupState n}

namespace LookupState

/-! ## What is claimed of every state -/

/-- The RPC was sent to the server and has no reply. -/
def InFlight (st : LookupState n) (url : Fin n) (future : Nat) : Prop :=
  ∃ call, st.rpcs[future]? = some ⟨url, call⟩ ∧ st.replies future = none

/-- The server's LOOKUP was answered, and sent before the RPC `future`. -/
def LookedUp (st : LookupState n) (url : Fin n) (future : Nat) : Prop :=
  ∃ lookup < future, st.rpcs[lookup]? = some ⟨url, .lookup⟩ ∧ st.replies lookup ≠ none

/-- The status queries sent since the last scheduler check began. -/
def queriesSinceCheck (st : LookupState n) (url : Fin n) : Nat :=
  (st.rpcs.drop st.checkedAt).count ⟨url, .queryPrefetchStatus⟩

/-- The releases sent to the server. -/
def releasesTo (st : LookupState n) (url : Fin n) : List (Rpc n) :=
  st.rpcs.filter fun rpc => decide (rpc.server = url) && rpc.call.isRelease

/-- One RPC in flight per server, a status query only after the LOOKUP was
answered, one query per check, and hits as they were reported. -/
structure Tidy (st : LookupState n) : Prop where
  oneInFlight : ∀ url f g, st.InFlight url f → st.InFlight url g → f = g
  lookedUp : ∀ url f, st.rpcs[f]? = some ⟨url, .queryPrefetchStatus⟩ → st.LookedUp url f
  checkedAt : st.checkedAt ≤ st.rpcs.length
  oncePerCheck : ∀ url, st.queriesSinceCheck url ≤ 1
  reported : ∀ url, (st.servers url).phase = .resolved →
    ∃ f, st.rpcs[f]? = some ⟨url, .queryPrefetchStatus⟩ ∧
      st.replies f = some (.answered (some (st.servers url).hitChunks))

/-- Tidy, and the result is the smallest hit of all servers, with one release
to each server above it, or 0 and no release. -/
structure Orderly (cfg : LookupConfig) (st : LookupState n) : Prop extends Tidy st where
  pending : (∃ url, (st.servers url).phase ≠ .resolved) →
    (∀ url, st.releasesTo url = []) ∧ (st.result = none ∨ st.result = some 0)
  resolved : ∀ _ : Fin n, (∀ url, (st.servers url).phase = .resolved) →
    ∃ minChunks, (∃ url, (st.servers url).hitChunks = minChunks) ∧
      (∀ url, minChunks ≤ (st.servers url).hitChunks) ∧
      st.result = some (minChunks * cfg.tokensPerChunk) ∧
      ∀ url, st.releasesTo url =
        if minChunks < (st.servers url).hitChunks then [tailRelease cfg minChunks st url] else []

/-! ## The invariant of an open lookup -/

/-- What the record of a server says while there is no result. -/
structure ServerInv (st : LookupState n) (url : Fin n) (server : LookupServer) : Prop where
  outstanding : ∀ f, st.InFlight url f → server.future = some f
  lookup : server.phase = .lookupInFlight → st.queriesSinceCheck url = 0 ∧
    ∃ f, server.future = some f ∧ st.rpcs[f]? = some ⟨url, .lookup⟩
  query : server.phase = .queryPrefetchStatusInFlight →
    ∃ f, server.future = some f ∧ st.rpcs[f]? = some ⟨url, .queryPrefetchStatus⟩
  idle : server.phase = .needsRequery ∨ server.phase = .resolved → server.future = none
  notTimedOut : server.phase ≠ .timedOut
  lookedUp : server.phase ≠ .lookupInFlight → st.LookedUp url st.rpcs.length
  checked : server.phase = .queryPrefetchStatusInFlight → server.schedulerChecked →
    st.queriesSinceCheck url = 0

structure Open (st : LookupState n) : Prop where
  server : ∀ url, st.ServerInv url (st.servers url)
  unresolved : ∀ _ : Fin n, ∃ url, (st.servers url).phase ≠ .resolved

variable (cfg st) in
def Inv : Prop :=
  st.Orderly cfg ∧ (st.result = none → st.Open)

/-! ## Sending -/

/-- The RPCs `sent` went out, and nothing else of the network changed. -/
structure Sent (sent : List (Rpc n)) (st st' : LookupState n) : Prop where
  rpcs : st'.rpcs = st.rpcs ++ sent
  replies : st'.replies = st.replies
  checkedAt : st'.checkedAt = st.checkedAt

namespace Sent

variable {sent : List (Rpc n)} {st st' : LookupState n} (h : Sent sent st st')
include h

lemma getElem? {f : Nat} {rpc : Rpc n} (hrpc : st.rpcs[f]? = some rpc) :
    st'.rpcs[f]? = some rpc := by
  rw [h.rpcs, List.getElem?_append_left (List.getElem?_eq_some_iff.mp hrpc).1, hrpc]

lemma cases {f : Nat} {rpc : Rpc n} (hrpc : st'.rpcs[f]? = some rpc) :
    st.rpcs[f]? = some rpc ∨ st.rpcs.length ≤ f ∧ sent[f - st.rpcs.length]? = some rpc := by
  rw [h.rpcs, getElem?_append] at hrpc
  split at hrpc
  · exact .inl hrpc
  · exact .inr ⟨by omega, hrpc⟩

lemma lookedUp {url : Fin n} {f : Nat} (hlooked : st.LookedUp url f) : st'.LookedUp url f := by
  obtain ⟨lookup, hlt, hrpc, hreply⟩ := hlooked
  exact ⟨lookup, hlt, h.getElem? hrpc, by rwa [h.replies]⟩

lemma lookedUp_length {url : Fin n} (hlooked : st.LookedUp url st.rpcs.length) :
    st'.LookedUp url st'.rpcs.length := by
  obtain ⟨lookup, hlt, hrest⟩ := h.lookedUp hlooked
  exact ⟨lookup, by rw [h.rpcs, length_append]; omega, hrest⟩

lemma queriesSinceCheck (hle : st.checkedAt ≤ st.rpcs.length) (url : Fin n) :
    st'.queriesSinceCheck url
      = st.queriesSinceCheck url + sent.count ⟨url, .queryPrefetchStatus⟩ := by
  simp only [LookupState.queriesSinceCheck, h.rpcs, h.checkedAt,
    drop_append_of_le_length hle, count_append]

lemma releasesTo (url : Fin n) : st'.releasesTo url = st.releasesTo url
      ++ sent.filter fun rpc => decide (rpc.server = url) && rpc.call.isRelease := by
  simp only [LookupState.releasesTo, h.rpcs, filter_append]

lemma inFlight {url : Fin n} (hother : ∀ rpc ∈ sent, rpc.server ≠ url) {f : Nat}
    (hflight : st'.InFlight url f) : st.InFlight url f := by
  obtain ⟨call, hrpc, hreply⟩ := hflight
  rw [h.replies] at hreply
  rcases h.cases hrpc with hold | ⟨-, hnew⟩
  · exact ⟨call, hold, hreply⟩
  · exact absurd rfl (hother _ (mem_of_getElem? hnew))

lemma serverInv {url : Fin n} (hle : st.checkedAt ≤ st.rpcs.length)
    (hother : ∀ rpc ∈ sent, rpc.server ≠ url) (hinv : st.ServerInv url server) :
    st'.ServerInv url server := by
  have hcount : st'.queriesSinceCheck url = st.queriesSinceCheck url := by
    rw [h.queriesSinceCheck hle, count_eq_zero.mpr fun hmem => hother _ hmem rfl, Nat.add_zero]
  constructor
  · intro f hflight
    exact hinv.outstanding f (h.inFlight hother hflight)
  · intro hphase
    obtain ⟨hzero, f, hfuture, hrpc⟩ := hinv.lookup hphase
    exact ⟨hcount.trans hzero, f, hfuture, h.getElem? hrpc⟩
  · intro hphase
    obtain ⟨f, hfuture, hrpc⟩ := hinv.query hphase
    exact ⟨f, hfuture, h.getElem? hrpc⟩
  · exact hinv.idle
  · exact hinv.notTimedOut
  · intro hphase
    exact h.lookedUp_length (hinv.lookedUp hphase)
  · intro hphase hchecked
    exact hcount.trans (hinv.checked hphase hchecked)

/-- A query may go to a server whose LOOKUP was answered and that was not
asked since the check began. -/
lemma tidy (htidy : st.Tidy) (hone : ∀ url f g, st'.InFlight url f → st'.InFlight url g → f = g)
    (hquery : ∀ url, ⟨url, .queryPrefetchStatus⟩ ∈ sent → st.LookedUp url st.rpcs.length ∧
      st.queriesSinceCheck url + sent.count ⟨url, .queryPrefetchStatus⟩ ≤ 1)
    (hreported : ∀ url, (st'.servers url).phase = .resolved →
      ∃ f, st.rpcs[f]? = some ⟨url, .queryPrefetchStatus⟩ ∧
      st.replies f = some (.answered (some (st'.servers url).hitChunks))) : st'.Tidy := by
  constructor
  · exact hone
  · intro url f hrpc
    rcases h.cases hrpc with hold | ⟨hle, hnew⟩
    · exact h.lookedUp (htidy.lookedUp url f hold)
    · obtain ⟨lookup, hlt, hrest⟩ := h.lookedUp (hquery url (mem_of_getElem? hnew)).1
      exact ⟨lookup, by omega, hrest⟩
  · rw [h.checkedAt, h.rpcs, length_append]
    exact Nat.le_add_right_of_le htidy.checkedAt
  · intro url
    rw [h.queriesSinceCheck htidy.checkedAt]
    by_cases hmem : ⟨url, .queryPrefetchStatus⟩ ∈ sent
    · exact (hquery url hmem).2
    · rw [count_eq_zero.mpr hmem]
      exact htidy.oncePerCheck url
  · intro url hphase
    obtain ⟨f, hrpc, hreply⟩ := hreported url hphase
    exact ⟨f, h.getElem? hrpc, by rw [h.replies, hreply]⟩

end Sent

section Send

variable {url other : Fin n} {now : Nat}

lemma sendQueryPrefetchStatus_phase :
    ((sendQueryPrefetchStatus cfg now url st).servers url).phase = .queryPrefetchStatusInFlight := by
  simp [sendQueryPrefetchStatus]

lemma sendQueryPrefetchStatus_ne (h : other ≠ url) :
    (sendQueryPrefetchStatus cfg now url st).servers other = st.servers other := by
  simp [sendQueryPrefetchStatus, Function.update_of_ne h]

/-- A state that is tidy and not resolved keeps the lookup open. -/
lemma inv_of_unresolved {st' : LookupState n} (hord : st.Orderly cfg) (hopen : st.Open)
    (hnone : st'.result = none) (hreleases : ∀ url, st'.releasesTo url = st.releasesTo url)
    (htidy : st'.Tidy) (hserver : ∀ url, st'.ServerInv url (st'.servers url))
    (hphase : ∀ _ : Fin n, ∃ url, (st'.servers url).phase ≠ .resolved) : st'.Inv cfg := by
  refine ⟨{ htidy with pending := ?_, resolved := ?_ }, fun _ => ⟨hserver, hphase⟩⟩
  · rintro ⟨url, -⟩
    refine ⟨fun other => ?_, .inl hnone⟩
    rw [hreleases]
    exact (hord.pending (hopen.unresolved url)).1 other
  · intro url hall
    obtain ⟨other, hother⟩ := hphase url
    exact absurd (hall other) hother

/-- A result was reached by all servers reporting. -/
def Settled (st : LookupState n) : Prop :=
  st.result ≠ none → ∀ url, (st.servers url).phase = .resolved ∧ (st.servers url).future = none

variable (cfg st) in
/-- What every locked operation keeps. -/
def Kept : Prop :=
  st.Inv cfg ∧ st.Settled

/-- A query goes to a server with a LOOKUP answered, nothing in flight and no
query since the last check began. -/
lemma inv_send (hord : st.Orderly cfg) (hnone : st.result = none) (hopen : st.Open)
    (hidle : ∀ f, ¬ st.InFlight url f) (hlooked : st.LookedUp url st.rpcs.length)
    (hzero : st.queriesSinceCheck url = 0) : (sendQueryPrefetchStatus cfg now url st).Kept cfg := by
  have hsent : Sent [⟨url, .queryPrefetchStatus⟩] st (sendQueryPrefetchStatus cfg now url st) :=
    ⟨rfl, rfl, rfl⟩
  have hserver : ∀ other, (sendQueryPrefetchStatus cfg now url st).ServerInv other
      ((sendQueryPrefetchStatus cfg now url st).servers other) := by
    intro other
    by_cases hother : other = url
    · subst hother
      constructor
      · rintro f ⟨call, hrpc, hreply⟩
        rcases hsent.cases hrpc with hold | ⟨hle, hnew⟩
        · exact absurd ⟨call, hold, hreply⟩ (hidle f)
        · have hlt := (List.getElem?_eq_some_iff.mp hnew).1
          simp only [length_singleton] at hlt
          simpa [sendQueryPrefetchStatus] using (by omega : st.rpcs.length = f)
      · simp [sendQueryPrefetchStatus]
      · intro _
        exact ⟨st.rpcs.length, by simp [sendQueryPrefetchStatus], by simp [sendQueryPrefetchStatus]⟩
      · simp [sendQueryPrefetchStatus]
      · simp [sendQueryPrefetchStatus]
      · intro _
        exact hsent.lookedUp_length hlooked
      · simp [sendQueryPrefetchStatus]
    · rw [sendQueryPrefetchStatus_ne hother]
      exact hsent.serverInv hord.checkedAt (by simpa using fun h => hother h.symm)
        (hopen.server other)
  refine ⟨inv_of_unresolved hord hopen hnone (fun other => ?_) (hsent.tidy hord.toTidy ?_ ?_ ?_)
    hserver fun _ => ⟨url, by simp [sendQueryPrefetchStatus_phase]⟩, fun h => absurd hnone h⟩
  · rw [hsent.releasesTo]
    simp [Call.isRelease]
  · intro other f g hf hg
    have hf' := (hserver other).outstanding f hf
    have hg' := (hserver other).outstanding g hg
    exact Option.mem_unique hf' hg'
  · intro other hmem
    obtain rfl : other = url := by simpa using hmem
    exact ⟨hlooked, by simp [hzero]⟩
  · intro other hphase
    have hother : other ≠ url := by
      rintro rfl
      simp [sendQueryPrefetchStatus_phase] at hphase
    rw [sendQueryPrefetchStatus_ne hother] at hphase ⊢
    exact hord.reported other hphase

/-- The RPC the record names was answered, so nothing is in flight. -/
lemma idle_of_reply (hinv : st.ServerInv url (st.servers url)) {f : Nat}
    (hfuture : (st.servers url).future = some f) (hreply : st.replies f ≠ none) (g : Nat) :
    ¬ st.InFlight url g := by
  intro hflight
  obtain rfl := Option.mem_unique hfuture (hinv.outstanding g hflight)
  obtain ⟨-, -, hnone⟩ := hflight
  exact hreply hnone

lemma idle_of_future (hinv : st.ServerInv url (st.servers url))
    (hfuture : (st.servers url).future = none) (g : Nat) : ¬ st.InFlight url g := by
  intro hflight
  rw [hinv.outstanding g hflight] at hfuture
  cases hfuture

end Send

/-! ## Replies -/

section Handle

variable {url other : Fin n} {now : Nat} {f : Nat}

lemma inv_handleLookupReply (hinv : st.Inv cfg) (hnone : st.result = none)
    (hphase : (st.servers url).phase = .lookupInFlight) (hfuture : (st.servers url).future = some f)
    (hreply : st.replies f ≠ none) : (handleLookupReply cfg now url st).Kept cfg := by
  have hopen := hinv.2 hnone
  obtain ⟨hzero, f', hfuture', hrpc⟩ := (hopen.server url).lookup hphase
  obtain rfl := Option.mem_unique hfuture hfuture'
  have hidle := idle_of_reply (hopen.server url) hfuture hreply
  have hlooked : st.LookedUp url st.rpcs.length :=
    ⟨f, (List.getElem?_eq_some_iff.mp hrpc).1, hrpc, hreply⟩
  exact inv_send hinv.1 hnone hopen hidle hlooked hzero

lemma sent_setServer : Sent [] st (st.setServer url server) :=
  ⟨(append_nil _).symm, rfl, rfl⟩

lemma setServer_self : (st.setServer url server).servers url = server :=
  Function.update_self ..

lemma setServer_ne (h : other ≠ url) : (st.setServer url server).servers other = st.servers other :=
  Function.update_of_ne h ..

lemma serverInv_setServer (htidy : st.Tidy) (hopen : st.Open) (hserver : st.ServerInv url server)
    (other : Fin n) :
    (st.setServer url server).ServerInv other ((st.setServer url server).servers other) := by
  have hsent : Sent [] st (st.setServer url server) := sent_setServer
  by_cases hother : other = url
  · subst hother
    rw [setServer_self]
    exact hsent.serverInv htidy.checkedAt (by simp) hserver
  · rw [setServer_ne hother]
    exact hsent.serverInv htidy.checkedAt (by simp) (hopen.server other)

lemma tidy_setServer (htidy : st.Tidy) (hreported : server.phase = .resolved →
      ∃ f, st.rpcs[f]? = some ⟨url, .queryPrefetchStatus⟩ ∧
      st.replies f = some (.answered (some server.hitChunks))) :
    (st.setServer url server).Tidy := by
  refine sent_setServer.tidy htidy htidy.oneInFlight (by simp) fun other hresolved => ?_
  by_cases hother : other = url
  · subst hother
    rw [setServer_self] at hresolved ⊢
    exact hreported hresolved
  · rw [setServer_ne hother] at hresolved ⊢
    exact htidy.reported other hresolved

/-! ### The minimum -/

/-- The tails released to the servers above the minimum. -/
def tails (cfg : LookupConfig) (minChunks : Nat) (st : LookupState n) : List (Rpc n) :=
  ((finRange n).filter fun url => decide (minChunks < (st.servers url).hitChunks)).map
    (tailRelease cfg minChunks st)

/-- Once all servers have reported, the lookup resolves to the smallest hit. -/
lemma resolve_spec (cfg : LookupConfig) (st : LookupState n) (url : Fin n)
    (hall : ∀ url, (st.servers url).phase = .resolved) :
    ∃ minChunks, (∃ url, (st.servers url).hitChunks = minChunks) ∧
      (∀ url, minChunks ≤ (st.servers url).hitChunks) ∧ maybeResolveLookupResult cfg st
      = { st with
      rpcs := st.rpcs ++ tails cfg minChunks st
      result := some (minChunks * cfg.tokensPerChunk) } := by
  have hmem : ∀ url, (st.servers url).hitChunks
      ∈ (finRange n).map fun url => (st.servers url).hitChunks :=
    fun url => mem_map_of_mem (mem_finRange url)
  cases hmin : ((finRange n).map fun url => (st.servers url).hitChunks).min? with
  | none =>
    rw [min?_eq_none_iff] at hmin
    have := hmem url
    rw [hmin] at this
    cases this
  | some minChunks =>
    obtain ⟨hin, hle⟩ := min?_eq_some_iff.mp hmin
    obtain ⟨smallest, -, hsmallest⟩ := mem_map.mp hin
    refine ⟨minChunks, ⟨smallest, hsmallest⟩, fun url => hle _ (hmem url), ?_⟩
    simp only [maybeResolveLookupResult, hall, ne_eq, not_true_eq_false, exists_false, if_false,
      hmin, Option.getD_some]
    split
    · rfl
    · -- no server is above the minimum, so there is no tail
      rename_i hmax
      rw [not_not] at hmax
      have hnone : tails cfg minChunks st = [] := by
        rw [tails, filter_eq_nil_iff.mpr, map_nil]
        intro url _
        have hmaxle := le_max?_getD_of_mem (k := 0) (hmem url)
        simpa [← hmax] using hmaxle
      rw [hnone]

/-- A tail goes to each server above the minimum, once. -/
lemma filter_tails (minChunks : Nat) (st : LookupState n) (url : Fin n) :
    (tails cfg minChunks st).filter (fun rpc => decide (rpc.server = url) && rpc.call.isRelease)
      = if minChunks < (st.servers url).hitChunks then [tailRelease cfg minChunks st url] else [] := by
  have hpred : ((fun rpc : Rpc n => decide (rpc.server = url) && rpc.call.isRelease)
      ∘ tailRelease cfg minChunks st) = fun other => decide (other = url) := by
    funext other
    exact Bool.and_true _
  rw [tails, filter_map, hpred, filter_eq, ((nodup_finRange n).filter _).count]
  by_cases h : minChunks < (st.servers url).hitChunks <;> simp [h]

variable {minChunks : Nat}

lemma tails_inj {url : Fin n} {i j : Nat} {call call' : Call}
    (hi : (tails cfg minChunks st)[i]? = some ⟨url, call⟩)
    (hj : (tails cfg minChunks st)[j]? = some ⟨url, call'⟩) : i = j := by
  simp only [tails, getElem?_map, Option.map_eq_some_iff] at hi hj
  obtain ⟨_, hi, rfl, -⟩ := hi
  obtain ⟨_, hj, rfl, -⟩ := hj
  have hnodup := (nodup_finRange n).filter
    fun url => decide (minChunks < (st.servers url).hitChunks)
  exact (List.getElem?_inj (List.getElem?_eq_some_iff.mp hi).1 hnodup).mp (hi.trans hj.symm)

lemma not_query_tails {url : Fin n} : ⟨url, .queryPrefetchStatus⟩ ∉ tails cfg minChunks st := by
  simp [tails, tailRelease]

/-- The last server reported: its record and the others resolve the lookup. -/
lemma orderly_resolved {st' : LookupState n} (htidy : st.Tidy)
    (hnone : ∀ url, st.releasesTo url = []) (hidle : ∀ url f, ¬ st.InFlight url f)
    (hsent : Sent (tails cfg minChunks st) st st') (hservers : st'.servers = st.servers)
    (hresult : st'.result = some (minChunks * cfg.tokensPerChunk))
    (hall : ∀ url, (st.servers url).phase = .resolved)
    (hleast : (∃ url, (st.servers url).hitChunks = minChunks) ∧
      ∀ url, minChunks ≤ (st.servers url).hitChunks) : st'.Orderly cfg := by
  refine ⟨hsent.tidy htidy ?_ (fun url hmem => absurd hmem not_query_tails) ?_, ?_, ?_⟩
  · rintro url f g ⟨call, hf, hreply⟩ ⟨call', hg, hreply'⟩
    rw [hsent.replies] at hreply hreply'
    rcases hsent.cases hf with hold | ⟨hle, hf⟩
    · exact absurd ⟨call, hold, hreply⟩ (hidle url f)
    · rcases hsent.cases hg with hold | ⟨hle', hg⟩
      · exact absurd ⟨call', hold, hreply'⟩ (hidle url g)
      · have := tails_inj hf hg
        omega
  · rw [hservers]
    exact htidy.reported
  · rintro ⟨url, hurl⟩
    rw [hservers] at hurl
    exact absurd (hall url) hurl
  · intro _ _
    refine ⟨minChunks, by rw [hservers]; exact hleast.1, by rw [hservers]; exact hleast.2, hresult, ?_⟩
    intro url
    rw [hsent.releasesTo, hnone, nil_append, filter_tails]
    simp only [tailRelease, hservers]

lemma inv_maybeResolve (hord : st.Orderly cfg) (hnone : st.result = none) (hopen : st.Open)
    (hserver : st.ServerInv url server)
    (hreported : ∃ f, st.rpcs[f]? = some ⟨url, .queryPrefetchStatus⟩ ∧
      st.replies f = some (.answered (some server.hitChunks))) :
    (maybeResolveLookupResult cfg (st.setServer url server)).Kept cfg := by
  have htidy : (st.setServer url server).Tidy := tidy_setServer hord.toTidy fun _ => hreported
  have hservers := serverInv_setServer hord.toTidy hopen hserver
  by_cases hphase : ∃ other, ((st.setServer url server).servers other).phase ≠ .resolved
  · rw [maybeResolveLookupResult, if_pos hphase]
    exact ⟨inv_of_unresolved hord hopen hnone (fun _ => rfl) htidy hservers fun _ => hphase,
      fun h => absurd hnone h⟩
  · have hall : ∀ other, ((st.setServer url server).servers other).phase = .resolved := by
      simpa using hphase
    obtain ⟨minChunks, hmin, hle, heq⟩ := resolve_spec cfg (st.setServer url server) url hall
    have hfuture := fun other => (hservers other).idle (.inr (hall other))
    have hidle := fun other => idle_of_future (hservers other) (hfuture other)
    have hreleases := (hord.pending (hopen.unresolved url)).1
    rw [heq]
    refine ⟨⟨orderly_resolved htidy hreleases hidle ⟨rfl, rfl, rfl⟩ rfl rfl hall ⟨hmin, hle⟩, ?_⟩,
      fun _ other => ⟨hall other, hfuture other⟩⟩
    intro hresult
    cases hresult

/-- The record of a server with nothing in flight. -/
lemma serverInv_idle (hidle : ∀ f, ¬ st.InFlight url f) (hlooked : st.LookedUp url st.rpcs.length)
    (hfuture : server.future = none)
    (hphase : server.phase = .needsRequery ∨ server.phase = .resolved) :
    st.ServerInv url server := by
  constructor
  · exact fun f hflight => absurd hflight (hidle f)
  · rcases hphase with h | h <;> simp [h]
  · rcases hphase with h | h <;> simp [h]
  · exact fun _ => hfuture
  · rcases hphase with h | h <;> simp [h]
  · exact fun _ => hlooked
  · rcases hphase with h | h <;> simp [h]

/-- A status query that brought no hit. -/
def askAgain (cfg : LookupConfig) (now : Nat) (url : Fin n) (st : LookupState n) : LookupState n :=
  if (st.servers url).schedulerChecked then sendQueryPrefetchStatus cfg now url st
  else st.setServer url { st.servers url with phase := .needsRequery, future := none }

lemma inv_handleQueryPrefetchStatusReply (hinv : st.Inv cfg) (hnone : st.result = none)
    (hphase : (st.servers url).phase = .queryPrefetchStatusInFlight)
    (hfuture : (st.servers url).future = some f) {reply : Reply} (hreply : st.replies f = some reply) :
    (handleQueryPrefetchStatusReply cfg now url reply st).Kept cfg := by
  have hopen := hinv.2 hnone
  obtain ⟨f', hfuture', hrpc⟩ := (hopen.server url).query hphase
  obtain rfl := Option.mem_unique hfuture hfuture'
  have hidle := idle_of_reply (hopen.server url) hfuture (by simp [hreply])
  have hlooked := (hopen.server url).lookedUp (by simp [hphase])
  have hagain : (askAgain cfg now url st).Kept cfg := by
    unfold askAgain
    split_ifs with hchecked
    · have hzero := (hopen.server url).checked hphase hchecked
      exact inv_send hinv.1 hnone hopen hidle hlooked hzero
    · refine ⟨inv_of_unresolved hinv.1 hopen hnone (fun _ => rfl) (tidy_setServer hinv.1.toTidy (by simp))
        (serverInv_setServer hinv.1.toTidy hopen (serverInv_idle hidle hlooked rfl (.inl rfl)))
        fun _ => ⟨url, by simp [setServer_self]⟩, fun h => absurd hnone h⟩
  cases reply with
  | failed => exact hagain
  | answered hit =>
    cases hit with
    | none => exact hagain
    | some hit =>
      exact inv_maybeResolve hinv.1 hnone hopen (serverInv_idle hidle hlooked rfl (.inr rfl))
        ⟨f, hrpc, hreply⟩

end Handle

/-! ## Locked sections -/

section Sections

variable {url other : Fin n} {clock : Fin n → Nat}

/-- An RPC in flight that is no LOOKUP is a status query. -/
lemma ServerInv.query_of_future (h : st.ServerInv url server) {f : Nat}
    (hfuture : server.future = some f) (hphase : server.phase ≠ .lookupInFlight) :
    server.phase = .queryPrefetchStatusInFlight := by
  have hidle := h.idle
  have htimed := h.notTimedOut
  cases hcase : server.phase <;> simp_all

lemma servers_maybeResolve : (maybeResolveLookupResult cfg st).servers = st.servers := by
  unfold maybeResolveLookupResult
  split <;> rfl

lemma inv_handleCompletedRpc (hkept : st.Kept cfg) :
    (handleCompletedRpc cfg clock st url).Kept cfg := by
  have hinv := hkept.1
  unfold handleCompletedRpc
  split
  · exact hkept
  · rename_i hsome
    have hnone : st.result = none := by simpa using hsome
    cases hbind : (st.servers url).future.bind st.replies with
    | none => exact hkept
    | some reply =>
      obtain ⟨f, hfuture, hreply⟩ := Option.bind_eq_some_iff.mp hbind
      have hopen := hinv.2 hnone
      dsimp only
      split
      · rename_i hphase
        exact inv_handleLookupReply hinv hnone hphase hfuture (by simp [hreply])
      · rename_i hphase
        have hquery := (hopen.server url).query_of_future hfuture hphase
        exact inv_handleQueryPrefetchStatusReply hinv hnone hquery hfuture hreply

/-- A locked operation on one server leaves the others alone. -/
structure Frame (url : Fin n) (st st' : LookupState n) : Prop where
  servers : ∀ other ≠ url, st'.servers other = st.servers other
  queries : ∀ other ≠ url, st'.queriesSinceCheck other = st.queriesSinceCheck other

lemma frame_refl : Frame url st st := ⟨fun _ _ => rfl, fun _ _ => rfl⟩

section

variable (hle : st.checkedAt ≤ st.rpcs.length)
include hle

lemma frame_send {now : Nat} : Frame url st (sendQueryPrefetchStatus cfg now url st) := by
  have hsent : Sent [⟨url, .queryPrefetchStatus⟩] st (sendQueryPrefetchStatus cfg now url st) :=
    ⟨rfl, rfl, rfl⟩
  refine ⟨fun other h => sendQueryPrefetchStatus_ne h, fun other h => ?_⟩
  rw [hsent.queriesSinceCheck hle, count_eq_zero.mpr (by simpa using h), Nat.add_zero]

lemma frame_maybeResolve :
    Frame url st (maybeResolveLookupResult cfg (st.setServer url server)) := by
  by_cases hphase : ∃ other, ((st.setServer url server).servers other).phase ≠ .resolved
  · rw [maybeResolveLookupResult, if_pos hphase]
    exact ⟨fun other h => setServer_ne h, fun other h => rfl⟩
  · obtain ⟨minChunks, -, -, heq⟩ := resolve_spec cfg (st.setServer url server) url
      (by simpa using hphase)
    have hsent : Sent (tails cfg minChunks (st.setServer url server)) (st.setServer url server)
        (maybeResolveLookupResult cfg (st.setServer url server)) := by
      rw [heq]
      exact ⟨rfl, rfl, rfl⟩
    refine ⟨fun other h => ?_, fun other h => ?_⟩
    · rw [servers_maybeResolve, setServer_ne h]
    · rw [hsent.queriesSinceCheck hle, count_eq_zero.mpr not_query_tails]
      rfl

lemma frame_handleCompletedRpc : Frame url st (handleCompletedRpc cfg clock st url) := by
  have hagain : ∀ now, Frame url st (askAgain cfg now url st) := by
    intro now
    unfold askAgain
    split
    · exact frame_send hle
    · exact ⟨fun other h => setServer_ne h, fun other h => rfl⟩
  unfold handleCompletedRpc
  split
  · exact frame_refl
  · split
    · exact frame_refl
    · rename_i reply _
      split
      · exact frame_send hle
      · match reply with
        | .failed => exact hagain _
        | .answered none => exact hagain _
        | .answered (some hit) => exact frame_maybeResolve hle

end

/-- A turn defers a query only if no check has seen it. -/
lemma handleCompletedRpc_needsRequery (hinv : st.Inv cfg)
    (hchecked : (st.servers url).phase = .queryPrefetchStatusInFlight →
      (st.servers url).schedulerChecked)
    (hphase : ((handleCompletedRpc cfg clock st url).servers url).phase = .needsRequery) :
    handleCompletedRpc cfg clock st url = st := by
  revert hphase
  unfold handleCompletedRpc
  split
  · exact fun _ => rfl
  · rename_i hsome
    have hopen := hinv.2 (by simpa using hsome)
    cases hbind : (st.servers url).future.bind st.replies with
    | none => exact fun _ => rfl
    | some reply =>
      obtain ⟨f, hfuture, hreply⟩ := Option.bind_eq_some_iff.mp hbind
      dsimp only
      split
      · simp [handleLookupReply, sendQueryPrefetchStatus_phase]
      · rename_i hlookup
        have hquery := (hopen.server url).query_of_future hfuture hlookup
        match reply with
        | .failed =>
          simp [handleQueryPrefetchStatusReply, hchecked hquery, sendQueryPrefetchStatus_phase]
        | .answered none =>
          simp [handleQueryPrefetchStatusReply, hchecked hquery, sendQueryPrefetchStatus_phase]
        | .answered (some hit) =>
          simp [handleQueryPrefetchStatusReply, servers_maybeResolve, setServer_self]

lemma queriesSinceCheck_markChecked : st.markChecked.queriesSinceCheck url = 0 := by
  simp [queriesSinceCheck, markChecked]

lemma phase_markChecked : (st.markChecked.servers url).phase = (st.servers url).phase := by
  simp only [markChecked]
  split <;> rfl

lemma inv_markChecked (hinv : st.Inv cfg) (hnone : st.result = none) (hopen : st.Open) :
    st.markChecked.Inv cfg := by
  have hrecord : ∀ url, (st.markChecked.servers url).future = (st.servers url).future ∧
      (st.markChecked.servers url).hitChunks = (st.servers url).hitChunks := by
    intro url
    simp only [markChecked]
    split <;> exact ⟨rfl, rfl⟩
  have hserver : ∀ url, st.markChecked.ServerInv url (st.markChecked.servers url) := by
    intro url
    have hold := hopen.server url
    constructor
    · rw [(hrecord url).1]
      exact hold.outstanding
    · rw [phase_markChecked, (hrecord url).1]
      exact fun hphase => ⟨queriesSinceCheck_markChecked, (hold.lookup hphase).2⟩
    · rw [phase_markChecked, (hrecord url).1]
      exact hold.query
    · rw [phase_markChecked, (hrecord url).1]
      exact hold.idle
    · rw [phase_markChecked]
      exact hold.notTimedOut
    · rw [phase_markChecked]
      exact hold.lookedUp
    · exact fun _ _ => queriesSinceCheck_markChecked
  have htidy : st.markChecked.Tidy := by
    constructor
    · exact hinv.1.oneInFlight
    · exact hinv.1.lookedUp
    · exact le_rfl
    · intro url
      rw [queriesSinceCheck_markChecked]
      exact Nat.zero_le _
    · intro url
      rw [phase_markChecked, (hrecord url).2]
      exact hinv.1.reported url
  refine inv_of_unresolved hinv.1 hopen hnone (fun _ => rfl) htidy hserver fun url => ?_
  simpa only [phase_markChecked] using hopen.unresolved url

lemma inv_handleCompletedRpcs (clock : Fin n → Nat) (hkept : st.Kept cfg) :
    (handleCompletedRpcs cfg clock st).Kept cfg :=
  foldl_remaining (fun _ => Kept cfg) (fun _ _ _ _ h => inv_handleCompletedRpc h) (nodup_finRange n) hkept

/-- After the loop of a check that began just now, a deferred query was not
asked since. -/
lemma needsRequery_handleCompletedRpcs (clock : Fin n → Nat) (hkept : st.Kept cfg)
    (hfresh : ∀ url, st.queriesSinceCheck url = 0)
    (hmarked : ∀ url, (st.servers url).phase = .queryPrefetchStatusInFlight →
      (st.servers url).schedulerChecked) (url : Fin n)
    (hphase : ((handleCompletedRpcs cfg clock st).servers url).phase = .needsRequery) :
    (handleCompletedRpcs cfg clock st).queriesSinceCheck url = 0 := by
  have hloop := foldl_remaining (f := handleCompletedRpc cfg clock) (fun rest st => st.Kept cfg ∧
      (∀ url, (st.servers url).phase = .needsRequery → st.queriesSinceCheck url = 0) ∧
      ∀ url ∈ rest, (st.servers url).phase = .queryPrefetchStatusInFlight →
        (st.servers url).schedulerChecked)
    ?_ (nodup_finRange n) ⟨hkept, fun url _ => hfresh url, fun url _ => hmarked url⟩
  · exact hloop.2.1 url hphase
  · intro st url rest hnodup ⟨hinv, hfresh, hmarked⟩
    have hframe : Frame url st (handleCompletedRpc cfg clock st url) :=
      frame_handleCompletedRpc hinv.1.1.checkedAt
    refine ⟨inv_handleCompletedRpc hinv, fun other hphase => ?_, fun other hmem => ?_⟩
    · by_cases hother : other = url
      · subst hother
        have hsame := handleCompletedRpc_needsRequery hinv.1 (hmarked other mem_cons_self) hphase
        rw [hsame] at hphase ⊢
        exact hfresh other hphase
      · rw [hframe.servers other hother] at hphase
        rw [hframe.queries other hother]
        exact hfresh other hphase
    · have hother : other ≠ url := by
        rintro rfl
        exact (nodup_cons.mp hnodup).1 hmem
      rw [hframe.servers other hother]
      exact hmarked other (mem_cons_of_mem _ hmem)

lemma inv_requery (hkept : st.Kept cfg)
    (hfresh : (st.servers url).phase = .needsRequery → st.queriesSinceCheck url = 0) :
    (requery cfg clock st url).Kept cfg := by
  unfold requery
  split
  · rename_i hphase
    have hnone : st.result = none := by
      by_contra hsome
      rw [(hkept.2 hsome url).1] at hphase
      cases hphase
    have hopen := hkept.1.2 hnone
    have hidle := idle_of_future (hopen.server url) ((hopen.server url).idle (.inl hphase))
    have hlooked := (hopen.server url).lookedUp (by simp [hphase])
    exact inv_send hkept.1.1 hnone hopen hidle hlooked (hfresh hphase)
  · exact hkept

section

variable (hinv : st.Inv cfg)
include hinv

lemma inv_beginCheck : (beginCheck cfg clock st).Inv cfg := by
  unfold beginCheck
  split_ifs with hsome
  · exact hinv
  · have hnone : st.result = none := by simpa using hsome
    have hmark : st.markChecked.Kept cfg :=
      ⟨inv_markChecked hinv hnone (hinv.2 hnone), fun h => absurd hnone h⟩
    have hcompleted := inv_handleCompletedRpcs clock hmark
    have hmarked : ∀ url, (st.markChecked.servers url).phase = .queryPrefetchStatusInFlight →
        (st.markChecked.servers url).schedulerChecked := by
      intro url hphase
      rw [phase_markChecked] at hphase
      simp [markChecked, hphase]
    have hfresh := needsRequery_handleCompletedRpcs clock hmark
      (fun _ => queriesSinceCheck_markChecked) hmarked
    have hloop := foldl_remaining (f := requery cfg clock) (fun rest st => st.Kept cfg ∧
        ∀ url ∈ rest, (st.servers url).phase = .needsRequery → st.queriesSinceCheck url = 0)
      ?_ (nodup_finRange n) ⟨hcompleted, fun url _ => hfresh url⟩
    · exact hloop.1.1
    · intro st url rest hnodup ⟨hinv, hfresh⟩
      have hframe : Frame url st (requery cfg clock st url) := by
        unfold requery
        split
        · exact frame_send hinv.1.1.checkedAt
        · exact frame_refl
      refine ⟨inv_requery hinv (hfresh url mem_cons_self), fun other hmem => ?_⟩
      have hother : other ≠ url := by
        rintro rfl
        exact (nodup_cons.mp hnodup).1 hmem
      rw [hframe.servers other hother, hframe.queries other hother]
      exact hfresh other (mem_cons_of_mem _ hmem)

omit hinv in
/-- The expired servers have an RPC in flight, so the result is still open. -/
lemma inv_expire {now : Nat} (hkept : st.Kept cfg) : (expire now st).Inv cfg := by
  obtain ⟨hinv, hsettled⟩ := hkept
  by_cases hnil : getExpiredServers now st = []
  · have hsame : expire now st = st := by simp [expire, hnil]
    rw [hsame]
    exact hinv
  · obtain ⟨url, hurl⟩ := exists_mem_of_ne_nil _ hnil
    have hfuture : (st.servers url).future ≠ none := by
      intro h
      simp [getExpiredServers, h] at hurl
    have hnone : st.result = none := by
      by_contra hsome
      exact hfuture (hsettled hsome url).2
    have hopen := hinv.2 hnone
    have hphase : (st.servers url).phase ≠ .resolved :=
      fun h => hfuture ((hopen.server url).idle (.inr h))
    have htimed : ((expire now st).servers url).phase = .timedOut := by simp [expire, hurl]
    refine ⟨{ oneInFlight := hinv.1.oneInFlight
              lookedUp := hinv.1.lookedUp
              checkedAt := hinv.1.checkedAt
              oncePerCheck := hinv.1.oncePerCheck
              reported := ?_
              pending := ?_
              resolved := ?_ }, ?_⟩
    · intro other hresolved
      by_cases hmem : other ∈ getExpiredServers now st
      · simp [expire, hmem] at hresolved
      · simp only [expire, hmem] at hresolved ⊢
        exact hinv.1.reported other hresolved
    · intro _
      exact ⟨(hinv.1.pending ⟨url, hphase⟩).1, .inr (by simp [expire, hnil])⟩
    · intro _ hall
      rw [hall url] at htimed
      cases htimed
    · intro h
      simp [expire, hnil] at h

lemma inv_endCheck {now : Nat} : (endCheck cfg clock now st).Inv cfg := by
  unfold endCheck
  split_ifs with hsome
  · exact hinv
  · have hnone : st.result = none := by simpa using hsome
    exact inv_expire (inv_handleCompletedRpcs clock ⟨hinv, fun h => absurd hnone h⟩)

lemma inv_close : st.close.Inv cfg := by
  cases hresult : st.result with
  | some result =>
    have hsame : st.close = st := by
      cases st
      simp_all [close]
    rw [hsame]
    exact hinv
  | none =>
    have hopen := hinv.2 hresult
    refine ⟨{ hinv.1 with pending := ?_, resolved := ?_ }, fun h => by cases h⟩
    · rintro ⟨url, -⟩
      exact ⟨(hinv.1.pending (hopen.unresolved url)).1, .inr (by simp [close, hresult])⟩
    · intro url hall
      obtain ⟨other, hother⟩ := hopen.unresolved url
      exact absurd (hall other) hother

lemma inv_deliver {future : Nat} {reply : Reply} (hfree : st.replies future = none) :
    (st.deliver future reply).Inv cfg := by
  have hflight : ∀ url f, (st.deliver future reply).InFlight url f → st.InFlight url f := by
    rintro url f ⟨call, hrpc, hreply⟩
    by_cases hf : f = future
    · simp [deliver, hf] at hreply
    · exact ⟨call, hrpc, by simpa [deliver, Function.update_of_ne hf] using hreply⟩
  have hkept : ∀ {f : Nat}, st.replies f ≠ none →
      (st.deliver future reply).replies f = st.replies f := by
    intro f hf
    have hne : f ≠ future := by
      rintro rfl
      exact hf hfree
    exact Function.update_of_ne hne ..
  have hlooked : ∀ url f, st.LookedUp url f → (st.deliver future reply).LookedUp url f := by
    rintro url f ⟨lookup, hlt, hrpc, hreply⟩
    exact ⟨lookup, hlt, hrpc, by rwa [hkept hreply]⟩
  refine ⟨{ oneInFlight := fun url f g hf hg =>
              hinv.1.oneInFlight url f g (hflight url f hf) (hflight url g hg)
            lookedUp := fun url f hrpc => hlooked url f (hinv.1.lookedUp url f hrpc)
            checkedAt := hinv.1.checkedAt
            oncePerCheck := hinv.1.oncePerCheck
            reported := ?_
            pending := hinv.1.pending
            resolved := hinv.1.resolved }, fun hnone => ⟨fun url => ?_, (hinv.2 hnone).unresolved⟩⟩
  · intro url hphase
    obtain ⟨f, hrpc, hreply⟩ := hinv.1.reported url hphase
    exact ⟨f, hrpc, (hkept (by simp [hreply])).trans hreply⟩
  · have hserver := (hinv.2 hnone).server url
    exact { hserver with
      outstanding := fun f hf => hserver.outstanding f (hflight url f hf)
      lookedUp := fun hphase => hlooked url _ (hserver.lookedUp hphase) }

omit hinv in
lemma inv_submit (now : Nat) : (submit cfg now : LookupState n).Inv cfg := by
  have hrpcs : ∀ (f : Nat) (rpc : Rpc n), (submit cfg now).rpcs[f]? = some rpc →
      f = rpc.server ∧ rpc.call = .lookup := by
    intro f rpc hrpc
    simp only [submit, getElem?_map, Option.map_eq_some_iff] at hrpc
    obtain ⟨url, hurl, rfl⟩ := hrpc
    obtain ⟨hlt, hget⟩ := List.getElem?_eq_some_iff.mp hurl
    exact ⟨by simp [← hget], rfl⟩
  have hzero : ∀ url : Fin n, (submit cfg now).queriesSinceCheck url = 0 := by
    simp [queriesSinceCheck, submit, count_eq_zero]
  refine ⟨⟨⟨?_, ?_, ?_, ?_, ?_⟩, ?_, ?_⟩, fun _ => ⟨fun url => ?_, fun url => ⟨url, by simp [submit]⟩⟩⟩
  · rintro url f g ⟨_, hf, -⟩ ⟨_, hg, -⟩
    rw [(hrpcs f _ hf).1, (hrpcs g _ hg).1]
  · intro url f hrpc
    exact absurd (hrpcs f _ hrpc).2 (by simp)
  · exact Nat.zero_le _
  · intro url
    rw [hzero]
    exact Nat.zero_le _
  · simp [submit]
  · intro _
    exact ⟨fun url => by simp [releasesTo, submit, Call.isRelease], .inl rfl⟩
  · intro url hall
    have := hall url
    simp [submit] at this
  · constructor
    · rintro f ⟨_, hf, -⟩
      simp [submit, (hrpcs f _ hf).1]
    · intro _
      exact ⟨hzero url, url, rfl, by simp [submit]⟩
    · simp [submit]
    · simp [submit]
    · simp [submit]
    · simp [submit]
    · simp [submit]

lemma inv_step (event : Event n) : (step cfg st event).Inv cfg := by
  cases event with
  | reply future reply =>
    simp only [step]
    split_ifs with h
    · exact inv_deliver hinv h.2
    · exact hinv
  | lookupFinished now url future =>
    simp only [step]
    cases hreply : st.replies future with
    | none => exact hinv
    | some reply =>
      simp only [onLookupFinished]
      split_ifs with h
      · exact hinv
      · simp only [not_or, not_not, Bool.not_eq_true, Option.isSome_eq_false_iff,
          Option.isNone_iff_eq_none] at h
        exact (inv_handleLookupReply hinv h.1 h.2.1 h.2.2 (by simp [hreply])).1
  | queryFinished now url future =>
    simp only [step]
    cases hreply : st.replies future with
    | none => exact hinv
    | some reply =>
      simp only [onQueryPrefetchStatusFinished]
      split_ifs with h
      · exact hinv
      · simp only [not_or, not_not, Bool.not_eq_true, Option.isSome_eq_false_iff,
          Option.isNone_iff_eq_none] at h
        exact (inv_handleQueryPrefetchStatusReply hinv h.1 h.2.1 h.2.2 hreply).1
  | beginCheck clock => exact inv_beginCheck hinv
  | endCheck clock now => exact inv_endCheck hinv
  | close => exact inv_close hinv

end

/-- Once there is a result, nothing is sent and the result stays. -/
lemma final_step (hsome : st.result ≠ none) (event : Event n) :
    (step cfg st event).rpcs = st.rpcs ∧ (step cfg st event).result = st.result := by
  obtain ⟨result, hresult⟩ := Option.ne_none_iff_exists'.mp hsome
  cases event with
  | reply future reply =>
    simp only [step]
    split <;> exact ⟨rfl, rfl⟩
  | lookupFinished now url future =>
    simp only [step]
    split <;> simp [onLookupFinished, hresult]
  | queryFinished now url future =>
    simp only [step]
    split <;> simp [onQueryPrefetchStatusFinished, hresult]
  | beginCheck clock => simp [step, beginCheck, hresult]
  | endCheck clock now => simp [step, endCheck, hresult]
  | close => simp [step, close, hresult]

end Sections

lemma orderly_run (cfg : LookupConfig) (now : Nat) (events : List (Event n)) :
    (run (step cfg) (submit cfg now) events).Orderly cfg :=
  (run_always (Inv cfg) (fun _ event hinv => inv_step hinv event) (inv_submit now) events).1

/-- In every run each server has one RPC in flight at most, is asked for its
status only after its LOOKUP was answered and once per scheduler check, and the
result is the smallest hit with one tail release to each server above it;
once there is a result nothing is sent and it never changes. -/
theorem lookup_orderly (cfg : LookupConfig) (now : Nat) (events : List (Event n)) :
    (run (step cfg) (submit cfg now) events).Orderly cfg ∧
      ((run (step cfg) (submit cfg now) events).result ≠ none → ∀ event,
      (step cfg (run (step cfg) (submit cfg now) events) event).rpcs
      = (run (step cfg) (submit cfg now) events).rpcs ∧
      (step cfg (run (step cfg) (submit cfg now) events) event).result
      = (run (step cfg) (submit cfg now) events).result) :=
  ⟨orderly_run cfg now events, fun hsome event => final_step hsome event⟩

/-- Two servers, one of which is asked twice and reports a chunk more. -/
def mismatch : List (Event 2) :=
  [.reply 0 (.answered none), .lookupFinished 0 0 0, .reply 1 .failed, .lookupFinished 0 1 1,
    .reply 2 (.answered (some 2)), .queryFinished 0 0 2, .reply 3 (.answered none),
    .beginCheck (fun _ => 1), .reply 4 (.answered (some 3)), .endCheck (fun _ => 2) 2]

theorem mismatch_final : (run (step ⟨4, 10, 12⟩) (submit ⟨4, 10, 12⟩ 0) mismatch).result = some 8 ∧
      (run (step ⟨4, 10, 12⟩) (submit ⟨4, 10, 12⟩ 0) mismatch).releasesTo 1
      = [⟨1, .freeLookupLocks 8 12⟩] ∧
      ∀ event, (step ⟨4, 10, 12⟩ (run (step ⟨4, 10, 12⟩) (submit ⟨4, 10, 12⟩ 0) mismatch) event).result
      = some 8 := by
  have hresult : (run (step ⟨4, 10, 12⟩) (submit ⟨4, 10, 12⟩ 0) mismatch).result = some 8 := by
    decide
  refine ⟨hresult, by decide, fun event => ?_⟩
  rw [((lookup_orderly ⟨4, 10, 12⟩ 0 mismatch).2 (by rw [hresult]; simp) event).2, hresult]

end LookupState

end LMCache.Vllm
