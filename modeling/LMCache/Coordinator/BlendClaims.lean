/-
LMCache.Coordinator.BlendClaims — what the blend index holds after any calls.

The registry is the plain meaning of the three mutations: `add` registers that
a namespace claims a chunk with its content, `remove_claim` and `remove_chunk`
take that back (`registered`). The index files a chunk under the fingerprint of
its content, in an entry that keeps one content for all of its chunks.

For each mutation there is one equation for the claims that the index holds
(`claims_add`, `claims_removeClaim`, `claims_removeChunk`). They say where it
leaves the registry: a content whose fingerprint is taken is filed under the
content that came first, so its chunk is matched where the other content
stands (`collision_mismatched`), and a removal under a colliding content takes
the other's claim. As long as no content is added under the fingerprint of
another one, every match is of a registered claim (`matches_registered`).
-/
import LMCache.Coordinator.BlendIndexTheorems

namespace LMCache.Coordinator

open Lib Dict

variable {Digest : Type}

/-! ## Calls and the registry -/

/-- A namespace claims a chunk with this content. -/
structure Claim (Digest : Type) where
  tokenIds : List UInt32
  chunkHash : Digest
  ns : BlendNamespace
  deriving DecidableEq

/-- A mutation of the index. -/
inductive IndexCall (Digest : Type) where
  | add (tokenIds : List UInt32) (chunkHash : Digest) (tokenOffset : Int) (ns : BlendNamespace)
  | removeClaim (tokenIds : List UInt32) (chunkHash : Digest) (ns : BlendNamespace)
  | removeChunk (tokenIds : List UInt32) (chunkHash : Digest)

/-- The content that a call names. -/
def IndexCall.content : IndexCall Digest → List UInt32
  | add tokenIds .. => tokenIds
  | removeClaim tokenIds .. => tokenIds
  | removeChunk tokenIds _ => tokenIds

variable [DecidableEq Digest]

def BlendIndex.call (idx : BlendIndex Digest) : IndexCall Digest → BlendIndex Digest
  | .add tokenIds chunkHash tokenOffset ns => idx.add tokenIds chunkHash tokenOffset ns
  | .removeClaim tokenIds chunkHash ns => idx.removeClaim tokenIds chunkHash ns
  | .removeChunk tokenIds chunkHash => idx.removeChunk tokenIds chunkHash

/-- The claims after a call, by what the call says. Content of another length
is ignored. -/
def register (chunkSize : Nat) (claims : List (Claim Digest)) :
    IndexCall Digest → List (Claim Digest)
  | .add tokenIds chunkHash _ ns =>
    if tokenIds.length = chunkSize then claims.insert ⟨tokenIds, chunkHash, ns⟩ else claims
  | .removeClaim tokenIds chunkHash ns => claims.filter (· ≠ ⟨tokenIds, chunkHash, ns⟩)
  | .removeChunk tokenIds chunkHash =>
    claims.filter fun c => ¬(c.tokenIds = tokenIds ∧ c.chunkHash = chunkHash)

/-- The claims after a history of calls. -/
def registered (chunkSize : Nat) (calls : List (IndexCall Digest)) : List (Claim Digest) :=
  run (register chunkSize) [] calls

namespace BlendIndex

/-! ## The claims of the index -/

/-- The namespaces that an entry holds for a chunk. -/
def namespacesAt (entry : Option (FingerprintEntry Digest)) (chunkHash : Digest) :
    List BlendNamespace :=
  ((entry.bind (·.occupants.get? chunkHash)).map Occupant.namespaces).getD []

section

variable (idx : BlendIndex Digest)

/-- The index holds a claim: under the fingerprint of the content stands this
content, with the chunk and the namespace. -/
def Claims (c : Claim Digest) : Prop :=
  (idx.fingerprintTable.get? (idx.fingerprint c.tokenIds)).map FingerprintEntry.tokenIds
      = some c.tokenIds ∧
    c.ns ∈ namespacesAt (idx.fingerprintTable.get? (idx.fingerprint c.tokenIds)) c.chunkHash

/-- Entries stand under the fingerprint of their content, which is a whole chunk. -/
structure WellFiled : Prop where
  content : ∀ poly entry, idx.fingerprintTable.get? poly = some entry →
    entry.tokenIds.length = idx.chunkSize ∧ idx.fingerprint entry.tokenIds = poly
  nodup : ∀ poly chunkHash, (namespacesAt (idx.fingerprintTable.get? poly) chunkHash).Nodup

/-- The content that an added chunk is filed under. -/
def filedContent (tokenIds : List UInt32) : List UInt32 :=
  ((idx.fingerprintTable.get? (idx.fingerprint tokenIds)).map FingerprintEntry.tokenIds).getD tokenIds

end

variable {idx after : BlendIndex Digest} {poly : UInt64} {tokenIds : List UInt32}
  {chunkHash : Digest} {ns : BlendNamespace} {c : Claim Digest}
  {entry : Option (FingerprintEntry Digest)}

lemma mem_namespacesAt : ns ∈ namespacesAt entry chunkHash ↔ ∃ e occupant, entry = some e ∧
      e.occupants.get? chunkHash = some occupant ∧ ns ∈ occupant.namespaces := by
  cases entry with
  | none => simp [namespacesAt]
  | some e => cases h : e.occupants.get? chunkHash <;> simp [namespacesAt, h]

variable (entry) in
lemma namespacesAt_withClaim (tokenOffset : Int) (hash : Digest) :
    namespacesAt (some (withClaim tokenIds chunkHash tokenOffset ns entry)) hash
      = if hash = chunkHash then (namespacesAt entry chunkHash).insert ns
      else namespacesAt entry hash := by
  by_cases hhash : hash = chunkHash
  · subst hhash
    cases entry with
    | none => simp [namespacesAt, withClaim, claimed]
    | some e => cases h : e.occupants.get? hash <;> simp [namespacesAt, withClaim, claimed, h]
  · cases entry with
    | none => simp [namespacesAt, withClaim, get?_set_ne _ _ hhash, hhash]
    | some e => simp [namespacesAt, withClaim, get?_set_ne _ _ hhash, hhash]

lemma namespacesAt_withoutChunk (entry : FingerprintEntry Digest) (hash : Digest) :
    namespacesAt (withoutChunk chunkHash entry) hash
      = if hash = chunkHash then [] else namespacesAt (some entry) hash := by
  have herase : (entry.occupants.erase chunkHash).get? hash
      = if hash = chunkHash then none else entry.occupants.get? hash := get?_erase _ _ _
  unfold withoutChunk
  split
  · rename_i hempty
    have hnone := not_mem_iff_get?.mp (isEmpty_iff.mp hempty hash)
    rw [herase] at hnone
    split at hnone
    · rename_i hhash
      simp [namespacesAt, hhash]
    · simp [namespacesAt, hnone]
  · by_cases hhash : hash = chunkHash
    · simp [namespacesAt, hhash]
    · simp [namespacesAt, herase, hhash]

lemma namespacesAt_removeChunk (hash : Digest) : namespacesAt (entry.bind fun e =>
      if chunkHash ∈ e.occupants then withoutChunk chunkHash e else some e) hash
      = if hash = chunkHash then [] else namespacesAt entry hash := by
  cases entry with
  | none => simp [namespacesAt]
  | some e =>
    rw [Option.bind_some]
    split
    · exact namespacesAt_withoutChunk e hash
    · rename_i habsent
      by_cases hhash : hash = chunkHash
      · simp [namespacesAt, hhash, not_mem_iff_get?.mp habsent]
      · simp [hhash]

lemma namespacesAt_removeClaim (hash : Digest) :
    namespacesAt (entry.bind (withoutClaim chunkHash ns)) hash
      = if hash = chunkHash then (namespacesAt entry chunkHash).erase ns
      else namespacesAt entry hash := by
  by_cases hhash : hash = chunkHash
  · subst hhash
    rw [if_pos rfl]
    cases entry with
    | none => simp [namespacesAt]
    | some e =>
      rw [Option.bind_some, withoutClaim]
      cases hget : e.occupants.get? hash with
      | none => simp [namespacesAt, hget]
      | some occupant =>
        have hat : namespacesAt (some e) hash = occupant.namespaces := by simp [namespacesAt, hget]
        rw [hat]
        dsimp only
        split
        · rename_i hns
          rw [hat, List.erase_of_not_mem hns]
        · split
          · simp [namespacesAt]
          · rename_i hlast
            rw [namespacesAt_withoutChunk, if_pos rfl, not_not.mp hlast]
  · rw [if_neg hhash]
    cases entry with
    | none => rfl
    | some e =>
      rw [Option.bind_some, withoutClaim]
      cases e.occupants.get? chunkHash with
      | none => rfl
      | some occupant =>
        dsimp only
        split
        · rfl
        · split
          · simp [namespacesAt, get?_set_ne _ _ hhash]
          · rw [namespacesAt_withoutChunk, if_neg hhash]

variable {e : FingerprintEntry Digest}

lemma tokenIds_withoutChunk {entry : FingerprintEntry Digest}
    (h : withoutChunk chunkHash entry = some e) : e.tokenIds = entry.tokenIds := by
  unfold withoutChunk at h
  split at h
  · cases h
  · cases h
    rfl

lemma tokenIds_withoutClaim {entry : FingerprintEntry Digest}
    (h : withoutClaim chunkHash ns entry = some e) : e.tokenIds = entry.tokenIds := by
  unfold withoutClaim at h
  split at h
  · cases h
    rfl
  · split at h
    · cases h
      rfl
    · split at h
      · cases h
        rfl
      · exact tokenIds_withoutChunk h

/-- The entry that a call leaves at the fingerprint of its content. -/
def entryAfter (idx : BlendIndex Digest) : IndexCall Digest → Option (FingerprintEntry Digest)
  | .add tokenIds chunkHash tokenOffset ns =>
    some (withClaim tokenIds chunkHash tokenOffset ns
      (idx.fingerprintTable.get? (idx.fingerprint tokenIds)))
  | .removeClaim tokenIds chunkHash ns =>
    (idx.fingerprintTable.get? (idx.fingerprint tokenIds)).bind (withoutClaim chunkHash ns)
  | .removeChunk tokenIds chunkHash =>
    (idx.fingerprintTable.get? (idx.fingerprint tokenIds)).bind fun entry =>
      if chunkHash ∈ entry.occupants then withoutChunk chunkHash entry else some entry

lemma changedAt_call {call : IndexCall Digest} (hlen : call.content.length = idx.chunkSize) :
    ChangedAt idx (idx.call call) (idx.fingerprint call.content) (idx.entryAfter call) :=
  match call, hlen with
  | .add _ chunkHash tokenOffset ns, hlen => changedAt_add hlen chunkHash tokenOffset ns
  | .removeClaim _ chunkHash ns, hlen => changedAt_removeClaim hlen chunkHash ns
  | .removeChunk _ chunkHash, hlen => changedAt_removeChunk hlen chunkHash

/-- Content of another length is ignored by every call. -/
lemma call_of_length_ne {call : IndexCall Digest} (hlen : call.content.length ≠ idx.chunkSize) :
    idx.call call = idx := by
  cases call with
  | add => exact if_pos hlen
  | removeClaim => exact if_pos hlen
  | removeChunk => exact if_pos hlen

@[simp] lemma sizes_call (idx : BlendIndex Digest) (call : IndexCall Digest) :
    (idx.call call).sizes = idx.sizes := by
  by_cases hlen : call.content.length = idx.chunkSize
  · exact (changedAt_call hlen).sizes
  · rw [call_of_length_ne hlen]

/-- The entry of a fingerprint keeps its content. -/
lemma tokenIds_entryAfter {call : IndexCall Digest} (he : idx.entryAfter call = some e) :
    e.tokenIds = idx.filedContent call.content := by
  unfold filedContent
  cases call with
  | add tokenIds chunkHash tokenOffset ns =>
    obtain rfl := Option.some.inj he
    rw [IndexCall.content]
    cases idx.fingerprintTable.get? (idx.fingerprint tokenIds) with
    | none => rfl
    | some entry => rfl
  | removeClaim tokenIds chunkHash ns =>
    obtain ⟨entry, hentry, hwithout⟩ := Option.bind_eq_some_iff.mp he
    simp [IndexCall.content, hentry, tokenIds_withoutClaim hwithout]
  | removeChunk tokenIds chunkHash =>
    obtain ⟨entry, hentry, hwithout⟩ := Option.bind_eq_some_iff.mp he
    rw [IndexCall.content, hentry]
    split at hwithout
    · exact tokenIds_withoutChunk hwithout
    · obtain rfl := Option.some.inj hwithout
      rfl

section

variable (h : idx.WellFiled)
include h

lemma fingerprint_filedContent (tokenIds : List UInt32) :
    idx.fingerprint (idx.filedContent tokenIds) = idx.fingerprint tokenIds := by
  unfold filedContent
  cases hentry : idx.fingerprintTable.get? (idx.fingerprint tokenIds) with
  | none => rfl
  | some entry => exact (h.content _ entry hentry).2

/-! ## What each call does to the claims -/

omit h in
/-- A removal at one fingerprint takes the claims it names. -/
lemma claims_of_removed (Gone : Digest → BlendNamespace → Prop)
    (h : ChangedAt idx after poly entry) (hcontent : ∀ e, entry = some e →
      (idx.fingerprintTable.get? poly).map FingerprintEntry.tokenIds = some e.tokenIds)
    (hleft : ∀ hash m, m ∈ namespacesAt entry hash ↔
      m ∈ namespacesAt (idx.fingerprintTable.get? poly) hash ∧ ¬Gone hash m) : after.Claims c ↔
      idx.Claims c ∧ ¬(idx.fingerprint c.tokenIds = poly ∧ Gone c.chunkHash c.ns) := by
  unfold Claims
  rw [fingerprint_of_sizes h.sizes, h.entries]
  split_ifs with hpoly
  · rw [hleft, hpoly]
    cases entry with
    | none =>
      have hgone := fun hmem => (hleft c.chunkHash c.ns).mpr hmem
      simp only [namespacesAt, Option.bind_none, Option.map_none, Option.getD_none,
        List.not_mem_nil] at hgone
      simp only [Option.map_none, reduceCtorEq, false_and, true_and, false_iff, not_and, not_not]
      exact fun hc => by_contra fun hne => hgone ⟨hc.2, hne⟩
    | some e =>
      rw [hcontent e rfl]
      simp [and_assoc]
  · simp [hpoly]

section

variable (hlen : tokenIds.length = idx.chunkSize)
include hlen

/-- `remove_claim` takes the claim of the chunk from the entry of the fingerprint,
whatever content stands there. -/
lemma claims_removeClaim : (idx.removeClaim tokenIds chunkHash ns).Claims c ↔ idx.Claims c ∧
      ¬(idx.fingerprint c.tokenIds = idx.fingerprint tokenIds ∧ c.chunkHash = chunkHash ∧ c.ns = ns) := by
  refine claims_of_removed (fun hash m => hash = chunkHash ∧ m = ns)
    (changedAt_removeClaim hlen chunkHash ns) (fun e he => ?_) fun hash m => ?_
  · obtain ⟨entry, hentry, hwithout⟩ := Option.bind_eq_some_iff.mp he
    simp [hentry, tokenIds_withoutClaim hwithout]
  · rw [namespacesAt_removeClaim]
    by_cases hhash : hash = chunkHash
    · simp [hhash, (h.nodup (idx.fingerprint tokenIds) chunkHash).mem_erase_iff, and_comm]
    · simp [hhash]

omit h in
/-- `remove_chunk` takes every claim of the chunk there. -/
lemma claims_removeChunk : (idx.removeChunk tokenIds chunkHash).Claims c ↔ idx.Claims c ∧
      ¬(idx.fingerprint c.tokenIds = idx.fingerprint tokenIds ∧ c.chunkHash = chunkHash) := by
  refine claims_of_removed (fun hash _ => hash = chunkHash)
    (changedAt_removeChunk hlen chunkHash) (fun e he => ?_) fun hash m => ?_
  · obtain ⟨entry, hentry, hwithout⟩ := Option.bind_eq_some_iff.mp he
    split at hwithout
    · simp [hentry, tokenIds_withoutChunk hwithout]
    · rw [hentry, hwithout]
      rfl
  · rw [namespacesAt_removeChunk]
    by_cases hhash : hash = chunkHash <;> simp [hhash]

/-- `add` files the chunk under the content that stands at the fingerprint. -/
lemma claims_add (tokenOffset : Int) : (idx.add tokenIds chunkHash tokenOffset ns).Claims c ↔
      idx.Claims c ∨ c = ⟨idx.filedContent tokenIds, chunkHash, ns⟩ := by
  have hchanged := changedAt_add hlen chunkHash tokenOffset ns
  have hfiled := fingerprint_filedContent h tokenIds
  unfold Claims
  rw [fingerprint_of_sizes hchanged.sizes, hchanged.entries]
  by_cases hpoly : idx.fingerprint c.tokenIds = idx.fingerprint tokenIds
  · have hafter : idx.entryAfter (.add tokenIds chunkHash tokenOffset ns) = some _ := rfl
    have hcontent := tokenIds_entryAfter hafter
    rw [if_pos hpoly, hpoly, namespacesAt_withClaim, Option.map_some, hcontent, IndexCall.content]
    obtain ⟨content, hash, m⟩ := c
    by_cases hhash : hash = chunkHash
    · subst hhash
      cases hentry : idx.fingerprintTable.get? (idx.fingerprint tokenIds) with
      | none => simp [namespacesAt, eq_comm]
      | some entry =>
        simp only [filedContent, hentry, Option.map_some, if_true, List.mem_insert_iff,
          Option.some.injEq, Claim.mk.injEq, true_and]
        constructor
        · rintro ⟨rfl, hm | hm⟩
          · exact .inr ⟨rfl, hm⟩
          · exact .inl ⟨rfl, hm⟩
        · rintro (⟨hc, hm⟩ | ⟨hc, hm⟩)
          · exact ⟨hc, .inr hm⟩
          · exact ⟨hc.symm, .inl hm⟩
    · cases hentry : idx.fingerprintTable.get? (idx.fingerprint tokenIds) with
      | none => simp [namespacesAt, hhash]
      | some entry => simp [filedContent, hentry, hhash]
  · have hne : c ≠ ⟨idx.filedContent tokenIds, chunkHash, ns⟩ := by
      rintro rfl
      exact hpoly hfiled
    simp [hpoly, hne]

/-! ## Every state of the index is well filed -/

lemma length_filedContent : (idx.filedContent tokenIds).length = idx.chunkSize := by
  unfold filedContent
  cases hentry : idx.fingerprintTable.get? (idx.fingerprint tokenIds) with
  | none => exact hlen
  | some entry => exact (h.content _ entry hentry).1

end

lemma nodup_entryAfter (call : IndexCall Digest) (hash : Digest) :
    (namespacesAt (idx.entryAfter call) hash).Nodup := by
  have hnodup := h.nodup (idx.fingerprint call.content)
  cases call with
  | add tokenIds chunkHash tokenOffset ns =>
    rw [entryAfter, namespacesAt_withClaim]
    split
    · exact (hnodup chunkHash).insert
    · exact hnodup hash
  | removeClaim tokenIds chunkHash ns =>
    rw [entryAfter, namespacesAt_removeClaim]
    split
    · exact (hnodup chunkHash).erase ns
    · exact hnodup hash
  | removeChunk tokenIds chunkHash =>
    rw [entryAfter, namespacesAt_removeChunk]
    split
    · exact .nil
    · exact hnodup hash

lemma WellFiled.call (call : IndexCall Digest) : (idx.call call).WellFiled := by
  by_cases hlen : call.content.length = idx.chunkSize
  · have hchanged := changedAt_call hlen
    constructor
    · intro poly e he
      rw [fingerprint_of_sizes hchanged.sizes, hchanged.chunkSize]
      rw [hchanged.entries] at he
      split_ifs at he with hpoly
      · rw [tokenIds_entryAfter he, hpoly]
        exact ⟨length_filedContent h hlen, fingerprint_filedContent h _⟩
      · exact h.content poly e he
    · intro poly hash
      rw [hchanged.entries]
      split
      · exact nodup_entryAfter h call hash
      · exact h.nodup poly hash
  · rw [call_of_length_ne hlen]
    exact h

end

variable {chunkSize probeStride : Nat}

section

variable (h : new chunkSize probeStride = .ok idx)
include h

omit [DecidableEq Digest] in
lemma fingerprintTable_new (poly : UInt64) : idx.fingerprintTable.get? poly = none := by
  have hnone := (refines_new h).1.entries poly
  cases hentry : idx.fingerprintTable.get? poly with
  | none => rfl
  | some entry =>
    rw [hentry] at hnone
    exact absurd rfl hnone.1

lemma wellFiled_new : idx.WellFiled where
  content poly entry hentry := by simp [fingerprintTable_new h] at hentry
  nodup poly hash := by simp [fingerprintTable_new h, namespacesAt]

lemma not_claims_new : ¬idx.Claims c := by
  simp [Claims, fingerprintTable_new h]

end

/-! ## Matches -/

/-- A match stands where the content of a claim of the namespace does. -/
def Justified (idx : BlendIndex Digest) (query : List UInt64) (ns : BlendNamespace)
    (m : BlendMatch Digest) : Prop :=
  ∃ tokenIds, idx.Claims ⟨tokenIds, m.chunkHash, ns⟩ ∧
    (query.drop m.curSt).take idx.chunkSize = tokenIds.map UInt32.toUInt64

variable {query : List UInt64}

lemma justified_entryMatch (h : idx.WellFiled) {entry : FingerprintEntry Digest}
    (hentry : idx.fingerprintTable.get? poly = some entry) {seen : List Digest} {curSt : Nat}
    {m : BlendMatch Digest}
    (hm : entryMatch entry ((query.drop curSt).take idx.chunkSize) ns seen curSt = some m) :
    idx.Justified query ns m := by
  unfold entryMatch at hm
  split at hm
  · cases hm
  · rename_i hash occupant hfind
    split at hm
    · rename_i hwindow
      obtain rfl := Option.some.inj hm
      have hns : ns ∈ occupant.namespaces := by
        have hhit := List.find?_some hfind
        simp only [decide_eq_true_eq] at hhit
        exact hhit.2
      have hget : entry.occupants.get? hash = some occupant :=
        mem_entries.mp (List.mem_of_find?_eq_some hfind)
      refine ⟨entry.tokenIds, ?_, hwindow⟩
      simp [Claims, (h.content poly entry hentry).2, hentry, namespacesAt, hget, hns]
    · cases hm

lemma justified_matchStep (h : idx.WellFiled) {acc : List Digest × List (BlendMatch Digest)}
    {probe : UInt64 × Nat} (hacc : ∀ m ∈ acc.2, idx.Justified query ns m) :
    ∀ m ∈ (idx.matchStep query ns acc probe).2, idx.Justified query ns m := by
  unfold matchStep
  split
  · split
    · exact hacc
    · rename_i entry hentry
      dsimp only
      split
      · exact hacc
      · rename_i found hfound
        intro m hm
        rcases List.mem_append.mp hm with hm | hm
        · exact hacc m hm
        · obtain rfl := List.mem_singleton.mp hm
          exact justified_entryMatch h hentry hfound
  · exact hacc

lemma justified_of_mem_findMatches (h : idx.WellFiled) {m : BlendMatch Digest}
    (hm : m ∈ idx.findMatches query ns) : idx.Justified query ns m := by
  unfold findMatches at hm
  split at hm
  · cases hm
  · exact run_always
      (fun acc : List Digest × List (BlendMatch Digest) => ∀ m ∈ acc.2, idx.Justified query ns m)
      (fun _ _ hacc => justified_matchStep h hacc) (fun _ hmem => absurd hmem List.not_mem_nil) _ m hm

/-! ## Index and registry -/

/-- An added content is not filed under another one. -/
def KeepsContent (idx : BlendIndex Digest) : IndexCall Digest → Prop
  | .add tokenIds _ _ _ =>
    tokenIds.length = idx.chunkSize → idx.filedContent tokenIds = tokenIds
  | _ => True

lemma Claims.length (h : idx.WellFiled) (hc : idx.Claims c) : c.tokenIds.length = idx.chunkSize := by
  obtain ⟨entry, hentry, htokens⟩ := Option.map_eq_some_iff.mp hc.1
  rw [← htokens]
  exact (h.content _ entry hentry).1

variable {claims : List (Claim Digest)}

lemma mem_register_of_length_ne {call : IndexCall Digest} (hlen : call.content.length ≠ chunkSize)
    (hc : c.tokenIds.length = chunkSize) : c ∈ register chunkSize claims call ↔ c ∈ claims := by
  have hne : c.tokenIds ≠ call.content := fun h => hlen (h ▸ hc)
  cases call with
  | add => exact iff_of_eq (congrArg _ (if_neg hlen))
  | removeClaim tokenIds chunkHash ns =>
    have hother : c ≠ ⟨tokenIds, chunkHash, ns⟩ := fun h => hne (congrArg Claim.tokenIds h)
    simp [register, hother]
  | removeChunk tokenIds chunkHash =>
    have hother : c.tokenIds ≠ tokenIds := hne
    simp [register, hother]

/-- What is claimed after a call was registered. -/
lemma mem_register_of_claims (h : idx.WellFiled) (hclaims : ∀ c, idx.Claims c → c ∈ claims)
    {call : IndexCall Digest} (hkeeps : idx.KeepsContent call) (hc : (idx.call call).Claims c) :
    c ∈ register idx.chunkSize claims call := by
  by_cases hlen : call.content.length = idx.chunkSize
  · cases call with
    | add tokenIds chunkHash tokenOffset ns =>
      replace hlen : tokenIds.length = idx.chunkSize := hlen
      rw [register, if_pos hlen, List.mem_insert_iff]
      rcases (claims_add h hlen tokenOffset).mp hc with hc | rfl
      · exact .inr (hclaims c hc)
      · rw [hkeeps hlen]
        exact .inl rfl
    | removeClaim tokenIds chunkHash ns =>
      obtain ⟨hold, hne⟩ := (claims_removeClaim h hlen).mp hc
      simp only [register, List.mem_filter, decide_eq_true_eq]
      refine ⟨hclaims c hold, ?_⟩
      rintro rfl
      exact hne ⟨rfl, rfl, rfl⟩
    | removeChunk tokenIds chunkHash =>
      obtain ⟨hold, hne⟩ := (claims_removeChunk hlen).mp hc
      simp only [register, List.mem_filter, decide_eq_true_eq]
      refine ⟨hclaims c hold, ?_⟩
      rintro ⟨htokens, hhash⟩
      exact hne ⟨congrArg _ htokens, hhash⟩
  · rw [call_of_length_ne hlen] at hc
    exact (mem_register_of_length_ne hlen (hc.length h)).mpr (hclaims c hc)

/-- In a run that adds no content under another one's fingerprint, what the
index claims was registered. -/
lemma mem_registered_of_claims {calls : List (IndexCall Digest)} (claims : List (Claim Digest))
    (h : idx.WellFiled) (hclaims : ∀ c, idx.Claims c → c ∈ claims)
    (hkeeps : Along call KeepsContent idx calls) (hc : (run call idx calls).Claims c) :
    c ∈ run (register idx.chunkSize) claims calls := by
  induction calls generalizing idx claims with
  | nil => exact hclaims c hc
  | cons first calls ih =>
    have hsize := chunkSize_of_sizes (sizes_call idx first)
    have hrest := ih (register idx.chunkSize claims first) (h.call first)
      (fun c hc => mem_register_of_claims h hclaims hkeeps.1 hc) hkeeps.2 hc
    rwa [hsize] at hrest

lemma sizes_run (idx : BlendIndex Digest) (calls : List (IndexCall Digest)) :
    (run call idx calls).sizes = idx.sizes :=
  foldl_frame sizes sizes_call calls idx

lemma WellFiled.run (h : idx.WellFiled) (calls : List (IndexCall Digest)) :
    (run BlendIndex.call idx calls).WellFiled :=
  run_always WellFiled (fun _ c hs => hs.call c) h calls

/-- As long as no content is added under the fingerprint of another one, every
match in every state names a chunk that the namespace claims, with the content
of the window. -/
theorem matches_registered {chunkSize probeStride : Nat} (h : new chunkSize probeStride = .ok idx)
    {calls : List (IndexCall Digest)} (hkeeps : Along call KeepsContent idx calls) (n : Nat)
    (query : List UInt64) (ns : BlendNamespace) :
    ∀ m ∈ (run call idx (calls.take n)).findMatches query ns,
      ∃ tokenIds, ⟨tokenIds, m.chunkHash, ns⟩ ∈ registered chunkSize (calls.take n) ∧
      (query.drop m.curSt).take chunkSize = tokenIds.map UInt32.toUInt64 := by
  intro m hm
  have hsize : (run call idx (calls.take n)).chunkSize = chunkSize :=
    (chunkSize_of_sizes (sizes_run idx _)).trans (refines_new h).2.1
  obtain ⟨tokenIds, hclaims, hwindow⟩ :=
    justified_of_mem_findMatches ((wellFiled_new h).run _) hm
  rw [hsize] at hwindow
  refine ⟨tokenIds, ?_, hwindow⟩
  rw [← List.take_append_drop n calls, along_append] at hkeeps
  have hmem := mem_registered_of_claims [] (wellFiled_new h)
    (fun c hc => absurd hc (not_claims_new h)) hkeeps.1 hclaims
  rwa [(refines_new h).2.1] at hmem

/-! ### Two contents with one fingerprint -/

/-- An index for chunks of two tokens. -/
def pairs : BlendIndex Nat := (new 2 1).toOption.get (by decide)

/-- A tenant's namespace. -/
def tenant (salt : String) : BlendNamespace := ⟨"model", salt, 1⟩

/-- One chunk is claimed by two tenants, and released by the first. -/
def releasedByFirst : List (IndexCall Nat) :=
  [.add [1, 2] 7 0 (tenant "a"), .add [1, 2] 7 0 (tenant "b"), .removeClaim [1, 2] 7 (tenant "a")]

theorem released_matches :
    (run call pairs releasedByFirst).findMatches [5, 1, 2] (tenant "b") = [⟨7, 0, 1⟩] ∧
      ∃ tokenIds, ⟨tokenIds, 7, tenant "b"⟩ ∈ registered 2 releasedByFirst ∧
      (([5, 1, 2] : List UInt64).drop 1).take 2 = tokenIds.map UInt32.toUInt64 := by
  have hkeeps : Along call KeepsContent pairs releasedByFirst :=
    ⟨fun _ => rfl, fun _ => by decide +kernel, trivial, trivial⟩
  have hpairs : new 2 1 = .ok pairs := rfl
  have hfound : (run call pairs releasedByFirst).findMatches [5, 1, 2] (tenant "b")
      = [⟨7, 0, 1⟩] := by
    decide +kernel
  have hmem : ⟨7, 0, 1⟩ ∈ (run call pairs releasedByFirst).findMatches [5, 1, 2] (tenant "b") := by
    simp [hfound]
  exact ⟨hfound, matches_registered hpairs hkeeps 3 [5, 1, 2] (tenant "b") ⟨7, 0, 1⟩ hmem⟩

/-- The content of the chunk 8 has the fingerprint of the content of the chunk 7.
Its tenant gets it as a match for the other content, which nobody registered for
this chunk. -/
theorem collision_mismatched : (run call pairs [.add [2971215073, 50920843] 7 0 (tenant "a"),
      .add [0, 0] 8 0 (tenant "b")]).findMatches [2971215073, 50920843] (tenant "b") = [⟨8, 0, 0⟩] ∧
      ∀ c ∈ registered 2 [.add [2971215073, 50920843] 7 0 (tenant "a"),
      .add [0, 0] 8 0 (tenant "b")], c.chunkHash = 8 → c.tokenIds = [0, 0] := by
  decide +kernel

end BlendIndex

end LMCache.Coordinator
