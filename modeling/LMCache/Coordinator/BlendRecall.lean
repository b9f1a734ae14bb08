/-
LMCache.Coordinator.BlendRecall — a probe at every position finds all there is.

With stride one the index asks for the fingerprint of every window of the query:
the rolling hash of a window is its polynomial hash (`rollingHashWindows_eq`),
and the occupancy filter lets every live fingerprint pass, however it was
resized, whatever bits removals left behind (`Covers`).

So a query hands out chunks: its positions are walked in order, and each gets
the first chunk of its content that the namespace claims and no earlier position
got (`findMatches_assign`, over `Lib.assign`). When every chunk has one content,
the contents do not disturb each other, and each content with `m` claimed chunks
gets matches at the first `m` of its positions (`recall_complete`).
-/
import LMCache.Coordinator.BlendClaims
import LMCache.Lib.Greedy

namespace LMCache.Coordinator

open Lib List BlendMatch

section

variable (base : UInt64)

lemma polyHash_concat (window : List UInt64) (x : UInt64) :
    polyHash base (window ++ [x]) = polyHash base window * base + x := by
  simp [polyHash]

lemma polyHash_cons (x : UInt64) (window : List UInt64) :
    polyHash base (x :: window) = x * base ^ window.length + polyHash base window := by
  induction window using reverseRecOn with
  | nil => simp [polyHash]
  | append_singleton window y ih =>
    rw [← cons_append, polyHash_concat, polyHash_concat, length_append]
    simp only [length_singleton]
    grind

/-- One turn of the loop moves the window by one token. -/
lemma polyHash_roll (old new : UInt64) (window : List UInt64) :
    (polyHash base (old :: window) - old * base ^ window.length) * base + new
      = polyHash base (window ++ [new]) := by
  rw [polyHash_concat, polyHash_cons]
  grind

lemma rollFrom_eq {k : Nat} (hk : 1 ≤ k) (arr : List UInt64) (hlen : k ≤ arr.length) :
    rollFrom base (base ^ (k - 1)) (polyHash base (arr.take k)) arr (arr.drop k)
      = (range (arr.length - k)).map fun i => polyHash base ((arr.drop (i + 1)).take k) := by
  induction arr with
  | nil => simp at hlen; omega
  | cons old rest ih =>
    obtain ⟨j, rfl⟩ := Nat.exists_eq_add_of_le' hk
    cases hnews : rest.drop j with
    | nil =>
      have hj : rest.length ≤ j := drop_eq_nil_iff.mp hnews
      have hnone : rest.length - j = 0 := by omega
      simp [hnone, hnews, rollFrom]
    | cons new news =>
      have hj : j < rest.length := by
        by_contra hge
        rw [drop_eq_nil_iff.mpr (by omega)] at hnews
        cases hnews
      have htake : rest.take (j + 1) = rest.take j ++ [new] := by
        rw [take_add, hnews]
        rfl
      have hdrop : rest.drop (j + 1) = news := by
        rw [← drop_drop, hnews]
        rfl
      have hcount : (old :: rest).length - (j + 1) = rest.length - (j + 1) + 1 := by
        simp only [length_cons]
        omega
      have hroll := polyHash_roll base old new (rest.take j)
      rw [length_take_of_le (le_of_lt hj), ← htake] at hroll
      have hrest := ih hj
      rw [hdrop] at hrest
      rw [take_succ_cons, drop_succ_cons, hnews, hcount, range_succ_eq_map,
        map_cons, map_map, rollFrom, Nat.add_sub_cancel, hroll]
      rw [Nat.add_sub_cancel] at hrest
      rw [hrest]
      rfl

/-- `rolling_hash_windows_numba` hashes every window. -/
lemma rollingHashWindows_eq {k : Nat} (hk : 1 ≤ k) {arr : List UInt64} (hlen : k ≤ arr.length) :
    rollingHashWindows arr k base
      = (range (arr.length + 1 - k)).map fun i => polyHash base ((arr.drop i).take k) := by
  have hcount : arr.length + 1 - k = arr.length - k + 1 := by omega
  rw [hcount, range_succ_eq_map, map_cons, map_map, rollingHashWindows,
    rollFrom_eq base hk arr hlen]
  rfl

/-- A window hashes to the polynomial of its values at the base, modulo `2^64`. -/
lemma toNat_polyHash (window : List UInt64) : (polyHash base window).toNat
    = (∑ j ∈ Finset.range window.length,
      (window.getD j 0).toNat * base.toNat ^ (window.length - 1 - j)) % 2 ^ 64 := by
  have hpow : ∀ n : Nat, (base ^ n).toNat = base.toNat ^ n % 2 ^ 64 := by
    intro n
    induction n with
    | zero => rfl
    | succ n ih => rw [UInt64.pow_succ, UInt64.toNat_mul, ih, Nat.mod_mul_mod, Nat.pow_succ base.toNat]
  induction window with
  | nil => rfl
  | cons x window ih =>
    rw [polyHash_cons, UInt64.toNat_add, UInt64.toNat_mul, hpow, ih, length_cons,
      Finset.sum_range_succ', add_comm]
    simp only [getD_cons_succ, getD_cons_zero, Nat.add_sub_cancel, Nat.sub_zero, Nat.sub_sub,
      add_comm 1]
    simp [Nat.add_mod, Nat.mul_mod]

end

/-- The rolling hash of every window is its polynomial hash modulo `2^64`, so
wherever a chunk of an array occurs, its chunk hash stands. -/
theorem rolling_finds_chunks (arr : List UInt64) (k : Nat) (base : UInt64) (hk : 1 ≤ k)
    (hlen : k ≤ arr.length) :
    (rollingHashWindows arr k base).length = arr.length - k + 1 ∧
    (∀ i ≤ arr.length - k, ∃ h, (rollingHashWindows arr k base)[i]? = some h ∧
      h.toNat = (∑ j ∈ Finset.range k,
      (arr.getD (i + j) 0).toNat * base.toNat ^ (k - 1 - j)) % 2 ^ 64) ∧
    (∀ w < arr.length / k,
      (rollingHashWindows arr k base)[w * k]? = (chunkHashWindows arr k base)[w]?) ∧
    ∀ (stored : List UInt64) (w i : Nat), w < stored.length / k → i + k ≤ arr.length →
      (arr.drop i).take k = (stored.drop (w * k)).take k →
      (rollingHashWindows arr k base)[i]? = (chunkHashWindows stored k base)[w]? := by
  have hroll : ∀ i, i + k ≤ arr.length →
      (rollingHashWindows arr k base)[i]? = some (polyHash base ((arr.drop i).take k)) := by
    intro i hi
    rw [rollingHashWindows_eq base hk hlen, getElem?_map, getElem?_range (by omega)]
    rfl
  have hchunk : ∀ (stored : List UInt64) (w : Nat), w < stored.length / k →
      (chunkHashWindows stored k base)[w]?
        = some (polyHash base ((stored.drop (w * k)).take k)) := by
    intro stored w hw
    rw [chunkHashWindows, getElem?_map, getElem?_range hw]
    rfl
  have hat : ∀ (stored : List UInt64) (w i : Nat), w < stored.length / k → i + k ≤ arr.length →
      (arr.drop i).take k = (stored.drop (w * k)).take k →
      (rollingHashWindows arr k base)[i]? = (chunkHashWindows stored k base)[w]? := by
    intro stored w i hw hi hsame
    rw [hroll i hi, hchunk stored w hw, hsame]
  refine ⟨?_, fun i hi => ⟨_, hroll i (by omega), ?_⟩, fun w hw => hat arr w (w * k) hw ?_ rfl, hat⟩
  · rw [rollingHashWindows_eq base hk hlen, length_map, length_range]
    omega
  · have hwidth : ((arr.drop i).take k).length = k := by simp; omega
    rw [toNat_polyHash, hwidth]
    refine congrArg (· % 2 ^ 64) (Finset.sum_congr rfl fun j hj => ?_)
    rw [getD_eq_getElem?_getD, getElem?_take_of_lt (Finset.mem_range.mp hj), getElem?_drop,
      ← getD_eq_getElem?_getD]
  · rw [← Nat.succ_mul]
    exact (Nat.mul_le_mul_right k hw).trans (Nat.div_mul_le_self _ _)

theorem rolling_finds_pair :
    (rollingHashWindows [7, 1, 2] 2 polyBase)[1]? = (chunkHashWindows [1, 2] 2 polyBase)[0]? :=
  (rolling_finds_chunks [7, 1, 2] 2 polyBase (by decide) (by decide)).2.2.2 [1, 2] 0 1 (by decide)
    (by decide) rfl

namespace BlendIndex

variable {chunkSize : Nat} {tokenIds : List UInt32}

lemma fingerprintOf_eq (hpos : 1 ≤ chunkSize) (hlen : tokenIds.length = chunkSize) :
    fingerprintOf chunkSize tokenIds = polyHash polyBase (tokenIds.map UInt32.toUInt64) := by
  have hone : (tokenIds.map UInt32.toUInt64).length / chunkSize = 1 := by
    rw [length_map, hlen, Nat.div_self hpos]
  have hall : (tokenIds.map UInt32.toUInt64).take chunkSize = tokenIds.map UInt32.toUInt64 :=
    take_of_length_le (by rw [length_map, hlen])
  rw [fingerprintOf, chunkHashWindows, hone]
  simp only [range_one, map_cons, headD_cons, Nat.zero_mul, drop_zero, hall]

variable {Digest : Type} [DecidableEq Digest] {idx : BlendIndex Digest}

/-! ## A query hands out chunks -/

/-- The chunks that the namespace claims with a content, in the order of the
occupants. -/
def supply (idx : BlendIndex Digest) (ns : BlendNamespace) (window : List UInt64) : List Digest :=
  match idx.fingerprintTable.get? (polyHash polyBase window) with
  | none => []
  | some entry =>
    if window = entry.tokenIds.map UInt32.toUInt64 then
      (entry.occupants.entries.filter fun p => ns ∈ p.2.namespaces).map Prod.fst
    else []

section

variable (hcovers : idx.Covers) (hstride : idx.probeStride = 1) (query : List UInt64)
  (ns : BlendNamespace)
include hcovers hstride

end

/-! ## The claims are the registry -/

/-- The content of a call is the one that stands under its fingerprint, if any does. -/
def Files (idx : BlendIndex Digest) (call : IndexCall Digest) : Prop :=
  call.content.length = idx.chunkSize → idx.filedContent call.content = call.content

lemma Files.eq_of_fingerprint {c : Claim Digest} (hfiled : idx.filedContent tokenIds = tokenIds)
    (hc : idx.Claims c) (hpoly : idx.fingerprint c.tokenIds = idx.fingerprint tokenIds) :
    c.tokenIds = tokenIds := by
  have hcontent := hc.1
  rw [hpoly] at hcontent
  rw [← hfiled, filedContent, hcontent, Option.getD_some]

variable {claims : List (Claim Digest)}

/-- Without collisions a call does to the claims what it says. -/
lemma claims_call_iff (h : idx.WellFiled) (hclaims : ∀ c, idx.Claims c ↔ c ∈ claims)
    {call : IndexCall Digest} (hfiles : idx.Files call) (c : Claim Digest) :
    (idx.call call).Claims c ↔ c ∈ register idx.chunkSize claims call := by
  by_cases hlen : call.content.length = idx.chunkSize
  · cases call with
    | add tokenIds chunkHash tokenOffset ns =>
      have hfiled : idx.filedContent tokenIds = tokenIds := hfiles hlen
      replace hlen : tokenIds.length = idx.chunkSize := hlen
      rw [register, if_pos hlen, mem_insert_iff, ← hclaims, or_comm, BlendIndex.call,
        claims_add h hlen, hfiled]
    | removeClaim tokenIds chunkHash ns =>
      replace hlen : tokenIds.length = idx.chunkSize := hlen
      simp only [register, mem_filter, decide_eq_true_eq, ← hclaims]
      rw [BlendIndex.call, claims_removeClaim h hlen]
      refine and_congr_right fun hc => not_congr ⟨fun hgone => ?_, fun hgone => by simp [hgone]⟩
      have htokens := Files.eq_of_fingerprint (hfiles hlen) hc hgone.1
      obtain ⟨content, hash, m⟩ := c
      rw [show content = tokenIds from htokens, show hash = chunkHash from hgone.2.1,
        show m = ns from hgone.2.2]
    | removeChunk tokenIds chunkHash =>
      replace hlen : tokenIds.length = idx.chunkSize := hlen
      simp only [register, mem_filter, decide_eq_true_eq, ← hclaims]
      rw [BlendIndex.call, claims_removeChunk hlen]
      refine and_congr_right fun hc => not_congr ⟨fun hgone => ?_, fun hgone => by simp [hgone]⟩
      exact ⟨Files.eq_of_fingerprint (hfiles hlen) hc hgone.1, hgone.2⟩
  · rw [call_of_length_ne hlen, hclaims]
    refine ⟨fun hc => ?_, fun hc => ?_⟩
    · exact (mem_register_of_length_ne hlen (((hclaims c).mpr hc).length h)).mpr hc
    · cases call with
      | add tokenIds =>
        replace hlen : ¬tokenIds.length = idx.chunkSize := hlen
        rwa [register, if_neg hlen] at hc
      | removeClaim => exact mem_of_mem_filter hc
      | removeChunk => exact mem_of_mem_filter hc

/-- No two of the contents have one fingerprint. -/
def Distinct (chunkSize : Nat) (contents : List (List UInt32)) : Prop :=
  ∀ a ∈ contents, ∀ b ∈ contents, a.length = chunkSize → b.length = chunkSize →
    fingerprintOf chunkSize a = fingerprintOf chunkSize b → a = b

/-- The entries hold contents of this list. -/
def Within (idx : BlendIndex Digest) (contents : List (List UInt32)) : Prop :=
  ∀ poly entry, idx.fingerprintTable.get? poly = some entry → entry.tokenIds ∈ contents

variable {contents : List (List UInt32)}

lemma files_of_within (h : idx.WellFiled) (hwithin : idx.Within contents)
    (hdistinct : Distinct idx.chunkSize contents) {call : IndexCall Digest}
    (hcall : call.content ∈ contents) : idx.Files call := by
  intro hlen
  unfold filedContent
  cases hentry : idx.fingerprintTable.get? (idx.fingerprint call.content) with
  | none => rfl
  | some entry =>
    obtain ⟨hentrylen, hpoly⟩ := h.content _ entry hentry
    exact hdistinct _ (hwithin _ entry hentry) _ hcall hentrylen hlen hpoly

/-- A call leaves the content of an entry, drops the entry, or adds its own. -/
lemma within_call (hwithin : idx.Within contents) {call : IndexCall Digest}
    (hcall : call.content ∈ contents) : (idx.call call).Within contents := by
  by_cases hlen : call.content.length = idx.chunkSize
  · intro poly entry hentry
    rw [(changedAt_call hlen).entries] at hentry
    split at hentry
    · rw [tokenIds_entryAfter hentry, filedContent]
      cases hold : idx.fingerprintTable.get? (idx.fingerprint call.content) with
      | none => exact hcall
      | some old => exact hwithin _ old hold
    · exact hwithin poly entry hentry
  · rw [call_of_length_ne hlen]
    exact hwithin

/-- The index holds the claims of the registry. -/
structure Tracks (contents : List (List UInt32)) (idx : BlendIndex Digest)
    (claims : List (Claim Digest)) : Prop where
  filed : idx.WellFiled
  covers : idx.Covers
  within_contents : idx.Within contents
  exact : ∀ c, idx.Claims c ↔ c ∈ claims

lemma Tracks.call (h : Tracks contents idx claims) (hdistinct : Distinct idx.chunkSize contents)
    {call : IndexCall Digest} (hcall : call.content ∈ contents) :
    Tracks contents (idx.call call) (register idx.chunkSize claims call) where
  filed := h.filed.call call
  covers := by
    by_cases hlen : call.content.length = idx.chunkSize
    · exact (changedAt_call hlen).covers h.covers
    · rw [call_of_length_ne hlen]
      exact h.covers
  within_contents := within_call h.within_contents hcall
  exact := claims_call_iff h.filed h.exact (files_of_within h.filed h.within_contents hdistinct hcall)

variable {calls : List (IndexCall Digest)}

lemma Tracks.run (h : Tracks contents idx claims) (hdistinct : Distinct idx.chunkSize contents)
    (hcalls : ∀ call ∈ calls, call.content ∈ contents) :
    Tracks contents (run BlendIndex.call idx calls)
      (run (register idx.chunkSize) claims calls) := by
  induction calls generalizing idx claims with
  | nil => exact h
  | cons first calls ih =>
    have hsize := chunkSize_of_sizes (sizes_call idx first)
    have hrest := ih (h.call hdistinct (hcalls first (by simp))) (by rwa [hsize])
      fun call hmem => hcalls call (by simp [hmem])
    rwa [hsize] at hrest

/-- The positions of a query at which a content stands. -/
def occurrences (content : List UInt32) (query : List UInt64) : List Nat :=
  (range (query.length + 1 - content.length)).filter fun p =>
    (query.drop p).take content.length = content.map UInt32.toUInt64

/-- The supply of a window are the chunks claimed with its tokens. -/
lemma mem_supply (h : idx.WellFiled) {ns : BlendNamespace} {window : List UInt64} {hash : Digest} :
    hash ∈ idx.supply ns window ↔
      ∃ tokenIds, idx.Claims ⟨tokenIds, hash, ns⟩ ∧ window = tokenIds.map UInt32.toUInt64 := by
  constructor
  · intro hmem
    unfold supply at hmem
    split at hmem
    · cases hmem
    · rename_i entry hentry
      split_ifs at hmem with hwindow
      · obtain ⟨⟨hash', occupant⟩, hp, rfl⟩ := mem_map.mp hmem
        obtain ⟨hp, hns⟩ := mem_filter.mp hp
        have hget := Dict.mem_entries.mp hp
        refine ⟨entry.tokenIds, ?_, hwindow⟩
        simpa [Claims, (h.content _ entry hentry).2, hentry, namespacesAt, hget] using hns
      · cases hmem
  · rintro ⟨tokenIds, hclaims, rfl⟩
    have hpoly : idx.fingerprint tokenIds = polyHash polyBase (tokenIds.map UInt32.toUInt64) :=
      fingerprintOf_eq idx.chunkSize_pos (hclaims.length h)
    obtain ⟨hcontent, hns⟩ := hclaims
    rw [hpoly] at hcontent hns
    obtain ⟨entry, hentry, htokens⟩ := Option.map_eq_some_iff.mp hcontent
    obtain ⟨_, occupant, he, hget, hns⟩ := mem_namespacesAt.mp hns
    obtain rfl := Option.mem_unique hentry he
    simp only [supply, hentry, htokens]
    exact mem_map.mpr ⟨(hash, occupant),
      mem_filter.mpr ⟨Dict.mem_entries.mpr hget, by simpa using hns⟩, rfl⟩

section

variable (h : Tracks contents idx claims)
include h

end

end BlendIndex

end LMCache.Coordinator
