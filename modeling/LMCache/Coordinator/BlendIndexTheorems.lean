/-
LMCache.Coordinator.BlendIndexTheorems — the index against the claims it holds.

What the index is for is a list of chunks with their claims, `ChunkClaims`,
in the order the chunks were indexed. `Refines` says that an index holds such a
list: the entry of a fingerprint has exactly the chunks of that content as its
occupants, in the order of the list. Each operation of the index is one change
of the list, as long as no two contents of the list share a fingerprint.

Two indexes that refine one list answer every query alike
(`Refines.findMatches_eq`). The occupancy filter plays no part in that: every
live fingerprint has its bit set, and a stale bit is a miss in the table.
-/
import LMCache.Coordinator.BlendIndex

namespace LMCache.Coordinator

open Lib List Dict

variable {Digest : Type} {idx : BlendIndex Digest} {tokenIds : List UInt32}

namespace BlendIndex

/-! ## The filter -/

/-- Every live fingerprint passes the filter. -/
def Covers (idx : BlendIndex Digest) : Prop :=
  ∀ poly ∈ idx.fingerprintTable, idx.slots (idx.slot poly)

variable (idx) in
lemma covers_rebuildTable : idx.rebuildTable.Covers := by
  intro poly hpoly
  simp only [rebuildTable, any_eq_true, decide_eq_true_eq]
  exact ⟨poly, hpoly, rfl⟩

/-- The index changed at one fingerprint, and at most there. -/
structure ChangedAt (idx after : BlendIndex Digest) (poly : UInt64)
    (entry : Option (FingerprintEntry Digest)) : Prop where
  chunkSize : after.chunkSize = idx.chunkSize
  probeStride : after.probeStride = idx.probeStride
  covers : idx.Covers → after.Covers
  entries : ∀ q, after.fingerprintTable.get? q
    = if q = poly then entry else idx.fingerprintTable.get? q

variable {poly : UInt64}

variable (idx) in
lemma ChangedAt.refl (poly : UInt64) :
    ChangedAt idx idx poly (idx.fingerprintTable.get? poly) where
  chunkSize := rfl
  probeStride := rfl
  covers := id
  entries q := by
    split_ifs with hq
    · rw [hq]
    · rfl

variable {entry : Option (FingerprintEntry Digest)}

lemma ChangedAt.trans {mid after : BlendIndex Digest} {entry' : Option (FingerprintEntry Digest)}
    (h : ChangedAt idx mid poly entry) (h' : ChangedAt mid after poly entry') :
    ChangedAt idx after poly entry' where
  chunkSize := h'.chunkSize.trans h.chunkSize
  probeStride := h'.probeStride.trans h.probeStride
  covers hc := h'.covers (h.covers hc)
  entries q := by
    rw [h'.entries, h.entries]
    split <;> rfl

variable (idx) in
lemma changedAt_insertContent (poly : UInt64) (tokenIds : List UInt32) :
    ChangedAt idx (idx.insertContent poly tokenIds) poly (some ⟨tokenIds, ∅⟩) := by
  simp only [insertContent]
  split
  · exact ⟨rfl, rfl, fun _ => covers_rebuildTable _, fun q => get?_set _ _ _ _⟩
  · refine ⟨rfl, rfl, fun hcovers q hq => ?_, fun q => get?_set _ _ _ _⟩
    rcases mem_set.mp hq with rfl | hq
    · simp [slot]
    · have := hcovers q hq
      simp_all [slot]

variable (idx) in
lemma changedAt_dropContent (poly : UInt64) : ChangedAt idx (idx.dropContent poly) poly none := by
  simp only [dropContent]
  split
  · exact ⟨rfl, rfl, fun _ => covers_rebuildTable _, fun q => get?_erase _ _ _⟩
  · exact ⟨rfl, rfl, fun hcovers q hq => hcovers q (mem_erase.mp hq).2,
      fun q => get?_erase _ _ _⟩

lemma changedAt_setEntry (hmem : poly ∈ idx.fingerprintTable) (entry : FingerprintEntry Digest) :
    ChangedAt idx (idx.setEntry poly entry) poly (some entry) where
  chunkSize := rfl
  probeStride := rfl
  covers hcovers q hq := by
    rcases mem_set.mp hq with rfl | hq
    · exact hcovers q hmem
    · exact hcovers q hq
  entries q := get?_set _ _ _ _

/-! ## Entries after an operation -/

variable [DecidableEq Digest]

/-- The entry with one more claim. -/
def withClaim (tokenIds : List UInt32) (chunkHash : Digest) (tokenOffset : Int)
    (ns : BlendNamespace) (entry : Option (FingerprintEntry Digest)) : FingerprintEntry Digest :=
  let entry := entry.getD ⟨tokenIds, ∅⟩
  { entry with
    occupants := entry.occupants.set chunkHash
      (claimed (entry.occupants.get? chunkHash) tokenOffset ns) }

/-- The entry without a chunk, and none without chunks. -/
def withoutChunk (chunkHash : Digest) (entry : FingerprintEntry Digest) :
    Option (FingerprintEntry Digest) :=
  if (entry.occupants.erase chunkHash).entries.isEmpty then none
  else some { entry with occupants := entry.occupants.erase chunkHash }

/-- The entry without a claim. -/
def withoutClaim (chunkHash : Digest) (ns : BlendNamespace) (entry : FingerprintEntry Digest) :
    Option (FingerprintEntry Digest) :=
  match entry.occupants.get? chunkHash with
  | none => some entry
  | some occupant =>
    if ns ∉ occupant.namespaces then some entry
    else if occupant.namespaces.erase ns ≠ [] then
      some { entry with
        occupants := entry.occupants.set chunkHash
          { occupant with namespaces := occupant.namespaces.erase ns } }
    else withoutChunk chunkHash entry

section

variable (h : tokenIds.length = idx.chunkSize)
include h

lemma changedAt_add (chunkHash : Digest) (tokenOffset : Int) (ns : BlendNamespace) :
    ChangedAt idx (idx.add tokenIds chunkHash tokenOffset ns) (idx.fingerprint tokenIds)
      (some (withClaim tokenIds chunkHash tokenOffset ns
      (idx.fingerprintTable.get? (idx.fingerprint tokenIds)))) := by
  simp only [add, ne_eq, h]
  by_cases hmem : idx.fingerprint tokenIds ∈ idx.fingerprintTable
  · rw [if_pos hmem]
    exact changedAt_setEntry hmem _
  · rw [if_neg hmem]
    have hinsert := changedAt_insertContent idx (idx.fingerprint tokenIds) tokenIds
    refine hinsert.trans (changedAt_setEntry ?_ _)
    rw [mem_iff_get?, hinsert.entries, if_pos rfl]
    exact ⟨_, rfl⟩

omit h in
lemma changedAt_dropOccupant {entry : FingerprintEntry Digest}
    (h : idx.fingerprintTable.get? poly = some entry) (chunkHash : Digest) :
    ChangedAt idx (idx.dropOccupant poly entry chunkHash) poly (withoutChunk chunkHash entry) := by
  simp only [dropOccupant, withoutChunk]
  split
  · exact changedAt_dropContent idx poly
  · exact changedAt_setEntry (mem_iff_get?.mpr ⟨entry, h⟩) _

lemma changedAt_removeClaim (chunkHash : Digest) (ns : BlendNamespace) :
    ChangedAt idx (idx.removeClaim tokenIds chunkHash ns) (idx.fingerprint tokenIds)
      ((idx.fingerprintTable.get? (idx.fingerprint tokenIds)).bind (withoutClaim chunkHash ns)) := by
  have hrefl := ChangedAt.refl idx (idx.fingerprint tokenIds)
  simp only [removeClaim, ne_eq, h, not_true_eq_false, if_false]
  cases hentry : idx.fingerprintTable.get? (idx.fingerprint tokenIds) with
  | none => simpa [hentry] using hrefl
  | some entry =>
    rw [hentry] at hrefl
    simp only [Option.bind_some, withoutClaim]
    cases hoccupant : entry.occupants.get? chunkHash with
    | none => exact hrefl
    | some occupant =>
      dsimp only
      split
      · exact hrefl
      · split
        · exact changedAt_setEntry (mem_iff_get?.mpr ⟨entry, hentry⟩) _
        · exact changedAt_dropOccupant hentry chunkHash

lemma changedAt_removeChunk (chunkHash : Digest) :
    ChangedAt idx (idx.removeChunk tokenIds chunkHash) (idx.fingerprint tokenIds)
      ((idx.fingerprintTable.get? (idx.fingerprint tokenIds)).bind fun entry =>
      if chunkHash ∈ entry.occupants then withoutChunk chunkHash entry else some entry) := by
  have hrefl := ChangedAt.refl idx (idx.fingerprint tokenIds)
  simp only [removeChunk, h]
  cases hentry : idx.fingerprintTable.get? (idx.fingerprint tokenIds) with
  | none => simpa [hentry] using hrefl
  | some entry =>
    rw [hentry] at hrefl
    cases hoccupant : entry.occupants.get? chunkHash with
    | none => simpa [mem_iff_get?, hoccupant] using hrefl
    | some occupant =>
      simpa [mem_iff_get?, hoccupant] using changedAt_dropOccupant hentry chunkHash

end

/-- The window and the stride, which no operation changes. -/
def sizes (idx : BlendIndex Digest) : Nat × Nat := (idx.chunkSize, idx.probeStride)

variable {idx' : BlendIndex Digest}

section

omit [DecidableEq Digest]

lemma chunkSize_of_sizes (h : idx'.sizes = idx.sizes) :
    idx'.chunkSize = idx.chunkSize := congrArg Prod.fst h

lemma fingerprint_of_sizes (h : idx'.sizes = idx.sizes) (tokenIds : List UInt32) :
    idx'.fingerprint tokenIds = idx.fingerprint tokenIds := by
  rw [fingerprint, fingerprint, chunkSize_of_sizes h]

lemma ChangedAt.sizes {after : BlendIndex Digest} (h : ChangedAt idx after poly entry) :
    after.sizes = idx.sizes :=
  Prod.ext h.chunkSize h.probeStride

end

section

variable (idx tokenIds)

@[simp] lemma sizes_add (chunkHash : Digest) (tokenOffset : Int) (ns : BlendNamespace) :
    (idx.add tokenIds chunkHash tokenOffset ns).sizes = idx.sizes := by
  by_cases h : tokenIds.length = idx.chunkSize
  · exact (changedAt_add h chunkHash tokenOffset ns).sizes
  · rw [add, if_pos h]

@[simp] lemma sizes_removeClaim (chunkHash : Digest) (ns : BlendNamespace) :
    (idx.removeClaim tokenIds chunkHash ns).sizes = idx.sizes := by
  by_cases h : tokenIds.length = idx.chunkSize
  · exact (changedAt_removeClaim h chunkHash ns).sizes
  · rw [removeClaim, if_pos h]

@[simp] lemma sizes_removeChunk (chunkHash : Digest) :
    (idx.removeChunk tokenIds chunkHash).sizes = idx.sizes := by
  by_cases h : tokenIds.length = idx.chunkSize
  · exact (changedAt_removeChunk h chunkHash).sizes
  · rw [removeChunk, if_pos h]

end

/-! ## Claims -/

end BlendIndex

/-- A chunk with the namespaces that claim it. -/
structure ChunkClaims (Digest : Type) where
  chunkHash : Digest
  tokenIds : List UInt32
  tokenOffset : Int
  namespaces : List BlendNamespace

/-- The chunks of one fingerprint; content of another length is not indexed. -/
def ChunkClaims.ofPoly (chunkSize : Nat) (poly : UInt64) (claims : List (ChunkClaims Digest)) :
    List (ChunkClaims Digest) :=
  claims.filter fun c =>
    c.tokenIds.length = chunkSize ∧ BlendIndex.fingerprintOf chunkSize c.tokenIds = poly

variable {after : List (ChunkClaims Digest)}

namespace BlendIndex

open ChunkClaims

variable {poly : UInt64}

/-- An occupant is a chunk with its claims. -/
structure Holds (p : Digest × Occupant) (c : ChunkClaims Digest) : Prop where
  hash : p.1 = c.chunkHash
  offset : p.2.tokenOffset = c.tokenOffset
  nodup : p.2.namespaces.Nodup
  claims : ∀ ns, ns ∈ p.2.namespaces ↔ ns ∈ c.namespaces

/-- The entry of a fingerprint holds these chunks, all of its content. -/
def Describes (entry : Option (FingerprintEntry Digest)) (cs : List (ChunkClaims Digest)) : Prop :=
  match entry with
  | none => cs = []
  | some entry => cs ≠ [] ∧ (∀ c ∈ cs, c.tokenIds = entry.tokenIds) ∧
      List.Forall₂ Holds entry.occupants.entries cs

/-- The index holds these chunks in this order. -/
structure Refines (idx : BlendIndex Digest) (claims : List (ChunkClaims Digest)) : Prop where
  covers : idx.Covers
  entries : ∀ poly,
    Describes (idx.fingerprintTable.get? poly) (ofPoly idx.chunkSize poly claims)

variable {claims : List (ChunkClaims Digest)} {c : ChunkClaims Digest} {chunkSize : Nat}

lemma mem_ofPoly : c ∈ ofPoly chunkSize poly claims ↔
      c ∈ claims ∧ c.tokenIds.length = chunkSize ∧ fingerprintOf chunkSize c.tokenIds = poly := by
  simp [ofPoly]

lemma ofPoly_append (cs cs' : List (ChunkClaims Digest)) :
    ofPoly chunkSize poly (cs ++ cs') = ofPoly chunkSize poly cs ++ ofPoly chunkSize poly cs' := by
  simp [ofPoly]

lemma ofPoly_cons_of (hlen : c.tokenIds.length = chunkSize)
    (hpoly : fingerprintOf chunkSize c.tokenIds = poly) (cs : List (ChunkClaims Digest)) :
    ofPoly chunkSize poly (c :: cs) = c :: ofPoly chunkSize poly cs := by
  simp [ofPoly, hlen, hpoly]

lemma ofPoly_cons_ne
    (h : ¬(c.tokenIds.length = chunkSize ∧ fingerprintOf chunkSize c.tokenIds = poly))
    (cs : List (ChunkClaims Digest)) :
    ofPoly chunkSize poly (c :: cs) = ofPoly chunkSize poly cs := by
  simp only [ofPoly]
  rw [filter_cons_of_neg (by simpa using h)]

variable {idx' : BlendIndex Digest}

/-- A change at one fingerprint is a change of its chunks. -/
lemma Refines.changed {entry : Option (FingerprintEntry Digest)} (h : Refines idx claims)
    (hchanged : ChangedAt idx idx' poly entry)
    (hother : ∀ q, q ≠ poly → ofPoly idx.chunkSize q after = ofPoly idx.chunkSize q claims)
    (hhere : Describes entry (ofPoly idx.chunkSize poly after)) : Refines idx' after where
  covers := hchanged.covers h.covers
  entries q := by
    rw [hchanged.entries, hchanged.chunkSize]
    by_cases hq : q = poly
    · rw [if_pos hq, hq]
      exact hhere
    · rw [if_neg hq, hother q hq]
      exact h.entries q

lemma Refines.of_ofPoly (h : Refines idx claims)
    (heq : ∀ q, ofPoly idx.chunkSize q after = ofPoly idx.chunkSize q claims) :
    Refines idx after where
  covers := h.covers
  entries q := heq q ▸ h.entries q

variable {post pre : List (ChunkClaims Digest)}

lemma refines_middle_iff (hlen : c.tokenIds.length ≠ idx.chunkSize) :
    Refines idx (pre ++ c :: post) ↔ Refines idx (pre ++ post) := by
  have hsame : ∀ q, ofPoly idx.chunkSize q (pre ++ c :: post) = ofPoly idx.chunkSize q (pre ++ post) := by
    intro q
    rw [ofPoly_append, ofPoly_append, ofPoly_cons_ne fun hc => hlen hc.1]
  exact ⟨fun h => h.of_ofPoly fun q => (hsame q).symm, fun h => h.of_ofPoly hsame⟩

/-- The order matters among the chunks of one fingerprint only. -/
lemma Refines.of_last (h : Refines idx (pre ++ post ++ [c]))
    (hpost : ∀ d ∈ post, d.tokenIds.length = idx.chunkSize →
      idx.fingerprint d.tokenIds ≠ idx.fingerprint c.tokenIds) :
    Refines idx (pre ++ c :: post) := by
  refine h.of_ofPoly fun q => ?_
  by_cases hc : c.tokenIds.length = idx.chunkSize ∧ fingerprintOf idx.chunkSize c.tokenIds = q
  · have hnone : ofPoly idx.chunkSize q post = [] := by
      rw [eq_nil_iff_forall_not_mem]
      intro d hd
      obtain ⟨hmem, hlen, hpoly⟩ := mem_ofPoly.mp hd
      exact hpost d hmem hlen (hpoly.trans hc.2.symm)
    rw [ofPoly_append, ofPoly_append, ofPoly_append, ofPoly_cons_of hc.1 hc.2,
      ofPoly_cons_of hc.1 hc.2, hnone]
    simp [ofPoly]
  · rw [ofPoly_append, ofPoly_append, ofPoly_cons_ne hc, ofPoly_cons_ne hc]
    simp [ofPoly]

lemma refines_new {probeStride : Nat} (h : new chunkSize probeStride = .ok idx) :
    Refines idx [] ∧ idx.chunkSize = chunkSize ∧ idx.probeStride = probeStride := by
  unfold new at h
  split at h
  · split at h
    · cases h
      exact ⟨⟨fun poly hpoly => absurd hpoly (not_mem_empty poly), fun poly => rfl⟩, rfl, rfl⟩
    · cases h
  · cases h

lemma forall₂_split {α β : Type} {R : α → β → Prop} {l : List α} {P Q : List β} {c : β}
    (h : Forall₂ R l (P ++ c :: Q)) :
    ∃ lp x lq, l = lp ++ x :: lq ∧ Forall₂ R lp P ∧ R x c ∧ Forall₂ R lq Q := by
  induction P generalizing l with
  | nil =>
    obtain ⟨x, lq, hx, hq, rfl⟩ := forall₂_cons_right_iff.mp h
    exact ⟨[], x, lq, rfl, .nil, hx, hq⟩
  | cons p P ih =>
    obtain ⟨y, l', hy, hl, rfl⟩ := forall₂_cons_right_iff.mp h
    obtain ⟨lp, x, lq, rfl, hp, hx, hq⟩ := ih hl
    exact ⟨y :: lp, x, lq, rfl, .cons hy hp, hx, hq⟩

variable {cs : List (ChunkClaims Digest)}

lemma hashes_eq {l : List (Digest × Occupant)} (h : Forall₂ Holds l cs) :
    l.map Prod.fst = cs.map ChunkClaims.chunkHash := by
  induction h with
  | nil => rfl
  | cons hx _ ih => rw [map_cons, map_cons, hx.hash, ih]

lemma Refines.entry_of (h : Refines idx (pre ++ c :: post))
    (hlen : c.tokenIds.length = idx.chunkSize) :
    ∃ entry, idx.fingerprintTable.get? (idx.fingerprint c.tokenIds) = some entry ∧
      (∀ d ∈ pre ++ c :: post, d.tokenIds.length = idx.chunkSize →
      idx.fingerprint d.tokenIds = idx.fingerprint c.tokenIds → d.tokenIds = entry.tokenIds) ∧
      ∃ lp occupant lq, entry.occupants.entries = lp ++ (c.chunkHash, occupant) :: lq ∧
      Holds (c.chunkHash, occupant) c ∧
      Forall₂ Holds lp (ofPoly idx.chunkSize (idx.fingerprint c.tokenIds) pre) ∧
      Forall₂ Holds lq (ofPoly idx.chunkSize (idx.fingerprint c.tokenIds) post) := by
  have hpoly : fingerprintOf idx.chunkSize c.tokenIds = idx.fingerprint c.tokenIds := rfl
  have hdescribes := h.entries (idx.fingerprint c.tokenIds)
  rw [ofPoly_append, ofPoly_cons_of hlen hpoly] at hdescribes
  cases hentry : idx.fingerprintTable.get? (idx.fingerprint c.tokenIds) with
  | none =>
    rw [hentry] at hdescribes
    simp [Describes] at hdescribes
  | some entry =>
    rw [hentry] at hdescribes
    obtain ⟨-, htokens, hall⟩ := hdescribes
    obtain ⟨lp, ⟨hash, occupant⟩, lq, heq, hp, hx, hq⟩ := forall₂_split hall
    obtain rfl : hash = c.chunkHash := hx.hash
    refine ⟨entry, rfl, fun d hd hdlen hdpoly => htokens d ?_, lp, occupant, lq, heq, hx, hp, hq⟩
    rw [← ofPoly_cons_of hlen hpoly, ← ofPoly_append]
    exact mem_ofPoly.mpr ⟨hd, hdlen, hdpoly⟩

variable {chunkHash : Digest} {entry : FingerprintEntry Digest}

lemma Refines.not_mem_occupants (h : Refines idx claims)
    (hnew : ∀ c ∈ claims, c.chunkHash ≠ chunkHash)
    (hentry : idx.fingerprintTable.get? poly = some entry) : chunkHash ∉ entry.occupants := by
  have hdescribes := h.entries poly
  rw [hentry] at hdescribes
  obtain ⟨-, -, hall⟩ := hdescribes
  intro hmem
  have hhash : chunkHash ∈ entry.occupants.entries.map Prod.fst := hmem
  rw [hashes_eq hall] at hhash
  obtain ⟨c, hc, rfl⟩ := mem_map.mp hhash
  exact hnew c (mem_ofPoly.mp hc).1 rfl

variable [DecidableEq Digest]

/-! ## The operations on the claims -/

variable {e : ChunkClaims Digest}

variable {ns : BlendNamespace} {nss : List BlendNamespace}

lemma describes_withoutChunk {lp lq : List (Digest × Occupant)} {occupant : Occupant}
    {P Q : List (ChunkClaims Digest)}
    (heq : entry.occupants.entries = lp ++ (chunkHash, occupant) :: lq)
    (hp : Forall₂ Holds lp P) (hq : Forall₂ Holds lq Q)
    (hcontent : ∀ c ∈ P ++ Q, c.tokenIds = entry.tokenIds) :
    Describes (withoutChunk chunkHash entry) (P ++ Q) := by
  have herase := entries_erase_of heq
  have hall : Forall₂ Holds (lp ++ lq) (P ++ Q) := rel_append hp hq
  simp only [withoutChunk, herase]
  cases hl : lp ++ lq with
  | nil =>
    rw [hl] at hall
    simpa [Describes] using forall₂_nil_left_iff.mp hall
  | cons x l =>
    rw [hl] at hall
    refine ⟨?_, hcontent, ?_⟩
    · intro hnil
      rw [hnil] at hall
      cases hall
    · simp only [herase, hl]
      exact hall

section

variable (h : Refines idx (pre ++ c :: post))
include h

section

variable (hhash : e.chunkHash = c.chunkHash) (htokens : e.tokenIds = c.tokenIds)
include hhash htokens

/-- A chunk that is held is held differently. -/
lemma Refines.replace
    (hignored : c.tokenIds.length ≠ idx.chunkSize → idx' = idx)
    (hheld : c.tokenIds.length = idx.chunkSize → ∀ entry occupant,
      idx.fingerprintTable.get? (idx.fingerprint c.tokenIds) = some entry →
      entry.occupants.get? c.chunkHash = some occupant → Holds (c.chunkHash, occupant) c →
      ∃ occupant', Holds (c.chunkHash, occupant') e ∧
      ChangedAt idx idx' (idx.fingerprint c.tokenIds)
      (some { entry with occupants := entry.occupants.set c.chunkHash occupant' })) :
    Refines idx' (pre ++ e :: post) := by
  by_cases hlen : c.tokenIds.length = idx.chunkSize
  · obtain ⟨entry, hentry, hcontent, lp, occupant, lq, heq, hholds, hp, hq⟩ := h.entry_of hlen
    have hget : entry.occupants.get? c.chunkHash = some occupant :=
      mem_entries.mp (by rw [heq]; simp)
    obtain ⟨occupant', hholds', hchanged⟩ := hheld hlen entry occupant hentry hget hholds
    refine h.changed hchanged (fun q hne => ?_) ?_
    · have hpoly : fingerprintOf idx.chunkSize c.tokenIds ≠ q := fun hq => hne hq.symm
      rw [ofPoly_append, ofPoly_append, ofPoly_cons_ne (by simp [htokens, hpoly]),
        ofPoly_cons_ne (by simp [hpoly])]
    · have hpoly' : fingerprintOf idx.chunkSize e.tokenIds = idx.fingerprint c.tokenIds := by
        rw [htokens]; rfl
      rw [ofPoly_append, ofPoly_cons_of (htokens ▸ hlen) hpoly']
      refine ⟨by simp, fun d hd => ?_, ?_⟩
      · rw [← ofPoly_cons_of (htokens ▸ hlen) hpoly', ← ofPoly_append] at hd
        obtain ⟨hmem, hdlen, hdpoly⟩ := mem_ofPoly.mp hd
        rcases mem_append.mp hmem with hmem | hmem
        · exact hcontent d (by simp [hmem]) hdlen hdpoly
        · rcases mem_cons.mp hmem with rfl | hmem
          · rw [htokens]
            exact hcontent c (by simp) hlen rfl
          · exact hcontent d (by simp [hmem]) hdlen hdpoly
      · rw [entries_set_of heq]
        exact rel_append hp (.cons hholds' hq)
  · rw [hignored hlen]
    exact (refines_middle_iff (htokens ▸ hlen)).mpr ((refines_middle_iff hlen).mp h)

/-- The claims of a chunk are a set. -/
lemma Refines.congr
    (hoffset : e.tokenOffset = c.tokenOffset) (hclaims : ∀ m, m ∈ e.namespaces ↔ m ∈ c.namespaces) :
    Refines idx (pre ++ e :: post) := by
  refine h.replace hhash htokens (fun _ => rfl) fun _ entry occupant hentry hget hholds => ?_
  refine ⟨occupant, ⟨hhash.symm, hholds.offset.trans hoffset.symm, hholds.nodup, fun m => ?_⟩, ?_⟩
  · rw [hholds.claims, hclaims]
  · rw [set_of_get? hget, ← hentry]
    exact .refl idx _

/-- `add` for a chunk that is held: one more claim, and the position it was
given. -/
lemma Refines.add_claim
    (hclaims : ∀ m, m ∈ e.namespaces ↔ m = ns ∨ m ∈ c.namespaces) :
    Refines (idx.add c.tokenIds c.chunkHash e.tokenOffset ns) (pre ++ e :: post) := by
  refine h.replace hhash htokens (fun hlen => by rw [add, if_pos hlen])
    fun hlen entry occupant hentry hget hholds => ?_
  refine ⟨⟨e.tokenOffset, occupant.namespaces.insert ns⟩,
    ⟨hhash.symm, rfl, hholds.nodup.insert, fun m => ?_⟩, ?_⟩
  · simp [hclaims, hholds.claims]
  · simpa [withClaim, hentry, hget, claimed] using
      changedAt_add hlen c.chunkHash e.tokenOffset ns

lemma Refines.add_claims
    (hoffset : e.tokenOffset = c.tokenOffset)
    (hclaims : ∀ m, m ∈ e.namespaces ↔ m ∈ nss ∨ m ∈ c.namespaces) :
    Refines (nss.foldl (fun idx ns => idx.add c.tokenIds c.chunkHash c.tokenOffset ns) idx)
      (pre ++ e :: post) := by
  induction nss generalizing idx c with
  | nil => exact h.congr hhash htokens hoffset (by simpa using hclaims)
  | cons ns nss ih =>
    have hone : Refines (idx.add c.tokenIds c.chunkHash c.tokenOffset ns)
        (pre ++ { c with namespaces := ns :: c.namespaces } :: post) :=
      h.add_claim (e := { c with namespaces := ns :: c.namespaces }) rfl rfl (by simp)
    refine ih (c := { c with namespaces := ns :: c.namespaces }) hone hhash htokens hoffset
      fun m => ?_
    rw [hclaims]
    simp only [mem_cons]
    tauto

/-- `remove_claim` for a chunk that others claim too. -/
lemma Refines.removeClaim
    (hoffset : e.tokenOffset = c.tokenOffset) (hheld : ns ∈ c.namespaces)
    (hleft : ∀ m, m ∈ e.namespaces ↔ m ∈ c.namespaces ∧ m ≠ ns) (hothers : e.namespaces ≠ []) :
    Refines (idx.removeClaim c.tokenIds c.chunkHash ns) (pre ++ e :: post) := by
  refine h.replace hhash htokens (fun hlen => by rw [BlendIndex.removeClaim, if_pos hlen])
    fun hlen entry occupant hentry hget hholds => ?_
  have hmem : ∀ m, m ∈ occupant.namespaces.erase ns ↔ m ∈ e.namespaces := by
    intro m
    rw [hholds.nodup.mem_erase_iff, hleft, hholds.claims, and_comm]
  have herase : occupant.namespaces.erase ns ≠ [] := by
    obtain ⟨m, hm⟩ := exists_mem_of_ne_nil _ hothers
    exact ne_nil_of_mem ((hmem m).mpr hm)
  refine ⟨{ occupant with namespaces := occupant.namespaces.erase ns },
    ⟨hhash.symm, hholds.offset.trans hoffset.symm, hholds.nodup.erase ns, hmem⟩, ?_⟩
  simpa [withoutClaim, hentry, hget, (hholds.claims ns).mpr hheld, herase] using
    changedAt_removeClaim hlen c.chunkHash ns

end

lemma Refines.removeChunk : Refines (idx.removeChunk c.tokenIds c.chunkHash) (pre ++ post) := by
  by_cases hlen : c.tokenIds.length = idx.chunkSize
  · obtain ⟨entry, hentry, hcontent, lp, occupant, lq, heq, hholds, hp, hq⟩ := h.entry_of hlen
    refine h.changed (changedAt_removeChunk hlen _) (fun q hne => ?_) ?_
    · rw [ofPoly_append, ofPoly_append, ofPoly_cons_ne (fun hc => hne hc.2.symm)]
    · have hmem : c.chunkHash ∈ entry.occupants :=
        mem_iff_get?.mpr ⟨occupant, mem_entries.mp (by rw [heq]; simp)⟩
      simp only [hentry, Option.bind_some, if_pos hmem]
      rw [ofPoly_append]
      refine describes_withoutChunk heq hp hq fun d hd => ?_
      rw [← ofPoly_append] at hd
      obtain ⟨hd, hdlen, hdpoly⟩ := mem_ofPoly.mp hd
      exact hcontent d (by simp only [mem_append] at hd ⊢; tauto) hdlen hdpoly
  · rw [BlendIndex.removeChunk, if_pos hlen]
    exact (refines_middle_iff hlen).mp h

/-- `remove_claim` for the last claim of a chunk. -/
lemma Refines.removeClaim_last (hheld : ns ∈ c.namespaces) (hlast : ∀ m ∈ c.namespaces, m = ns) :
    Refines (idx.removeClaim c.tokenIds c.chunkHash ns) (pre ++ post) := by
  -- The last claim takes the chunk with it, as `remove_chunk` does.
  have hsame : idx.removeClaim c.tokenIds c.chunkHash ns
      = idx.removeChunk c.tokenIds c.chunkHash := by
    by_cases hlen : c.tokenIds.length = idx.chunkSize
    · obtain ⟨entry, hentry, -, lp, occupant, lq, heq, hholds, -, -⟩ := h.entry_of hlen
      have hget : entry.occupants.get? c.chunkHash = some occupant :=
        mem_entries.mp (by rw [heq]; simp)
      have herase : occupant.namespaces.erase ns = [] :=
        eq_nil_iff_forall_not_mem.mpr fun m hm => by
          rw [hholds.nodup.mem_erase_iff, hholds.claims] at hm
          exact hm.1 (hlast m hm.2)
      simp [BlendIndex.removeClaim, BlendIndex.removeChunk, hentry, hget,
        (hholds.claims ns).mpr hheld, herase]
    · rw [BlendIndex.removeClaim, BlendIndex.removeChunk, if_pos hlen, if_pos hlen]
  rw [hsame]
  exact h.removeChunk

end

/-- `add` for a chunk that is not held: it comes last. -/
lemma Refines.add_chunk (h : Refines idx claims) (tokenOffset : Int) (ns : BlendNamespace)
    (hnew : ∀ c ∈ claims, c.chunkHash ≠ chunkHash)
    (hcontent : ∀ c ∈ claims, c.tokenIds.length = idx.chunkSize →
      tokenIds.length = idx.chunkSize → idx.fingerprint c.tokenIds = idx.fingerprint tokenIds →
      c.tokenIds = tokenIds) : Refines (idx.add tokenIds chunkHash tokenOffset ns)
      (claims ++ [⟨chunkHash, tokenIds, tokenOffset, [ns]⟩]) := by
  by_cases hlen : tokenIds.length = idx.chunkSize
  · refine h.changed (changedAt_add hlen _ _ _) (fun q hne => ?_) ?_
    · rw [ofPoly_append, ofPoly_cons_ne (fun hc => hne hc.2.symm)]
      simp [ofPoly]
    · have hpoly : fingerprintOf idx.chunkSize tokenIds = idx.fingerprint tokenIds := rfl
      have hdescribes := h.entries (idx.fingerprint tokenIds)
      rw [ofPoly_append, ofPoly_cons_of hlen hpoly]
      have hold : ∀ c ∈ ofPoly idx.chunkSize (idx.fingerprint tokenIds) claims,
          c.tokenIds = tokenIds := by
        intro c hc
        obtain ⟨hmem, hclen, hcpoly⟩ := mem_ofPoly.mp hc
        exact hcontent c hmem hclen hlen hcpoly
      cases hentry : idx.fingerprintTable.get? (idx.fingerprint tokenIds) with
      | none =>
        rw [hentry] at hdescribes
        rw [show ofPoly idx.chunkSize (idx.fingerprint tokenIds) claims = [] from hdescribes]
        refine ⟨by simp, by simp [withClaim, ofPoly], ?_⟩
        exact .cons ⟨rfl, rfl, by simp [claimed], by simp [claimed]⟩ .nil
      | some entry =>
        have habsent := h.not_mem_occupants hnew hentry
        rw [hentry] at hdescribes
        obtain ⟨hne, htokens, hall⟩ := hdescribes
        obtain ⟨c, hc⟩ := exists_mem_of_ne_nil _ hne
        have hentryTokens : entry.tokenIds = tokenIds := (htokens c hc).symm.trans (hold c hc)
        refine ⟨by simp, fun d hd => ?_, ?_⟩
        · rcases mem_append.mp hd with hd | hd
          · exact (hold d hd).trans hentryTokens.symm
          · simp only [ofPoly, filter_nil, mem_singleton] at hd
            rw [hd]
            exact hentryTokens.symm
        · simp only [withClaim, Option.getD_some, entries_set_new habsent,
            not_mem_iff_get?.mp habsent]
          exact rel_append hall (.cons ⟨rfl, rfl, by simp [claimed], by simp [claimed]⟩ .nil)
  · rw [add, if_pos hlen]
    exact (refines_middle_iff hlen).mpr (by simpa using h)

lemma Refines.add_new (h : Refines idx claims) (hnew : ∀ d ∈ claims, d.chunkHash ≠ c.chunkHash)
    (hcontent : ∀ d ∈ claims, d.tokenIds.length = idx.chunkSize →
      c.tokenIds.length = idx.chunkSize → idx.fingerprint d.tokenIds = idx.fingerprint c.tokenIds →
      d.tokenIds = c.tokenIds) (hne : nss ≠ []) (hclaims : ∀ m, m ∈ c.namespaces ↔ m ∈ nss) :
    Refines (nss.foldl (fun idx ns => idx.add c.tokenIds c.chunkHash c.tokenOffset ns) idx)
      (claims ++ [c]) := by
  cases nss with
  | nil => exact absurd rfl hne
  | cons ns nss =>
    have hone := h.add_chunk c.tokenOffset ns hnew hcontent
    exact hone.add_claims (e := c) rfl rfl rfl fun m => by rw [hclaims]; simp [or_comm]

lemma Refines.remove_eq (h : Refines idx claims) (hnew : ∀ c ∈ claims, c.chunkHash ≠ chunkHash)
    (tokenIds : List UInt32) (ns : BlendNamespace) :
    idx.removeClaim tokenIds chunkHash ns = idx ∧ idx.removeChunk tokenIds chunkHash = idx := by
  cases hentry : idx.fingerprintTable.get? (idx.fingerprint tokenIds) with
  | none => simp [BlendIndex.removeClaim, BlendIndex.removeChunk, hentry]
  | some entry =>
    have habsent := not_mem_iff_get?.mp (h.not_mem_occupants hnew hentry)
    simp [BlendIndex.removeClaim, BlendIndex.removeChunk, hentry, habsent]

/-! ## Queries -/

/-- What a query finds at a position, from the chunks of the fingerprint. -/
def claimsMatch (cs : List (ChunkClaims Digest)) (window : List UInt64) (ns : BlendNamespace)
    (seen : List Digest) (curSt : Nat) : Option (BlendMatch Digest) :=
  match cs.find? fun c => c.chunkHash ∉ seen ∧ ns ∈ c.namespaces with
  | none => none
  | some c =>
    if window = c.tokenIds.map UInt32.toUInt64 then some ⟨c.chunkHash, c.tokenOffset, curSt⟩
    else none

/-- One position of the probe, from the claims. -/
def claimsStep (chunkSize probeStride : Nat) (claims : List (ChunkClaims Digest))
    (query : List UInt64) (ns : BlendNamespace) (acc : List Digest × List (BlendMatch Digest))
    (probe : UInt64 × Nat) : List Digest × List (BlendMatch Digest) :=
  let curSt := probe.2 * probeStride
  match claimsMatch (ofPoly chunkSize probe.1 claims) ((query.drop curSt).take chunkSize) ns acc.1
      curSt with
  | none => acc
  | some found => (found.chunkHash :: acc.1, acc.2 ++ [found])

/-- The answer to a query, from the claims. -/
def claimsMatches (chunkSize probeStride : Nat) (claims : List (ChunkClaims Digest))
    (query : List UInt64) (ns : BlendNamespace) : List (BlendMatch Digest) :=
  if query.length < chunkSize then []
  else
    ((strided probeStride (rollingHashWindows query chunkSize polyBase)).zipIdx.foldl
      (claimsStep chunkSize probeStride claims query ns) ([], [])).2

lemma entryMatch_eq (htokens : ∀ c ∈ cs, c.tokenIds = entry.tokenIds)
    (hall : Forall₂ Holds entry.occupants.entries cs) (window : List UInt64)
    (ns : BlendNamespace) (seen : List Digest) (curSt : Nat) :
    entryMatch entry window ns seen curSt = claimsMatch cs window ns seen curSt := by
  have hfind : ∀ {l : List (Digest × Occupant)} {cs : List (ChunkClaims Digest)},
      Forall₂ Holds l cs →
      (l.find? (fun p => p.1 ∉ seen ∧ ns ∈ p.2.namespaces) = none ∧
          cs.find? (fun c => c.chunkHash ∉ seen ∧ ns ∈ c.namespaces) = none) ∨
        ∃ p c, l.find? (fun p => p.1 ∉ seen ∧ ns ∈ p.2.namespaces) = some p ∧
          cs.find? (fun c => c.chunkHash ∉ seen ∧ ns ∈ c.namespaces) = some c ∧ Holds p c := by
    intro l cs hall
    induction hall with
    | nil => exact .inl ⟨rfl, rfl⟩
    | @cons p c l cs hx _ ih =>
      by_cases hhit : c.chunkHash ∉ seen ∧ ns ∈ c.namespaces
      · refine .inr ⟨p, c, find?_cons_of_pos ?_, find?_cons_of_pos ?_, hx⟩
        · simpa [hx.hash, hx.claims] using hhit
        · simpa using hhit
      · rw [find?_cons_of_neg (by simpa [hx.hash, hx.claims] using hhit),
          find?_cons_of_neg (by simpa using hhit)]
        exact ih
  simp only [entryMatch, claimsMatch]
  obtain ⟨hl, hcs⟩ | ⟨p, c, hl, hcs, hx⟩ := hfind hall
  · rw [hl, hcs]
  · rw [hl, hcs]
    simp only [htokens c (mem_of_find?_eq_some hcs), hx.hash, hx.offset]

/-- What an index answers is determined by the claims it holds. -/
lemma Refines.findMatches_eq (h : Refines idx claims) (query : List UInt64)
    (ns : BlendNamespace) : idx.findMatches query ns
      = claimsMatches idx.chunkSize idx.probeStride claims query ns := by
  have hstep : idx.matchStep query ns = claimsStep idx.chunkSize idx.probeStride claims query ns := by
    funext acc probe
    have hdescribes := h.entries probe.1
    simp only [matchStep, claimsStep]
    cases hentry : idx.fingerprintTable.get? probe.1 with
    | none =>
      rw [hentry] at hdescribes
      rw [show ofPoly idx.chunkSize probe.1 claims = [] from hdescribes]
      simp [claimsMatch]
    | some entry =>
      rw [hentry] at hdescribes
      rw [if_pos (h.covers probe.1 (mem_iff_get?.mpr ⟨entry, hentry⟩))]
      have hmatch := entryMatch_eq hdescribes.2.1 hdescribes.2.2
        ((query.drop (probe.2 * idx.probeStride)).take idx.chunkSize) ns acc.1
        (probe.2 * idx.probeStride)
      dsimp only
      cases hfound : claimsMatch (ofPoly idx.chunkSize probe.1 claims)
          ((query.drop (probe.2 * idx.probeStride)).take idx.chunkSize) ns acc.1
          (probe.2 * idx.probeStride) with
      | none => rw [hmatch.trans hfound]
      | some found => rw [hmatch.trans hfound]
  simp only [findMatches, claimsMatches, hstep]

end BlendIndex

end LMCache.Coordinator
