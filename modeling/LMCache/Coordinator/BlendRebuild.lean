/-
LMCache.Coordinator.BlendRebuild — the index that is rebuilt and the one that
was kept up to date.

Two paths build the blend index anew: `bind_chunk_size` from the bindings, and
`restore` from a capture. Both visit the bindings in their order and claim each
content for the namespaces of its keys, so both end with the chunks of
`claimsOf` (`refines_rebuilt`). The index of a run that keeps to
`SignalKeepsIndex` holds the same chunks, and an index answers by what it holds.

The records and bindings do not depend on the index, so a run with another chunk
size has the same bindings (`sameTables_run`): binding the size late is
rebuilding.
-/
import LMCache.Coordinator.BlendSync
import LMCache.Coordinator.DirectoryCheckpoint

namespace LMCache.Coordinator

open Lib List BlendIndex Dict
open Multiprocess (ObjectKey)
open BlendIndex (Refines)

variable {Digest : Type} {sizes : Nat × Nat} {bindings : TokenBindings Digest}
  {P : ObjectKey Digest → Prop}

namespace TokenBindings

variable [DecidableEq Digest]

/-! ## A rebuild -/

/-- One binding, loaded into an index: claimed for the namespaces of its keys if
it is indexed, and skipped otherwise. -/
def Loads (p : Digest × TokenBinding Digest) (idx after : BlendIndex Digest) : Prop :=
  if p.2.Indexed then
    ∃ nss, nss ≠ [] ∧ (∀ ns, ns ∈ (claimOf p).namespaces ↔ ns ∈ nss) ∧
      after = nss.foldl (fun idx ns => idx.add p.2.tokenIds p.1 p.2.tokenOffset ns) idx
  else after = idx

/-- Contents of one length and one fingerprint are the same. -/
def CollisionFree (window : Nat) (claims : List (ChunkClaims Digest)) : Prop :=
  ∀ c ∈ claims, ∀ e ∈ claims, c.tokenIds.length = window → e.tokenIds.length = window →
    fingerprintOf window c.tokenIds = fingerprintOf window e.tokenIds →
    c.tokenIds = e.tokenIds

/-- Loading bindings one after the other gives an index that holds them all. -/
lemma refines_rebuilt {σ : Type} (index : σ → BlendIndex Digest)
    (load : σ → Digest × TokenBinding Digest → σ) (Inv : σ → Prop)
    {entries : List (Digest × TokenBinding Digest)}
    (hload : ∀ s, Inv s → ∀ p ∈ entries, Inv (load s p) ∧ Loads p (index s) (index (load s p)))
    (hnodup : (entries.map Prod.fst).Nodup) {done : List (ChunkClaims Digest)} {s : σ} (hs : Inv s)
    (hsizes : (index s).sizes = sizes) (h : Refines (index s) done)
    (hdone : ∀ c ∈ done, c.chunkHash ∉ entries.map Prod.fst)
    (hfree : CollisionFree sizes.1 (done ++ claimsOf entries)) :
    Refines (index (entries.foldl load s)) (done ++ claimsOf entries) ∧
      (index (entries.foldl load s)).sizes = sizes := by
  induction entries generalizing done s with
  | nil => exact ⟨by simpa [claimsOf] using h, hsizes⟩
  | cons p entries ih =>
    rw [map_cons, nodup_cons] at hnodup
    obtain ⟨hinv, hloads⟩ := hload s hs p mem_cons_self
    have hlater : ∀ s, Inv s → ∀ q ∈ entries, Inv (load s q) ∧ Loads q (index s) (index (load s q)) :=
      fun s hs q hq => hload s hs q (mem_cons_of_mem _ hq)
    by_cases hindexed : p.2.Indexed
    · rw [Loads, if_pos hindexed] at hloads
      obtain ⟨nss, hne, hclaims, heq⟩ := hloads
      have hcons : claimsOf (p :: entries) = claimOf p :: claimsOf entries := by
        simp [claimsOf, hindexed]
      rw [hcons] at hfree ⊢
      have hwindow : (index s).chunkSize = sizes.1 := congrArg Prod.fst hsizes
      have hnew : Refines (index (load s p)) (done ++ [claimOf p]) := by
        rw [heq]
        refine h.add_new (c := claimOf p) (fun c hc hhash => ?_) (fun c hc hclen hplen hpoly => ?_)
          hne hclaims
        · exact hdone c hc (hhash ▸ mem_map_of_mem mem_cons_self)
        · rw [fingerprint, fingerprint, hwindow] at hpoly
          rw [hwindow] at hclen hplen
          exact hfree c (by simp [hc]) (claimOf p) (by simp) hclen hplen hpoly
      have hafter : (index (load s p)).sizes = sizes := by rw [heq, sizes_foldl_add, hsizes]
      have hrest := ih hlater hnodup.2 hinv hafter hnew (fun c hc hin => ?_) (by simpa using hfree)
      · simpa using hrest
      · rcases mem_append.mp hc with hc | hc
        · exact hdone c hc (mem_cons_of_mem _ hin)
        · rw [mem_singleton.mp hc] at hin
          exact hnodup.1 hin
    · rw [Loads, if_neg hindexed] at hloads
      have hcons : claimsOf (p :: entries) = claimsOf entries := by simp [claimsOf, hindexed]
      rw [hcons] at hfree ⊢
      exact ih hlater hnodup.2 hinv (hloads ▸ hsizes) (hloads ▸ h)
        (fun c hc hin => hdone c hc (mem_cons_of_mem _ hin)) hfree

omit [DecidableEq Digest] in
lemma Synced.collisionFree (h : Synced sizes bindings) :
    CollisionFree sizes.1 (claimsOf bindings.table.entries) := by
  intro c hc e he hclen helen hpoly
  have hwindow : bindings.blendIndex.chunkSize = sizes.1 := congrArg Prod.fst h.sizes
  rw [← hwindow] at hclen helen hpoly
  have hrefines := h.refines
  obtain ⟨pre, post, hclaims⟩ := append_of_mem he
  rw [hclaims] at hrefines hc he
  -- Chunks that are held under one fingerprint have the content of their entry.
  obtain ⟨entry, -, hcontent, -⟩ := hrefines.entry_of helen
  exact (hcontent c hc hclen hpoly).trans (hcontent e he helen rfl).symm

/-- What two indexes of one window hold decides that they answer alike. -/
lemma Synced.blendMatch_eq {rebuilt : TokenBindings Digest} (h : Synced sizes bindings)
    (henabled : rebuilt.blendLookupEnabled) (hsizes : rebuilt.blendIndex.sizes = sizes)
    (hrefines : Refines rebuilt.blendIndex (claimsOf bindings.table.entries)) (tokens : List UInt64)
    (ns : BlendNamespace) : rebuilt.blendMatch tokens ns = bindings.blendMatch tokens ns := by
  obtain ⟨hsize, hstride⟩ := Prod.ext_iff.mp (hsizes.trans h.sizes.symm)
  simp only [BlendIndex.sizes] at hsize hstride
  rw [blendMatch, blendMatch, if_pos henabled, if_pos h.enabled, hrefines.findMatches_eq,
    h.refines.findMatches_eq, hsize, hstride]

/-! ### Binding the chunk size -/

lemma refines_rebuildIndex (hlists : Lists bindings.table P)
    (hfree : CollisionFree sizes.1 (claimsOf bindings.table.entries)) {idx : BlendIndex Digest}
    (hidx : new sizes.1 sizes.2 = .ok idx) :
    Refines (bindings.rebuildIndex idx) (claimsOf bindings.table.entries) ∧
      (bindings.rebuildIndex idx).sizes = sizes := by
  obtain ⟨hrefines, hsize, hstride⟩ := refines_new hidx
  refine refines_rebuilt id _ (fun _ => True) (fun idx _ p hp => ⟨trivial, ?_⟩)
    bindings.table.nodup trivial (Prod.ext hsize hstride) hrefines (by simp) hfree
  unfold Loads
  by_cases hindexed : p.2.Indexed
  · have hkeys : p.2.keys ≠ [] := by
      have hget := mem_entries.mp hp
      simpa [keysAt, hget] using hlists.nonempty p.1 (mem_iff_get?.mpr ⟨p.2, hget⟩)
    have hskip := not_or.mpr hindexed
    rw [if_pos hindexed]
    refine ⟨(p.2.keys.map BlendNamespace.fromObjectKey).dedup, by simpa using hkeys,
      fun ns => mem_dedup.symm, ?_⟩
    rw [id, id, if_neg hskip]
  · have hskip : p.2.tokenIds = [] ∨ p.2.tokenOffset = unknownTokenOffset := by
      simpa [TokenBinding.Indexed, or_iff_not_imp_left] using hindexed
    rw [if_neg hindexed, id, id, if_pos hskip]

/-! ### Restoring a capture -/

/-- No binding is indexed. -/
def Blank (bindings : TokenBindings Digest) : Prop :=
  ∀ chunkHash, ∀ binding ∈ bindings.table.get? chunkHash, ¬ binding.Indexed

lemma Blank.addTokenBinding (h : bindings.Blank) (key : ObjectKey Digest) :
    (bindings.addTokenBinding key).Blank ∧
      (bindings.addTokenBinding key).blendIndex = bindings.blendIndex ∧
      (bindings.addTokenBinding key).blendLookupEnabled = bindings.blendLookupEnabled := by
  unfold TokenBindings.addTokenBinding
  cases hget : bindings.table.get? key.chunkHash with
  | none =>
    refine ⟨fun chunkHash binding hbinding => ?_, rfl, rfl⟩
    simp only [setBinding, get?_set] at hbinding
    split at hbinding
    · rw [← Option.some.inj (Option.mem_def.mp hbinding)]
      exact fun hindexed => hindexed.1 rfl
    · exact h chunkHash binding hbinding
  | some binding =>
    have hblank : ¬ ({ binding with keys := binding.keys.insert key } :
        TokenBinding Digest).Indexed := h key.chunkHash binding hget
    dsimp only
    rw [claimBinding_not hblank]
    refine ⟨fun chunkHash other hother => ?_, rfl, rfl⟩
    simp only [setBinding, get?_set] at hother
    split at hother
    · rw [← Option.some.inj (Option.mem_def.mp hother)]
      exact hblank
    · exact h chunkHash other hother

lemma Blank.foldl_addTokenBinding {α : Type} (key : α → ObjectKey Digest) (l : List α)
    (h : bindings.Blank) :
    (l.foldl (fun b x => b.addTokenBinding (key x)) bindings).blendIndex = bindings.blendIndex ∧
      (l.foldl (fun b x => b.addTokenBinding (key x)) bindings).blendLookupEnabled
      = bindings.blendLookupEnabled := by
  induction l generalizing bindings with
  | nil => exact ⟨rfl, rfl⟩
  | cons x l ih =>
    obtain ⟨hblank, hindex, henabled⟩ := h.addTokenBinding (key x)
    obtain ⟨hindex', henabled'⟩ := ih hblank
    exact ⟨hindex'.trans hindex, henabled'.trans henabled⟩

end TokenBindings

variable {d : KeyDirectory Digest}

namespace KeyDirectory

open TokenBindings

variable [DecidableEq Digest] {fresh : KeyDirectory Digest}
  {table : Dict Digest (TokenBinding Digest)}

/-- The namespaces of a chunk are those of its keys, with or without tags. -/
lemma mem_namespaces_iff {table' : Dict Digest (TokenBinding Digest)} (h : Lists table P)
    (h' : Lists table' fun key => ∃ held, P held ∧ untagged held = key) (chunkHash : Digest)
    (ns : BlendNamespace) : ns ∈ (keysAt table chunkHash).map BlendNamespace.fromObjectKey
      ↔ ns ∈ (keysAt table' chunkHash).map BlendNamespace.fromObjectKey := by
  simp only [mem_map, h.keys, h'.keys]
  constructor
  · rintro ⟨held, ⟨hheld, rfl⟩, rfl⟩
    exact ⟨untagged held, ⟨⟨held, hheld, rfl⟩, rfl⟩, rfl⟩
  · rintro ⟨_, ⟨⟨held, hheld, rfl⟩, rfl⟩, rfl⟩
    exact ⟨held, ⟨hheld, rfl⟩, rfl⟩

/-- One binding of a capture, loaded where its keys are listed. -/
lemma loads_loadBinding (henabled : bindings.blendLookupEnabled) (hlists : Lists table P)
    (h : Lists bindings.table fun key => ∃ held, P held ∧ untagged held = key)
    {p : Digest × TokenBinding Digest} (hp : p ∈ table.entries) :
    (loadBinding bindings p).blendLookupEnabled ∧
      Loads p bindings.blendIndex (loadBinding bindings p).blendIndex := by
  have hget := mem_entries.mp hp
  have hns := mem_namespaces_iff hlists h p.1
  have hkeys := hlists.nonempty p.1 (mem_iff_get?.mpr ⟨p.2, hget⟩)
  simp only [keysAt, hget] at hns hkeys
  unfold loadBinding Loads
  cases hbinding : bindings.table.get? p.1 with
  | none =>
    obtain ⟨key, hkey⟩ := exists_mem_of_ne_nil _ hkeys
    have hin := (hns _).mp (mem_map_of_mem hkey)
    simp [hbinding] at hin
  | some binding =>
    simp only [hbinding] at hns
    dsimp only
    by_cases hindexed : p.2.Indexed
    · have hfilled : (⟨p.2.tokenIds, p.2.tokenOffset, binding.keys⟩ : TokenBinding Digest).Indexed :=
        hindexed
      rw [foldl_claimBinding_of (by exact henabled) hfilled, if_pos hindexed]
      obtain ⟨key, hkey⟩ := exists_mem_of_ne_nil _ hkeys
      exact ⟨henabled, _, ne_nil_of_mem ((hns _).mp (mem_map_of_mem hkey)), hns, rfl⟩
    · have hfilled : ¬ (⟨p.2.tokenIds, p.2.tokenOffset, binding.keys⟩ :
          TokenBinding Digest).Indexed := hindexed
      rw [foldl_claimBinding_not hfilled, if_neg hindexed]
      exact ⟨henabled, rfl⟩

lemma lists_loadBinding (h : Lists bindings.table P) (p : Digest × TokenBinding Digest) :
    Lists (loadBinding bindings p).table P := by
  have hsame : ∀ chunkHash, keysAt (loadBinding bindings p).table chunkHash
      = keysAt bindings.table chunkHash := by
    intro chunkHash
    rw [keysAt, keysAt, get?_table_loadBinding]
    split
    · cases bindings.table.get? chunkHash <;> rfl
    · rfl
  refine ⟨fun chunkHash key => by rw [hsame, h.keys], fun chunkHash => hsame chunkHash ▸ h.nodup _,
    fun chunkHash hmem => ?_⟩
  rw [hsame]
  refine h.nonempty chunkHash ?_
  rw [mem_iff_get?] at hmem ⊢
  rw [get?_table_loadBinding] at hmem
  split at hmem
  · obtain ⟨loaded, hloaded⟩ := hmem
    obtain ⟨binding, hbinding, -⟩ := Option.map_eq_some_iff.mp hloaded
    exact ⟨binding, hbinding⟩
  · exact hmem

/-- A restored directory holds in its index what the bindings ask for. -/
lemma refines_reload (h : InSync sizes d) (hfresh : InSync sizes fresh)
    (hempty : fresh.directory = ∅) (hblank : fresh.bindings.Blank)
    (hnone : Refines fresh.bindings.blendIndex []) :
    (fresh.reload d).bindings.blendLookupEnabled ∧
      (fresh.reload d).bindings.blendIndex.sizes = sizes ∧
      Refines (fresh.reload d).bindings.blendIndex (claimsOf d.bindings.table.entries) := by
  have hlists := lists_reload (d := d) hfresh.sound hempty
  simp only [reload]
  rw [foldl_loadKey] at hlists ⊢
  obtain ⟨hindex, henabled⟩ := hblank.foldl_addTokenBinding
    (fun p : ObjectKey Digest × KeyRecord => untagged p.1) d.directory.entries
  let Ready : TokenBindings Digest → Prop := fun b => b.blendLookupEnabled ∧
    Lists b.table fun key => ∃ held ∈ d.directory, untagged held = key
  have hload : ∀ b, Ready b → ∀ p ∈ d.bindings.table.entries,
      Ready (loadBinding b p) ∧ Loads p b.blendIndex (loadBinding b p).blendIndex := by
    intro b hb p hp
    obtain ⟨hon, hloads⟩ := loads_loadBinding hb.1 h.sound.lists hb.2 hp
    exact ⟨⟨hon, lists_loadBinding hb.2 p⟩, hloads⟩
  have hready : Ready (d.directory.entries.foldl (fun b p => b.addTokenBinding (untagged p.1))
      fresh.bindings) := ⟨henabled.trans hfresh.synced.enabled, hlists⟩
  have hdone := refines_rebuilt blendIndex loadBinding Ready hload d.bindings.table.nodup hready
    (hindex ▸ hfresh.synced.sizes) (hindex ▸ hnone) (by simp) h.synced.collisionFree
  refine ⟨?_, hdone.2, hdone.1⟩
  exact (foldlRecOn d.bindings.table.entries loadBinding hready
    fun b hb p hp => (hload b hb p hp).1).1

end KeyDirectory

/-! ## Bindings without their index -/

variable {key : ObjectKey Digest}

variable {entry : CacheEventEntry Digest}

namespace TokenBindings

variable [DecidableEq Digest] {other : TokenBindings Digest}

section

variable (bindings)

/-- The settings of blend lookup, which the events do not touch. -/
def settings : Bool × Option Nat × Nat :=
  (bindings.blendLookupEnabled, bindings.blendChunkSize, bindings.blendProbeStride)

@[simp] lemma settings_claimBinding (chunkHash : Digest) (binding : TokenBinding Digest) :
    (bindings.claimBinding chunkHash binding key).settings = bindings.settings := by
  unfold claimBinding
  split <;> rfl

lemma settings_addTokenBinding : (bindings.addTokenBinding key).settings = bindings.settings := by
  unfold addTokenBinding
  split
  · rfl
  · rw [settings_claimBinding]
    rfl

lemma settings_removeTokenBinding :
    (bindings.removeTokenBinding key).settings = bindings.settings := by
  unfold removeTokenBinding
  split
  · rfl
  · dsimp only
    split <;> split <;> rfl

end

variable (bindings entry) in
lemma settings_createTokenBinding :
    (bindings.createTokenBinding key entry).settings = bindings.settings := by
  unfold createTokenBinding
  split
  · dsimp only
    split
    · refine Eq.trans (foldl_frame settings (fun _ _ => settings_claimBinding ..) _ _) ?_
      split <;> rfl
    · rw [settings_claimBinding]
      split <;> rfl
  · rfl

section

variable (h : bindings.table = other.table)
include h

lemma addTokenBinding_congr (key : ObjectKey Digest) :
    (bindings.addTokenBinding key).table = (other.addTokenBinding key).table := by
  unfold addTokenBinding
  rw [h]
  cases other.table.get? key.chunkHash <;> simp [setBinding, h]

lemma removeTokenBinding_congr (key : ObjectKey Digest) :
    (bindings.removeTokenBinding key).table = (other.removeTokenBinding key).table := by
  cases hget : other.table.get? key.chunkHash with
  | none => simp [removeTokenBinding, h, hget]
  | some binding =>
    rw [table_removeTokenBinding hget, table_removeTokenBinding (h ▸ hget), h]

omit h in
lemma table_createTokenBinding_of {tokenIds : List UInt32} {binding : TokenBinding Digest}
    (htokens : asTokens entry.tokenIds = some tokenIds)
    (hget : bindings.table.get? key.chunkHash = some binding) :
    (bindings.createTokenBinding key entry).table = bindings.table.set key.chunkHash
      { binding with tokenIds, tokenOffset := entry.tokenOffset } := by
  simp only [createTokenBinding, htokens, hget]
  split
  · rw [table_foldl_claimBinding]
    split <;> rfl
  · rw [table_claimBinding]
    split <;> rfl

lemma createTokenBinding_congr (key : ObjectKey Digest) (entry : CacheEventEntry Digest) :
    (bindings.createTokenBinding key entry).table = (other.createTokenBinding key entry).table := by
  cases htokens : asTokens entry.tokenIds with
  | none => simp [createTokenBinding, htokens, h]
  | some tokenIds =>
    cases hget : other.table.get? key.chunkHash with
    | none => simp [createTokenBinding, h, hget]
    | some binding =>
      rw [table_createTokenBinding_of htokens hget, table_createTokenBinding_of htokens (h ▸ hget), h]

end

end TokenBindings

variable {batch : CacheEventBatch Digest}

namespace KeyDirectory

open TokenBindings

variable [DecidableEq Digest] {e : KeyDirectory Digest}

/-- The same records and bindings; the index may be another. -/
structure SameTables (d e : KeyDirectory Digest) : Prop where
  directory : d.directory = e.directory
  l1KeysByInstance : d.l1KeysByInstance = e.l1KeysByInstance
  table : d.bindings.table = e.bindings.table

section

variable (h : SameTables d e)
include h

section

variable (batch)

lemma SameTables.storeEntry (entry : CacheEventEntry Digest) :
    SameTables (d.storeEntry batch entry) (e.storeEntry batch entry) := by
  have hjoined : (if entry.key ∈ e.directory then d.bindings
      else d.bindings.addTokenBinding entry.key).table = (if entry.key ∈ e.directory then e.bindings
        else e.bindings.addTokenBinding entry.key).table := by
    split
    · exact h.table
    · exact addTokenBinding_congr h.table entry.key
  refine ⟨?_, ?_, ?_⟩
  · simp only [KeyDirectory.storeEntry, h.directory]
  · simp only [KeyDirectory.storeEntry, l1Keys, h.l1KeysByInstance]
  · simp only [KeyDirectory.storeEntry, h.directory]
    split
    · exact createTokenBinding_congr hjoined entry.key entry
    · exact hjoined

lemma SameTables.deleteEntry (entry : CacheEventEntry Digest) :
    SameTables (d.deleteEntry batch entry) (e.deleteEntry batch entry) := by
  unfold KeyDirectory.deleteEntry
  rw [h.directory]
  split
  · exact h
  · refine ⟨rfl, by simp only [l1Keys, h.l1KeysByInstance], ?_⟩
    dsimp only
    split
    · exact removeTokenBinding_congr h.table entry.key
    · exact h.table

lemma SameTables.applyEntry (entry : CacheEventEntry Digest) :
    SameTables (d.applyEntry batch entry) (e.applyEntry batch entry) := by
  unfold KeyDirectory.applyEntry
  cases batch.eventType with
  | store => exact h.storeEntry batch entry
  | delete => exact h.deleteEntry batch entry
  | access =>
    dsimp only
    unfold accessEntry
    rw [h.directory]
    split
    · exact h
    · exact ⟨rfl, h.l1KeysByInstance, h.table⟩
  | config => exact h

end

lemma SameTables.dropKey (instanceId : String) (key : ObjectKey Digest) :
    SameTables (d.dropKey instanceId key) (e.dropKey instanceId key) := by
  unfold KeyDirectory.dropKey
  rw [h.directory]
  split
  · exact h
  · refine ⟨rfl, h.l1KeysByInstance, ?_⟩
    dsimp only
    split
    · exact removeTokenBinding_congr h.table key
    · exact h.table

omit h in
omit [DecidableEq Digest] in
lemma SameTables.foldl {α : Type} {f : KeyDirectory Digest → α → KeyDirectory Digest}
    (hf : ∀ d e x, SameTables d e → SameTables (f d x) (f e x)) (l : List α) (h : SameTables d e) :
    SameTables (l.foldl f d) (l.foldl f e) := by
  induction l generalizing d e with
  | nil => exact h
  | cons x l ih => exact ih (hf d e x h)

lemma SameTables.deliver (signal : Signal Digest) :
    SameTables (d.deliver signal) (e.deliver signal) := by
  cases signal with
  | broadcast batch =>
    have hstart : SameTables (d.withInstance batch.instanceId) (e.withInstance batch.instanceId) := by
      unfold withInstance
      rw [h.l1KeysByInstance]
      split
      · exact h
      · exact ⟨h.directory, rfl, h.table⟩
    exact hstart.foldl (fun _ _ entry hd => hd.applyEntry batch entry) batch.entries
  | fenceInstance instanceId =>
    have hkeys : d.l1Keys instanceId = e.l1Keys instanceId := by
      rw [l1Keys, l1Keys, h.l1KeysByInstance]
    have hdropped := h.foldl (fun _ _ key hd => hd.dropKey instanceId key) (d.l1Keys instanceId)
    refine ⟨?_, ?_, ?_⟩ <;> simp only [KeyDirectory.deliver, fenceInstance, ← hkeys]
    · exact hdropped.directory
    · rw [hdropped.l1KeysByInstance]
    · exact hdropped.table

end

variable (d batch) in
lemma settings_applyEntry (entry : CacheEventEntry Digest) :
    (d.applyEntry batch entry).bindings.settings = d.bindings.settings := by
  unfold applyEntry
  cases batch.eventType with
  | store =>
    have hjoined : (d.joined entry.key).settings = d.bindings.settings := by
      unfold joined
      split
      · rfl
      · exact settings_addTokenBinding ..
    simp only [storeEntry]
    split
    · exact (settings_createTokenBinding ..).trans hjoined
    · exact hjoined
  | delete =>
    dsimp only
    unfold deleteEntry
    split
    · rfl
    · dsimp only
      split
      · exact settings_removeTokenBinding ..
      · rfl
  | access =>
    dsimp only
    unfold accessEntry
    split <;> rfl
  | config => rfl

variable (d) in
lemma settings_dropKey (instanceId : String) (key : ObjectKey Digest) :
    (d.dropKey instanceId key).bindings.settings = d.bindings.settings := by
  unfold dropKey
  split
  · rfl
  · dsimp only
    split
    · exact settings_removeTokenBinding ..
    · rfl

variable (d) in
lemma settings_deliver (signal : Signal Digest) :
    (d.deliver signal).bindings.settings = d.bindings.settings := by
  cases signal with
  | broadcast batch =>
    have hstart : (d.withInstance batch.instanceId).bindings.settings = d.bindings.settings := by
      unfold withInstance
      split <;> rfl
    exact Eq.trans (foldl_frame (fun e : KeyDirectory Digest => e.bindings.settings)
      (fun _ _ => settings_applyEntry ..) batch.entries _) hstart
  | fenceInstance instanceId =>
    exact foldl_frame (fun e : KeyDirectory Digest => e.bindings.settings)
      (fun _ _ => settings_dropKey ..) _ d

/-! ## Incremental and rebuilt -/

variable {blend : Nat × Nat}

section

variable (h : new (some blend) = .ok d)
include h

omit [DecidableEq Digest] in
lemma bindings_new :
    d.bindings.settings = (true, some blend.1, blend.2) ∧ d.bindings.table = ∅ := by
  obtain ⟨idx, -, h⟩ := bind_ok h
  cases h
  exact ⟨rfl, rfl⟩

omit [DecidableEq Digest] in
lemma sameTables_new {blend' : Nat × Nat} (h' : new (some blend') = .ok e) : SameTables d e := by
  obtain ⟨hdirectory, hindex⟩ := new_empty h
  obtain ⟨hdirectory', hindex'⟩ := new_empty h'
  exact ⟨hdirectory.trans hdirectory'.symm, hindex.trans hindex'.symm,
    (bindings_new h).2.trans (bindings_new h').2.symm⟩

lemma settings_run (signals : List (Signal Digest)) :
    (run deliver d signals).bindings.settings = (true, some blend.1, blend.2) :=
  run_always (fun e : KeyDirectory Digest => e.bindings.settings = (true, some blend.1, blend.2))
    (fun e signal he => (settings_deliver e signal).trans he) (bindings_new h).1 signals

end

/-- Binding the chunk size late gives the index of a directory that had it. -/
lemma blendMatch_bindChunkSize {live late : KeyDirectory Digest} {chunkSize probeStride other : Nat}
    (hlive : InSync (chunkSize, probeStride) live) (hsame : SameTables late live)
    (hlate : late.Sound) (hsettings : late.bindings.settings = (true, some other, probeStride))
    (hother : other ≠ chunkSize) : ∃ bound, late.bindChunkSize chunkSize = .ok bound ∧
      ∀ tokens ns, bound.bindings.blendMatch tokens ns = live.bindings.blendMatch tokens ns := by
  obtain ⟨henabled, hchunk, hstride⟩ : late.bindings.blendLookupEnabled ∧
      late.bindings.blendChunkSize = some other ∧ late.bindings.blendProbeStride = probeStride := by
    simpa [settings] using hsettings
  subst hstride
  have hwindow : live.bindings.blendIndex.chunkSize = chunkSize :=
    congrArg Prod.fst hlive.synced.sizes
  have hstride : live.bindings.blendIndex.probeStride = late.bindings.blendProbeStride :=
    congrArg Prod.snd hlive.synced.sizes
  obtain ⟨idx, hidx⟩ : ∃ idx, (BlendIndex.new chunkSize late.bindings.blendProbeStride :
      Except String (BlendIndex Digest)) = .ok idx := by
    rw [BlendIndex.new, dif_pos (hwindow ▸ live.bindings.blendIndex.chunkSize_pos),
      dif_pos (hstride ▸ live.bindings.blendIndex.probeStride_pos)]
    exact ⟨_, rfl⟩
  have hfree := hlive.synced.collisionFree
  rw [← hsame.table] at hfree
  have hrebuilt := refines_rebuildIndex hlate.lists hfree hidx
  have hguard : ¬ (¬ late.bindings.blendLookupEnabled ∨
      late.bindings.blendChunkSize = some chunkSize) := by
    simp [henabled, hchunk, hother]
  refine ⟨{ late with bindings := { late.bindings with
      blendIndex := late.bindings.rebuildIndex idx, blendChunkSize := some chunkSize } }, ?_, ?_⟩
  · rw [bindChunkSize, TokenBindings.bindChunkSize, if_neg hguard, hidx]
    rfl
  · refine hlive.synced.blendMatch_eq henabled hrebuilt.2 ?_
    rw [← hsame.table]
    exact hrebuilt.1

/-- In a run that keeps to the condition, the index answers every query in every
state as the index that a restore of its capture builds, and as the one that is
built when the chunk size is bound at that point. -/
theorem rebuilt_matches {chunkSize probeStride other : Nat} {late : KeyDirectory Digest}
    (h : new (some (chunkSize, probeStride)) = .ok d) (hlate : new (some (other, probeStride)) = .ok late)
    {signals : List (Signal Digest)} (hkeeps : Along deliver SignalKeepsIndex d signals) (n : Nat) :
    (∃ restored, d.restore (run deliver d (signals.take n)).capture = .ok restored ∧
      ∀ tokens ns, restored.bindings.blendMatch tokens ns
      = (run deliver d (signals.take n)).bindings.blendMatch tokens ns) ∧
      ∃ bound, (run deliver late (signals.take n)).bindChunkSize chunkSize = .ok bound ∧
      ∀ tokens ns, bound.bindings.blendMatch tokens ns
      = (run deliver d (signals.take n)).bindings.blendMatch tokens ns := by
  have hstart := inSync_new h
  obtain ⟨hdirectory, hindex⟩ := new_empty h
  have hnone : d.bindings.table = ∅ := (bindings_new h).2
  have hlive : InSync (chunkSize, probeStride) (run deliver d (signals.take n)) := by
    rw [← take_append_drop n signals, along_append] at hkeeps
    exact run_inv (InSync _) (fun _ _ hd hsignal => hd.deliver hsignal) hstart hkeeps.1
  refine ⟨⟨d.reload (run deliver d (signals.take n)), restore_capture hdirectory hindex _, ?_⟩, ?_⟩
  · have hblank : d.bindings.Blank := by
      intro chunkHash binding hbinding
      simp [hnone] at hbinding
    have hclaims : Refines d.bindings.blendIndex [] := by
      have hrefines := hstart.synced.refines
      rwa [hnone] at hrefines
    obtain ⟨henabled, hsizes, hrefines⟩ := refines_reload hlive hstart hdirectory hblank hclaims
    exact hlive.synced.blendMatch_eq henabled hsizes hrefines
  · by_cases hother : other = chunkSize
    · -- The size is bound already: the run is the same, and nothing is rebuilt.
      subst hother
      obtain rfl : late = d := Except.ok.inj (hlate.symm.trans h)
      have hbound : (run deliver late (signals.take n)).bindings.blendChunkSize = some other :=
        congrArg (fun s => s.2.1) (settings_run h _)
      refine ⟨run deliver late (signals.take n), ?_, fun _ _ => rfl⟩
      rw [bindChunkSize, TokenBindings.bindChunkSize, if_pos (.inr hbound)]
      rfl
    · have hsame : SameTables (run deliver late (signals.take n)) (run deliver d (signals.take n)) :=
        (sameTables_new hlate h).foldl (fun _ _ signal he => he.deliver signal) _
      have hsound : (run deliver late (signals.take n)).Sound :=
        run_always Sound (fun _ signal he => sound_step (.deliver signal) he) (sound_new hlate) _
      exact blendMatch_bindChunkSize hlive hsame hsound (settings_run hlate _) hother

/-! ### A chunk of two tenants -/

/-- A directory with blend lookup for chunks of two tokens. -/
def pairDirectory : KeyDirectory Nat := (new (some (2, 1))).toOption.get (by decide)

/-- The same, with the default window at first. -/
def wideDirectory : KeyDirectory Nat := (new (some (256, 1))).toOption.get (by decide)

/-- The key that a tenant stores the chunk under. -/
def tenantKey (salt : String) : ObjectKey Nat := ⟨7, "model", 0, 0, salt, []⟩

lemma cpu_ne : CacheEventType.store ≠ .access → "cpu" ≠ "" := by decide

/-- A tenant stores the chunk, with the content `[1, 2]` or without. -/
def tenantStore (salt : String) (tokenIds : List Int) (tokenOffset : Int)
    (hoffset : 0 ≤ tokenOffset ∨ tokenOffset = unknownTokenOffset) : Signal Nat :=
  .broadcast
    { instanceId := "node", incarnation := 1, seq := 1, eventType := .store, tier := .l1,
      backend := "cpu", backend_ne := cpu_ne, seq_pos := Nat.one_pos,
      entries := [{ key := tenantKey salt, sizeBytes := 8, tokenIds, tokenOffset, offset_ok := hoffset }] }

/-- Content with its position first, a second tenant later: the index keeps up. -/
theorem tenants_rebuilt : ∃ restored, pairDirectory.restore (run deliver pairDirectory
      [tenantStore "a" [1, 2] 0 (by decide), tenantStore "b" [] (-1) (by decide)]).capture
      = .ok restored ∧
      ∀ tokens ns, restored.bindings.blendMatch tokens ns = (run deliver pairDirectory
      [tenantStore "a" [1, 2] 0 (by decide), tenantStore "b" [] (-1) (by decide)]).bindings.blendMatch
      tokens ns := by
  have hpair : new (some (2, 1)) = .ok pairDirectory := rfl
  have hwide : new (some (256, 1)) = .ok wideDirectory := rfl
  have hkeeps : Along deliver SignalKeepsIndex pairDirectory
      [tenantStore "a" [1, 2] 0 (by decide), tenantStore "b" [] (-1) (by decide)] := by
    refine ⟨⟨fun _ _ => ?_, trivial⟩, ⟨fun _ hne => absurd rfl hne, trivial⟩, trivial⟩
    intro tokenIds htokens binding hbinding _
    obtain rfl : [1, 2] = tokenIds := Option.some.inj htokens
    obtain rfl : (⟨[], unknownTokenOffset, [tenantKey "a"]⟩ : TokenBinding Nat) = binding :=
      Option.some.inj hbinding
    decide +kernel
  exact (rebuilt_matches hpair hwide hkeeps 2).1

/-- The position of known content arrives while two tenants hold the chunk: the
index finds it for the one that stored last only, a rebuild for both. And
content whose position is lost is still found, but not after a rebuild. -/
theorem position_not_rebuilt : (run deliver pairDirectory
      [tenantStore "a" [1, 2] (-1) (by decide), tenantStore "b" [] (-1) (by decide),
      tenantStore "a" [1, 2] 0 (by decide)]).bindings.blendMatch [1, 2]
      (.fromObjectKey (tenantKey "b")) = [] ∧
      (∃ restored, pairDirectory.restore (run deliver pairDirectory
      [tenantStore "a" [1, 2] (-1) (by decide), tenantStore "b" [] (-1) (by decide),
      tenantStore "a" [1, 2] 0 (by decide)]).capture = .ok restored ∧
      restored.bindings.blendMatch [1, 2] (.fromObjectKey (tenantKey "b")) = [⟨7, 0, 0⟩]) ∧
      (run deliver pairDirectory [tenantStore "a" [1, 2] 0 (by decide),
      tenantStore "a" [1, 2] (-1) (by decide)]).bindings.blendMatch [1, 2]
      (.fromObjectKey (tenantKey "a")) = [⟨7, 0, 0⟩] ∧
      ∃ restored, pairDirectory.restore (run deliver pairDirectory
      [tenantStore "a" [1, 2] 0 (by decide), tenantStore "a" [1, 2] (-1) (by decide)]).capture
      = .ok restored ∧
      restored.bindings.blendMatch [1, 2] (.fromObjectKey (tenantKey "a")) = [] := by
  refine ⟨by decide +kernel, ⟨_, restore_capture rfl rfl _, by decide +kernel⟩, by decide +kernel,
    _, restore_capture rfl rfl _, by decide +kernel⟩

end KeyDirectory

end LMCache.Coordinator
