/-
LMCache.Coordinator.DirectoryInvariants — the four structures of the directory
agree.

The records are the truth; the rest is derived and kept up to date by every
store, delete, access and fence. `Sound` states what each derived structure
owes to the records: the totals are those of the stored placements, every
record has placements, the binding of a chunk hash lists the keys of that hash,
and the reverse index of an instance covers its L1 placements (it may name
more). A fence relies on the last one: it visits the keys of the reverse index
only, and `get?_fenceInstance` says that it removes the L1 placements of the
instance from all records nevertheless.
-/
import LMCache.Coordinator.KeyDirectory

namespace LMCache.Coordinator

open Lib List Dict Placement
open Multiprocess (ObjectKey)

variable {Digest : Type}

/-! ## Totals -/

/-- The totals of a tier, counted from placements. -/
def tally (placements : List Placement) (tier : Tier) : TierPlacementStats where
  count := (placements.filter fun p => p.tier = tier).length
  sizeBytes := ((placements.filter fun p => p.tier = tier).map sizeBytes).sum

variable {l : List Placement}

lemma tally_perm {l' : List Placement} (h : l.Perm l') : tally l = tally l' := by
  funext tier
  simp only [tally, (h.filter _).length_eq, ((h.filter _).map sizeBytes).sum_eq]

variable {p : Placement}

variable (p) in
lemma tally_cons (l : List Placement) :
    tally (p :: l) = adjustPlacementStats (tally l) p.tier 1 p.sizeBytes := by
  funext tier
  by_cases htier : p.tier = tier
  · simp [tally, adjustPlacementStats, htier, Int.add_comm]
  · simp [tally, adjustPlacementStats, htier, Ne.symm htier]

lemma adjust_adjust (stats : Tier → TierPlacementStats) (tier : Tier) (a b a' b' : Int) :
    adjustPlacementStats (adjustPlacementStats stats tier a b) tier a' b'
      = adjustPlacementStats stats tier (a + a') (b + b') := by
  funext t
  by_cases ht : t = tier <;> simp [adjustPlacementStats, ht, add_assoc]

lemma tally_replace (new old : Placement) (l : List Placement) (htier : new.tier = old.tier) :
    tally (new :: l)
      = adjustPlacementStats (tally (old :: l)) new.tier 0 (new.sizeBytes - old.sizeBytes) := by
  rw [tally_cons, tally_cons, htier, adjust_adjust]
  congr 1
  omega

variable (p) in
lemma dropPlacementStats_cons (l : List Placement) :
    dropPlacementStats (tally (p :: l)) p = tally l := by
  rw [dropPlacementStats, tally_cons, adjust_adjust, Int.add_right_neg, Int.add_right_neg]
  funext t
  simp [adjustPlacementStats]

lemma foldl_dropPlacementStats (gone l : List Placement) :
    gone.foldl dropPlacementStats (tally (gone ++ l)) = tally l := by
  induction gone with
  | nil => rfl
  | cons p gone ih => rw [cons_append, foldl_cons, dropPlacementStats_cons, ih]

/-! ## The placements of a key -/

variable {placements : List Placement} {batch : CacheEventBatch Digest}
  {entry : CacheEventEntry Digest}

section Placements

lemma findPlacement_some {i : Nat} (h : findPlacement placements batch = some i) :
    ∃ old, placements[i]? = some old ∧ old.matchesBatch batch ∧
      placements.Perm (old :: placements.eraseIdx i) ∧
      ∀ new, (placements.set i new).Perm (new :: placements.eraseIdx i) := by
  obtain ⟨hlt, hmatch, -⟩ := findIdx?_eq_some_iff_getElem.mp h
  exact ⟨placements[i], getElem?_eq_getElem hlt, hmatch,
    (getElem_cons_eraseIdx_perm hlt).symm, fun new => set_perm_cons_eraseIdx hlt new⟩

lemma stored_ne_nil : stored batch entry placements ≠ [] := by
  unfold stored
  split
  · simp
  · rename_i i hi
    obtain ⟨old, -, -, -, hset⟩ := findPlacement_some hi
    intro hnil
    simpa [hnil] using (hset (placementOf batch entry)).length_eq

lemma mem_stored (h : p ∈ stored batch entry placements) :
    p = placementOf batch entry ∨ p ∈ placements := by
  unfold stored at h
  split at h
  · simpa [or_comm] using h
  · rename_i i hi
    obtain ⟨old, -, -, hperm, hset⟩ := findPlacement_some hi
    rcases mem_cons.mp ((hset _).mem_iff.mp h) with rfl | h
    · exact .inl rfl
    · exact .inr (hperm.mem_iff.mpr (mem_cons_of_mem _ h))

lemma tally_stored (others : List Placement) : tally (stored batch entry placements ++ others)
      = storedStats (tally (placements ++ others)) batch entry placements := by
  unfold stored storedStats
  cases hfind : findPlacement placements batch with
  | none =>
    have hperm : (placements ++ [placementOf batch entry] ++ others).Perm
        (placementOf batch entry :: (placements ++ others)) := by
      rw [append_assoc]
      exact perm_middle
    exact (tally_perm hperm).trans (tally_cons _ _)
  | some i =>
    obtain ⟨old, hold, hmatch, hperm, hset⟩ := findPlacement_some hfind
    have htier : (placementOf batch entry).tier = old.tier := (of_decide_eq_true hmatch).2.2.1.symm
    dsimp only
    rw [tally_perm ((hset _).append_right others), tally_perm (hperm.append_right others), hold]
    exact tally_replace _ _ _ htier

lemma tally_deleted (others : List Placement) : tally (deleted batch placements ++ others)
      = deletedStats (tally (placements ++ others)) batch placements := by
  unfold deleted deletedStats
  cases hfind : findPlacement placements batch with
  | none => rfl
  | some i =>
    obtain ⟨old, hold, hmatch, hperm, -⟩ := findPlacement_some hfind
    dsimp only
    rw [tally_perm (hperm.append_right others), hold]
    exact (dropPlacementStats_cons _ _).symm

lemma deleted_sublist : (deleted batch placements).Sublist placements := by
  unfold deleted
  split
  · exact .refl _
  · exact eraseIdx_sublist ..

end Placements

/-! ## The keys of a chunk -/

variable {table : Dict Digest (TokenBinding Digest)} {binding : TokenBinding Digest}
  {bindings : TokenBindings Digest}

namespace TokenBindings

variable [DecidableEq Digest]

/-- The keys that the binding of a chunk hash lists. -/
def keysAt (table : Dict Digest (TokenBinding Digest)) (chunkHash : Digest) :
    List (ObjectKey Digest) :=
  (table.get? chunkHash).elim [] TokenBinding.keys

/-- The bindings list exactly these keys, each under its chunk hash, and no
binding is left without keys. -/
structure Lists (table : Dict Digest (TokenBinding Digest)) (P : ObjectKey Digest → Prop) :
    Prop where
  keys : ∀ chunkHash key, key ∈ keysAt table chunkHash ↔ P key ∧ key.chunkHash = chunkHash
  nodup : ∀ chunkHash, (keysAt table chunkHash).Nodup
  nonempty : ∀ chunkHash ∈ table, keysAt table chunkHash ≠ []

lemma Lists.congr {P Q : ObjectKey Digest → Prop} (h : Lists table P) (hPQ : ∀ key, Q key ↔ P key) :
    Lists table Q :=
  ⟨fun chunkHash key => by rw [h.keys, hPQ], h.nodup, h.nonempty⟩

variable (table) in
lemma keysAt_set (chunkHash : Digest) (h : Digest) : keysAt (table.set chunkHash binding) h =
      if h = chunkHash then binding.keys else keysAt table h := by
  simp only [keysAt, get?_set]
  split <;> rfl

variable {P : ObjectKey Digest → Prop}

variable (bindings) in
@[simp] lemma table_claimBinding (chunkHash : Digest) (key : ObjectKey Digest) :
    (bindings.claimBinding chunkHash binding key).table = bindings.table := by
  unfold claimBinding
  split <;> rfl

@[simp] lemma table_foldl_claimBinding (keys : List (ObjectKey Digest)) (chunkHash : Digest)
    (bindings : TokenBindings Digest) :
    (keys.foldl (fun b held => b.claimBinding chunkHash binding held) bindings).table
      = bindings.table :=
  foldl_frame table (fun _ _ => table_claimBinding ..) keys bindings

variable (bindings) in
lemma table_addTokenBinding (key : ObjectKey Digest) :
    ∃ binding, binding.keys = (keysAt bindings.table key.chunkHash).insert key ∧
      (bindings.addTokenBinding key).table = bindings.table.set key.chunkHash binding := by
  unfold addTokenBinding
  split
  · rename_i hnone
    exact ⟨⟨[], unknownTokenOffset, [key]⟩, by simp [keysAt, hnone], rfl⟩
  · rename_i binding hsome
    exact ⟨{ binding with keys := binding.keys.insert key }, by simp [keysAt, hsome], by
      rw [table_claimBinding]; rfl⟩

lemma table_removeTokenBinding {key : ObjectKey Digest}
    (h : bindings.table.get? key.chunkHash = some binding) :
    (bindings.removeTokenBinding key).table =
      if binding.keys.erase key = [] then bindings.table.erase key.chunkHash
      else bindings.table.set key.chunkHash { binding with keys := binding.keys.erase key } := by
  simp only [removeTokenBinding, h]
  split <;> split <;> rfl

variable (bindings) in
lemma table_createTokenBinding (key : ObjectKey Digest) (entry : CacheEventEntry Digest) :
    (bindings.createTokenBinding key entry).table = bindings.table ∨
      ∃ binding filled, bindings.table.get? key.chunkHash = some binding ∧
      filled.keys = binding.keys ∧ (bindings.createTokenBinding key entry).table
      = bindings.table.set key.chunkHash filled := by
  unfold createTokenBinding
  split
  · rename_i tokenIds binding _ hsome
    refine .inr ⟨binding, { binding with tokenIds, tokenOffset := entry.tokenOffset }, hsome, rfl, ?_⟩
    dsimp only
    split <;> split <;> simp [setBinding]
  · exact .inl rfl

section

variable (h : Lists bindings.table P)
include h

lemma Lists.addTokenBinding (key : ObjectKey Digest) :
    Lists (bindings.addTokenBinding key).table fun k => k = key ∨ P k := by
  obtain ⟨binding, hkeys, htable⟩ := bindings.table_addTokenBinding key
  rw [htable]
  refine ⟨fun chunkHash k => ?_, fun chunkHash => ?_, fun chunkHash hmem => ?_⟩
  · rw [keysAt_set]
    split_ifs with hhash
    · subst hhash
      rw [hkeys, mem_insert_iff, h.keys]
      constructor
      · rintro (rfl | ⟨hk, hhash⟩)
        · exact ⟨.inl rfl, rfl⟩
        · exact ⟨.inr hk, hhash⟩
      · rintro ⟨rfl | hk, hhash⟩
        · exact .inl rfl
        · exact .inr ⟨hk, hhash⟩
    · rw [h.keys]
      constructor
      · exact fun hk => ⟨.inr hk.1, hk.2⟩
      · rintro ⟨rfl | hk, rfl⟩
        · exact absurd rfl hhash
        · exact ⟨hk, rfl⟩
  · rw [keysAt_set]
    split
    · exact hkeys ▸ (h.nodup _).insert
    · exact h.nodup chunkHash
  · rw [keysAt_set]
    split_ifs with hhash
    · exact ne_nil_of_mem (hkeys ▸ mem_insert_self)
    · exact h.nonempty chunkHash ((mem_set.mp hmem).resolve_left hhash)

lemma Lists.removeTokenBinding {key : ObjectKey Digest} (hkey : P key) :
    Lists (bindings.removeTokenBinding key).table fun k => P k ∧ k ≠ key := by
  have hmem : key ∈ keysAt bindings.table key.chunkHash := (h.keys _ key).mpr ⟨hkey, rfl⟩
  obtain ⟨binding, hsome⟩ : ∃ binding, bindings.table.get? key.chunkHash = some binding := by
    cases hget : bindings.table.get? key.chunkHash with
    | none => simp [keysAt, hget] at hmem
    | some binding => exact ⟨binding, rfl⟩
  have hkeys : keysAt bindings.table key.chunkHash = binding.keys := by simp [keysAt, hsome]
  -- Either way the binding of the hash lists the keys without this one.
  have hafter : ∀ chunkHash, keysAt (bindings.removeTokenBinding key).table chunkHash =
      if chunkHash = key.chunkHash then binding.keys.erase key
      else keysAt bindings.table chunkHash := by
    intro chunkHash
    rw [table_removeTokenBinding hsome]
    split
    · rename_i hnil
      simp only [keysAt, get?_erase, hnil]
      split <;> rfl
    · rw [keysAt_set]
  have hnodup : binding.keys.Nodup := hkeys ▸ h.nodup _
  refine ⟨fun chunkHash k => ?_, fun chunkHash => ?_, fun chunkHash hin => ?_⟩
  · rw [hafter]
    split
    · rename_i hhash
      rw [hnodup.mem_erase_iff, ← hkeys, h.keys, hhash]
      tauto
    · rename_i hhash
      rw [h.keys]
      constructor
      · rintro ⟨hk, rfl⟩
        exact ⟨⟨hk, fun hk => hhash (hk ▸ rfl)⟩, rfl⟩
      · exact fun hk => ⟨hk.1.1, hk.2⟩
  · rw [hafter]
    split
    · exact hnodup.erase key
    · exact h.nodup chunkHash
  · rw [table_removeTokenBinding hsome] at hin
    rw [hafter]
    by_cases hhash : chunkHash = key.chunkHash
    · rw [if_pos hhash]
      intro hnil
      rw [if_pos hnil, mem_erase] at hin
      exact hin.1 hhash
    · rw [if_neg hhash]
      refine h.nonempty chunkHash ?_
      split at hin
      · exact (mem_erase.mp hin).2
      · exact (mem_set.mp hin).resolve_left hhash

lemma Lists.createTokenBinding (key : ObjectKey Digest) (entry : CacheEventEntry Digest) :
    Lists (bindings.createTokenBinding key entry).table P := by
  obtain htable | ⟨binding, filled, hsome, hfilled, htable⟩ :=
    bindings.table_createTokenBinding key entry
  · rw [htable]
    exact h
  · have hkeys : ∀ chunkHash, keysAt (bindings.createTokenBinding key entry).table chunkHash
        = keysAt bindings.table chunkHash := by
      intro chunkHash
      rw [htable, keysAt_set]
      split
      · rename_i hhash
        simp [keysAt, hhash, hsome, hfilled]
      · rfl
    refine ⟨fun chunkHash k => by rw [hkeys, h.keys], fun chunkHash => hkeys chunkHash ▸ h.nodup _,
      fun chunkHash hin => ?_⟩
    rw [hkeys]
    rw [htable, Dict.mem_set] at hin
    rcases hin with rfl | hin
    · exact h.nonempty _ (mem_iff_get?.mpr ⟨binding, hsome⟩)
    · exact h.nonempty _ hin

end

end TokenBindings

/-! ## The stored placements -/

variable {d : KeyDirectory Digest} {directory : Dict (ObjectKey Digest) KeyRecord}
  {record : KeyRecord}

namespace KeyDirectory

variable {blend : Option (Nat × Nat)}

lemma new_empty (h : new blend = .ok d) : d.directory = ∅ ∧ d.l1KeysByInstance = ∅ := by
  obtain ⟨idx, -, h⟩ := bind_ok h
  cases h
  exact ⟨rfl, rfl⟩

variable (directory) in
/-- The stored placements, each with its key. -/
def placed : List (ObjectKey Digest × Placement) :=
  directory.flat KeyRecord.placements

variable (d) in
/-- The totals are those of the stored placements. -/
def Tallied : Prop :=
  d.placementStats = tally ((placed d.directory).map Prod.snd)

variable {key : ObjectKey Digest}

lemma tally_placed {others : List (ObjectKey Digest × Placement)}
    (h : (placed directory).Perm (l.map (Prod.mk key) ++ others)) :
    tally ((placed directory).map Prod.snd) = tally (l ++ others.map Prod.snd) := by
  refine tally_perm ((h.map Prod.snd).trans ?_)
  simp

variable [DecidableEq Digest]

/-- The placements of a key. -/
def placementsAt (directory : Dict (ObjectKey Digest) KeyRecord) (key : ObjectKey Digest) :
    List Placement :=
  (directory.get? key).elim [] KeyRecord.placements

section

variable (directory) (key : ObjectKey Digest) (record : KeyRecord) (placements : List Placement)
  (j : ObjectKey Digest)

lemma placed_at : (placed directory).Perm
      ((placementsAt directory key).map (Prod.mk key) ++ placed (directory.erase key)) :=
  directory.flat_at _ key

lemma placed_set : (placed (directory.set key record)).Perm
      (record.placements.map (Prod.mk key) ++ placed (directory.erase key)) :=
  directory.flat_set _ key record

lemma placed_putPlacements : (placed (putPlacements directory key record placements)).Perm
      (placements.map (Prod.mk key) ++ placed (directory.erase key)) := by
  unfold putPlacements
  split_ifs with hnil
  · rw [hnil]
    exact .refl _
  · exact placed_set directory key { record with placements }

lemma get?_putPlacements : (putPlacements directory key record placements).get? j =
      if j = key then (if placements = [] then none else some { record with placements })
      else directory.get? j := by
  unfold putPlacements
  split
  · rw [get?_erase]
  · rw [get?_set]

lemma placements_getD :
    ((directory.get? key).getD {}).placements = placementsAt directory key := by
  rw [placementsAt]
  cases directory.get? key <;> rfl

lemma placementsAt_set : placementsAt (directory.set key record) j =
      if j = key then record.placements else placementsAt directory j := by
  simp only [placementsAt, get?_set]
  split <;> rfl

lemma placementsAt_putPlacements : placementsAt (putPlacements directory key record placements) j =
      if j = key then placements else placementsAt directory j := by
  simp only [placementsAt, get?_putPlacements]
  split
  · by_cases hnil : placements = [] <;> simp [hnil]
  · rfl

end

lemma placementsAt_of (h : directory.get? key = some record) :
    placementsAt directory key = record.placements := by
  rw [placementsAt, h, Option.elim_some]

lemma tallied_storeEntry (h : d.Tallied) : (d.storeEntry batch entry).Tallied := by
  simp only [Tallied, storeEntry, placements_getD] at h ⊢
  rw [h, tally_placed (placed_set _ _ _), tally_placed (placed_at d.directory entry.key)]
  exact (tally_stored _).symm

lemma tallied_deleteEntry (h : d.Tallied) : (d.deleteEntry batch entry).Tallied := by
  unfold deleteEntry
  split
  · exact h
  · rename_i record hrecord
    simp only [Tallied] at h ⊢
    rw [h, tally_placed (placed_putPlacements _ _ _ _), tally_placed (placed_at d.directory entry.key),
      placementsAt_of hrecord]
    exact (tally_deleted _).symm

lemma tallied_accessEntry (h : d.Tallied) : (d.accessEntry batch entry).Tallied := by
  unfold accessEntry
  split
  · exact h
  · rename_i record hrecord
    simp only [Tallied] at h ⊢
    rw [h, tally_placed (placed_set _ _ _), tally_placed (placed_at d.directory entry.key),
      placementsAt_of hrecord]

variable (instanceId : String)

lemma tallied_dropKey (key : ObjectKey Digest) (h : d.Tallied) :
    (d.dropKey instanceId key).Tallied := by
  unfold dropKey
  split
  · exact h
  · rename_i record hrecord
    simp only [Tallied] at h ⊢
    have hsplit : (record.placements.filter (·.isL1Of instanceId) ++
        record.placements.filter (fun p => ¬ p.isL1Of instanceId)).Perm record.placements := by
      simpa using filter_append_perm (·.isL1Of instanceId) record.placements
    rw [h, tally_placed (placed_putPlacements _ _ _ _), tally_placed (placed_at d.directory key),
      placementsAt_of hrecord, ← tally_perm (hsplit.append_right _), append_assoc,
      foldl_dropPlacementStats]

/-! ## Sound directories -/

/-- What the other structures owe to the records. -/
structure Sound (d : KeyDirectory Digest) : Prop where
  tallied : d.Tallied
  placements_ne : ∀ key ∈ d.directory, placementsAt d.directory key ≠ []
  lists : TokenBindings.Lists d.bindings.table (· ∈ d.directory)
  covered : ∀ key, ∀ p ∈ placementsAt d.directory key, p.tier = .l1 → key ∈ d.l1Keys p.instanceId

lemma mem_putPlacements {j : ObjectKey Digest} (hkey : key ∈ directory) :
    j ∈ putPlacements directory key record placements ↔
      j ∈ directory ∧ (j = key → placements ≠ []) := by
  unfold putPlacements
  split
  · rename_i hnil
    rw [mem_erase]
    simp [hnil, and_comm]
  · rename_i hne
    rw [Dict.mem_set]
    constructor
    · rintro (rfl | hj)
      · exact ⟨hkey, fun _ => hne⟩
      · exact ⟨hj, fun _ => hne⟩
    · exact fun hj => .inr hj.1

variable (d) in
lemma l1Keys_storeEntry (batch : CacheEventBatch Digest) (entry : CacheEventEntry Digest)
    (instanceId : String) : (d.storeEntry batch entry).l1Keys instanceId =
      if batch.tier = .l1 ∧ instanceId = batch.instanceId
      then (d.l1Keys instanceId).insert entry.key else d.l1Keys instanceId := by
  simp only [l1Keys, storeEntry]
  by_cases htier : batch.tier = .l1
  · rw [if_pos htier, get?_set]
    by_cases hid : instanceId = batch.instanceId <;> simp [htier, hid]
  · simp [htier]

section

variable (h : d.Sound)
include h

lemma sound_storeEntry : (d.storeEntry batch entry).Sound where
  tallied := tallied_storeEntry h.tallied
  placements_ne key hkey := by
    simp only [storeEntry, placementsAt_set]
    split_ifs with hne
    · exact stored_ne_nil
    · exact h.placements_ne key ((mem_set.mp hkey).resolve_left hne)
  lists := by
    have hjoined : TokenBindings.Lists (if entry.key ∈ d.directory then d.bindings
        else d.bindings.addTokenBinding entry.key).table
        (· ∈ (d.storeEntry batch entry).directory) := by
      split_ifs with hmem
      · refine h.lists.congr fun key => mem_set.trans ?_
        exact or_iff_right_of_imp fun hk => hk ▸ hmem
      · exact (h.lists.addTokenBinding entry.key).congr fun key => mem_set
    show TokenBindings.Lists (if entry.tokenIds ≠ [] then _ else _ : TokenBindings Digest).table _
    split
    · exact hjoined.createTokenBinding entry.key entry
    · exact hjoined
  covered key p hp htier := by
    have hold : key ∈ d.l1Keys p.instanceId → key ∈ (d.storeEntry batch entry).l1Keys p.instanceId := by
      intro hkey
      rw [l1Keys_storeEntry]
      split
      · exact mem_insert_of_mem hkey
      · exact hkey
    simp only [storeEntry, placementsAt_set, placements_getD] at hp
    split_ifs at hp with hkey
    · rcases mem_stored hp with rfl | hp
      · rw [l1Keys_storeEntry, if_pos ⟨htier, rfl⟩, hkey]
        exact mem_insert_self
      · exact hold (h.covered key p (hkey ▸ hp) htier)
    · exact hold (h.covered key p hp htier)

omit h in
lemma l1Keys_deleteEntry (hrecord : d.directory.get? entry.key = some record)
    (instanceId : String) : (d.deleteEntry batch entry).l1Keys instanceId =
      if instanceId = batch.instanceId ∧ batch.tier = .l1 ∧
      ¬ (deleted batch record.placements).any (·.isL1Of batch.instanceId)
      then (d.l1Keys instanceId).erase entry.key else d.l1Keys instanceId := by
  simp only [l1Keys, deleteEntry, hrecord]
  by_cases hid : instanceId = batch.instanceId
  · subst hid
    simp only [true_and]
    split
    · rw [get?_set_self]
      rfl
    · rfl
  · simp only [hid, false_and, if_false]
    split
    · rw [get?_set_ne _ _ hid]
    · rfl

/-- Taking placements from a key keeps the rest in step: the key leaves its
binding with its last placement. -/
lemma Sound.putPlacements {after : KeyDirectory Digest}
    (hrecord : d.directory.get? key = some record) (kept : List Placement)
    (hdirectory : after.directory = putPlacements d.directory key record kept)
    (hbindings : after.bindings =
      if kept = [] then d.bindings.removeTokenBinding key else d.bindings)
    (htallied : after.Tallied)
    (hcovered : ∀ p ∈ kept, p.tier = .l1 → key ∈ after.l1Keys p.instanceId)
    (hothers : ∀ j, j ≠ key → ∀ instanceId, j ∈ d.l1Keys instanceId → j ∈ after.l1Keys instanceId) :
    after.Sound := by
  have hmem : key ∈ d.directory := mem_iff_get?.mpr ⟨record, hrecord⟩
  refine ⟨htallied, fun j hj => ?_, ?_, fun j p hp htier => ?_⟩
  · rw [hdirectory, mem_putPlacements hmem] at hj
    rw [hdirectory, placementsAt_putPlacements]
    split_ifs with heq
    · exact hj.2 heq
    · exact h.placements_ne j hj.1
  · rw [hbindings, hdirectory]
    split
    · rename_i hnil
      refine (h.lists.removeTokenBinding hmem).congr fun j => ?_
      rw [mem_putPlacements hmem]
      simp [hnil]
    · rename_i hne
      exact h.lists.congr fun j => by simp [mem_putPlacements hmem, hne]
  · rw [hdirectory, placementsAt_putPlacements] at hp
    split at hp
    · rename_i heq
      exact heq ▸ hcovered p hp htier
    · rename_i hne
      exact hothers j hne _ (h.covered j p hp htier)

lemma sound_deleteEntry : (d.deleteEntry batch entry).Sound := by
  cases hrecord : d.directory.get? entry.key with
  | none =>
    have hsame : d.deleteEntry batch entry = d := by simp [deleteEntry, hrecord]
    rwa [hsame]
  | some record =>
    refine h.putPlacements hrecord (deleted batch record.placements)
      (by simp [deleteEntry, hrecord]) (by simp [deleteEntry, hrecord])
      (tallied_deleteEntry h.tallied) (fun p hp htier => ?_) fun j hj instanceId hin => ?_
    · -- The key is discarded only when the emitter has no L1 placement left.
      rw [l1Keys_deleteEntry hrecord, if_neg]
      · exact h.covered entry.key p (placementsAt_of hrecord ▸ deleted_sublist.subset hp) htier
      · rintro ⟨hid, -, hnone⟩
        refine hnone (any_eq_true.mpr ⟨p, hp, ?_⟩)
        simp [isL1Of, htier, hid]
    · rw [l1Keys_deleteEntry hrecord]
      split
      · exact (mem_erase_of_ne hj).mpr hin
      · exact hin

lemma sound_accessEntry : (d.accessEntry batch entry).Sound := by
  cases hrecord : d.directory.get? entry.key with
  | none =>
    have hsame : d.accessEntry batch entry = d := by simp [accessEntry, hrecord]
    rwa [hsame]
  | some record =>
    have hmem : entry.key ∈ d.directory := mem_iff_get?.mpr ⟨record, hrecord⟩
    have hat : ∀ key, placementsAt (d.accessEntry batch entry).directory key
        = placementsAt d.directory key := by
      intro key
      simp only [accessEntry, hrecord, placementsAt_set]
      split_ifs with hkey
      · rw [hkey, placementsAt_of hrecord]
      · rfl
    have hsame : ∀ key, key ∈ (d.accessEntry batch entry).directory ↔ key ∈ d.directory := by
      intro key
      simp only [accessEntry, hrecord]
      exact mem_set.trans (or_iff_right_of_imp fun hk => hk ▸ hmem)
    have hlists : (d.accessEntry batch entry).bindings = d.bindings := by
      simp [accessEntry, hrecord]
    refine ⟨tallied_accessEntry h.tallied, fun key hkey => ?_, ?_, fun key p hp htier => ?_⟩
    · rw [hat]
      exact h.placements_ne key ((hsame key).mp hkey)
    · rw [hlists]
      exact h.lists.congr hsame
    · rw [hat] at hp
      have hin := h.covered key p hp htier
      simpa [accessEntry, hrecord, l1Keys] using hin

variable (batch entry) in
lemma sound_applyEntry : (d.applyEntry batch entry).Sound := by
  unfold applyEntry
  cases batch.eventType with
  | store => exact sound_storeEntry h
  | delete => exact sound_deleteEntry h
  | access => exact sound_accessEntry h
  | config => exact h

lemma sound_withInstance : (d.withInstance instanceId).Sound := by
  have hl1Keys : ∀ id, (d.withInstance instanceId).l1Keys id = d.l1Keys id := by
    intro id
    unfold withInstance
    split_ifs with hnew
    · rfl
    · simp only [l1Keys, get?_set]
      split_ifs with hid
      · rw [hid, not_mem_iff_get?.mp hnew]
        rfl
      · rfl
  have hrest : (d.withInstance instanceId).directory = d.directory ∧
      (d.withInstance instanceId).placementStats = d.placementStats ∧
      (d.withInstance instanceId).bindings = d.bindings := by
    unfold withInstance
    split <;> exact ⟨rfl, rfl, rfl⟩
  obtain ⟨hdirectory, hstats, hbindings⟩ := hrest
  exact ⟨by rw [Tallied, hstats, hdirectory]; exact h.tallied,
    by rw [hdirectory]; exact h.placements_ne, by rw [hbindings, hdirectory]; exact h.lists,
    fun key p hp => by rw [hl1Keys]; exact h.covered key p (hdirectory ▸ hp)⟩

variable (batch) in
lemma sound_consume : (d.consume batch).Sound :=
  run_always Sound (fun _ entry hd => sound_applyEntry batch entry hd)
    (sound_withInstance batch.instanceId h) batch.entries

end

/-! ## Fences -/

/-- A record without the L1 placements of an instance, and none without
placements. -/
def keep (instanceId : String) (record : KeyRecord) : Option KeyRecord :=
  let kept := record.placements.filter fun p => ¬ p.isL1Of instanceId
  if kept = [] then none else some { record with placements := kept }

lemma keep_of_keep {instanceId : String} {kept : KeyRecord}
    (h : keep instanceId record = some kept) : keep instanceId kept = some kept := by
  unfold keep at h
  dsimp only at h
  split at h
  · cases h
  · rename_i hne
    cases h
    have hidem : (record.placements.filter fun p => ¬ p.isL1Of instanceId).filter
        (fun p => ¬ p.isL1Of instanceId) = record.placements.filter fun p => ¬ p.isL1Of instanceId := by
      simp
    simp only [keep, hidem, if_neg hne]

variable (d) in
lemma get?_dropKey (instanceId : String) (key j : ObjectKey Digest) :
    (d.dropKey instanceId key).directory.get? j =
      if j = key then (d.directory.get? key).bind (keep instanceId) else d.directory.get? j := by
  unfold dropKey
  split
  · rename_i hnone
    by_cases hj : j = key <;> simp [hj, hnone]
  · rename_i record hrecord
    rw [get?_putPlacements, hrecord]
    rfl

variable (d) in
lemma l1KeysByInstance_dropKey (instanceId : String) (key : ObjectKey Digest) :
    (d.dropKey instanceId key).l1KeysByInstance = d.l1KeysByInstance := by
  unfold dropKey
  split <;> rfl

lemma sound_dropKey (key : ObjectKey Digest) (h : d.Sound) : (d.dropKey instanceId key).Sound := by
  have hl1Keys : ∀ id, (d.dropKey instanceId key).l1Keys id = d.l1Keys id := fun id => by
    rw [l1Keys, l1KeysByInstance_dropKey, l1Keys]
  cases hrecord : d.directory.get? key with
  | none =>
    have hsame : d.dropKey instanceId key = d := by simp [dropKey, hrecord]
    rwa [hsame]
  | some record =>
    refine h.putPlacements hrecord (record.placements.filter fun p => ¬ p.isL1Of instanceId)
      (by simp [dropKey, hrecord]) (by simp [dropKey, hrecord])
      (tallied_dropKey instanceId key h.tallied) (fun p hp htier => ?_) fun j _ id hin => ?_
    · rw [hl1Keys]
      exact h.covered key p (placementsAt_of hrecord ▸ (mem_filter.mp hp).1) htier
    · rwa [hl1Keys]

lemma dropKeys_spec (keys : List (ObjectKey Digest)) (h : d.Sound) :
    (keys.foldl (fun d key => d.dropKey instanceId key) d).Sound ∧
      (keys.foldl (fun d key => d.dropKey instanceId key) d).l1KeysByInstance = d.l1KeysByInstance ∧
      ∀ j, (keys.foldl (fun d key => d.dropKey instanceId key) d).directory.get? j =
      if j ∈ keys then (d.directory.get? j).bind (keep instanceId) else d.directory.get? j := by
  induction keys generalizing d with
  | nil => exact ⟨h, rfl, fun j => rfl⟩
  | cons key keys ih =>
    obtain ⟨hsound, hl1, hget⟩ := ih (sound_dropKey instanceId key h)
    refine ⟨hsound, hl1.trans (l1KeysByInstance_dropKey d instanceId key), fun j => ?_⟩
    rw [foldl_cons, hget, get?_dropKey]
    by_cases hj : j = key
    · subst hj
      simp only [mem_cons]
      split
      · -- A key visited twice: the second visit finds nothing.
        cases hkept : (d.directory.get? j).bind (keep instanceId) with
        | none => rfl
        | some kept =>
          obtain ⟨record, -, hrecord⟩ := Option.bind_eq_some_iff.mp hkept
          exact keep_of_keep hrecord
      · rfl
    · simp [hj]

/-- The records after a fence, whether or not the reverse index names them. -/
lemma get?_fenceInstance (h : d.Sound) (key : ObjectKey Digest) :
    (d.fenceInstance instanceId).directory.get? key
      = (d.directory.get? key).bind (keep instanceId) := by
  obtain ⟨-, -, hget⟩ := dropKeys_spec instanceId (d.l1Keys instanceId) h
  refine (hget key).trans ?_
  split_ifs with hnot
  · rfl
  · cases hrecord : d.directory.get? key with
    | none => rfl
    | some record =>
      have hall : record.placements.filter (fun p => ¬ p.isL1Of instanceId) = record.placements := by
        rw [filter_eq_self]
        intro p hp
        have hcovered := h.covered key p (placementsAt_of hrecord ▸ hp)
        simp only [isL1Of, decide_eq_true_eq, not_and]
        intro htier hid
        exact hnot (hid ▸ hcovered htier)
      have hne : record.placements ≠ [] :=
        placementsAt_of hrecord ▸ h.placements_ne key (mem_iff_get?.mpr ⟨record, hrecord⟩)
      simp only [Option.bind_some, keep, hall, if_neg hne]

lemma sound_fenceInstance (h : d.Sound) : (d.fenceInstance instanceId).Sound := by
  obtain ⟨hsound, hl1, -⟩ := dropKeys_spec instanceId (d.l1Keys instanceId) h
  refine ⟨hsound.tallied, hsound.placements_ne, hsound.lists, fun key p hp htier => ?_⟩
  have hin := hsound.covered key p hp htier
  simp only [l1Keys, fenceInstance, get?_erase]
  split
  · -- No L1 placement of the fenced instance is left.
    rename_i hid
    exfalso
    rw [placementsAt, get?_fenceInstance instanceId h] at hp
    cases hkept : (d.directory.get? key).bind (keep instanceId) with
    | none =>
      rw [hkept] at hp
      cases hp
    | some kept =>
      rw [hkept] at hp
      obtain ⟨record, -, hrecord⟩ := Option.bind_eq_some_iff.mp hkept
      unfold keep at hrecord
      dsimp only at hrecord
      split at hrecord
      · cases hrecord
      · cases hrecord
        have hnot := (mem_filter.mp hp).2
        simp [isL1Of, htier, hid] at hnot
  · exact hin

/-! ## Runs -/

lemma sound_new (h : new blend = .ok d) : d.Sound := by
  obtain ⟨idx, -, h⟩ := bind_ok h
  cases h
  exact ⟨rfl, fun key hkey => absurd hkey (not_mem_empty key),
    ⟨fun chunkHash key => by simp [TokenBindings.keysAt],
      fun chunkHash => nodup_nil, fun chunkHash hin => absurd hin (not_mem_empty _)⟩,
    fun key p hp => by simp [placementsAt] at hp⟩

lemma table_bindChunkSize {after : TokenBindings Digest} {chunkSize : Nat}
    (h : bindings.bindChunkSize chunkSize = .ok after) : after.table = bindings.table := by
  unfold TokenBindings.bindChunkSize at h
  split at h
  · cases h
    rfl
  · obtain ⟨idx, -, h⟩ := bind_ok h
    cases h
    rfl

lemma sound_step (event : Event Digest) (h : d.Sound) : (d.step event).Sound := by
  cases event with
  | deliver signal =>
    cases signal with
    | broadcast batch => exact sound_consume batch h
    | fenceInstance instanceId => exact sound_fenceInstance instanceId h
  | bindChunkSize chunkSize =>
    simp only [step, bindChunkSize]
    cases hbind : d.bindings.bindChunkSize chunkSize with
    | error e => exact h
    | ok bindings =>
      exact ⟨h.tallied, h.placements_ne, (table_bindChunkSize hbind) ▸ h.lists, h.covered⟩

/-- Whatever arrives, the directory stays sound. -/
lemma sound_run (h : new blend = .ok d) (events : List (Event Digest)) :
    (run step d events).Sound :=
  run_always Sound (fun _ event hd => sound_step event hd) (sound_new h) events

end KeyDirectory

end LMCache.Coordinator
