/-
LMCache.Coordinator.DirectoryCheckpoint — capture and restore of the directory.

A capture writes the records, the content of the bindings and, for each
instance, the positions of its L1 keys among the records. Totals, the keys of
the bindings and the blend index are derived again by `restore`.

An object key is captured by five fields; its tags are not among them. A key
with tags comes back as the key without, and keys that differ in their tags
come back as one. The reverse index is captured as far as its keys are still in
the directory. `reproduces_reload_iff` says that nothing else is lost.
-/
import LMCache.Lib.Bytes
import LMCache.Coordinator.DirectoryInvariants

namespace LMCache.Coordinator

open Lib List TokenBindings
open Dict hiding keys
open Multiprocess (ObjectKey)

variable {Digest : Type}

/-! ## Encodings -/

/-- `EncodedKey`. -/
structure EncodedKey (Digest : Type) where
  chunkHash : Digest
  modelName : String
  kvRank : Nat
  objectGroupId : Nat
  cacheSalt : String
  deriving DecidableEq

section

variable (key : ObjectKey Digest)

/-- `encode_key`. -/
def encodeKey : EncodedKey Digest :=
  ⟨key.chunkHash, key.modelName, key.kvRank, key.objectGroupId, key.cacheSalt⟩

/-- `decode_key`. -/
def decodeKey (encoded : EncodedKey Digest) : ObjectKey Digest where
  chunkHash := encoded.chunkHash
  modelName := encoded.modelName
  kvRank := encoded.kvRank
  objectGroupId := encoded.objectGroupId
  cacheSalt := encoded.cacheSalt
  tags := []

/-- The tuple of `_encode_placement`; the tier goes by its value. -/
structure EncodedPlacement where
  instanceId : String
  incarnation : Nat
  tier : String
  backend : String
  sizeBytes : Nat
  shared : Bool

/-- `Tier.value`. -/
def Tier.value : Tier → String
  | .l1 => "l1"
  | .l2 => "l2"

/-- `Tier(value)`, and the check of `restore` that it is a concrete one. -/
def Tier.ofValue (value : String) : Except String Tier :=
  if value = "l1" then .ok .l1
  else if value = "l2" then .ok .l2
  else if value = "all" then .error "captured placements must use tier l1 or l2, got all"
  else .error "not a valid Tier"

/-- `_encode_placement`. -/
def encodePlacement (placement : Placement) : EncodedPlacement where
  instanceId := placement.instanceId
  incarnation := placement.incarnation
  tier := placement.tier.value
  backend := placement.backend
  sizeBytes := placement.sizeBytes
  shared := placement.shared

/-- `_decode_placement`. -/
def decodePlacement (encoded : EncodedPlacement) : Except String Placement :=
  (Tier.ofValue encoded.tier).map fun tier =>
    { instanceId := encoded.instanceId, incarnation := encoded.incarnation, tier
      backend := encoded.backend, sizeBytes := encoded.sizeBytes, shared := encoded.shared }

/-- `token_ids.astype("<u4").tobytes()`. -/
def tokenBytes (tokenIds : List UInt32) : Bytes := tokenIds.flatMap fun t => leBytes 4 t.toNat

/-- `np.frombuffer(raw, dtype="<u4")`. -/
def tokensOfBytes : Bytes → Except String (List UInt32)
  | [] => .ok []
  | a :: b :: c :: d :: rest =>
    (tokensOfBytes rest).map (UInt32.ofNat (leValue [a, b, c, d]) :: ·)
  | _ => .error "buffer size must be a multiple of element size"

/-! ### Round trips -/

/-- The key as a capture knows it. -/
def untagged : ObjectKey Digest := { key with tags := [] }

end

lemma untagged_eq_self_iff {key : ObjectKey Digest} : untagged key = key ↔ key.tags = [] := by
  cases key
  simp [untagged]

lemma Tier.ofValue_value (tier : Tier) : Tier.ofValue tier.value = .ok tier := by
  cases tier <;> rfl

lemma decodePlacement_encodePlacement (placement : Placement) :
    decodePlacement (encodePlacement placement) = .ok placement := by
  simp [decodePlacement, encodePlacement, Tier.ofValue_value, Except.map]

lemma tokensOfBytes_tokenBytes (tokenIds : List UInt32) :
    tokensOfBytes (tokenBytes tokenIds) = .ok tokenIds := by
  induction tokenIds with
  | nil => rfl
  | cons t tokenIds ih =>
    have hvalue : leValue (leBytes 4 t.toNat) = t.toNat :=
      leValue_leBytes (Nat.lt_of_lt_of_le t.toNat_lt (by decide))
    simp only [tokenBytes, flatMap_cons, leBytes, cons_append, nil_append,
      tokensOfBytes] at ih hvalue ⊢
    rw [ih, hvalue, UInt32.ofNat_toNat]
    rfl

/-! ## Capture and restore -/

/-- What a capture of the directory holds. -/
structure CapturedDirectory (Digest : Type) where
  keys : List (EncodedKey Digest × Nat × Nat × List EncodedPlacement)
  bindings : List (Digest × Int × Bytes)
  l1KeysByInstance : List (String × List Int)

namespace KeyDirectory

variable [DecidableEq Digest]

/-- `capture`. -/
def capture (d : KeyDirectory Digest) : CapturedDirectory Digest where
  keys := d.directory.entries.map fun p =>
    (encodeKey p.1, p.2.lastAccess, p.2.accessCount, p.2.placements.map encodePlacement)
  bindings := d.bindings.table.entries.map fun p =>
    (p.1, p.2.tokenOffset, tokenBytes p.2.tokenIds)
  l1KeysByInstance := d.l1KeysByInstance.entries.map fun p =>
    (p.1, p.2.filterMap fun key => (d.directory.keys.idxOf? key).map Int.ofNat)

/-- A captured record. -/
def restoreKey (d : KeyDirectory Digest)
    (captured : EncodedKey Digest × Nat × Nat × List EncodedPlacement) :
    Except String (KeyDirectory Digest) := do
  let (encoded, lastAccess, accessCount, encodedPlacements) := captured
  let placements ← encodedPlacements.mapM decodePlacement
  pure { d with
    directory := d.directory.set (decodeKey encoded) ⟨placements, lastAccess, accessCount⟩
    placementStats := placements.foldl
      (fun stats p => adjustPlacementStats stats p.tier 1 p.sizeBytes) d.placementStats
    bindings := d.bindings.addTokenBinding (decodeKey encoded) }

section

variable (keyTable : List (ObjectKey Digest)) (bindings : TokenBindings Digest)

/-- A captured binding; content that no key references has no owner. -/
def restoreBinding (captured : Digest × Int × Bytes) : Except String (TokenBindings Digest) :=
  let (chunkHash, tokenOffset, raw) := captured
  match bindings.table.get? chunkHash with
  | none => .ok bindings
  | some binding => do
    let tokenIds ← tokensOfBytes raw
    let filled := { binding with tokenIds, tokenOffset }
    pure (filled.keys.foldl (fun bindings held => bindings.claimBinding chunkHash filled held)
      (bindings.setBinding chunkHash filled))

/-- The key at a captured position of an instance's reverse index. -/
def keyAt (instanceId : String) (position : Int) : Except String (ObjectKey Digest) :=
  match if 0 ≤ position then keyTable[position.toNat]? else none with
  | some key => .ok key
  | none => .error s!"'{instanceId}' cites key position {position} of {keyTable.length}"

/-- The captured reverse index of an instance. -/
def restoreInstance (l1KeysByInstance : Dict String (List (ObjectKey Digest)))
    (captured : String × List Int) : Except String (Dict String (List (ObjectKey Digest))) := do
  let keys ← captured.2.mapM (keyAt keyTable captured.1)
  pure (l1KeysByInstance.set captured.1 keys.dedup)

/-- `restore`. -/
def restore (d : KeyDirectory Digest) (state : CapturedDirectory Digest) :
    Except String (KeyDirectory Digest) :=
  if d.directory.entries.isEmpty ∧ d.l1KeysByInstance.entries.isEmpty then do
    let loaded ← state.keys.foldlM restoreKey d
    let bindings ← state.bindings.foldlM restoreBinding loaded.bindings
    let l1KeysByInstance ← state.l1KeysByInstance.foldlM
      (restoreInstance (state.keys.map fun captured => decodeKey captured.1)) loaded.l1KeysByInstance
    pure { loaded with bindings, l1KeysByInstance }
  else .error s!"restore() requires an empty directory (holds {d.directory.keys.length} keys, {d.l1KeysByInstance.keys.length} instances)"

/-! ## What a capture restores

On a captured directory no step of `restore` raises, so `restore` is the loops
below, with the captured values in place of their encodings. -/

/-- A record, loaded. -/
def loadKey (d : KeyDirectory Digest) (p : ObjectKey Digest × KeyRecord) : KeyDirectory Digest :=
  { d with
    directory := d.directory.set (untagged p.1) p.2
    placementStats := p.2.placements.foldl
      (fun stats p => adjustPlacementStats stats p.tier 1 p.sizeBytes) d.placementStats
    bindings := d.bindings.addTokenBinding (untagged p.1) }

/-- The content of a binding, loaded. -/
def loadBinding (p : Digest × TokenBinding Digest) : TokenBindings Digest :=
  match bindings.table.get? p.1 with
  | none => bindings
  | some binding =>
    let filled := { p.2 with keys := binding.keys }
    filled.keys.foldl (fun bindings held => bindings.claimBinding p.1 filled held)
      (bindings.setBinding p.1 filled)

end

section

variable (directory : Dict (ObjectKey Digest) KeyRecord)

/-- The keys of a reverse index that a capture cites. -/
def citedKeys (l1Keys : List (ObjectKey Digest)) : List (ObjectKey Digest) :=
  ((l1Keys.filter fun key => key ∈ directory).map untagged).dedup

/-- The captured directory, loaded. -/
def reload (fresh d : KeyDirectory Digest) : KeyDirectory Digest :=
  let loaded := d.directory.entries.foldl loadKey fresh
  { loaded with
    bindings := d.bindings.table.entries.foldl loadBinding loaded.bindings
    l1KeysByInstance := d.l1KeysByInstance.entries.foldl
      (fun index p => index.set p.1 (citedKeys d.directory p.2)) loaded.l1KeysByInstance }

lemma mapM_keyAt (instanceId : String) (l1Keys : List (ObjectKey Digest)) :
    (l1Keys.filterMap fun key => (directory.keys.idxOf? key).map Int.ofNat).mapM
        (keyAt (directory.keys.map untagged) instanceId)
      = .ok ((l1Keys.filter fun key => key ∈ directory).map untagged) := by
  induction l1Keys with
  | nil => rfl
  | cons key l1Keys ih =>
    cases hpos : directory.keys.idxOf? key with
    | none =>
      have hnot : key ∉ directory := idxOf?_eq_none_iff.mp hpos
      simp [hpos, hnot, ih]
    | some i =>
      obtain ⟨hlt, hi, -⟩ := findIdx?_eq_some_iff_getElem.mp hpos
      have hkey : directory.keys[i]? = some key := by
        rw [getElem?_eq_getElem hlt, eq_of_beq hi]
      have hmem : key ∈ directory := mem_of_getElem? hkey
      simp [hpos, hmem, ih, keyAt, hkey]
      rfl

end

variable {fresh : KeyDirectory Digest}

/-- A capture is restored into a fresh directory without an error. -/
lemma restore_capture (hdirectory : fresh.directory = ∅) (hindex : fresh.l1KeysByInstance = ∅)
    (d : KeyDirectory Digest) : fresh.restore d.capture = .ok (fresh.reload d) := by
  have hkeys : d.capture.keys.foldlM restoreKey fresh
      = .ok (d.directory.entries.foldl loadKey fresh) := by
    rw [capture, foldlM_map]
    refine foldlM_ok (fun loaded p _ => ?_) fresh
    have hplacements : (p.2.placements.map encodePlacement).mapM decodePlacement
        = .ok p.2.placements := by
      simpa [Function.comp_def] using mapM_ok fun p _ => decodePlacement_encodePlacement p
    simp only [restoreKey, hplacements]
    rfl
  have hbindings : ∀ bindings, d.capture.bindings.foldlM restoreBinding bindings
      = .ok (d.bindings.table.entries.foldl loadBinding bindings) := by
    intro bindings
    rw [capture, foldlM_map]
    refine foldlM_ok (fun loaded p _ => ?_) bindings
    simp only [restoreBinding, loadBinding, tokensOfBytes_tokenBytes]
    split <;> rfl
  have hinstances : ∀ index, d.capture.l1KeysByInstance.foldlM
      (restoreInstance (d.capture.keys.map fun captured => decodeKey captured.1)) index
        = .ok (d.l1KeysByInstance.entries.foldl
          (fun index p => index.set p.1 (citedKeys d.directory p.2)) index) := by
    intro index
    have htable : (d.capture.keys.map fun captured => decodeKey captured.1)
        = d.directory.keys.map untagged := by
      simp [capture, Dict.keys, decodeKey, encodeKey, untagged]
    rw [htable, capture, foldlM_map]
    refine foldlM_ok (fun loaded p _ => ?_) index
    simp only [restoreInstance, mapM_keyAt]
    rfl
  have hempty : fresh.directory.entries.isEmpty ∧ fresh.l1KeysByInstance.entries.isEmpty := by
    rw [hdirectory, hindex]
    exact ⟨rfl, rfl⟩
  simp only [restore, if_pos hempty, hkeys, hbindings, hinstances]
  rfl

/-! ### The four structures after a reload -/

lemma foldl_loadKey (entries : List (ObjectKey Digest × KeyRecord)) (d : KeyDirectory Digest) :
    entries.foldl loadKey d =
      { directory := entries.foldl (fun t p => t.set (untagged p.1) p.2) d.directory
        placementStats := (entries.flatMap fun p => p.2.placements).foldl
          (fun stats p => adjustPlacementStats stats p.tier 1 p.sizeBytes) d.placementStats
        l1KeysByInstance := d.l1KeysByInstance
        bindings := entries.foldl (fun b p => b.addTokenBinding (untagged p.1)) d.bindings } := by
  induction entries generalizing d with
  | nil => rfl
  | cons p entries ih =>
    rw [foldl_cons, ih, flatMap_cons, foldl_append]
    rfl

lemma foldl_adjust (l others : List Placement) :
    l.foldl (fun stats p => adjustPlacementStats stats p.tier 1 p.sizeBytes) (tally others)
      = tally (l ++ others) := by
  induction l generalizing others with
  | nil => rfl
  | cons p l ih =>
    rw [foldl_cons, ← tally_cons, ih]
    exact tally_perm perm_middle

lemma placementStats_reload (hfresh : fresh.placementStats = tally []) (d : KeyDirectory Digest) :
    (fresh.reload d).placementStats = tally ((placed d.directory).map Prod.snd) := by
  have hplaced : (placed d.directory).map Prod.snd
      = d.directory.entries.flatMap fun p => p.2.placements := by
    simp [placed, flat, map_flatMap]
  simp only [reload, foldl_loadKey]
  rw [hfresh, foldl_adjust, append_nil, hplaced]

variable {d : KeyDirectory Digest} {key : ObjectKey Digest}

lemma mem_directory_reload (hfresh : fresh.directory = ∅) :
    key ∈ (fresh.reload d).directory ↔ ∃ held ∈ d.directory, untagged held = key := by
  simp only [reload, foldl_loadKey, hfresh]
  have hmap : d.directory.entries.foldl (fun t p => t.set (untagged p.1) p.2) ∅
      = (d.directory.entries.map fun p => (untagged p.1, p.2)).foldl
        (fun t p => t.set p.1 p.2) (∅ : Dict (ObjectKey Digest) KeyRecord) := by
    rw [foldl_map]
  rw [hmap, mem_foldl_set]
  simp only [map_map, mem_map, not_mem_empty, or_false]
  constructor
  · rintro ⟨p, hp, rfl⟩
    exact ⟨p.1, mem_map_of_mem hp, rfl⟩
  · rintro ⟨held, hheld, rfl⟩
    obtain ⟨p, hp, rfl⟩ := mem_map.mp hheld
    exact ⟨p, hp, rfl⟩

/-- Without tags the records come back as they were, in their order. -/
lemma directory_reload (hfresh : fresh.directory = ∅)
    (huntagged : ∀ key ∈ d.directory, key.tags = []) :
    (fresh.reload d).directory = d.directory := by
  have hsame : ∀ (t : Dict (ObjectKey Digest) KeyRecord), ∀ p ∈ d.directory.entries,
      t.set (untagged p.1) p.2 = t.set p.1 p.2 := by
    intro t p hp
    rw [untagged_eq_self_iff.mpr (huntagged p.1 (mem_map_of_mem hp))]
  simp only [reload, foldl_loadKey, hfresh]
  rw [foldl_ext _ _ _ hsame]
  exact d.directory.empty_update

lemma get?_l1KeysByInstance_reload (hfresh : fresh.l1KeysByInstance = ∅) (d : KeyDirectory Digest)
    (instanceId : String) : (fresh.reload d).l1KeysByInstance.get? instanceId
      = (d.l1KeysByInstance.get? instanceId).map (citedKeys d.directory) := by
  simp only [reload, foldl_loadKey, hfresh]
  rw [foldl_entries get? (fun _ l1Keys _ => some (citedKeys d.directory l1Keys))
    fun index p id => get?_set ..]
  cases d.l1KeysByInstance.get? instanceId <;> rfl

lemma get?_table_loadBinding (bindings : TokenBindings Digest) (p : Digest × TokenBinding Digest)
    (chunkHash : Digest) : (loadBinding bindings p).table.get? chunkHash = if chunkHash = p.1
        then (bindings.table.get? chunkHash).map fun binding => { p.2 with keys := binding.keys }
        else bindings.table.get? chunkHash := by
  unfold loadBinding
  split
  · rename_i hnone
    split
    · rename_i heq
      rw [heq, hnone]
      rfl
    · rfl
  · rename_i binding hsome
    rw [table_foldl_claimBinding, setBinding, get?_set]
    split_ifs with heq
    · rw [heq, hsome]
      rfl
    · rfl

/-- A binding comes back with its captured content and the keys that were
loaded under its hash. -/
lemma get?_table_foldl_loadBinding (table : Dict Digest (TokenBinding Digest))
    (bindings : TokenBindings Digest) (chunkHash : Digest) :
    (table.entries.foldl loadBinding bindings).table.get? chunkHash =
      (table.get? chunkHash).elim (bindings.table.get? chunkHash) fun captured =>
        (bindings.table.get? chunkHash).map fun binding => { captured with keys := binding.keys } :=
  foldl_entries (fun bindings => bindings.table.get?)
    (fun _ captured => Option.map fun binding => { captured with keys := binding.keys })
    (fun _ _ _ => get?_table_loadBinding ..) table bindings chunkHash

/-- Loading the records lists every loaded key in the binding of its hash. -/
lemma lists_foldl_addTokenBinding (entries : List (ObjectKey Digest × KeyRecord))
    {bindings : TokenBindings Digest} {P : ObjectKey Digest → Prop}
    (h : TokenBindings.Lists bindings.table P) :
    TokenBindings.Lists (entries.foldl (fun b p => b.addTokenBinding (untagged p.1)) bindings).table
      fun key => (∃ p ∈ entries, untagged p.1 = key) ∨ P key := by
  induction entries generalizing bindings P with
  | nil => exact h.congr fun key => by simp
  | cons p entries ih =>
    refine (ih (h.addTokenBinding (untagged p.1))).congr fun key => ?_
    rw [eq_comm, ← or_assoc, or_comm (b := untagged p.1 = key)]
    simp

lemma lists_reload (hfresh : fresh.Sound) (hempty : fresh.directory = ∅) :
    TokenBindings.Lists (d.directory.entries.foldl loadKey fresh).bindings.table
      fun key => ∃ held ∈ d.directory, untagged held = key := by
  rw [foldl_loadKey]
  refine (lists_foldl_addTokenBinding d.directory.entries hfresh.lists).congr fun key => ?_
  rw [hempty]
  simp only [not_mem_empty, or_false]
  constructor
  · rintro ⟨held, hheld, heq⟩
    obtain ⟨p, hp, rfl⟩ := mem_map.mp hheld
    exact ⟨p, hp, heq⟩
  · rintro ⟨p, hp, heq⟩
    exact ⟨p.1, mem_map_of_mem hp, heq⟩

/-! ## The round trip -/

/-- The same set of keys. -/
def SameKeys (keys keys' : List (ObjectKey Digest)) : Prop := ∀ key, key ∈ keys ↔ key ∈ keys'

/-- The same content and the same set of keys. -/
def SameBinding (binding binding' : TokenBinding Digest) : Prop :=
  binding.tokenIds = binding'.tokenIds ∧ binding.tokenOffset = binding'.tokenOffset ∧
    SameKeys binding.keys binding'.keys

/-- The same directory: records and totals, and as mappings the bindings and the
reverse index. -/
structure Reproduces (d restored : KeyDirectory Digest) : Prop where
  directory : restored.directory = d.directory
  placementStats : restored.placementStats = d.placementStats
  bindings : ∀ chunkHash, Option.Rel SameBinding (restored.bindings.table.get? chunkHash)
    (d.bindings.table.get? chunkHash)
  l1KeysByInstance : ∀ instanceId, Option.Rel SameKeys (restored.l1KeysByInstance.get? instanceId)
    (d.l1KeysByInstance.get? instanceId)

variable (d) in
/-- What a capture can hold: no key has tags, and the reverse index names keys
of the directory only. -/
def Capturable : Prop :=
  (∀ key ∈ d.directory, key.tags = []) ∧
    ∀ instanceId, ∀ key ∈ d.l1Keys instanceId, key ∈ d.directory

lemma mem_citedKeys {directory : Dict (ObjectKey Digest) KeyRecord}
    {l1Keys : List (ObjectKey Digest)} :
    key ∈ citedKeys directory l1Keys ↔ ∃ held ∈ l1Keys, held ∈ directory ∧ untagged held = key := by
  simp [citedKeys, and_assoc]

lemma bindings_reload (hfresh : fresh.Sound) (hempty : fresh.directory = ∅) (hd : d.Sound)
    (huntagged : ∀ key ∈ d.directory, key.tags = []) (chunkHash : Digest) :
    Option.Rel SameBinding ((fresh.reload d).bindings.table.get? chunkHash)
      (d.bindings.table.get? chunkHash) := by
  -- The loaded bindings list the keys of the directory, as the captured ones do.
  have hlists : TokenBindings.Lists (d.directory.entries.foldl loadKey fresh).bindings.table
      (· ∈ d.directory) := by
    refine (lists_reload hfresh hempty).congr fun key => ?_
    constructor
    · intro hkey
      exact ⟨key, hkey, untagged_eq_self_iff.mpr (huntagged key hkey)⟩
    · rintro ⟨held, hheld, rfl⟩
      rwa [untagged_eq_self_iff.mpr (huntagged held hheld)]
  have hsame : SameKeys
      (keysAt (d.directory.entries.foldl loadKey fresh).bindings.table chunkHash)
      (keysAt d.bindings.table chunkHash) := by
    intro key
    rw [hlists.keys, hd.lists.keys]
  have hloaded := get?_table_foldl_loadBinding d.bindings.table
    (d.directory.entries.foldl loadKey fresh).bindings chunkHash
  simp only [reload]
  rw [hloaded]
  cases hcaptured : d.bindings.table.get? chunkHash with
  | none =>
    cases hget : (d.directory.entries.foldl loadKey fresh).bindings.table.get? chunkHash with
    | none => exact .none
    | some binding =>
      have hne := hlists.nonempty chunkHash (mem_iff_get?.mpr ⟨binding, hget⟩)
      obtain ⟨key, hkey⟩ := exists_mem_of_ne_nil _ hne
      have hold := (hsame key).mp hkey
      simp [keysAt, hcaptured] at hold
  | some captured =>
    have hne := hd.lists.nonempty chunkHash (mem_iff_get?.mpr ⟨captured, hcaptured⟩)
    obtain ⟨key, hkey⟩ := exists_mem_of_ne_nil _ hne
    have hnew := (hsame key).mpr hkey
    cases hget : (d.directory.entries.foldl loadKey fresh).bindings.table.get? chunkHash with
    | none => simp [keysAt, hget] at hnew
    | some binding =>
      simp only [keysAt, hget, hcaptured] at hsame
      exact .some ⟨rfl, rfl, hsame⟩

/-- A reload reproduces the directory exactly when a capture can hold it. -/
lemma reproduces_reload_iff (hfresh : fresh.Sound) (hdirectory : fresh.directory = ∅)
    (hindex : fresh.l1KeysByInstance = ∅) (hd : d.Sound) :
    d.Reproduces (fresh.reload d) ↔ d.Capturable := by
  constructor
  · intro h
    have huntagged : ∀ key ∈ d.directory, key.tags = [] := by
      intro key hkey
      rw [← h.directory, mem_directory_reload hdirectory] at hkey
      obtain ⟨held, -, rfl⟩ := hkey
      rfl
    refine ⟨huntagged, fun instanceId key hkey => ?_⟩
    have hrel := h.l1KeysByInstance instanceId
    rw [get?_l1KeysByInstance_reload hindex] at hrel
    rw [l1Keys] at hkey
    cases hget : d.l1KeysByInstance.get? instanceId with
    | none => simp [hget] at hkey
    | some keys =>
      rw [hget] at hkey hrel
      cases hrel with
      | some hsame =>
        obtain ⟨held, -, hheld, rfl⟩ := mem_citedKeys.mp ((hsame key).mpr hkey)
        rwa [untagged_eq_self_iff.mpr (huntagged held hheld)]
  · rintro ⟨huntagged, hlive⟩
    have htally : fresh.placementStats = tally [] := by
      rw [hfresh.tallied, hdirectory]
      rfl
    refine ⟨directory_reload hdirectory huntagged, ?_,
      bindings_reload hfresh hdirectory hd huntagged, fun instanceId => ?_⟩
    · rw [placementStats_reload htally, hd.tallied]
    · rw [get?_l1KeysByInstance_reload hindex]
      cases hget : d.l1KeysByInstance.get? instanceId with
      | none => exact .none
      | some keys =>
        refine .some fun key => ?_
        have hin : ∀ held ∈ keys, held ∈ d.directory := fun held hheld =>
          hlive instanceId held (by rw [l1Keys, hget]; exact hheld)
        rw [mem_citedKeys]
        constructor
        · rintro ⟨held, hheld, hmem, rfl⟩
          rwa [untagged_eq_self_iff.mpr (huntagged held hmem)]
        · intro hkey
          exact ⟨key, hkey, hin key hkey,
            untagged_eq_self_iff.mpr (huntagged key (hin key hkey))⟩

/-- In every run the derived structures agree with the records and a fence
removes the L1 placements of its instance and nothing else; a capture is
restored without an error, and to the same directory exactly when the directory
is capturable. -/
theorem sound_and_restored_iff_capturable {blend blend' : Option (Nat × Nat)}
    {d fresh : KeyDirectory Digest} (h : new blend = .ok d) (hfresh : new blend' = .ok fresh)
    (events : List (Event Digest)) : (run step d events).Sound ∧
      (∀ instanceId key, ((run step d events).fenceInstance instanceId).directory.get? key
        = ((run step d events).directory.get? key).bind (keep instanceId)) ∧
      ∃ restored, fresh.restore (run step d events).capture = .ok restored ∧
        ((run step d events).Reproduces restored ↔ (run step d events).Capturable) := by
  have hsound := sound_run h events
  obtain ⟨hdirectory, hindex⟩ := new_empty hfresh
  exact ⟨hsound, fun instanceId key => get?_fenceInstance instanceId hsound key,
    fresh.reload (run step d events), restore_capture hdirectory hindex _,
    reproduces_reload_iff (sound_new hfresh) hdirectory hindex hsound⟩

/-! ### A key with tags -/

/-- A directory without blend lookup. -/
def plain : KeyDirectory Nat := (new none).toOption.get (by decide)

/-- The keys of one chunk that differ in their tags. -/
def chunkKey (tags : List (String × String)) : ObjectKey Nat := ⟨7, "model", 0, 0, "", tags⟩

/-- Keys stored by one instance in its L1, with the tokens of the chunk. -/
def storeKeys (instanceId : String) (hne : instanceId ≠ "") (keys : List (ObjectKey Nat)) :
    Event Nat :=
  .deliver (.broadcast
    { instanceId := instanceId, incarnation := 1, seq := 1, eventType := .store, tier := .l1,
      backend := "cpu", instanceId_ne := hne,
      entries := keys.map fun key => { key := key, sizeBytes := 8, tokenIds := [3, 4] } })

omit [DecidableEq Digest] in
lemma capturable_of_entries (hkeys : ∀ key ∈ d.directory.keys, key.tags = [])
    (hindex : ∀ p ∈ d.l1KeysByInstance.entries, ∀ key ∈ p.2, key ∈ d.directory) : d.Capturable := by
  refine ⟨hkeys, fun instanceId key hkey => ?_⟩
  rw [l1Keys] at hkey
  cases hget : d.l1KeysByInstance.get? instanceId with
  | none => simp [hget] at hkey
  | some keys =>
    rw [hget] at hkey
    exact hindex (instanceId, keys) (mem_entries.mpr hget) key hkey

/-- Two ranks of a chunk, of which two instances hold one, come back with the
tokens of the chunk. -/
theorem chunkKey_restored :
    let d := run step plain [storeKeys "a" (by decide) [chunkKey []],
      storeKeys "b" (by decide) [chunkKey [], { chunkKey [] with kvRank := 1 }]]
    d.bindings.table.entries.map (fun p => (p.1, p.2.tokenIds)) = [(7, [3, 4])] ∧
    ∃ restored, plain.restore d.capture = .ok restored ∧ d.Reproduces restored := by
  have hplain : new none = .ok plain := rfl
  obtain ⟨-, -, restored, hrestored, hiff⟩ := sound_and_restored_iff_capturable hplain hplain
    [storeKeys "a" (by decide) [chunkKey []],
      storeKeys "b" (by decide) [chunkKey [], { chunkKey [] with kvRank := 1 }]]
  exact ⟨by decide, restored, hrestored,
    hiff.mpr (capturable_of_entries (by decide) (by decide))⟩

/-- Two keys that differ in their tags come back as one key without tags, and
the totals count both placements. -/
theorem tagged_not_reproduced :
    let d := run step plain [storeKeys "a" (by decide)
      [chunkKey [("tenant", "x")], chunkKey [("tenant", "y")]]]
    ∃ restored, plain.restore d.capture = .ok restored ∧
      restored.directory.keys = [chunkKey []] ∧ (restored.placementStats .l1).count = 2 ∧
      ¬ d.Reproduces restored := by
  refine ⟨_, restore_capture rfl rfl _, by decide, by decide, fun h => ?_⟩
  have hkeys := congrArg Dict.keys h.directory
  revert hkeys
  decide

end KeyDirectory

end LMCache.Coordinator
