/-
LMCache.Coordinator.BlendSync — the blend index follows the token bindings.

`claimsOf` says what the index should hold: a chunk for every binding that has
content and a position, in the order of the bindings, claimed for the namespaces
of its keys. `Synced` says that the index holds just that.

Keys that join or leave a binding keep it. A store that brings content does so
only under a condition, `KeepsIndex`, because `_create_token_binding` leaves
three things to the past:

* content that loses its position stays in the index;
* content that gains one is claimed for the namespace of the storing key and not
  for the others that hold it;
* a chunk that is indexed now comes after the chunks of the same content that
  were indexed before, also where its binding is older than theirs.

The last clause of the condition is about the fingerprint: two contents that
share one share an entry, too.
-/
import LMCache.Coordinator.BlendIndexTheorems
import LMCache.Coordinator.DirectoryInvariants

namespace LMCache.Coordinator

open Lib List BlendNamespace BlendIndex Dict
open Multiprocess (ObjectKey)
open BlendIndex (Refines)

variable {Digest : Type}

/-! ## What the index should hold -/

/-- The binding belongs into the index: it has content and a position. -/
def TokenBinding.Indexed (binding : TokenBinding Digest) : Prop :=
  binding.tokenIds ≠ [] ∧ binding.tokenOffset ≠ unknownTokenOffset

instance (binding : TokenBinding Digest) : Decidable binding.Indexed :=
  inferInstanceAs (Decidable (_ ∧ _))

variable {l r : List (Digest × TokenBinding Digest)} {binding : TokenBinding Digest}
  {table : Dict Digest (TokenBinding Digest)} {key : ObjectKey Digest} {idx : BlendIndex Digest}
  {tokenIds : List UInt32} {entry : CacheEventEntry Digest}

namespace TokenBindings

/-- A binding as a chunk of the index. -/
def claimOf (p : Digest × TokenBinding Digest) : ChunkClaims Digest where
  chunkHash := p.1
  tokenIds := p.2.tokenIds
  tokenOffset := p.2.tokenOffset
  namespaces := p.2.keys.map fromObjectKey

/-- The chunks of the bindings. -/
def claimsOf (entries : List (Digest × TokenBinding Digest)) : List (ChunkClaims Digest) :=
  (entries.filter fun p => p.2.Indexed).map claimOf

section Claims

variable {chunkHash : Digest}

lemma claimsOf_of (h : binding.Indexed) : claimsOf (l ++ (chunkHash, binding) :: r)
      = claimsOf l ++ claimOf (chunkHash, binding) :: claimsOf r := by
  simp [claimsOf, h]

lemma claimsOf_not (h : ¬ binding.Indexed) :
    claimsOf (l ++ (chunkHash, binding) :: r) = claimsOf l ++ claimsOf r := by
  simp [claimsOf, h]

variable (l r) in
lemma claimsOf_append : claimsOf (l ++ r) = claimsOf l ++ claimsOf r := by
  simp [claimsOf]

lemma mem_claimsOf {entries : List (Digest × TokenBinding Digest)} {c : ChunkClaims Digest} :
    c ∈ claimsOf entries ↔ ∃ p ∈ entries, p.2.Indexed ∧ claimOf p = c := by
  simp [claimsOf, and_assoc]

lemma chunkHash_ne (h : table.entries = l ++ (chunkHash, binding) :: r) :
    ∀ c ∈ claimsOf l ++ claimsOf r, c.chunkHash ≠ chunkHash := by
  obtain ⟨hl, hr⟩ := not_mem_of_entries h
  intro c hc heq
  rw [← claimsOf_append] at hc
  obtain ⟨p, hp, rfl⟩ := mem_map.mp hc
  have hin : chunkHash ∈ (l ++ r).map Prod.fst :=
    heq ▸ mem_map_of_mem (mem_of_mem_filter hp)
  rw [map_append, mem_append] at hin
  exact hin.elim hl hr

end Claims

/-! ## Claims for one chunk -/

variable [DecidableEq Digest] {bindings : TokenBindings Digest} {chunkHash : Digest}
  {sizes : Nat × Nat}

lemma claimBinding_of (henabled : bindings.blendLookupEnabled) (h : binding.Indexed)
    (key : ObjectKey Digest) : bindings.claimBinding chunkHash binding key =
      { bindings with
        blendIndex := bindings.blendIndex.add binding.tokenIds chunkHash binding.tokenOffset
          (.fromObjectKey key) } := by
  rw [claimBinding, if_pos ⟨henabled, h⟩]

lemma claimBinding_not (h : ¬ binding.Indexed) (key : ObjectKey Digest) :
    bindings.claimBinding chunkHash binding key = bindings := by
  rw [claimBinding, if_neg fun hc => h hc.2]

lemma foldl_claimBinding_of (henabled : bindings.blendLookupEnabled) (h : binding.Indexed)
    (keys : List (ObjectKey Digest)) :
    keys.foldl (fun bindings held => bindings.claimBinding chunkHash binding held) bindings =
      { bindings with
        blendIndex := (keys.map fromObjectKey).foldl
          (fun idx ns => idx.add binding.tokenIds chunkHash binding.tokenOffset ns)
          bindings.blendIndex } := by
  induction keys generalizing bindings with
  | nil => rfl
  | cons key keys ih =>
    rw [foldl_cons, claimBinding_of henabled h]
    exact ih (by exact henabled)

lemma foldl_claimBinding_not (h : ¬ binding.Indexed) (keys : List (ObjectKey Digest)) :
    keys.foldl (fun bindings held => bindings.claimBinding chunkHash binding held) bindings
      = bindings :=
  foldl_fixed' (fun key => claimBinding_not h key) keys

/-- The index holds the chunks of the bindings; its window and stride are
`sizes`. -/
structure Synced (sizes : Nat × Nat) (bindings : TokenBindings Digest) : Prop where
  enabled : bindings.blendLookupEnabled
  sizes : bindings.blendIndex.sizes = sizes
  refines : Refines bindings.blendIndex (claimsOf bindings.table.entries)

/-! ## Keys that join and leave -/

lemma Synced.addTokenBinding (h : Synced sizes bindings) (key : ObjectKey Digest) :
    Synced sizes (bindings.addTokenBinding key) := by
  unfold TokenBindings.addTokenBinding
  cases hget : bindings.table.get? key.chunkHash with
  | none =>
    refine ⟨h.enabled, h.sizes, ?_⟩
    have hnew := entries_set_new (not_mem_iff_get?.mpr hget)
      (⟨[], unknownTokenOffset, [key]⟩ : TokenBinding Digest)
    have hblank : ¬ (⟨[], unknownTokenOffset, [key]⟩ : TokenBinding Digest).Indexed :=
      fun hindexed => hindexed.1 rfl
    simp only [setBinding, hnew]
    rw [claimsOf_not hblank]
    simpa [claimsOf] using h.refines
  | some binding =>
    obtain ⟨l, r, hentries⟩ := exists_entries hget
    have hrefines := h.refines
    rw [hentries] at hrefines
    dsimp only
    by_cases hindexed : binding.Indexed
    · have hjoined : ({ binding with keys := binding.keys.insert key } : TokenBinding Digest).Indexed :=
        hindexed
      rw [claimBinding_of (by exact h.enabled) hjoined]
      refine ⟨h.enabled, (sizes_add ..).trans h.sizes, ?_⟩
      simp only [setBinding]
      rw [entries_set_of hentries, claimsOf_of hjoined]
      rw [claimsOf_of hindexed] at hrefines
      refine hrefines.add_claim
        (e := claimOf (key.chunkHash, { binding with keys := binding.keys.insert key })) rfl rfl
        fun ns => ?_
      simp only [claimOf, mem_map, mem_insert_iff]
      constructor
      · rintro ⟨held, rfl | hheld, rfl⟩
        · exact .inl rfl
        · exact .inr ⟨held, hheld, rfl⟩
      · rintro (rfl | ⟨held, hheld, rfl⟩)
        · exact ⟨key, .inl rfl, rfl⟩
        · exact ⟨held, .inr hheld, rfl⟩
    · have hjoined : ¬ ({ binding with keys := binding.keys.insert key } :
          TokenBinding Digest).Indexed := hindexed
      rw [claimBinding_not hjoined]
      refine ⟨h.enabled, h.sizes, ?_⟩
      simp only [setBinding]
      rw [entries_set_of hentries, claimsOf_not hjoined]
      rwa [claimsOf_not hindexed] at hrefines

/-- The index when a key leaves its binding. -/
def releasedIndex (idx : BlendIndex Digest) (binding : TokenBinding Digest) (key : ObjectKey Digest) :
    BlendIndex Digest :=
  if binding.tokenIds ≠ [] ∧ ¬ (binding.keys.erase key).any
      (fun held => fromObjectKey held = fromObjectKey key) then
    idx.removeClaim binding.tokenIds key.chunkHash (.fromObjectKey key)
  else idx

lemma removeTokenBinding_of (henabled : bindings.blendLookupEnabled)
    (hget : bindings.table.get? key.chunkHash = some binding) : bindings.removeTokenBinding key =
      { bindings with
        blendIndex := releasedIndex bindings.blendIndex binding key
        table := if binding.keys.erase key = [] then bindings.table.erase key.chunkHash
          else bindings.table.set key.chunkHash { binding with keys := binding.keys.erase key } } := by
  simp only [removeTokenBinding, hget, henabled, true_and, releasedIndex, setBinding]
  split <;> split <;> simp [henabled]

lemma mem_namespaces_erase {keys : List (ObjectKey Digest)} (hnodup : keys.Nodup)
    {ns : BlendNamespace} (hother : ns ≠ fromObjectKey key) :
    ns ∈ (keys.erase key).map fromObjectKey ↔ ns ∈ keys.map fromObjectKey := by
  simp only [mem_map, hnodup.mem_erase_iff]
  constructor
  · rintro ⟨held, hheld, rfl⟩
    exact ⟨held, hheld.2, rfl⟩
  · rintro ⟨held, hheld, rfl⟩
    exact ⟨held, ⟨fun heq => hother (heq ▸ rfl), hheld⟩, rfl⟩

lemma refines_releasedIndex (h : Refines idx (claimsOf (l ++ (key.chunkHash, binding) :: r)))
    (hne : ∀ c ∈ claimsOf l ++ claimsOf r, c.chunkHash ≠ key.chunkHash)
    (hnodup : binding.keys.Nodup) (hkey : key ∈ binding.keys) :
    Refines (releasedIndex idx binding key) (claimsOf (if binding.keys.erase key = [] then l ++ r
        else l ++ (key.chunkHash, { binding with keys := binding.keys.erase key }) :: r)) := by
  have hns : fromObjectKey key ∈ binding.keys.map fromObjectKey :=
    mem_map_of_mem hkey
  by_cases hindexed : binding.Indexed
  · have hleft : ({ binding with keys := binding.keys.erase key } : TokenBinding Digest).Indexed :=
      hindexed
    rw [claimsOf_of hindexed] at h
    by_cases hheld : (binding.keys.erase key).any
        (fun held => fromObjectKey held = fromObjectKey key)
    · -- Another key of the namespace holds the chunk: the claim stays.
      obtain ⟨held, hin, heq⟩ := any_eq_true.mp hheld
      have hstays := mem_map.mpr ⟨held, hin, of_decide_eq_true heq⟩
      rw [releasedIndex, if_neg fun hc => hc.2 hheld, if_neg (ne_nil_of_mem hin), claimsOf_of hleft]
      refine h.congr rfl rfl rfl fun ns => ?_
      by_cases hother : ns = fromObjectKey key
      · exact hother ▸ iff_of_true hstays hns
      · exact mem_namespaces_erase hnodup hother
    · have hgone : fromObjectKey key ∉
          (binding.keys.erase key).map fromObjectKey := by
        intro hin
        obtain ⟨held, hin, heq⟩ := mem_map.mp hin
        exact hheld (any_eq_true.mpr ⟨held, hin, decide_eq_true heq⟩)
      rw [releasedIndex, if_pos ⟨hindexed.1, hheld⟩]
      split
      · rename_i hnil
        rw [claimsOf_append]
        refine h.removeClaim_last (c := claimOf (key.chunkHash, binding)) hns fun ns hin => ?_
        by_contra hother
        have hrest := (mem_namespaces_erase hnodup hother).mpr hin
        simp [hnil] at hrest
      · rename_i hsome
        rw [claimsOf_of hleft]
        refine h.removeClaim (c := claimOf (key.chunkHash, binding))
          (e := claimOf (key.chunkHash, { binding with keys := binding.keys.erase key }))
          rfl rfl rfl hns (fun ns => ?_) (by simpa [claimOf] using hsome)
        by_cases hother : ns = fromObjectKey key
        · simpa [claimOf, hother] using hgone
        · simpa [claimOf, hother] using mem_namespaces_erase hnodup hother
  · have hleft : ¬ ({ binding with keys := binding.keys.erase key } : TokenBinding Digest).Indexed :=
      hindexed
    rw [claimsOf_not hindexed] at h
    have hsame : releasedIndex idx binding key = idx := by
      unfold releasedIndex
      split
      · exact (h.remove_eq hne _ _).1
      · rfl
    rw [hsame]
    split
    · rwa [claimsOf_append]
    · rwa [claimsOf_not hleft]

variable (idx) in
lemma sizes_releasedIndex (binding : TokenBinding Digest) (key : ObjectKey Digest) :
    (releasedIndex idx binding key).sizes = idx.sizes := by
  unfold releasedIndex
  split
  · exact sizes_removeClaim ..
  · rfl

variable {P : ObjectKey Digest → Prop}

lemma Synced.removeTokenBinding (h : Synced sizes bindings) (hlists : Lists bindings.table P)
    (hkey : P key) : Synced sizes (bindings.removeTokenBinding key) := by
  have hmem : key ∈ keysAt bindings.table key.chunkHash := (hlists.keys _ key).mpr ⟨hkey, rfl⟩
  have hnodup := hlists.nodup key.chunkHash
  cases hget : bindings.table.get? key.chunkHash with
  | none => simp [keysAt, hget] at hmem
  | some binding =>
    simp only [keysAt, hget] at hmem hnodup
    obtain ⟨l, r, hentries⟩ := exists_entries hget
    rw [removeTokenBinding_of h.enabled hget]
    refine ⟨h.enabled, (sizes_releasedIndex ..).trans h.sizes, ?_⟩
    have hrefines := refines_releasedIndex (hentries ▸ h.refines) (chunkHash_ne hentries) hnodup hmem
    split at hrefines
    · rename_i hnil
      rwa [if_pos hnil, entries_erase_of hentries]
    · rename_i hsome
      rwa [if_neg hsome, entries_set_of hentries]

/-! ## Content that is stored -/

/-- The bindings that were created after the binding of a chunk. -/
def laterBindings (table : Dict Digest (TokenBinding Digest)) (chunkHash : Digest) :
    List (Digest × TokenBinding Digest) :=
  (table.entries.dropWhile fun p => p.1 ≠ chunkHash).tail

lemma laterBindings_of (h : table.entries = l ++ (chunkHash, binding) :: r) :
    laterBindings table chunkHash = r := by
  have hl := (not_mem_of_entries h).1
  rw [laterBindings, h, dropWhile_append_of_pos, dropWhile_cons_of_neg (by simp),
    tail_cons]
  intro p hp
  simpa using fun heq : p.1 = chunkHash => hl (heq ▸ mem_map_of_mem hp)

/-- What the index needs of a store that brings content: a position is not lost;
and where the chunk was not indexed with this content before, no namespace holds
the content but that of the storing key, no other content has its fingerprint,
and no chunk of this content is indexed for a later binding. -/
def KeepsIndex (bindings : TokenBindings Digest) (key : ObjectKey Digest)
    (entry : CacheEventEntry Digest) : Prop :=
  ∀ tokenIds ∈ asTokens entry.tokenIds, ∀ binding ∈ bindings.table.get? key.chunkHash,
    tokenIds.length = bindings.blendIndex.chunkSize →
      if binding.tokenIds = tokenIds ∧ binding.Indexed then entry.tokenOffset ≠ unknownTokenOffset
      else entry.tokenOffset ≠ unknownTokenOffset →
        (binding.tokenIds = tokenIds → ∀ held ∈ binding.keys,
          fromObjectKey held = fromObjectKey key) ∧
        (∀ p ∈ bindings.table.entries, p.1 ≠ key.chunkHash → p.2.Indexed →
          p.2.tokenIds.length = bindings.blendIndex.chunkSize →
          bindings.blendIndex.fingerprint p.2.tokenIds = bindings.blendIndex.fingerprint tokenIds →
          p.2.tokenIds = tokenIds) ∧
        ∀ p ∈ laterBindings bindings.table key.chunkHash, p.2.Indexed → p.2.tokenIds ≠ tokenIds

/-- The index when content it held for a chunk is retired. -/
def clearedIndex (idx : BlendIndex Digest) (binding : TokenBinding Digest)
    (tokenIds : List UInt32) (chunkHash : Digest) : BlendIndex Digest :=
  if binding.tokenIds ≠ [] ∧ binding.tokenIds ≠ tokenIds then
    idx.removeChunk binding.tokenIds chunkHash
  else idx

/-- The namespaces that a store claims the content for. -/
def claimants (binding filled : TokenBinding Digest) (key : ObjectKey Digest) :
    List BlendNamespace :=
  if binding.tokenIds = filled.tokenIds then [.fromObjectKey key]
  else filled.keys.map fromObjectKey

/-- The index after a store that fills a binding. -/
def filledIndex (idx : BlendIndex Digest) (binding filled : TokenBinding Digest)
    (key : ObjectKey Digest) : BlendIndex Digest :=
  let cleared := clearedIndex idx binding filled.tokenIds key.chunkHash
  if filled.Indexed then
    (claimants binding filled key).foldl
      (fun idx ns => idx.add filled.tokenIds key.chunkHash filled.tokenOffset ns) cleared
  else cleared

lemma createTokenBinding_of (henabled : bindings.blendLookupEnabled)
    (htokens : asTokens entry.tokenIds = some tokenIds) (hne : tokenIds ≠ [])
    (hget : bindings.table.get? key.chunkHash = some binding) :
    bindings.createTokenBinding key entry =
      { bindings with
        blendIndex := filledIndex bindings.blendIndex binding
          { binding with tokenIds, tokenOffset := entry.tokenOffset } key
        table := bindings.table.set key.chunkHash
          { binding with tokenIds, tokenOffset := entry.tokenOffset } } := by
  obtain ⟨table, idx, enabled, window, stride⟩ := bindings
  obtain rfl : enabled := henabled
  simp only [createTokenBinding, htokens, hget, true_and, filledIndex, clearedIndex, claimants,
    setBinding]
  by_cases hsame : binding.tokenIds = tokenIds
  · -- The content is known: one claim, for the storing key.
    simp only [hsame, hne, ne_eq, not_true_eq_false, and_false, or_self, if_false]
    by_cases hindexed : (⟨tokenIds, entry.tokenOffset, binding.keys⟩ : TokenBinding Digest).Indexed
    · rw [claimBinding_of rfl hindexed, if_pos hindexed]
      rfl
    · rw [claimBinding_not hindexed, if_neg hindexed]
  · -- The content is new: the old one is retired, and all keys claim the new.
    have hfresh : (binding.tokenIds ≠ [] ∧ binding.tokenIds ≠ tokenIds) ∨ binding.tokenIds = [] := by
      by_cases hnil : binding.tokenIds = []
      · exact .inr hnil
      · exact .inl ⟨hnil, hsame⟩
    rw [if_pos hfresh]
    by_cases hindexed : (⟨tokenIds, entry.tokenOffset, binding.keys⟩ : TokenBinding Digest).Indexed
    · rw [foldl_claimBinding_of (by split <;> rfl) hindexed]
      split <;> rfl
    · rw [foldl_claimBinding_not hindexed]
      split <;> rfl

variable (idx) in
lemma sizes_clearedIndex (binding : TokenBinding Digest) (tokenIds : List UInt32)
    (chunkHash : Digest) : (clearedIndex idx binding tokenIds chunkHash).sizes = idx.sizes := by
  unfold clearedIndex
  split
  · exact sizes_removeChunk ..
  · rfl

lemma sizes_foldl_add (nss : List BlendNamespace) (idx : BlendIndex Digest)
    (tokenIds : List UInt32) (chunkHash : Digest) (tokenOffset : Int) :
    (nss.foldl (fun idx ns => idx.add tokenIds chunkHash tokenOffset ns) idx).sizes = idx.sizes :=
  foldl_frame sizes (fun _ _ => sizes_add ..) nss idx

variable (idx) in
lemma sizes_filledIndex (binding filled : TokenBinding Digest) (key : ObjectKey Digest) :
    (filledIndex idx binding filled key).sizes = idx.sizes := by
  unfold filledIndex
  split
  · rw [sizes_foldl_add, sizes_clearedIndex]
  · exact sizes_clearedIndex ..

section Filled

variable {filled : TokenBinding Digest}

section

variable (h : Refines idx (claimsOf (l ++ (key.chunkHash, binding) :: r)))
include h

section

variable (hne : ∀ c ∈ claimsOf l ++ claimsOf r, c.chunkHash ≠ key.chunkHash)
include hne

/-- Where the content changes or was not indexed, the chunk is out of the index. -/
lemma refines_clearedIndex (hnew : ¬ (binding.tokenIds = filled.tokenIds ∧ binding.Indexed)) :
    Refines (clearedIndex idx binding filled.tokenIds key.chunkHash) (claimsOf l ++ claimsOf r) := by
  unfold clearedIndex
  by_cases hindexed : binding.Indexed
  · rw [claimsOf_of hindexed] at h
    rw [if_pos ⟨hindexed.1, fun heq => hnew ⟨heq, hindexed⟩⟩]
    exact h.removeChunk
  · rw [claimsOf_not hindexed] at h
    split
    · rwa [(h.remove_eq hne _ (.fromObjectKey key)).2]
    · exact h

lemma refines_filledIndex (hkeys : filled.keys = binding.keys) (hkey : key ∈ binding.keys)
    (hkept : filled.tokenIds.length = idx.chunkSize →
      binding.tokenIds = filled.tokenIds → binding.Indexed → filled.Indexed)
    (hadded : filled.tokenIds.length = idx.chunkSize → filled.Indexed →
      ¬ (binding.tokenIds = filled.tokenIds ∧ binding.Indexed) →
        (binding.tokenIds = filled.tokenIds → ∀ held ∈ binding.keys,
          fromObjectKey held = fromObjectKey key) ∧
        (∀ c ∈ claimsOf l ++ claimsOf r, c.tokenIds.length = idx.chunkSize →
          idx.fingerprint c.tokenIds = idx.fingerprint filled.tokenIds →
          c.tokenIds = filled.tokenIds) ∧ ∀ c ∈ claimsOf r, c.tokenIds ≠ filled.tokenIds) :
    Refines (filledIndex idx binding filled key)
      (claimsOf (l ++ (key.chunkHash, filled) :: r)) := by
  have hns : fromObjectKey key ∈ filled.keys.map fromObjectKey :=
    mem_map_of_mem (hkeys ▸ hkey)
  unfold filledIndex
  by_cases hheld : binding.tokenIds = filled.tokenIds ∧ binding.Indexed
  · -- The chunk is indexed with this content: nothing is retired.
    have hcleared : clearedIndex idx binding filled.tokenIds key.chunkHash = idx := by
      rw [clearedIndex, if_neg fun hc => hc.2 hheld.1]
    rw [claimsOf_of hheld.2] at h
    rw [hcleared]
    by_cases hindexed : filled.Indexed
    · simp only [claimants, if_pos hindexed, if_pos hheld.1]
      rw [claimsOf_of hindexed, ← hheld.1]
      refine h.add_claim (c := claimOf (key.chunkHash, binding))
        (e := claimOf (key.chunkHash, filled)) rfl hheld.1.symm fun ns => ?_
      simp only [claimOf, hkeys] at hns ⊢
      exact ⟨.inr, fun hin => hin.elim (fun heq => heq ▸ hns) id⟩
    · have hlen : binding.tokenIds.length ≠ idx.chunkSize := fun hlen =>
        hindexed (hkept (hheld.1 ▸ hlen) hheld.1 hheld.2)
      rw [if_neg hindexed, claimsOf_not hindexed]
      exact (refines_middle_iff (c := claimOf (key.chunkHash, binding)) hlen).mp h
  · have hcleared := refines_clearedIndex h hne hheld
    have hsizes := sizes_clearedIndex idx binding filled.tokenIds key.chunkHash
    have hwindow := chunkSize_of_sizes hsizes
    by_cases hindexed : filled.Indexed
    · rw [if_pos hindexed, claimsOf_of hindexed]
      by_cases hlen : filled.tokenIds.length = idx.chunkSize
      · obtain ⟨hsame, hcontent, hlater⟩ := hadded hlen hindexed hheld
        have hclaims : ∀ ns, ns ∈ filled.keys.map fromObjectKey
            ↔ ns ∈ claimants binding filled key := by
          intro ns
          unfold claimants
          split_ifs with hcontent
          · simp only [mem_map, mem_singleton, hkeys]
            constructor
            · rintro ⟨held, hin, rfl⟩
              exact hsame hcontent held hin
            · rintro rfl
              exact ⟨key, hkey, rfl⟩
          · rfl
        -- The chunk comes last in the index; no chunk of its content is later.
        refine BlendIndex.Refines.of_last (c := claimOf (key.chunkHash, filled)) ?_ ?_
        · refine hcleared.add_new (c := claimOf (key.chunkHash, filled)) hne ?_
            (ne_nil_of_mem ((hclaims _).mp hns)) hclaims
          intro c hc hclen _ hpoly
          rw [fingerprint_of_sizes hsizes, fingerprint_of_sizes hsizes] at hpoly
          exact hcontent c hc (hwindow ▸ hclen) hpoly
        · intro c hc hclen hpoly
          have hfinal := (sizes_foldl_add (claimants binding filled key) _ filled.tokenIds
            key.chunkHash filled.tokenOffset).trans hsizes
          rw [fingerprint_of_sizes hfinal, fingerprint_of_sizes hfinal] at hpoly
          rw [chunkSize_of_sizes hfinal] at hclen
          exact hlater c hc (hcontent c (mem_append_right _ hc) hclen hpoly)
      · -- claims for content of another length are ignored
        rw [foldl_fixed' fun ns => by rw [add, if_pos (hwindow ▸ hlen)]]
        exact (refines_middle_iff (c := claimOf (key.chunkHash, filled))
          (hwindow ▸ hlen)).mpr hcleared
    · rwa [if_neg hindexed, claimsOf_not hindexed]

end

end

end Filled

lemma asTokens_ne_nil {tokens : List Int} (h : asTokens tokens = some tokenIds)
    (hne : tokens ≠ []) : tokenIds ≠ [] := by
  cases tokens with
  | nil => exact absurd rfl hne
  | cons t tokens =>
    rw [asTokens, mapM_cons] at h
    simp only [Option.bind_eq_bind, Option.bind_eq_some_iff, Option.pure_def, Option.some.injEq] at h
    obtain ⟨_, -, _, -, rfl⟩ := h
    simp

lemma Synced.createTokenBinding (h : Synced sizes bindings) (hlists : Lists bindings.table P)
    (hkey : P key) (hne : entry.tokenIds ≠ []) (hkeeps : bindings.KeepsIndex key entry) :
    Synced sizes (bindings.createTokenBinding key entry) := by
  have hmem : key ∈ keysAt bindings.table key.chunkHash := (hlists.keys _ key).mpr ⟨hkey, rfl⟩
  cases htokens : asTokens entry.tokenIds with
  | none =>
    have hsame : bindings.createTokenBinding key entry = bindings := by
      simp [TokenBindings.createTokenBinding, htokens]
    rwa [hsame]
  | some tokenIds =>
    cases hget : bindings.table.get? key.chunkHash with
    | none => simp [keysAt, hget] at hmem
    | some binding =>
      simp only [keysAt, hget] at hmem
      obtain ⟨l, r, hentries⟩ := exists_entries hget
      have hnil := asTokens_ne_nil htokens hne
      have hcond := hkeeps tokenIds htokens binding hget
      have hhash := chunkHash_ne hentries
      rw [createTokenBinding_of h.enabled htokens hnil hget]
      refine ⟨h.enabled, (sizes_filledIndex ..).trans h.sizes, ?_⟩
      rw [entries_set_of hentries]
      refine refines_filledIndex (hentries ▸ h.refines) hhash rfl hmem
        (fun hlen hsame hindexed => ?_) fun hlen hindexed hnew => ?_
      · have hkept := hcond hlen
        rw [if_pos ⟨hsame, hindexed⟩] at hkept
        exact ⟨hnil, hkept⟩
      · have hadded := hcond hlen
        rw [if_neg hnew, laterBindings_of hentries] at hadded
        obtain ⟨hsame, hcontent, hlater⟩ := hadded hindexed.2
        refine ⟨hsame, fun c hc hclen hpoly => ?_, fun c hc => ?_⟩
        · have hne := hhash c hc
          rw [← claimsOf_append] at hc
          obtain ⟨p, hp, hpindexed, rfl⟩ := mem_claimsOf.mp hc
          refine hcontent p ?_ hne hpindexed hclen hpoly
          rw [hentries]
          rcases mem_append.mp hp with hp | hp
          · exact mem_append_left _ hp
          · exact mem_append_right _ (mem_cons_of_mem _ hp)
        · obtain ⟨p, hp, hpindexed, rfl⟩ := mem_claimsOf.mp hc
          exact hlater p hp hpindexed

end TokenBindings

/-! ## The directory -/

namespace KeyDirectory

variable [DecidableEq Digest] {d : KeyDirectory Digest} {sizes : Nat × Nat}

/-- The bindings when the key of a store has its record. -/
def joined (d : KeyDirectory Digest) (key : ObjectKey Digest) : TokenBindings Digest :=
  if key ∈ d.directory then d.bindings else d.bindings.addTokenBinding key

/-- An entry of a batch keeps the index: a store with content does. -/
def EntryKeepsIndex (batch : CacheEventBatch Digest) (d : KeyDirectory Digest)
    (entry : CacheEventEntry Digest) : Prop :=
  batch.eventType = .store → entry.tokenIds ≠ [] →
    (d.joined entry.key).KeepsIndex entry.key entry

variable (d) in
/-- Every entry of a signal keeps the index. -/
def SignalKeepsIndex : Signal Digest → Prop
  | .broadcast batch => Along (fun d entry => d.applyEntry batch entry) (EntryKeepsIndex batch)
      (d.withInstance batch.instanceId) batch.entries
  | .fenceInstance _ => True

/-- The directory is sound and its index follows its bindings. -/
structure InSync (sizes : Nat × Nat) (d : KeyDirectory Digest) : Prop where
  sound : d.Sound
  synced : TokenBindings.Synced sizes d.bindings

lemma Sound.lists_joined (h : d.Sound) (key : ObjectKey Digest) :
    TokenBindings.Lists (d.joined key).table fun k => k = key ∨ k ∈ d.directory := by
  unfold joined
  split_ifs with hmem
  · exact h.lists.congr fun k => or_iff_right_of_imp fun hk => hk ▸ hmem
  · exact h.lists.addTokenBinding key

lemma InSync.applyEntry (h : InSync sizes d) {batch : CacheEventBatch Digest}
    (hkeeps : EntryKeepsIndex batch d entry) : InSync sizes (d.applyEntry batch entry) := by
  refine ⟨sound_applyEntry batch entry h.sound, ?_⟩
  unfold KeyDirectory.applyEntry
  cases htype : batch.eventType with
  | store =>
    have hjoined : TokenBindings.Synced sizes (d.joined entry.key) := by
      unfold joined
      split
      · exact h.synced
      · exact h.synced.addTokenBinding entry.key
    simp only [storeEntry]
    split
    · rename_i hne
      exact hjoined.createTokenBinding (h.sound.lists_joined entry.key) (.inl rfl) hne
        (hkeeps htype hne)
    · exact hjoined
  | delete =>
    simp only [deleteEntry]
    split
    · exact h.synced
    · rename_i record hrecord
      dsimp only
      split
      · exact h.synced.removeTokenBinding h.sound.lists (mem_iff_get?.mpr ⟨record, hrecord⟩)
      · exact h.synced
  | access =>
    simp only [accessEntry]
    split <;> exact h.synced
  | config => exact h.synced

lemma InSync.dropKey (h : InSync sizes d) (instanceId : String) (key : ObjectKey Digest) :
    InSync sizes (d.dropKey instanceId key) := by
  refine ⟨sound_dropKey instanceId key h.sound, ?_⟩
  unfold KeyDirectory.dropKey
  split
  · exact h.synced
  · rename_i record hrecord
    dsimp only
    split
    · exact h.synced.removeTokenBinding h.sound.lists (mem_iff_get?.mpr ⟨record, hrecord⟩)
    · exact h.synced

lemma InSync.deliver (h : InSync sizes d) {signal : Signal Digest}
    (hkeeps : d.SignalKeepsIndex signal) : InSync sizes (d.deliver signal) := by
  cases signal with
  | broadcast batch =>
    have hstart : InSync sizes (d.withInstance batch.instanceId) := by
      refine ⟨sound_withInstance batch.instanceId h.sound, ?_⟩
      unfold withInstance
      split <;> exact h.synced
    exact run_inv (InSync sizes) (fun _ _ hd hentry => hd.applyEntry hentry) hstart hkeeps
  | fenceInstance instanceId =>
    have hdropped :=
      run_always (InSync sizes) (fun _ key hd => hd.dropKey instanceId key) h (d.l1Keys instanceId)
    exact ⟨sound_fenceInstance instanceId h.sound, hdropped.synced⟩

lemma inSync_new {chunkSize probeStride : Nat} (h : new (some (chunkSize, probeStride)) = .ok d) :
    InSync (chunkSize, probeStride) d := by
  refine ⟨sound_new h, ?_⟩
  obtain ⟨idx, hidx, h⟩ := bind_ok h
  cases h
  obtain ⟨hrefines, hsize, hstride⟩ := refines_new hidx
  exact ⟨rfl, Prod.ext hsize hstride, hrefines⟩

end KeyDirectory

end LMCache.Coordinator
