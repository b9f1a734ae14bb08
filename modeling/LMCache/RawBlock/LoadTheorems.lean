/-
LMCache.RawBlock.LoadTheorems — which checkpoint documents are loaded safely.

A document that fails a layout check leaves the store alone. One that passes
them is loaded safely exactly when no entry makes the loop raise and no two
entries that are valid for the layout share a slot, up to what the slot-header
check drops: a slot shared by dropped entries only does no harm, and a slot
beyond `next_slot` may be shared by dropped entries and one that is kept.

`applied_spec` says what the whole load does to the index and the free pool;
the equivalence is about that description and not about the loops.
-/
import LMCache.RawBlock.CheckpointLoad
import LMCache.RawBlock.SlotRuns

namespace LMCache.RawBlock

open Lib List RawBlockCore

variable {Meta : Type}

/-! ## What a load should establish -/

structure LoadedConsistent (lay : Layout) (c : RawBlockCore String Meta) : Prop where
  partition : ∀ slot < c.nextSlot,
    (c.indexSlots lay.toConfig).count slot + c.freeSlots.keys.count slot = 1
  keys_apart : ∀ key key' e e', c.index.get? key = some e → c.index.get? key' = some e' →
    lay.offsetToSlot e.offset = lay.offsetToSlot e'.offset → key = key'
  valid : ∀ key e, c.index.get? key = some e → isValidCheckpointEntry lay e.offset e.size

/-- Rejected with the store as it was, or applied to a consistent state. -/
def LoadsSafely (lay : Layout) (c : RawBlockCore String Meta)
    (result : Verdict × RawBlockCore String Meta) : Prop :=
  (result.1 ≠ .accepted ∧ result.2 = c) ∨ (result.1 = .accepted ∧ LoadedConsistent lay result.2)

variable (py : Python Meta) (lay : Layout) (slotHdr : String → Option (Nat × Nat))

/-- The entry is dropped by the slot-header check. -/
def dropped (key : String) (e : Entry Meta) : Bool :=
  lay.metaVerifyOnLoad && isStaleHeader py key e (slotHdr key)

/-- Entries at one slot are dropped, or all but one are and the slot is not
below `nextSlot`. -/
def SharesSafely (loaded : String → Entry Meta → Prop) (nextSlot : Nat) : Prop :=
  ∀ key e key' e', loaded key e → loaded key' e' → key ≠ key' →
    lay.offsetToSlot e.offset = lay.offsetToSlot e'.offset →
    (dropped py lay slotHdr key e ∧ dropped py lay slotHdr key' e') ∨
      (nextSlot ≤ lay.offsetToSlot e.offset ∧
        (dropped py lay slotHdr key e ∨ dropped py lay slotHdr key' e'))

/-- The key has an entry in the list that is valid for the layout. -/
def Lists (entries : List (String × Json)) (key : String) (e : Entry Meta) : Prop :=
  ∃ entry, (key, entry) ∈ entries ∧ loadEntry py lay key entry = .ok (some e)

/-- A failed layout check, or entries that all convert and share no slot. -/
def Acceptable (document : Json) : Prop :=
  match checkDocument py lay document with
  | .error _ => True
  | .ok (data, nextSlot) =>
    (∀ p ∈ entriesOf data, ∃ loaded, loadEntry py lay p.1 p.2 = .ok loaded) ∧
      SharesSafely py lay slotHdr (Lists py lay (entriesOf data)) nextSlot

variable {py lay slotHdr}

/-! ## Valid entries -/

variable {e : Entry Meta}

lemma slot_lt_of_valid (h : isValidCheckpointEntry lay e.offset e.size) :
    lay.offsetToSlot e.offset < lay.maxSlots := by
  simp only [isValidCheckpointEntry, Bool.and_eq_true, decide_eq_true_eq] at h
  obtain ⟨⟨⟨hrel, -⟩, hlt⟩, -⟩ := h
  have hcast : (e.offset : Int) - lay.dataBaseOffset = ((e.offset - lay.dataBaseOffset : Nat) : Int) := by
    omega
  rw [hcast] at hlt
  exact_mod_cast hlt

variable {key : String}

lemma loadEntry_valid {entry : Json} (h : loadEntry py lay key entry = .ok (some e)) :
    isValidCheckpointEntry lay e.offset e.size := by
  unfold loadEntry at h
  split at h
  · cases h
  · obtain ⟨offset, -, h⟩ := bind_ok h
    obtain ⟨size, -, h⟩ := bind_ok h
    split_ifs at h with hvalid
    · split at h
      · cases h
      · obtain rfl := Option.some.inj (Except.ok.inj h)
        have hnat : (0 : Int) ≤ offset ∧ 0 ≤ size := by
          simp only [isValidCheckpointEntry, Bool.and_eq_true, decide_eq_true_eq] at hvalid
          omega
        rw [Int.toNat_of_nonneg hnat.1, Int.toNat_of_nonneg hnat.2]
        exact hvalid
    · cases h

variable {index : Dict String (Entry Meta)} {entries : List (String × Json)}

lemma loadEntries_mem (h : (loadEntries py lay index entries).1.get? key = some e) :
    Lists py lay entries key e ∨ index.get? key = some e := by
  induction entries generalizing index with
  | nil => exact .inr h
  | cons p rest ih =>
    have hrest : ∀ {index' : Dict String (Entry Meta)},
        (loadEntries py lay index' rest).1.get? key = some e →
        Lists py lay (p :: rest) key e ∨ index'.get? key = some e := by
      intro index' h'
      rcases ih h' with ⟨entry, hmem, hload⟩ | hold
      · exact .inl ⟨entry, mem_cons_of_mem _ hmem, hload⟩
      · exact .inr hold
    simp only [loadEntries] at h
    split at h
    · exact .inr h
    · exact hrest h
    · rename_i loaded hload
      rcases hrest h with hin | hset
      · exact .inl hin
      · obtain ⟨hkey, rfl⟩ | ⟨-, hset⟩ := Dict.get?_set_cases hset
        · exact .inl ⟨p.2, by simp [hkey], hkey ▸ hload⟩
        · exact .inr hset

variable (index) in
/-- The loop runs to its end iff every entry converts. -/
lemma loadEntries_finished : (loadEntries py lay index entries).2 ↔
      ∀ p ∈ entries, ∃ loaded, loadEntry py lay p.1 p.2 = .ok loaded := by
  induction entries generalizing index with
  | nil => simp [loadEntries]
  | cons p rest ih =>
    simp only [loadEntries, forall_mem_cons]
    split <;> rename_i hload <;> simp [hload, ih]

lemma get?_loadEntries_of_not_mem (h : key ∉ entries.map Prod.fst) :
    (loadEntries py lay index entries).1.get? key = index.get? key := by
  induction entries generalizing index with
  | nil => rfl
  | cons p rest ih =>
    rw [map_cons, mem_cons, not_or] at h
    simp only [loadEntries]
    split
    · rfl
    · exact ih h.2
    · rw [ih h.2, Dict.get?_set_ne _ _ h.1]

/-- A loop that runs to its end loads the valid entries. -/
lemma get?_loadEntries (hnodup : (entries.map Prod.fst).Nodup)
    (hfinished : (loadEntries py lay index entries).2) (h : Lists py lay entries key e) :
    (loadEntries py lay index entries).1.get? key = some e := by
  induction entries generalizing index with
  | nil =>
    obtain ⟨entry, hmem, -⟩ := h
    cases hmem
  | cons p rest ih =>
    obtain ⟨entry, hmem, hload⟩ := h
    rw [map_cons, nodup_cons] at hnodup
    obtain rfl | hmem := mem_cons.mp hmem
    · simp only [loadEntries, hload]
      rw [get?_loadEntries_of_not_mem hnodup.1, Dict.get?_set_self]
    · simp only [loadEntries] at hfinished ⊢
      split at hfinished
      · cases hfinished
      · exact ih hnodup.2 hfinished ⟨entry, hmem, hload⟩
      · exact ih hnodup.2 hfinished ⟨entry, hmem, hload⟩

lemma nodup_entriesOf (data : Dict String Json) : ((entriesOf data).map Prod.fst).Nodup := by
  unfold entriesOf
  split
  · exact nodup_nil
  · exact Dict.nodup _

lemma loadEntries_valid (h : (loadEntries py lay ∅ entries).1.get? key = some e) :
    isValidCheckpointEntry lay e.offset e.size := by
  obtain ⟨entry, -, hload⟩ | hnone := loadEntries_mem h
  · exact loadEntry_valid hload
  · cases hnone

/-! ## Dropping entries -/

variable {c : RawBlockCore String Meta}

lemma mem_freeSlots_appendFreeSlot {cfg : Config} {slot s : Nat} :
    s ∈ (c.appendFreeSlot cfg slot).freeSlots ↔
      s ∈ c.freeSlots ∨ (s = slot ∧ slot < cfg.maxSlots) := by
  unfold appendFreeSlot
  dsimp only
  split
  · rename_i hle
    simp [not_lt.mpr hle]
  · rename_i hlt
    have hslot : slot < cfg.maxSlots := not_le.mp hlt
    split
    · rename_i hmem
      constructor
      · exact .inl
      · rintro (h | ⟨rfl, -⟩)
        · exact h
        · exact hmem
    · have hset : s ∈ c.freeSlots.set slot () ↔ s ∈ c.freeSlots ∨ (s = slot ∧ slot < cfg.maxSlots) := by
        rw [Dict.mem_set, and_iff_left hslot]
        exact or_comm
      split
      · split <;> exact hset
      · exact hset

variable (lay c) in
lemma dropEntry_spec (key : String) : (c.dropEntry lay key).index = c.index.erase key ∧
      (c.dropEntry lay key).nextSlot = c.nextSlot ∧
      ∀ s, s ∈ (c.dropEntry lay key).freeSlots ↔ s ∈ c.freeSlots ∨
      ∃ e, c.index.get? key = some e ∧ lay.offsetToSlot e.offset = s ∧ s < lay.maxSlots := by
  unfold dropEntry
  cases hkey : c.index.get? key with
  | none =>
    refine ⟨(Dict.erase_of_not_mem hkey).symm, rfl, fun s => ?_⟩
    simp
  | some entry =>
    obtain ⟨free, pools, heq⟩ := appendFreeSlot_eq lay.toConfig
      { c with index := c.index.erase key, lockRefcnt := c.lockRefcnt.erase key }
      (lay.offsetToSlot entry.offset)
    refine ⟨by simp only [heq], by simp only [heq], fun s => ?_⟩
    simp only [mem_freeSlots_appendFreeSlot, Option.some.injEq, exists_eq_left']
    apply or_congr_right
    constructor
    · rintro ⟨rfl, hlt⟩
      exact ⟨rfl, hlt⟩
    · rintro ⟨rfl, hlt⟩
      exact ⟨rfl, hlt⟩

variable (lay) in
lemma foldl_dropEntry_spec (keys : List String) (c : RawBlockCore String Meta) :
    (∀ key, (keys.foldl (fun c key => c.dropEntry lay key) c).index.get? key =
      if key ∈ keys then none else c.index.get? key) ∧
      (keys.foldl (fun c key => c.dropEntry lay key) c).nextSlot = c.nextSlot ∧
      ∀ s, s ∈ (keys.foldl (fun c key => c.dropEntry lay key) c).freeSlots ↔ s ∈ c.freeSlots ∨
      ∃ key ∈ keys, ∃ e, c.index.get? key = some e ∧ lay.offsetToSlot e.offset = s ∧
      s < lay.maxSlots := by
  induction keys generalizing c with
  | nil => simp
  | cons k keys ih =>
    obtain ⟨hindex, hnext, hfree⟩ := dropEntry_spec lay c k
    obtain ⟨ihindex, ihnext, ihfree⟩ := ih (c.dropEntry lay k)
    rw [foldl_cons]
    refine ⟨fun key => ?_, ihnext.trans hnext, fun s => ?_⟩
    · rw [ihindex, hindex, Dict.get?_erase]
      by_cases hk : key = k
      · simp [hk]
      · simp [hk]
    · rw [ihfree, hfree, hindex]
      constructor
      · rintro ((h | ⟨e, he, hs⟩) | ⟨key, hkey, e, he, hs⟩)
        · exact .inl h
        · exact .inr ⟨k, mem_cons_self, e, he, hs⟩
        · replace he := (Dict.get?_of_erase he).2
          exact .inr ⟨key, mem_cons_of_mem _ hkey, e, he, hs⟩
      · rintro (h | ⟨key, hkey, e, he, hs⟩)
        · exact .inl (.inl h)
        · by_cases hk : key = k
          · exact .inl (.inr ⟨e, hk ▸ he, hs⟩)
          · rw [← Dict.get?_erase_ne _ hk] at he
            exact .inr ⟨key, (mem_cons.mp hkey).resolve_left hk, e, he, hs⟩

/-- The store after the check of the slot headers: `index` without the dropped
entries, and their slots in the pool. -/
structure Applied (py : Python Meta) (lay : Layout) (slotHdr : String → Option (Nat × Nat))
    (index : Dict String (Entry Meta)) (nextSlot : Nat) (c : RawBlockCore String Meta) : Prop where
  next : c.nextSlot = nextSlot
  index_iff : ∀ key e, c.index.get? key = some e ↔
    index.get? key = some e ∧ dropped py lay slotHdr key e = false
  free_iff : ∀ s, s ∈ c.freeSlots ↔
    (s < nextSlot ∧ ∀ key e, index.get? key = some e → lay.offsetToSlot e.offset ≠ s) ∨
      ∃ key e, index.get? key = some e ∧ dropped py lay slotHdr key e ∧
        lay.offsetToSlot e.offset = s

lemma mem_slotsExcept {n s : Nat} {used : List Nat} :
    s ∈ slotsExcept n used ↔ s < n ∧ s ∉ used := by
  show s ∈ ((range n).filter _ |>.map _).map Prod.fst ↔ _
  simp

lemma mem_freeSlots_rebuild {s : Nat} : s ∈ (c.rebuildFreeSlots lay).freeSlots ↔
      s < c.nextSlot ∧ ∀ key e, c.index.get? key = some e → lay.offsetToSlot e.offset ≠ s := by
  show s ∈ slotsExcept _ _ ↔ _
  rw [mem_slotsExcept]
  apply and_congr_right
  intro _
  simp only [mem_map, Dict.mem_values, not_exists, not_and]
  constructor
  · intro h key e he
    exact h e ⟨key, he⟩
  · rintro h e ⟨key, he⟩
    exact h key e he

lemma applied_rebuild
    (hkeep : ∀ key e, c.index.get? key = some e → dropped py lay slotHdr key e = false) :
    Applied py lay slotHdr c.index c.nextSlot (c.rebuildFreeSlots lay) where
  next := rfl
  index_iff key e := (and_iff_left_of_imp (hkeep key e)).symm
  free_iff s := by
    rw [mem_freeSlots_rebuild, or_iff_left]
    rintro ⟨key, e, he, hdrop, -⟩
    rw [hkeep key e he] at hdrop
    cases hdrop

lemma mem_toDrop :
    key ∈ (index.entries.filter fun p => isStaleHeader py p.1 p.2 (slotHdr p.1)).map (·.1) ↔
      ∃ e, index.get? key = some e ∧ isStaleHeader py key e (slotHdr key) := by
  simp only [mem_map, mem_filter]
  constructor
  · rintro ⟨⟨k, e⟩, ⟨hmem, hstale⟩, rfl⟩
    exact ⟨e, Dict.mem_entries.mp hmem, hstale⟩
  · rintro ⟨e, he, hstale⟩
    exact ⟨(key, e), ⟨Dict.mem_entries.mpr he, hstale⟩, rfl⟩

section

variable (hvalid : ∀ key e, c.index.get? key = some e → isValidCheckpointEntry lay e.offset e.size)
include hvalid

lemma applied_validate (hverify : lay.metaVerifyOnLoad) :
    Applied py lay slotHdr c.index c.nextSlot
      ((c.rebuildFreeSlots lay).validateLoadedEntries py lay slotHdr) := by
  have hdropped : ∀ key e, dropped py lay slotHdr key e = isStaleHeader py key e (slotHdr key) := by
    intro key e
    rw [dropped, hverify, Bool.true_and]
  unfold validateLoadedEntries
  dsimp only
  split_ifs with hnil
  · refine applied_rebuild fun key e he => ?_
    rw [hdropped]
    by_contra hstale
    have hmem : key ∈ ([] : List String) :=
      hnil ▸ mem_toDrop.mpr ⟨e, he, Bool.eq_true_of_not_eq_false hstale⟩
    exact absurd hmem not_mem_nil
  · obtain ⟨hindex, hnext, hfree⟩ := foldl_dropEntry_spec lay
      (((c.rebuildFreeSlots lay).index.entries.filter fun p =>
        isStaleHeader py p.1 p.2 (slotHdr p.1)).map (·.1))
      (c.rebuildFreeSlots lay)
    refine ⟨hnext, fun key e => ?_, fun s => ?_⟩
    · rw [hindex, hdropped]
      show (if _ then none else c.index.get? key) = some e ↔ _
      constructor
      · intro h
        split at h
        · cases h
        · rename_i hmem
          refine ⟨h, ?_⟩
          by_contra hstale
          exact hmem (mem_toDrop.mpr ⟨e, h, Bool.eq_true_of_not_eq_false hstale⟩)
      · rintro ⟨he, hfresh⟩
        rw [if_neg, he]
        intro hmem
        obtain ⟨e', he', hstale⟩ := mem_toDrop.mp hmem
        obtain rfl := Option.mem_unique he he'
        rw [hfresh] at hstale
        cases hstale
    · rw [hfree, mem_freeSlots_rebuild]
      apply or_congr_right
      constructor
      · rintro ⟨key, hmem, e, he, hs, -⟩
        obtain ⟨e', he', hstale⟩ := mem_toDrop.mp hmem
        obtain rfl := Option.mem_unique he he'
        exact ⟨key, e, he, (hdropped key e).trans hstale, hs⟩
      · rintro ⟨key, e, he, hdrop, hs⟩
        rw [hdropped] at hdrop
        refine ⟨key, mem_toDrop.mpr ⟨e, he, hdrop⟩, e, he, hs, ?_⟩
        rw [← hs]
        exact slot_lt_of_valid (hvalid key e he)

lemma applied_spec : Applied py lay slotHdr c.index c.nextSlot (if lay.metaVerifyOnLoad then
      (c.rebuildFreeSlots lay).validateLoadedEntries py lay slotHdr
      else c.rebuildFreeSlots lay) := by
  split_ifs with hverify
  · exact applied_validate hvalid hverify
  · refine applied_rebuild fun key e _ => ?_
    rw [dropped, Bool.eq_false_of_not_eq_true hverify, Bool.false_and]

end

/-! ## The equivalence -/

section Equivalence

variable {nextSlot : Nat}

section

variable (h : Applied py lay slotHdr index nextSlot c)
include h

lemma Applied.mem_indexSlots {s : Nat} :
    s ∈ c.indexSlots lay.toConfig ↔ ∃ key e, index.get? key = some e ∧
      dropped py lay slotHdr key e = false ∧ lay.offsetToSlot e.offset = s := by
  simp only [indexSlots, mem_map, Dict.mem_values]
  constructor
  · rintro ⟨e, ⟨key, he⟩, hs⟩
    obtain ⟨hin, hkeep⟩ := (h.index_iff key e).mp he
    exact ⟨key, e, hin, hkeep, hs⟩
  · rintro ⟨key, e, hin, hkeep, hs⟩
    exact ⟨e, ⟨key, (h.index_iff key e).mpr ⟨hin, hkeep⟩⟩, hs⟩

lemma Applied.consistent
    (hvalid : ∀ key e, index.get? key = some e → isValidCheckpointEntry lay e.offset e.size)
    (hshare : SharesSafely py lay slotHdr (fun key e => index.get? key = some e) nextSlot) :
    LoadedConsistent lay c := by
  have hapart : ∀ key key' e e', c.index.get? key = some e → c.index.get? key' = some e' →
      lay.offsetToSlot e.offset = lay.offsetToSlot e'.offset → key = key' := by
    intro key key' e e' he he' hs
    by_contra hne
    obtain ⟨hin, hkeep⟩ := (h.index_iff key e).mp he
    obtain ⟨hin', hkeep'⟩ := (h.index_iff key' e').mp he'
    have hboth := hshare key e key' e' hin hin' hne hs
    rw [hkeep, hkeep'] at hboth
    simp at hboth
  refine ⟨fun s hs => ?_, hapart, fun key e he => hvalid key e ((h.index_iff key e).mp he).1⟩
  have hnodup : (c.indexSlots lay.toConfig).Nodup := Dict.nodup_map_values hapart
  rw [h.next] at hs
  by_cases hkept : s ∈ c.indexSlots lay.toConfig
  · -- an entry that stays has its slot alone
    have hfree : s ∉ c.freeSlots := by
      obtain ⟨key, e, hin, hkeep, hslot⟩ := h.mem_indexSlots.mp hkept
      intro hmem
      rcases (h.free_iff s).mp hmem with ⟨-, hunused⟩ | ⟨key', e', hin', hdrop, hslot'⟩
      · exact hunused key e hin hslot
      · have hne : key ≠ key' := by
          rintro rfl
          obtain rfl := Option.mem_unique hin hin'
          rw [hkeep] at hdrop
          cases hdrop
        have hboth := hshare key e key' e' hin hin' hne (hslot.trans hslot'.symm)
        rw [hkeep, hslot] at hboth
        simp [not_le.mpr hs] at hboth
    rw [count_eq_one_of_mem hnodup hkept, count_eq_zero_of_not_mem hfree]
  · -- all entries at the slot were dropped, or there were none
    have hfree : s ∈ c.freeSlots := by
      rw [h.free_iff]
      by_cases hused : ∃ key e, index.get? key = some e ∧ lay.offsetToSlot e.offset = s
      · obtain ⟨key, e, hin, hslot⟩ := hused
        refine .inr ⟨key, e, hin, ?_, hslot⟩
        by_contra hkeep
        exact hkept (h.mem_indexSlots.mpr ⟨key, e, hin, Bool.eq_false_of_not_eq_true hkeep, hslot⟩)
      · exact .inl ⟨hs, fun key e hin hslot => hused ⟨key, e, hin, hslot⟩⟩
    have hone : c.freeSlots.keys.count s = 1 := count_eq_one_of_mem c.freeSlots.nodup hfree
    rw [count_eq_zero_of_not_mem hkept, hone]

lemma Applied.sharesSafely (hc : LoadedConsistent lay c) :
    SharesSafely py lay slotHdr (fun key e => index.get? key = some e) nextSlot := by
  -- below `next_slot` an entry that stays excludes a dropped one
  have hexcl : ∀ {key e key' e'}, index.get? key = some e → index.get? key' = some e' →
      lay.offsetToSlot e.offset = lay.offsetToSlot e'.offset →
      lay.offsetToSlot e.offset < nextSlot → dropped py lay slotHdr key e = false →
      dropped py lay slotHdr key' e' → False := by
    intro key e key' e' he he' hs hlt hkeep hdrop
    have hindex := h.mem_indexSlots.mpr ⟨key, e, he, hkeep, rfl⟩
    have hfree : lay.offsetToSlot e.offset ∈ c.freeSlots.keys :=
      (h.free_iff _).mpr (.inr ⟨key', e', he', hdrop, hs.symm⟩)
    have hone := hc.partition _ (h.next ▸ hlt)
    have hpos := count_pos_iff.mpr hindex
    have hpos' := count_pos_iff.mpr hfree
    omega
  intro key e key' e' he he' hne hs
  cases hd : dropped py lay slotHdr key e with
  | false =>
    cases hd' : dropped py lay slotHdr key' e' with
    | false =>
      refine absurd (hc.keys_apart key key' e e' ?_ ?_ hs) hne
      · exact (h.index_iff key e).mpr ⟨he, hd⟩
      · exact (h.index_iff key' e').mpr ⟨he', hd'⟩
    | true => exact .inr ⟨not_lt.mp fun hlt => hexcl he he' hs hlt hd hd', .inr rfl⟩
  | true =>
    cases hd' : dropped py lay slotHdr key' e' with
    | false =>
      exact .inr ⟨not_lt.mp fun hlt => hexcl he' he hs.symm (hs ▸ hlt) hd' hd, .inl rfl⟩
    | true => exact .inl ⟨rfl, rfl⟩

end

end Equivalence

theorem loadsSafely_iff (py : Python Meta) (lay : Layout) (slotHdr : String → Option (Nat × Nat))
    (document : Json) : (∀ c, LoadsSafely lay c (c.applyLoadedState py lay slotHdr document)) ↔
      Acceptable py lay slotHdr document := by
  unfold Acceptable applyLoadedState
  cases hcheck : checkDocument py lay document with
  | error why => exact iff_of_true (fun c => .inl ⟨by simp, rfl⟩) trivial
  | ok checked =>
    obtain ⟨data, nextSlot⟩ := checked
    have hvalid : ∀ key e, (loadEntries py lay ∅ (entriesOf data)).1.get? key = some e →
        isValidCheckpointEntry lay e.offset e.size := fun _ _ => loadEntries_valid
    dsimp only
    rw [← loadEntries_finished ∅]
    cases hfinished : (loadEntries py lay ∅ (entriesOf data)).2 with
    | false =>
      -- the loop raised, and the locks of a store that has some are gone
      refine iff_of_false (fun h => ?_) (fun h => by cases h.1)
      rcases h { empty with lockRefcnt := (∅ : Dict String Nat).set "" 1 } with
        ⟨-, hsame⟩ | ⟨hacc, -⟩
      · have hlocks := congrArg lockRefcnt hsame
        cases hlocks
      · cases hacc
    | true =>
      have hlists : Lists py lay (entriesOf data) =
          fun key e => (loadEntries py lay ∅ (entriesOf data)).1.get? key = some e := by
        funext key e
        refine propext ⟨get?_loadEntries (nodup_entriesOf data) hfinished, fun h => ?_⟩
        exact (loadEntries_mem h).resolve_right (by simp)
      rw [hlists]
      constructor
      · intro h
        rcases h .empty with ⟨hacc, -⟩ | ⟨-, hc⟩
        · exact absurd rfl hacc
        · exact ⟨rfl, (applied_spec hvalid).sharesSafely hc⟩
      · rintro ⟨-, hshare⟩ c
        exact .inr ⟨rfl, (applied_spec hvalid).consistent hvalid hshare⟩

/-! ## Documents that are not loaded safely -/

/-- Two slots of 32 bytes behind 64 bytes of metadata, headers verified. -/
def twoSlots : Layout where
  blockAlign := 8
  headerBytes := 24
  slotBytes := 32
  dataBaseOffset := 64
  maxSlots := 2
  requiresTransferAlignment := false
  fdpSlotAffinityEnabled := false
  header_lt_slot := by decide
  devicePath := "/dev/nvme0n1"
  metaTotalBytes := 64
  metaMagicText := "LMCIDX01"
  metaVersion := 1
  metaVerifyOnLoad := true

/-- The keys "a" and "b" have different slot identities. -/
def plainPython : Python Unit where
  intOfStr _ := none
  strOf _ := ""
  metadataOf _ _ := some ()
  slotIdentity key := some (if key = "a" then 1 else 2)

/-- Both entries name the first slot, whose header is that of "a". -/
def sharedOffset : Json :=
  .obj [("version", .int 1), ("next_slot", .int 1), ("entries", .obj
    [("a", .obj [("offset", .int 64), ("size", .int 1)]),
      ("b", .obj [("offset", .int 64), ("size", .int 1)])])]

/-- An entry without a usable offset. -/
def nullOffset : Json :=
  .obj [("version", .int 1), ("entries", .obj [("a", .obj [("offset", .null)])])]

/-- A store in use: "a" is stored and locked. -/
def lockedStore : RawBlockCore String Unit :=
  run (step twoSlots.toConfig) .empty
    [.reserve ⟨"a", 1, (), none⟩, .settle "a" true, .existsMany false ["a"] true]

def sharedLoaded : Verdict × RawBlockCore String Unit :=
  empty.applyLoadedState plainPython twoSlots (fun _ => some (1, 1)) sharedOffset

def nullLoaded : Verdict × RawBlockCore String Unit :=
  lockedStore.applyLoadedState plainPython twoSlots (fun _ => none) nullOffset

/-- The slot of "a" goes to the free pool with the entry of "b"; an offset that
is no number raises after the store was cleared. -/
theorem sharedOffset_in_pool :
    (sharedLoaded.1 = .accepted ∧ sharedLoaded.2.indexSlots twoSlots.toConfig = [0] ∧
      sharedLoaded.2.freeSlots.keys = [0] ∧ ¬ LoadsSafely twoSlots .empty sharedLoaded) ∧
    nullLoaded.1 = .refused .raised ∧ nullLoaded.2.lockRefcnt.keys = [] ∧
      ¬ LoadsSafely twoSlots lockedStore nullLoaded := by
  have hacc : sharedLoaded.1 = .accepted := by decide
  have hindex : sharedLoaded.2.indexSlots twoSlots.toConfig = [0] := by decide
  have hpool : sharedLoaded.2.freeSlots.keys = [0] := by decide
  have hraised : nullLoaded.1 = .refused .raised := by decide
  have hlocks : nullLoaded.2.lockRefcnt.keys = [] := by decide
  have hlocked : lockedStore.lockRefcnt.keys = ["a"] := by decide
  refine ⟨⟨hacc, hindex, hpool, ?_⟩, hraised, hlocks, ?_⟩
  · rintro (⟨hne, -⟩ | ⟨-, hc⟩)
    · exact hne hacc
    · have hone := hc.partition 0 (by decide)
      cases hone
  · rintro (⟨-, hsame⟩ | ⟨hacc', -⟩)
    · rw [hsame, hlocked] at hlocks
      cases hlocks
    · cases hacc'

end LMCache.RawBlock
