/-
LMCache.RawBlock.RestartTheorems — what a restart makes of a snapshot.

Three facts about the pieces a restart puts together. A header block whose 24
header bytes are those of a put decodes to that put's identity and length. A
key of the restarted index was in the index of the snapshot, with the same
offset and size, and the header of its slot names it. And the restarted store
has every slot in one place again, so the slot invariant goes on.
-/
import LMCache.RawBlock.SlotWrites
import LMCache.RawBlock.LoadTheorems

namespace LMCache.RawBlock

open Lib List RawBlockCore Dict

variable {Meta : Type} {fields : MetaFields Meta} {py : Python Meta} {lay : SlotLayout}

/-! ## Headers -/

@[simp] lemma length_encodeHeader (slotIdentity payloadLen : Nat) :
    (encodeHeader slotIdentity payloadLen).length = 24 := by
  simp [encodeHeader, slotMagic]

lemma decodeSlotHeader_encodeHeader {slotIdentity payloadLen : Nat} (h : payloadLen < 2 ^ 64)
    (rest : Bytes) : decodeSlotHeader (encodeHeader slotIdentity payloadLen ++ rest) =
      some (slotIdentity % 2 ^ 64, payloadLen) := by
  have hlength : slotMagic.length = 8 := rfl
  have hid : slotIdentity % 2 ^ 64 < 256 ^ 8 := Nat.mod_lt _ (by decide)
  have hmagic : (encodeHeader slotIdentity payloadLen ++ rest).take 8 = slotMagic := by
    exact take_left' hlength
  have hident : ((encodeHeader slotIdentity payloadLen ++ rest).drop 8).take 8 =
      leBytes 8 (slotIdentity % 2 ^ 64) := by
    exact take_left' (length_leBytes ..)
  have hpay : ((encodeHeader slotIdentity payloadLen ++ rest).drop 16).take 8 =
      leBytes 8 payloadLen := by
    exact take_left' (length_leBytes ..)
  rw [decodeSlotHeader, hident, hpay, if_neg (by simp [hmagic]),
    leValue_leBytes hid, leValue_leBytes h]

/-! ## The document -/

variable {data : Dict String Json}

lemma checkDocument_ok {document : Json} {nextSlot : Nat} {lay : Layout}
    (h : checkDocument py lay document = .ok (data, nextSlot)) :
    document.asDict = some data ∧ checkNextSlot py lay data = .ok nextSlot := by
  unfold checkDocument at h
  split at h
  · cases h
  · rename_i data' hdict
    simp only [bind, Except.bind] at h
    repeat' split at h
    all_goals cases h
    rename_i hnext
    exact ⟨hdict, hnext⟩

variable {e : Entry Meta} {key : String} {index : Dict String (Entry Meta)}

lemma loadEntry_snapshotEntry {e₀ : Entry Meta} {lay : Layout}
    (h : loadEntry py lay key (snapshotEntry fields e₀) = .ok (some e)) :
    e.offset = e₀.offset ∧ e.size = e₀.size := by
  simp only [loadEntry, snapshotEntry, Json.asDict, foldl_cons, foldl_nil] at h
  simp only [intField, get?_set, Json.toInt, bind, Except.bind] at h
  simp only [reduceIte, String.reduceEq, Option.elim_some] at h
  split at h
  · split at h
    · cases h
    · obtain rfl := Option.some.inj (Except.ok.inj h)
      exact ⟨rfl, rfl⟩
  · cases h

variable {c : RawBlockCore String Meta}

lemma snapshotState_data (h : (snapshotState fields lay c).asDict = some data) :
    data.get? "next_slot" = some (.int c.nextSlot) ∧ data.get? "entries" =
      some (.obj (c.index.entries.map fun p => (p.1, snapshotEntry fields p.2))) := by
  obtain rfl := Option.some.inj h
  simp [get?_set]

/-- A loaded entry has the place and size it had in the snapshot. -/
lemma loadedIndex_snapshotState
    (h : (loadedIndex py lay (snapshotState fields lay c)).get? key = some e) :
    ∃ e₀, c.index.get? key = some e₀ ∧ e.offset = e₀.offset ∧ e.size = e₀.size := by
  unfold loadedIndex at h
  split at h
  · cases h
  · rename_i data _ hdoc
    obtain ⟨-, hentries⟩ := snapshotState_data (checkDocument_ok hdoc).1
    rcases loadEntries_mem h with ⟨entry, hmem, hload⟩ | hempty
    · simp only [entriesOf, hentries] at hmem
      rcases get?_foldl_set (mem_entries.mp hmem) with hin | hempty
      · obtain ⟨⟨k, e₀⟩, hindex, heq⟩ := mem_map.mp hin
        obtain ⟨rfl, rfl⟩ := Prod.mk.inj heq
        exact ⟨e₀, mem_entries.mp hindex, loadEntry_snapshotEntry hload⟩
      · cases hempty
    · cases hempty

lemma nextSlot_snapshotState {nextSlot : Nat}
    (h : checkDocument py lay.toLayout (snapshotState fields lay c) = .ok (data, nextSlot)) :
    nextSlot = c.nextSlot := by
  obtain ⟨hdict, hnext⟩ := checkDocument_ok h
  have hslot := (snapshotState_data hdict).1
  simp only [checkNextSlot, intField, hslot, Json.toInt, Option.elim_some] at hnext
  split at hnext
  · cases hnext
  · exact (Except.ok.inj hnext).symm

/-! ## The restarted store -/

/-- No write in flight and no placement identifier on record. -/
structure Bare (c : RawBlockCore String Meta) : Prop where
  inflight : c.inflight = ∅
  placement : c.slotPlacementIds = ∅
  pools : c.freeSlotsByPlacementId = ∅

lemma Bare.dropEntry (h : Bare c) (key : String) : Bare (c.dropEntry lay.toLayout key) := by
  unfold RawBlockCore.dropEntry
  split
  · exact ⟨h.inflight, h.placement, h.pools⟩
  · unfold appendFreeSlot
    split
    · exact ⟨h.inflight, h.placement, h.pools⟩
    split
    · exact ⟨h.inflight, h.placement, h.pools⟩
    split
    · rw [h.placement]
      exact ⟨h.inflight, rfl, h.pools⟩
    · exact ⟨h.inflight, h.placement, h.pools⟩

lemma Bare.validate (h : Bare c) (slotHdr : String → Option (Nat × Nat)) :
    Bare (c.validateLoadedEntries py lay.toLayout slotHdr) := by
  unfold validateLoadedEntries
  dsimp only
  split
  · exact h
  · have hfold := foldlRecOn (motive := Bare)
      ((c.index.entries.filter fun p => isStaleHeader py p.1 p.2 (slotHdr p.1)).map (·.1))
      (fun c key => c.dropEntry lay.toLayout key) h fun c hc key _ => hc.dropEntry key
    exact ⟨hfold.inflight, hfold.placement, hfold.pools⟩

section Restarted

variable {dev : Device} {unreadable : List String} {document : Json}

/-- An empty store with the loaded index. -/
def preloaded (nextSlot : Nat) (index : Dict String (Entry Meta)) : RawBlockCore String Meta :=
  { empty.clearForLoad nextSlot with index }

variable (py lay dev unreadable document) in
/-- A restart starts empty, or with what the load makes of the document. -/
lemma restarted_cases : (restarted py lay dev unreadable document).slots lay.toConfig = [] ∧
      (restarted py lay dev unreadable document).nextSlot = 0 ∧
      (restarted py lay dev unreadable document).index = ∅ ∧
      Bare (restarted py lay dev unreadable document) ∨
      ∃ data nextSlot, checkDocument py lay.toLayout document = .ok (data, nextSlot) ∧
      Applied py lay.toLayout (slotHeaders lay dev unreadable (loadedIndex py lay document))
      (loadedIndex py lay document) nextSlot (restarted py lay dev unreadable document) ∧
      Bare (restarted py lay dev unreadable document) := by
  cases hdoc : checkDocument py lay.toLayout document with
  | error why =>
    have hsame : restarted py lay dev unreadable document = .empty ∨
        restarted py lay dev unreadable document = empty.close := by
      simp only [restarted, applyLoadedState, hdoc]
      cases why with
      | rejected => exact .inl rfl
      | raised => exact .inr rfl
    rcases hsame with h | h
    · rw [h]
      exact .inl ⟨rfl, rfl, rfl, rfl, rfl, rfl⟩
    · rw [h]
      exact .inl ⟨rfl, rfl, rfl, rfl, rfl, rfl⟩
  | ok checked =>
    obtain ⟨data, nextSlot⟩ := checked
    have hindex : loadedIndex py lay document =
        (loadEntries py lay.toLayout ∅ (entriesOf data)).1 := by
      rw [loadedIndex, hdoc]
    cases hfin : (loadEntries py lay.toLayout ∅ (entriesOf data)).2 with
    | false =>
      have hsame : restarted py lay dev unreadable document = empty.close := by
        simp [restarted, applyLoadedState, hdoc, hfin]
      rw [hsame]
      exact .inl ⟨rfl, rfl, rfl, rfl, rfl, rfl⟩
    | true =>
      refine .inr ⟨data, nextSlot, rfl, ?_⟩
      have hvalid : ∀ key e, (loadedIndex py lay document).get? key = some e →
          isValidCheckpointEntry lay.toLayout e.offset e.size := by
        intro key e he
        rw [hindex] at he
        exact loadEntries_valid he
      have hsame : restarted py lay dev unreadable document = if lay.metaVerifyOnLoad then
            ((preloaded nextSlot (loadedIndex py lay document)).rebuildFreeSlots
              lay.toLayout).validateLoadedEntries py lay.toLayout
                (slotHeaders lay dev unreadable (loadedIndex py lay document))
          else (preloaded nextSlot (loadedIndex py lay document)).rebuildFreeSlots
            lay.toLayout := by
        simp [restarted, applyLoadedState, hdoc, hfin, hindex, preloaded]
      rw [hsame]
      refine ⟨applied_spec (c := preloaded nextSlot (loadedIndex py lay document)) hvalid, ?_⟩
      split
      · exact Bare.validate ⟨rfl, rfl, rfl⟩ _
      · exact ⟨rfl, rfl, rfl⟩

lemma loadedIndex_of_restarted {key : String}
    (h : (restarted py lay dev unreadable document).index.get? key = some e) :
    (loadedIndex py lay document).get? key = some e ∧
      dropped py lay.toLayout (slotHeaders lay dev unreadable (loadedIndex py lay document))
      key e = false := by
  rcases restarted_cases py lay dev unreadable document with
    ⟨-, -, hempty, -⟩ | ⟨data, nextSlot, -, happlied, -⟩
  · rw [hempty] at h
    cases h
  · exact (happlied.index_iff key e).mp h

/-- With the check on, the slot of a key in the restarted index has a header
with the key's identity and the size of its entry. -/
lemma header_of_restarted (hverify : lay.metaVerifyOnLoad) {key : String}
    (h : (restarted py lay dev unreadable document).index.get? key = some e) :
    ∃ identity, py.slotIdentity key = some identity ∧
      lay.readSlotHeader dev e.offset = some (identity, e.size) := by
  obtain ⟨hloaded, hkept⟩ := loadedIndex_of_restarted h
  simp only [dropped, hverify, Bool.true_and, isStaleHeader, slotHeaders, hloaded] at hkept
  split at hkept
  · rename_i identity len expected hread hident
    split at hread
    · cases hread
    · simp only [Bool.or_eq_false_iff, decide_eq_false_iff_not, not_not] at hkept
      obtain ⟨rfl, rfl⟩ := hkept
      exact ⟨identity, hident, hread⟩
  · cases hkept

lemma Bare.affinityOk (h : Bare c) : c.AffinityOk := by
  intro pid slot hpool
  rw [h.pools] at hpool
  cases hpool

/-- A load whose entries lie below `next_slot`, one in a slot, leaves every slot
in one place. -/
lemma Applied.slotInv {slotHdr : String → Option (Nat × Nat)} {nextSlot : Nat}
    (h : Applied py lay.toLayout slotHdr index nextSlot c) (hbare : Bare c)
    (hconsistent : LoadedConsistent lay.toLayout c) (hnext : nextSlot ≤ lay.maxSlots)
    (hbelow : ∀ key e, index.get? key = some e → lay.offsetToSlot e.offset < nextSlot) :
    c.SlotInv lay.toConfig [] := by
  refine ⟨fun s => ?_, h.next ▸ hnext, fun key _ => ?_, hbare.affinityOk⟩
  · have hnone : c.inflightSlots lay.toConfig = [] := by
      simp [inflightSlots, hbare.inflight]
    simp only [nil_append, slots, hnone, count_append]
    split
    · rename_i hlt
      exact hconsistent.partition s hlt
    · rename_i hge
      rw [h.next] at hge
      have hindex : s ∉ c.indexSlots lay.toConfig := by
        intro hmem
        obtain ⟨key, e, he, -, rfl⟩ := h.mem_indexSlots.mp hmem
        exact hge (hbelow key e he)
      have hfree : s ∉ c.freeSlots.keys := by
        intro hmem
        rcases (h.free_iff s).mp hmem with ⟨hlt, -⟩ | ⟨key, e, he, -, rfl⟩
        · exact hge hlt
        · exact hge (hbelow key e he)
      rw [count_eq_zero_of_not_mem hindex, count_eq_zero_of_not_mem hfree]
  · rw [hbare.inflight]
    exact not_mem_empty key

/-- Restarting from a snapshot of a consistent store gives a consistent one. -/
lemma slotInv_restarted (h : c.SlotInv lay.toConfig []) :
    (restarted py lay dev unreadable (snapshotState fields lay c)).SlotInv lay.toConfig [] := by
  rcases restarted_cases py lay dev unreadable (snapshotState fields lay c) with
    ⟨hslots, hnext, hindex, hbare⟩ | ⟨data, nextSlot, hdoc, happlied, hbare⟩
  · refine ⟨fun s => ?_, ?_, fun key hkey => ?_, hbare.affinityOk⟩
    · simp [hslots, hnext]
    · simp [hnext]
    · simp [hindex] at hkey
  · have hnext : nextSlot = c.nextSlot := nextSlot_snapshotState hdoc
    have hvalid : ∀ key e, (loadedIndex py lay (snapshotState fields lay c)).get? key = some e →
        isValidCheckpointEntry lay.toLayout e.offset e.size := by
      intro key e he
      rw [loadedIndex, hdoc] at he
      exact loadEntries_valid he
    have hbelow : ∀ key e, (loadedIndex py lay (snapshotState fields lay c)).get? key = some e →
        lay.offsetToSlot e.offset < nextSlot := by
      intro key e he
      obtain ⟨e₀, he₀, hoffset, -⟩ := loadedIndex_snapshotState he
      rw [hoffset, hnext]
      refine h.mem_lt (mem_append_left _ ?_)
      exact mem_map.mpr ⟨e₀, mem_values.mpr ⟨key, he₀⟩, rfl⟩
    have hshare : SharesSafely py lay.toLayout
        (slotHeaders lay dev unreadable (loadedIndex py lay (snapshotState fields lay c)))
        (fun key e => (loadedIndex py lay (snapshotState fields lay c)).get? key = some e)
        nextSlot := by
      intro key e key' e' he he' hne hslot
      obtain ⟨e₀, he₀, hoffset, -⟩ := loadedIndex_snapshotState he
      obtain ⟨e₀', he₀', hoffset', -⟩ := loadedIndex_snapshotState he'
      refine absurd (h.keys_apart (.inl ⟨e₀, he₀, rfl⟩) (.inl ⟨e₀', he₀', ?_⟩)) hne
      rw [← hoffset, ← hoffset']
      exact hslot.symm
    exact happlied.slotInv hbare (happlied.consistent hvalid hshare) (hnext ▸ h.next_le) hbelow

end Restarted

end LMCache.RawBlock
