/-
LMCache.RawBlock.RecoveryRuns — what a key recovered after a crash reads.

A checkpoint can be older than the slots it names, so nothing about the store
in memory says what such a slot holds now. The argument is about where the
bytes of a slot came from: `lastWriter` is the last put that changed the slot,
the bytes of it that got through are still there, and every slot an entry of
a snapshot names has such a put. The header check then compares the recovered
key with that put.

Two things it cannot see. A put of the same key that was cut after its header
looks like a finished one: the header says nothing of the payload behind it.
And a put of another key with the same slot identity looks like one of this
key.
-/
import LMCache.RawBlock.RestartTheorems

namespace LMCache.RawBlock

open Lib List RawBlockCore Dict

variable {Meta : Type}

/-! ## The bytes of a put -/

section Bytes

variable {lay : SlotLayout} {put : Put Meta}

lemma Put.length_le (h : put.ready lay) : put.length lay ≤ lay.slotBytes := by
  have hlt := lay.header_lt_slot
  simp only [ready, Config.payloadFitsSlot, Bool.and_eq_true] at h
  obtain ⟨hfits, -⟩ := h
  unfold length
  split at hfits
  · cases hfits
  · split_ifs at hfits with halign
    · rw [if_pos halign]
      have := of_decide_eq_true hfits
      omega
    · rw [if_neg halign]
      omega

lemma Put.payload_le_length : lay.headerBytes + put.payload.length ≤ put.length lay := by
  have halign := lay.block_align_pos
  unfold length
  split
  · have hround : put.payload.length ≤ roundUp put.payload.length lay.blockAlign := by
      have hdiv := Nat.div_add_mod (put.payload.length + lay.blockAlign - 1) lay.blockAlign
      have hmod := Nat.mod_lt (put.payload.length + lay.blockAlign - 1) halign
      rw [mul_comm] at hdiv
      unfold roundUp
      omega
    omega
  · exact le_rfl

lemma Config.slots_disjoint {cfg : Config} {s t : Nat}
    (h : cfg.slotToOffset s ≠ cfg.slotToOffset t) :
    cfg.slotToOffset s + cfg.slotBytes ≤ cfg.slotToOffset t ∨
      cfg.slotToOffset t + cfg.slotBytes ≤ cfg.slotToOffset s := by
  have hstep : ∀ {a b : Nat}, a < b → cfg.slotToOffset a + cfg.slotBytes ≤ cfg.slotToOffset b := by
    intro a b hab
    have hmul := Nat.mul_le_mul_right cfg.slotBytes (Nat.succ_le_of_lt hab)
    rw [Nat.succ_mul] at hmul
    unfold slotToOffset
    omega
  rcases Nat.lt_trichotomy s t with hlt | rfl | hlt
  · exact .inl (hstep hlt)
  · exact absurd rfl h
  · exact .inr (hstep hlt)

/-- The bytes of `w` that got through are on the device. -/
structure Writing.OnDevice (lay : SlotLayout) (dev : Device) (w : Writing Meta) : Prop where
  ready : w.put.ready lay
  slot : ∃ slot, w.offset = lay.slotToOffset slot
  persisted : ∀ i ∈ w.persisted, i < w.put.length lay ∧ dev (w.offset + i) = w.put.byteAt lay i

variable {dev : Device} {w : Writing Meta}

/-- The 24 bytes a header is read from have reached the device. -/
def Writing.Labeled (w : Writing Meta) : Prop := ∀ i < 24, i ∈ w.persisted

instance : Decidable w.Labeled := inferInstanceAs (Decidable (∀ i < 24, i ∈ w.persisted))

lemma Writing.OnDevice.header (h : w.OnDevice lay dev) (hlabeled : w.Labeled) :
    lay.readSlotHeader dev w.offset = some (w.put.slotIdentity % 2 ^ 64, w.put.payload.length) := by
  have hfits := lay.header_fits
  have hlen : w.put.payload.length < 2 ^ 64 := by
    have hready := h.ready
    simp only [Put.ready, Bool.and_eq_true, decide_eq_true_eq] at hready
    exact hready.2
  have hread : dev.read w.offset 24 = encodeHeader w.put.slotIdentity w.put.payload.length := by
    rw [← length_encodeHeader w.put.slotIdentity w.put.payload.length]
    apply Device.read_eq
    intro i hi
    rw [length_encodeHeader] at hi
    rw [(h.persisted i (hlabeled i hi)).2, Put.byteAt, if_pos hi]
  rw [SlotLayout.readSlotHeader, show lay.headerBytes = 24 + (lay.headerBytes - 24) by omega,
    Device.read_add, hread, decodeSlotHeader_encodeHeader hlen]

lemma Writing.OnDevice.payload (h : w.OnDevice lay dev) (hfinished : w.Finished lay) :
    dev.read (w.offset + lay.headerBytes) w.put.payload.length = w.put.payload := by
  have hfits := lay.header_fits
  have hlen : lay.headerBytes + w.put.payload.length ≤ w.put.length lay := Put.payload_le_length
  apply Device.read_eq
  intro i hi
  rw [add_assoc, (h.persisted _ (hfinished (lay.headerBytes + i) (by omega))).2, Put.byteAt,
    if_neg (by omega), Nat.add_sub_cancel_left, if_pos ⟨Nat.le_add_right .., hi⟩]

end Bytes

/-! ## What a section does to the index and the writes in flight -/

variable {c : RawBlockCore String Meta}

namespace RawBlockCore

variable {cfg : Config} {c' c'' : RawBlockCore String Meta}

/-- No new entry, and the writes in flight stay where they are. -/
structure Keeps (c c' : RawBlockCore String Meta) : Prop where
  inflight : ∀ key w, c.inflight.get? key = some w →
    ∃ w', c'.inflight.get? key = some w' ∧ w'.offset = w.offset
  index : ∀ key e, c'.index.get? key = some e → c.index.get? key = some e

lemma Keeps.of_eq (hinflight : c'.inflight = c.inflight) (hindex : c'.index = c.index) :
    Keeps c c' :=
  ⟨fun _ w hw => ⟨w, hinflight ▸ hw, rfl⟩, fun _ _ he => hindex ▸ he⟩

lemma Keeps.trans (h : Keeps c c') (h' : Keeps c' c'') : Keeps c c'' where
  inflight key w hw := by
    obtain ⟨w', hw', heq⟩ := h.inflight key w hw
    obtain ⟨w'', hw'', heq'⟩ := h'.inflight key w' hw'
    exact ⟨w'', hw'', heq'.trans heq⟩
  index key e he := h.index key e (h'.index key e he)

lemma keeps_foldl {α : Type} {f : RawBlockCore String Meta → α → RawBlockCore String Meta}
    (hf : ∀ c x, Keeps c (f c x)) (l : List α) (c : RawBlockCore String Meta) :
    Keeps c (l.foldl f c) :=
  foldlRecOn (motive := Keeps c) l f (Keeps.of_eq rfl rfl) fun c' hc' x _ => hc'.trans (hf c' x)

variable (cfg : Config) (c : RawBlockCore String Meta)

lemma keeps_lockOne (key : String) : Keeps c (c.lockOne key) := by
  unfold lockOne
  split
  · exact Keeps.of_eq rfl rfl
  · exact Keeps.of_eq rfl rfl

lemma giveSlotBack_same (offset : Nat) :
    (c.giveSlotBack cfg offset).inflight = c.inflight ∧
      (c.giveSlotBack cfg offset).index = c.index := by
  obtain ⟨free, pools, heq⟩ := appendFreeSlot_eq cfg c (cfg.offsetToSlot offset)
  simp [giveSlotBack, heq]

lemma keeps_cancel (key : String) : Keeps c { c with
      index := c.index.erase key
      inflight :=
        match c.inflight.get? key with
        | some w => c.inflight.set key { w with canceled := true }
        | none => c.inflight
      lockRefcnt := c.lockRefcnt.erase key } := by
  constructor
  · intro k w hw
    split
    · rename_i w₀ hw₀
      rw [get?_set]
      split_ifs with hk
      · obtain rfl := Option.mem_unique hw₀ (hk ▸ hw)
        exact ⟨_, rfl, rfl⟩
      · exact ⟨w, hw, rfl⟩
    · exact ⟨w, hw, rfl⟩
  · intro k e he
    exact (get?_of_erase he).2

lemma keeps_deleteOne (force : Bool) (key : String) :
    Keeps c (c.deleteOne cfg force key).1 := by
  unfold deleteOne
  dsimp only
  split
  · exact Keeps.of_eq rfl rfl
  split
  · obtain ⟨hinflight, hindex⟩ := giveSlotBack_same cfg _ _
    exact (keeps_cancel c key).trans (Keeps.of_eq hinflight hindex)
  · exact keeps_cancel c key

lemma keeps_deleteMany (keys : List String) (force : Bool) :
    Keeps c (c.deleteMany cfg keys force).1 := by
  refine foldlRecOn (motive := fun state : RawBlockCore String Meta × List Bool =>
    Keeps c state.1) keys _ (Keeps.of_eq rfl rfl) fun state hstate key _ => ?_
  exact hstate.trans (keeps_deleteOne cfg state.1 force key)

/-- Settling or abandoning a write leaves the other writes alone; it can add an
entry at the slot of the write. -/
structure Ends (key : String) (c c' : RawBlockCore String Meta) : Prop where
  inflight : c'.inflight = c.inflight.erase key
  index : ∀ k e, c'.index.get? k = some e → c.index.get? k = some e ∨
    (k = key ∧ ∃ w, c.inflight.get? key = some w ∧ e.offset = w.offset)

lemma ends_abandon (key : String) :
    Ends key c (c.abandon cfg key) ∧ (c.abandon cfg key).index = c.index := by
  unfold abandon
  split
  · rename_i hnone
    exact ⟨⟨(erase_of_not_mem hnone).symm, fun _ _ he => .inl he⟩, rfl⟩
  · obtain ⟨hinflight, hindex⟩ := giveSlotBack_same cfg _ _
    exact ⟨⟨hinflight, fun _ _ he => .inl (hindex ▸ he)⟩, hindex⟩

lemma ends_settle (success : Bool) (key : String) :
    Ends key c (c.settle cfg success key) ∧
      (success = false → (c.settle cfg success key).index = c.index) := by
  unfold settle
  split
  · rename_i hnone
    exact ⟨⟨(erase_of_not_mem hnone).symm, fun _ _ he => .inl he⟩, fun _ => rfl⟩
  · rename_i w hw
    split_ifs with hdone
    · obtain ⟨hinflight, hindex⟩ := giveSlotBack_same cfg _ _
      exact ⟨⟨hinflight, fun _ _ he => .inl (hindex ▸ he)⟩, fun _ => hindex⟩
    · refine ⟨⟨rfl, fun k e he => ?_⟩, fun hfailed => absurd (.inr (by simp [hfailed])) hdone⟩
      obtain ⟨hk, rfl⟩ | ⟨-, he⟩ := get?_set_cases he
      · exact .inr ⟨hk, w, hw, rfl⟩
      · exact .inl he

end RawBlockCore

/-! ## The invariant -/

namespace Machine

/-- Every entry has a put of its key behind it, and a put that wrote its slot. -/
def Backed (m : Machine Meta) (index : Dict String (Entry Meta)) : Prop :=
  ∀ key e, index.get? key = some e → (∃ put ∈ m.issued, put.key = key) ∧ e.offset ∈ m.lastWriter

structure Inv (fields : MetaFields Meta) (lay : SlotLayout) (m : Machine Meta) : Prop where
  slots : m.core.SlotInv lay.toConfig []
  writing : ∀ key w, m.writing.get? key = some w → w.put.key = key ∧ w.put ∈ m.issued ∧
    (∃ slot, w.offset = lay.slotToOffset slot) ∧
    ∃ write, m.core.inflight.get? key = some write ∧ write.offset = w.offset
  begun : ∀ key w, m.writing.get? key = some w → w.persisted ≠ [] →
    m.lastWriter.get? w.offset = some w
  onDevice : ∀ offset w, m.lastWriter.get? offset = some w →
    w.offset = offset ∧ w.put ∈ m.issued ∧ w.OnDevice lay m.device
  index : m.Backed m.core.index
  snapshots : ∀ document ∈ m.snapshots, ∃ c, document = snapshotState fields lay c ∧
    c.SlotInv lay.toConfig [] ∧ m.Backed c.index

variable {fields : MetaFields Meta} {py : Python Meta} {lay : SlotLayout} {m m' : Machine Meta}

lemma inv_start (device : Device) : Inv fields lay (start device : Machine Meta) where
  slots := slotInv_empty lay.toConfig
  writing _ _ h := by cases h
  begun _ _ h := by cases h
  onDevice _ _ h := by cases h
  index _ _ h := by cases h
  snapshots _ h := by cases h

lemma Backed.mono {index : Dict String (Entry Meta)} (h : m.Backed index)
    (hissued : ∀ put ∈ m.issued, put ∈ m'.issued)
    (hwriter : ∀ offset ∈ m.lastWriter, offset ∈ m'.lastWriter) : m'.Backed index := by
  intro key e he
  obtain ⟨⟨put, hput, hkey⟩, hoffset⟩ := h key e he
  exact ⟨⟨put, hissued put hput, hkey⟩, hwriter _ hoffset⟩

variable {completed : List (Put Meta)}

section

variable (h : Inv fields lay m)
include h

section

variable (hslots : c.SlotInv lay.toConfig [])
include hslots

/-- A section that starts no write and leaves the device alone. -/
lemma Inv.core {writing : Dict String (Writing Meta)}
    (hwriting : ∀ key w, writing.get? key = some w → m.writing.get? key = some w ∧
      ∀ write, m.core.inflight.get? key = some write →
      ∃ write', c.inflight.get? key = some write' ∧ write'.offset = write.offset)
    (hindex : m.Backed c.index) : Inv fields lay { m with core := c, writing, completed } where
  slots := hslots
  writing key w hw := by
    obtain ⟨hold, hkeep⟩ := hwriting key w hw
    obtain ⟨hkey, hissued, hslot, write, hwrite, hoffset⟩ := h.writing key w hold
    obtain ⟨write', hwrite', hsame⟩ := hkeep write hwrite
    exact ⟨hkey, hissued, hslot, write', hwrite', hsame.trans hoffset⟩
  begun key w hw := h.begun key w (hwriting key w hw).1
  onDevice := h.onDevice
  index := hindex
  snapshots := h.snapshots

lemma Inv.keeps (hkeeps : m.core.Keeps c) : Inv fields lay { m with core := c } :=
  h.core hslots (fun key _ hw => ⟨hw, hkeeps.inflight key⟩) fun key e he =>
    h.index key e (hkeeps.index key e he)

variable {key : String}

/-- The write of `key` ends. Its slot was written if it became an entry. -/
lemma Inv.ends (hends : RawBlockCore.Ends key m.core c)
    (hnew : ∀ e, c.index.get? key = some e → m.core.index.get? key = none →
      ∃ w, m.writing.get? key = some w ∧ w.persisted ≠ []) :
    Inv fields lay { m with core := c, writing := m.writing.erase key, completed } := by
  refine h.core hslots (fun k w hw => ?_) fun k e he => ?_
  · obtain ⟨hne, hw⟩ := get?_of_erase hw
    refine ⟨hw, fun write hwrite => ⟨write, ?_, rfl⟩⟩
    rw [hends.inflight, get?_erase_ne _ hne]
    exact hwrite
  · rcases hends.index k e he with hold | ⟨rfl, write, hwrite, hoffset⟩
    · exact h.index k e hold
    · -- an indexed key has no write in flight, so the entry is new
      have hnone : m.core.index.get? k = none := by
        rw [← not_mem_iff_get?]
        intro hin
        exact h.slots.apart k hin (mem_iff_get?.mpr ⟨write, hwrite⟩)
      obtain ⟨w, hw, hbegun⟩ := hnew e he hnone
      obtain ⟨hkey, hissued, -, write', hwrite', hsame⟩ := h.writing k w hw
      obtain rfl := Option.mem_unique hwrite hwrite'
      refine ⟨⟨w.put, hissued, hkey⟩, mem_iff_get?.mpr ⟨w, ?_⟩⟩
      rw [hoffset, hsame]
      exact h.begun k w hw hbegun

end

/-! ## The steps -/

lemma inv_reserve (fit : Bool) (put : Put Meta) : Inv fields lay (m.reserve lay fit put) := by
  have hslots : (m.core.reserve lay.toConfig fit put.item).SlotInv lay.toConfig [] :=
    slotInv_reserve h.slots
  unfold reserve
  dsimp only
  rcases reserve_cases h.slots fit put.item with
    hsame | ⟨-, slot, write, hnone, hoffset, hinflight, hindex, -⟩
  · rw [hsame]
    split
    · rename_i hold hnew
      rw [hold] at hnew
      cases hnew
    · exact h
  · have hnone' : m.core.inflight.get? put.key = none := hnone
    have hnew : (m.core.reserve lay.toConfig fit put.item).inflight.get? put.key = some write := by
      rw [hinflight]
      exact get?_set_self ..
    rw [hnone', hnew]
    refine ⟨hslots, fun key w hw => ?_, fun key w hw hbegun => ?_, fun offset w hw => ?_, ?_, ?_⟩
    · obtain ⟨hkey, rfl⟩ | ⟨hne, hw⟩ := get?_set_cases hw
      · exact ⟨hkey.symm, mem_cons_self, ⟨slot, hoffset⟩, write, hkey ▸ hnew, rfl⟩
      · obtain ⟨hkey, hissued, hslot, write', hwrite', hsame⟩ := h.writing key w hw
        refine ⟨hkey, mem_cons_of_mem _ hissued, hslot, write', ?_, hsame⟩
        rw [hinflight]
        exact (get?_set_ne _ _ hne).trans hwrite'
    · obtain ⟨-, rfl⟩ | ⟨-, hw⟩ := get?_set_cases hw
      · exact absurd rfl hbegun
      · exact h.begun key w hw hbegun
    · obtain ⟨hoff, hissued, hdev⟩ := h.onDevice offset w hw
      exact ⟨hoff, mem_cons_of_mem _ hissued, hdev⟩
    · refine Backed.mono (m := m) ?_ (fun _ => mem_cons_of_mem _) fun _ => id
      rw [hindex]
      exact h.index
    · intro document hdoc
      obtain ⟨c, heq, hc, hbacked⟩ := h.snapshots document hdoc
      exact ⟨c, heq, hc, hbacked.mono (fun _ => mem_cons_of_mem _) fun _ => id⟩

/-- Two puts that are being written have different slots. -/
lemma Inv.writing_apart {key' : String} {w w' : Writing Meta} (hw : m.writing.get? key = some w)
    (hw' : m.writing.get? key' = some w') (hne : key' ≠ key) : w'.offset ≠ w.offset := by
  obtain ⟨-, -, -, write, hwrite, hoffset⟩ := h.writing key w hw
  obtain ⟨-, -, -, write', hwrite', hoffset'⟩ := h.writing key' w' hw'
  intro hsame
  refine hne (h.slots.keys_apart (.inr ⟨write', hwrite', rfl⟩) (.inr ⟨write, hwrite, ?_⟩))
  rw [hoffset, hoffset', hsame]

/-- One more byte of the put that is writing the slot. -/
lemma Inv.onDevice_persist {w : Writing Meta} {i : Nat} (hw : m.writing.get? key = some w)
    (hready : w.put.ready lay) (hi : i < w.put.length lay) :
    Writing.OnDevice lay (m.device.write (w.offset + i) [w.put.byteAt lay i])
      { w with persisted := i :: w.persisted } where
  ready := hready
  slot := (h.writing key w hw).2.2.1
  persisted j hj := by
    by_cases hji : j = i
    · subst hji
      exact ⟨hi, by simp [Device.write]⟩
    · have hold : j ∈ w.persisted := (mem_cons.mp hj).resolve_left hji
      have hlast := h.begun key w hw (ne_nil_of_mem hold)
      obtain ⟨hlt, hbyte⟩ := (h.onDevice w.offset w hlast).2.2.persisted j hold
      refine ⟨hlt, ?_⟩
      rw [Device.write_apply_of_not_mem (by rw [length_singleton]; dsimp only; omega)]
      exact hbyte

omit h in
lemma onDevice_frame {w w' : Writing Meta} {i : Nat} {b : UInt8}
    (h : w'.OnDevice lay m.device) (hready : w.put.ready lay)
    (hslot : ∃ slot, w.offset = lay.slotToOffset slot) (hi : i < w.put.length lay)
    (hne : w'.offset ≠ w.offset) : w'.OnDevice lay (m.device.write (w.offset + i) [b]) := by
  refine ⟨h.ready, h.slot, fun j hj => ?_⟩
  obtain ⟨hlt, hbyte⟩ := h.persisted j hj
  refine ⟨hlt, ?_⟩
  have hlen := Put.length_le hready
  have hlen' := Put.length_le h.ready
  obtain ⟨slot, hslot⟩ := hslot
  obtain ⟨slot', hslot'⟩ := h.slot
  have hdisjoint : lay.slotToOffset slot + lay.slotBytes ≤ lay.slotToOffset slot' ∨
      lay.slotToOffset slot' + lay.slotBytes ≤ lay.slotToOffset slot := by
    apply Config.slots_disjoint
    rw [← hslot, ← hslot']
    exact hne.symm
  rw [Device.write_apply_of_not_mem (by rw [length_singleton]; omega)]
  exact hbyte

lemma inv_persistByte (key : String) (i : Nat) : Inv fields lay (m.persistByte lay key i) := by
  unfold persistByte
  split
  · exact h
  rename_i w hw
  split_ifs with hguard
  · obtain ⟨hready, hi, -⟩ := hguard
    obtain ⟨hkey, hissued, hslot, hinflight⟩ := h.writing key w hw
    have hwriter : ∀ offset ∈ m.lastWriter, offset ∈ m.lastWriter.set w.offset
        { w with persisted := i :: w.persisted } := fun _ hin => mem_set.mpr (.inr hin)
    refine ⟨h.slots, fun k w' hw' => ?_, fun k w' hw' hbegun => ?_, fun offset w' hw' => ?_, ?_, ?_⟩
    · obtain ⟨hk, rfl⟩ | ⟨-, hw'⟩ := get?_set_cases hw'
      · exact ⟨hkey.trans hk.symm, hissued, hslot, hk ▸ hinflight⟩
      · exact h.writing k w' hw'
    · obtain ⟨-, rfl⟩ | ⟨hk, hw'⟩ := get?_set_cases hw'
      · exact get?_set_self ..
      · exact (get?_set_ne _ _ (h.writing_apart hw hw' hk)).trans (h.begun k w' hw' hbegun)
    · obtain ⟨hoffset, rfl⟩ | ⟨hne, hw'⟩ := get?_set_cases hw'
      · exact ⟨hoffset.symm, hissued, h.onDevice_persist hw hready hi⟩
      · obtain ⟨hoffset, hissued', hdev⟩ := h.onDevice offset w' hw'
        exact ⟨hoffset, hissued', onDevice_frame hdev hready hslot hi (hoffset ▸ hne)⟩
    · exact h.index.mono (fun _ => id) hwriter
    · intro document hdoc
      obtain ⟨c, heq, hc, hbacked⟩ := h.snapshots document hdoc
      exact ⟨c, heq, hc, hbacked.mono (fun _ => id) hwriter⟩
  · exact h

lemma inv_settle (key : String) (success : Bool) : Inv fields lay (m.settle lay key success) := by
  unfold settle
  split
  · exact h
  rename_i w hw
  split_ifs with hguard
  · exact h
  · obtain ⟨hends, hfailed⟩ := ends_settle lay.toConfig m.core success key
    refine h.ends (slotInv_settle h.slots) hends fun e he hnone => ?_
    refine ⟨w, hw, ?_⟩
    cases success with
    | false =>
      rw [hfailed rfl, hnone] at he
      cases he
    | true =>
      -- the header block is not empty, so a finished write has written something
      have hfinished : w.Finished lay := by simpa using hguard
      have hpos : 0 < w.put.length lay := by
        have hfits := lay.header_fits
        unfold Put.length
        omega
      exact ne_nil_of_mem (hfinished 0 hpos)

omit h in
/-- What a snapshot's entries have behind them, those of a restart from it have. -/
lemma Backed.restarted {dev : Device} {unreadable : List String} (h : m.Backed c.index) :
    m.Backed (RawBlock.restarted py lay dev unreadable (snapshotState fields lay c)).index := by
  intro key e he
  obtain ⟨e₀, he₀, hoffset, -⟩ := loadedIndex_snapshotState (loadedIndex_of_restarted he).1
  rw [hoffset]
  exact h key e₀ he₀

lemma inv_restart (snapshot : Option Nat) (unreadable : List String) :
    Inv fields lay (m.step fields py lay (.restart snapshot unreadable)) := by
  refine h.core ?_ (fun _ _ hw => by cases hw) ?_
  · split
    · exact slotInv_empty lay.toConfig
    · rename_i document hfound
      obtain ⟨n, -, hn⟩ := Option.bind_eq_some_iff.mp hfound
      obtain ⟨c, rfl, hc, -⟩ := h.snapshots document (mem_of_getElem? hn)
      exact slotInv_restarted hc
  · split
    · intro _ _ he
      cases he
    · rename_i document hfound
      obtain ⟨n, -, hn⟩ := Option.bind_eq_some_iff.mp hfound
      obtain ⟨c, rfl, -, hbacked⟩ := h.snapshots document (mem_of_getElem? hn)
      exact hbacked.restarted

lemma inv_step (event : Event Meta) : Inv fields lay (m.step fields py lay event) := by
  cases event with
  | reserve fit put => exact inv_reserve h fit put
  | persist key positions =>
    exact foldlRecOn (motive := Inv fields lay) positions _ h fun _ hm i _ =>
      inv_persistByte hm key i
  | abandon key =>
    obtain ⟨hends, hsame⟩ := ends_abandon lay.toConfig m.core key
    refine h.ends (slotInv_abandon h.slots) hends fun e he hnone => ?_
    rw [hsame, hnone] at he
    cases he
  | settle key success => exact inv_settle h key success
  | deleteMany keys force =>
    exact h.keeps (slotInv_deleteMany h.slots) (keeps_deleteMany ..)
  | existsMany workerFailed keys lock =>
    refine h.keeps (slotInv_step h.slots (.existsMany workerFailed keys lock)) ?_
    unfold existsMany
    split
    · exact .of_eq rfl rfl
    · split
      · exact keeps_foldl keeps_lockOne keys m.core
      · exact .of_eq rfl rfl
  | getMetadataPrefix keys lock skipLocked =>
    refine h.keeps (slotInv_step h.slots (.getMetadataPrefix keys lock skipLocked)) ?_
    unfold getMetadataPrefix
    split
    · exact keeps_foldl keeps_lockOne _ m.core
    · exact .of_eq rfl rfl
  | unlockMany keys =>
    refine h.keeps (slotInv_step h.slots (.unlockMany keys)) ?_
    exact keeps_foldl (f := unlockOne) (fun _ _ => .of_eq rfl rfl) keys m.core
  | close => exact h.keeps (slotInv_step h.slots .close) (.of_eq rfl rfl)
  | checkpoint =>
    refine ⟨h.slots, h.writing, h.begun, h.onDevice, h.index, fun document hdoc => ?_⟩
    rcases mem_append.mp hdoc with hold | hnew
    · exact h.snapshots document hold
    · exact ⟨m.core, mem_singleton.mp hnew, h.slots, h.index⟩
  | restart snapshot unreadable => exact inv_restart h snapshot unreadable

end

/-! ## Recovered keys -/

section Recovered

variable (py : Python Meta) (lay : SlotLayout) (m : Machine Meta)

section

variable (key : String) (e : Entry Meta)

/-- A crash now and a restart that finds one of the snapshots: `key` is in the
index with the entry `e`. -/
def Recovers : Prop :=
  ∃ document ∈ m.snapshots, ∃ unreadable,
    (restarted py lay m.device unreadable document).index.get? key = some e

/-- The payload bytes of the entry are those of a put of the key that was
written to its end and committed. -/
def HoldsCompletedPut : Prop :=
  ∃ put ∈ m.completed, put.key = key ∧
    m.device.read (e.offset + lay.headerBytes) e.size = put.payload

/-- No put of another key has the identity that is expected of `key`. -/
def DistinctIdentities : Prop :=
  ∀ put ∈ m.issued, ∀ put' ∈ m.issued,
    py.slotIdentity put'.key = some (put.slotIdentity % 2 ^ 64) → put.key = put'.key

/-- The last put that changed the slot labeled it, and if it is one of `key` it
was written to its end and committed. -/
def Undisturbed : Prop :=
  ∀ w, m.lastWriter.get? e.offset = some w →
    w.Labeled ∧ (w.put.key = key → w.Finished lay ∧ w.put ∈ m.completed)

end

instance (key : String) (e : Entry Meta) : Decidable (HoldsCompletedPut lay m key e) :=
  inferInstanceAs (Decidable (∃ put ∈ m.completed, put.key = key ∧ _ = put.payload))

instance : Decidable (DistinctIdentities py m) :=
  inferInstanceAs (Decidable (∀ put ∈ m.issued, ∀ put' ∈ m.issued, _ = _ → put.key = put'.key))

instance [DecidableEq Meta] (key : String) (e : Entry Meta) : Decidable (Undisturbed lay m key e) :=
  inferInstanceAs (Decidable (∀ w ∈ m.lastWriter.get? e.offset, w.Labeled ∧ (_ → _ ∧ _)))

end Recovered

/-- The restart that finds the first snapshot and can read every slot. -/
lemma recovers_of_first {e : Entry Meta} (hpos : 0 < m.snapshots.length)
    (h : (restarted py lay m.device [] (m.snapshots.getD 0 .null)).index.get? key = some e) :
    Recovers py lay m key e := by
  refine ⟨m.snapshots.getD 0 .null, ?_, [], h⟩
  simp [hpos]

/-- The slot of a recovered key was last written by a put of that key, if that
put labeled it and no other key has the same identity. -/
lemma Inv.lastWriter_of_recovers (h : Inv fields lay m) (hverify : lay.metaVerifyOnLoad)
    (hdistinct : DistinctIdentities py m) {e : Entry Meta} (hrec : Recovers py lay m key e)
    (hlabeled : ∀ w, m.lastWriter.get? e.offset = some w → w.Labeled) :
    ∃ w, m.lastWriter.get? e.offset = some w ∧ w.offset = e.offset ∧ w.OnDevice lay m.device ∧
      w.put.key = key ∧ w.put.payload.length = e.size := by
  obtain ⟨document, hdoc, unreadable, hkey⟩ := hrec
  obtain ⟨c, rfl, -, hbacked⟩ := h.snapshots document hdoc
  obtain ⟨⟨put, hput, hputkey⟩, hwritten⟩ := hbacked.restarted key e hkey
  obtain ⟨w, hw⟩ := mem_iff_get?.mp hwritten
  obtain ⟨hoffset, hissued, hdev⟩ := h.onDevice e.offset w hw
  obtain ⟨identity, hident, hread⟩ := header_of_restarted hverify hkey
  rw [← hoffset, hdev.header (hlabeled w hw)] at hread
  obtain ⟨rfl, hsize⟩ := Prod.mk.inj (Option.some.inj hread)
  refine ⟨w, hw, hoffset, hdev, ?_, hsize⟩
  rw [← hputkey]
  exact hdistinct w.put hissued put hput (hputkey ▸ hident)

/-- In every run, over any number of restarts. -/
theorem recovered_payload_complete (fields : MetaFields Meta) (py : Python Meta) (lay : SlotLayout)
    (hverify : lay.metaVerifyOnLoad) (device : Device) (es : List (Event Meta))
    (hdistinct : DistinctIdentities py (run (step fields py lay) (start device) es))
    (key : String) (e : Entry Meta)
    (hrec : Recovers py lay (run (step fields py lay) (start device) es) key e)
    (hundisturbed : Undisturbed lay (run (step fields py lay) (start device) es) key e) :
    HoldsCompletedPut lay (run (step fields py lay) (start device) es) key e := by
  have h : Inv fields lay (run (step fields py lay) (start device) es) :=
    run_always (Inv fields lay) (fun _ event hm => inv_step hm event) (inv_start device) es
  obtain ⟨w, hw, hoffset, hdev, hkey, hsize⟩ := h.lastWriter_of_recovers hverify hdistinct hrec
    fun w hw => (hundisturbed w hw).1
  obtain ⟨hfinished, hcompleted⟩ := (hundisturbed w hw).2 hkey
  refine ⟨w.put, hcompleted, hkey, ?_⟩
  rw [← hoffset, ← hsize]
  exact hdev.payload hfinished

/-- In every run, over any number of restarts: two puts that are being written at
the same time write to ranges of the device that do not meet. -/
theorem concurrent_writes_apart (fields : MetaFields Meta) (py : Python Meta) (lay : SlotLayout)
    (device : Device) (es : List (Event Meta)) (key key' : String) (w w' : Writing Meta)
    (hw : (run (step fields py lay) (start device) es).writing.get? key = some w)
    (hw' : (run (step fields py lay) (start device) es).writing.get? key' = some w')
    (hne : key' ≠ key) :
    w.offset + lay.slotBytes ≤ w'.offset ∨ w'.offset + lay.slotBytes ≤ w.offset := by
  have h : Inv fields lay (run (step fields py lay) (start device) es) :=
    run_always (Inv fields lay) (fun _ event hm => inv_step hm event) (inv_start device) es
  obtain ⟨-, -, ⟨slot, hslot⟩, -⟩ := h.writing key w hw
  obtain ⟨-, -, ⟨slot', hslot'⟩, -⟩ := h.writing key' w' hw'
  have hapart := h.writing_apart hw hw' hne
  rw [hslot, hslot'] at hapart ⊢
  unfold Config.slotToOffset at *
  rcases Nat.lt_trichotomy slot slot' with hlt | rfl | hlt
  · exact .inl (by nlinarith [Nat.mul_le_mul_right lay.slotBytes hlt])
  · exact absurd rfl hapart
  · exact .inr (by nlinarith [Nat.mul_le_mul_right lay.slotBytes hlt])

end Machine

/-! ## Cut and mistaken puts -/

/-- Two slots of 32 bytes with 24-byte headers. -/
def twoDataSlots : SlotLayout where
  toLayout := twoSlots
  capacityBytes := 128
  block_align_pos := by decide
  header_fits := by decide

/-- Every key but "b" has the identity 1, as the layers of one chunk have. -/
def layerPython : Python Unit where
  intOfStr _ := none
  strOf
    | .str s => s
    | _ => ""
  metadataOf _ _ := some ()
  slotIdentity key := some (if key = "b" then 2 else 1)

def noFields : MetaFields Unit := ⟨fun _ => .null, fun _ => .null, fun _ => .null, fun _ => .null⟩

def putOf (key : String) (identity : Nat) (payload : Bytes) : Put Unit :=
  ⟨key, identity, payload, (), none, []⟩

def after (es : List (Event Unit)) : Machine Unit :=
  run (Machine.step noFields layerPython twoDataSlots) (.start fun _ => 0) es

/-- The put of `n` bytes in all is written and committed. -/
def whole (put : Put Unit) (n : Nat) : List (Event Unit) :=
  [.reserve false put, .persist put.key (range n), .settle put.key true]

/-- "a" is stored and in the checkpoint; the power fails in a put of "b". -/
def cutElsewhere : Machine Unit :=
  after (whole (putOf "a" 1 [10, 11]) 26 ++
    [.checkpoint, .reserve false (putOf "b" 2 [20]), .persist "b" (range 24)])

/-- "a" is stored, in the checkpoint, deleted and stored again in its old slot;
the power fails after the first byte of the payload. -/
def cutAgain : Machine Unit :=
  after (whole (putOf "a" 1 [10, 11]) 26 ++
    [.checkpoint, .deleteMany ["a"] false, .reserve false (putOf "a" 1 [30, 31]),
      .persist "a" (range 25)])

/-- "a" is stored, in the checkpoint and deleted; another key with its identity
is stored in the slot. -/
def nextLayer : Machine Unit :=
  after (whole (putOf "a" 1 [10, 11]) 26 ++
    ([.checkpoint, .deleteMany ["a"] false] ++ whole (putOf "a@1" 1 [20, 21]) 26))

theorem cutElsewhere_recovered : Machine.DistinctIdentities layerPython cutElsewhere ∧
      Machine.Recovers layerPython twoDataSlots cutElsewhere "a" ⟨64, 2, ()⟩ ∧
      Machine.HoldsCompletedPut twoDataSlots cutElsewhere "a" ⟨64, 2, ()⟩ := by
  have hdistinct : Machine.DistinctIdentities layerPython cutElsewhere := by decide +kernel
  have hrec : Machine.Recovers layerPython twoDataSlots cutElsewhere "a" ⟨64, 2, ()⟩ :=
    Machine.recovers_of_first (by decide +kernel) (by decide +kernel)
  exact ⟨hdistinct, hrec, Machine.recovered_payload_complete noFields layerPython twoDataSlots rfl _
    _ hdistinct "a" ⟨64, 2, ()⟩ hrec (by decide +kernel)⟩

/-- The second put of "a" was cut and passes for a finished one; the put of
"a@1" was not and passes for one of "a". -/
theorem cutAgain_mistaken : (Machine.DistinctIdentities layerPython cutAgain ∧
      Machine.Recovers layerPython twoDataSlots cutAgain "a" ⟨64, 2, ()⟩ ∧
      cutAgain.device.read 88 2 = [30, 11] ∧
      ¬ Machine.HoldsCompletedPut twoDataSlots cutAgain "a" ⟨64, 2, ()⟩) ∧
    Machine.Undisturbed twoDataSlots nextLayer "a" ⟨64, 2, ()⟩ ∧
      Machine.Recovers layerPython twoDataSlots nextLayer "a" ⟨64, 2, ()⟩ ∧
      nextLayer.device.read 88 2 = [20, 21] ∧
      ¬ Machine.HoldsCompletedPut twoDataSlots nextLayer "a" ⟨64, 2, ()⟩ :=
  ⟨⟨by decide +kernel, Machine.recovers_of_first (by decide +kernel) (by decide +kernel),
      by decide +kernel, by decide +kernel⟩,
    by decide +kernel, Machine.recovers_of_first (by decide +kernel) (by decide +kernel),
    by decide +kernel, by decide +kernel⟩

/-- The slots of two puts that were begun together. -/
theorem begunTogether_apart : 64 + 32 ≤ 96 ∨ 96 + 32 ≤ 64 :=
  Machine.concurrent_writes_apart noFields layerPython twoDataSlots (fun _ => 0)
    [.reserve true (putOf "a" 1 [10]), .reserve true (putOf "b" 2 [20])] "a" "b"
    ⟨putOf "a" 1 [10], 64, []⟩ ⟨putOf "b" 2 [20], 96, []⟩ rfl rfl (by decide)

end LMCache.RawBlock
