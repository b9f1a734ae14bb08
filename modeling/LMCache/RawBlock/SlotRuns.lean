/-
LMCache.RawBlock.SlotRuns — where every slot is, in every run of the store.

`SlotInv` carries a list of slots in hand: those a section has taken out of
one place and not yet put into another. Between sections it is empty. Each
move (a slot leaves the pool, an entry is popped, a write is recorded) is one
lemma that takes a slot into the hand or out of it; the sections are chains of
moves.

The part about affinity pools rests on one fact: a slot in the pool of a
placement identifier is recorded under that identifier, so it is in one pool
at most, and taking it out of the pool it is recorded under takes it out of
all of them.
-/
import LMCache.RawBlock.Core
import LMCache.Lib.Custody
import LMCache.Lib.Run

namespace LMCache.RawBlock

open Lib List Dict

variable {Key Meta : Type}

namespace RawBlockCore

section

variable (cfg : Config) (c : RawBlockCore Key Meta)

def indexSlots : List Nat :=
  c.index.values.map fun e => cfg.offsetToSlot e.offset

def inflightSlots : List Nat :=
  c.inflight.values.map fun w => cfg.offsetToSlot w.offset

/-- The slots of the index, of the writes in flight, and of the free pool. -/
def slots : List Nat :=
  c.indexSlots cfg ++ (c.inflightSlots cfg ++ c.freeSlots.keys)

end

/-- A slot in an affinity pool is free and recorded under that identifier. -/
def AffinityOk (c : RawBlockCore Key Meta) : Prop :=
  ∀ pid slot, c.freeSlotsByPlacementId.get? pid slot = some () →
    slot ∈ c.freeSlots ∧ c.slotPlacementIds.get? slot = some pid

structure SlotInv (cfg : Config) (c : RawBlockCore Key Meta) (hand : List Nat) : Prop where
  once : Once (· < c.nextSlot) (hand ++ c.slots cfg)
  next_le : c.nextSlot ≤ cfg.maxSlots
  apart : ∀ key ∈ c.index, key ∉ c.inflight
  affinity : c.AffinityOk

variable {cfg : Config} {c c' : RawBlockCore Key Meta} {hand : List Nat} {slot : Nat} {key : Key}

lemma slotInv_empty [DecidableEq Key] (cfg : Config) : SlotInv cfg (empty : RawBlockCore Key Meta) [] where
  once := once_range 0
  next_le := Nat.zero_le _
  apart key hkey := absurd hkey (not_mem_empty key)
  affinity pid slot h := by cases h

lemma SlotInv.congr (h : SlotInv cfg c hand) (hindex : c'.index = c.index)
    (hinflight : c'.inflight = c.inflight) (hnext : c'.nextSlot = c.nextSlot)
    (hfree : c'.freeSlots = c.freeSlots)
    (hpools : c'.freeSlotsByPlacementId = c.freeSlotsByPlacementId)
    (hids : c'.slotPlacementIds = c.slotPlacementIds) : SlotInv cfg c' hand where
  once := by
    have hslots : c'.slots cfg = c.slots cfg := by
      simp only [slots, indexSlots, inflightSlots, hindex, hinflight, hfree]
    rw [hslots, hnext]
    exact h.once
  next_le := hnext ▸ h.next_le
  apart := by
    rw [hindex, hinflight]
    exact h.apart
  affinity := by
    unfold AffinityOk
    rw [hpools, hfree, hids]
    exact h.affinity

/-! ## Into the hand -/

lemma SlotInv.mem_lt (h : SlotInv cfg c hand) (hs : slot ∈ c.slots cfg) : slot < c.nextSlot :=
  h.once.mem_iff.mp (mem_append_right _ hs)

lemma mem_slots_of_free (h : slot ∈ c.freeSlots) : slot ∈ c.slots cfg :=
  mem_append_right _ (mem_append_right _ h)

lemma get?_setSlotPlacementId {s : Nat} (hs : s ≠ slot) (pid : Option Nat) :
    (c.setSlotPlacementId cfg slot pid).slotPlacementIds.get? s = c.slotPlacementIds.get? s := by
  unfold setSlotPlacementId
  cases pid with
  | none => exact get?_erase_ne _ hs
  | some pid =>
    dsimp only
    split
    · exact get?_set_ne _ _ hs
    · exact get?_erase_ne _ hs

lemma AffinityOk.take (h : c.AffinityOk) (pid : Option Nat)
    (hfree : ∀ s, s ≠ slot → s ∈ c.freeSlots → s ∈ c'.freeSlots)
    (hpools : ∀ p s, c'.freeSlotsByPlacementId.get? p s = some () →
      s ≠ slot ∧ c.freeSlotsByPlacementId.get? p s = some ())
    (hids : c'.slotPlacementIds = c.slotPlacementIds) :
    (c'.setSlotPlacementId cfg slot pid).AffinityOk := by
  intro p s hp
  obtain ⟨hne, hold⟩ := hpools p s hp
  obtain ⟨hmem, hid⟩ := h p s hold
  refine ⟨hfree s hne hmem, ?_⟩
  rw [get?_setSlotPlacementId hne, hids]
  exact hid

/-- After the pool it is recorded under, no pool has the slot. -/
lemma AffinityOk.ne_of_pop (h : c.AffinityOk) {pid p s : Nat}
    (hid : c.slotPlacementIds.get? slot = some pid)
    (hp : (c.freeSlotsByPlacementId.pop pid slot).get? p s = some ()) :
    s ≠ slot ∧ c.freeSlotsByPlacementId.get? p s = some () := by
  rw [NestedDict.get?_pop] at hp
  split at hp
  · cases hp
  · rename_i hne
    refine ⟨fun hs => hne ⟨?_, hs⟩, hp⟩
    have hrec := (h p s hp).2
    rw [hs, hid] at hrec
    exact (Option.some.inj hrec).symm

lemma once_take_free (h : Once (· < c.nextSlot) (c.slots cfg)) (hmem : slot ∈ c.freeSlots) :
    Once (· < c.nextSlot) ([slot] ++ { c with freeSlots := c.freeSlots.erase slot }.slots cfg) := by
  refine h.perm ?_
  have hkeys := keys_erase hmem
  have hinner : (c.inflightSlots cfg ++ c.freeSlots.keys).Perm
      (slot :: (c.inflightSlots cfg ++ (c.freeSlots.erase slot).keys)) :=
    (hkeys.append_left _).trans perm_middle
  exact (hinner.append_left _).trans perm_middle

lemma AffinityOk.remove (h : c.AffinityOk) (free : Dict Nat Unit) (slot : Nat) :
    ∃ pools, { c with freeSlots := free }.removeSlotFromAffinityPool slot =
      { c with freeSlots := free, freeSlotsByPlacementId := pools } ∧
      ∀ p s, pools.get? p s = some () → s ≠ slot ∧ c.freeSlotsByPlacementId.get? p s = some () := by
  unfold removeSlotFromAffinityPool
  cases hid : c.slotPlacementIds.get? slot with
  | none =>
    refine ⟨_, rfl, fun p s hp => ⟨fun hs => ?_, hp⟩⟩
    have hrec := (h p s hp).2
    rw [hs, hid] at hrec
    cases hrec
  | some pid => exact ⟨_, rfl, fun p s => h.ne_of_pop hid⟩

lemma affinitySlot?_mem {pid : Option Nat} {pool : Nat}
    (h : c.affinitySlot? cfg pid = some (pool, slot)) :
    c.freeSlotsByPlacementId.get? pool slot = some () := by
  unfold affinitySlot? at h
  cases pid with
  | none => cases h
  | some pid =>
    dsimp only at h
    split at h
    · obtain ⟨e, hlast, heq⟩ := Option.map_eq_some_iff.mp h
      obtain ⟨rfl, rfl⟩ := Prod.mk.inj heq
      exact get?_of_getLast? hlast
    · cases h

/-- A slot comes from a pool: out of every place, recorded anew. -/
lemma SlotInv.takeFree (h : SlotInv cfg c []) (hmem : slot ∈ c.freeSlots) (pid : Option Nat)
    {pools : NestedDict Nat Nat Unit} {hits fallbacks : Nat}
    (hpools : ∀ p s, pools.get? p s = some () →
      s ≠ slot ∧ c.freeSlotsByPlacementId.get? p s = some ()) : SlotInv cfg
      ({ c with
      freeSlots := c.freeSlots.erase slot
      freeSlotsByPlacementId := pools
      fdpSlotAffinityHitCount := hits
      fdpSlotAffinityFallbackCount := fallbacks }.setSlotPlacementId cfg slot pid) [slot] where
  once := once_take_free h.once hmem
  next_le := h.next_le
  apart := h.apart
  affinity := h.affinity.take pid (fun _ hne hs => mem_erase.mpr ⟨hne, hs⟩) hpools rfl

lemma slotInv_allocateSlot {pid : Option Nat} {offset : Nat} (h : SlotInv cfg c [])
    (halloc : c.allocateSlot cfg pid = some (offset, c')) :
    ∃ slot, offset = cfg.slotToOffset slot ∧ SlotInv cfg c' [slot] ∧
      c'.index = c.index ∧ c'.inflight = c.inflight ∧ c'.lockRefcnt = c.lockRefcnt := by
  unfold allocateSlot at halloc
  split at halloc
  · rename_i pool slot hhit
    obtain ⟨rfl, rfl⟩ := Prod.mk.inj (Option.some.inj halloc)
    obtain ⟨hfree, hid⟩ := h.affinity pool slot (affinitySlot?_mem hhit)
    exact ⟨slot, rfl, h.takeFree hfree pid fun p s => h.affinity.ne_of_pop hid, rfl, rfl, rfl⟩
  · split at halloc
    · rename_i slot _ hlast
      obtain ⟨rfl, rfl⟩ := Prod.mk.inj (Option.some.inj halloc)
      have hfree : slot ∈ c.freeSlots := mem_iff_get?.mpr ⟨_, get?_of_getLast? hlast⟩
      obtain ⟨pools, hremove, hpools⟩ := h.affinity.remove (c.freeSlots.erase slot) slot
      rw [hremove]
      refine ⟨slot, rfl, ?_⟩
      split
      · exact ⟨h.takeFree hfree pid hpools, rfl, rfl, rfl⟩
      · exact ⟨h.takeFree hfree pid hpools, rfl, rfl, rfl⟩
    · split at halloc
      · rename_i hlt
        obtain ⟨rfl, rfl⟩ := Prod.mk.inj (Option.some.inj halloc)
        refine ⟨c.nextSlot, rfl, ⟨h.once.succ, hlt, h.apart, ?_⟩, rfl, rfl, rfl⟩
        refine h.affinity.take pid (fun _ _ hs => hs) (fun p s hp => ⟨?_, hp⟩) rfl
        exact Nat.ne_of_lt (h.mem_lt (mem_slots_of_free (h.affinity p s hp).1))
      · cases halloc

/-! ## Out of the hand -/

/-- Recording the slot in its affinity pool does not concern the other places. -/
lemma AffinityOk.append (h : c.AffinityOk) {pid : Nat}
    (hid : c.slotPlacementIds.get? slot = some pid) :
    AffinityOk { c with
      freeSlots := c.freeSlots.set slot ()
      freeSlotsByPlacementId := c.freeSlotsByPlacementId.put pid slot () } := by
  intro p s hp
  rw [NestedDict.get?_put] at hp
  split_ifs at hp with heq
  · obtain ⟨rfl, rfl⟩ := heq
    exact ⟨mem_set.mpr (.inl rfl), hid⟩
  · exact ⟨mem_set.mpr (.inr (h p s hp).1), (h p s hp).2⟩

lemma AffinityOk.appendUnfiled (h : c.AffinityOk) :
    AffinityOk { c with freeSlots := c.freeSlots.set slot () } := fun p s hp =>
  ⟨mem_set.mpr (.inr (h p s hp).1), (h p s hp).2⟩

lemma slotInv_appendFreeSlot (h : SlotInv cfg c [slot]) :
    SlotInv cfg (c.appendFreeSlot cfg slot) [] := by
  have hhand : slot < c.nextSlot := h.once.mem_iff.mp mem_cons_self
  have hlt : ¬ slot ≥ cfg.maxSlots := not_le.mpr (Nat.lt_of_lt_of_le hhand h.next_le)
  have hnew : slot ∉ c.freeSlots := fun hs => h.once.not_mem mem_cons_self (mem_slots_of_free hs)
  have honce : Once (· < c.nextSlot) ({ c with freeSlots := c.freeSlots.set slot () }.slots cfg) := by
    have hslots : { c with freeSlots := c.freeSlots.set slot () }.slots cfg =
        c.slots cfg ++ [slot] := by
      show c.indexSlots cfg ++ (c.inflightSlots cfg ++ (c.freeSlots.set slot ()).keys) = _
      rw [keys_set_new () hnew, slots, append_assoc, append_assoc]
    rw [hslots]
    exact h.once.perm perm_append_comm
  unfold appendFreeSlot
  rw [if_neg hlt, if_neg hnew]
  dsimp only
  split
  · split
    · rename_i pid hid
      exact ⟨honce, h.next_le, h.apart, h.affinity.append hid⟩
    · exact ⟨honce, h.next_le, h.apart, h.affinity.appendUnfiled⟩
  · exact ⟨honce, h.next_le, h.apart, h.affinity.appendUnfiled⟩

variable (cfg c slot) in
/-- `appendFreeSlot` touches the pools only. -/
lemma appendFreeSlot_eq : ∃ free pools, c.appendFreeSlot cfg slot =
      { c with freeSlots := free, freeSlotsByPlacementId := pools } := by
  unfold appendFreeSlot
  dsimp only
  split
  · exact ⟨_, _, rfl⟩
  · split
    · exact ⟨_, _, rfl⟩
    · split
      · split
        · exact ⟨_, _, rfl⟩
        · exact ⟨_, _, rfl⟩
      · exact ⟨_, _, rfl⟩

lemma slotInv_giveSlotBack {offset : Nat} (h : SlotInv cfg c [cfg.offsetToSlot offset]) :
    SlotInv cfg (c.giveSlotBack cfg offset) [] :=
  (slotInv_appendFreeSlot h).congr rfl rfl rfl rfl rfl rfl

variable [DecidableEq Key]

/-! ## Index and writes in flight -/

lemma SlotInv.popInflight {write : Inflight Meta} (h : SlotInv cfg c [])
    (hkey : c.inflight.get? key = some write) :
    SlotInv cfg { c with inflight := c.inflight.erase key } [cfg.offsetToSlot write.offset] where
  once := by
    refine h.once.perm ?_
    have hvalues := (values_erase hkey).map fun w => cfg.offsetToSlot w.offset
    exact ((hvalues.append_right _).append_left _).trans perm_middle
  next_le := h.next_le
  apart k hk hin := h.apart k hk (mem_erase.mp hin).2
  affinity := h.affinity

lemma SlotInv.popIndex {entry : Entry Meta} (h : SlotInv cfg c [])
    (hkey : c.index.get? key = some entry) :
    SlotInv cfg { c with index := c.index.erase key } [cfg.offsetToSlot entry.offset] where
  once := by
    refine h.once.perm ?_
    have hvalues := (values_erase hkey).map fun e => cfg.offsetToSlot e.offset
    exact hvalues.append_right _
  next_le := h.next_le
  apart k hk := h.apart k (mem_erase.mp hk).2
  affinity := h.affinity

/-- A write in flight is recorded, in place of an earlier record of its key. -/
lemma SlotInv.setInflight {write : Inflight Meta}
    (h : SlotInv cfg { c with inflight := c.inflight.erase key } [slot])
    (hslot : cfg.offsetToSlot write.offset = slot) (hindex : key ∉ c.index) :
    SlotInv cfg { c with inflight := c.inflight.set key write } [] where
  once := by
    refine h.once.perm ?_
    have hvalues := (values_set c.inflight key write).map fun w => cfg.offsetToSlot w.offset
    rw [map_cons, hslot] at hvalues
    exact (((hvalues.append_right _).append_left _).trans perm_middle).symm
  next_le := h.next_le
  apart k hk hin := by
    by_cases heq : k = key
    · exact hindex (heq ▸ hk)
    · exact h.apart k hk (mem_erase.mpr ⟨heq, (mem_set.mp hin).resolve_left heq⟩)
  affinity := h.affinity

lemma SlotInv.recordIndex {entry : Entry Meta} (h : SlotInv cfg c [slot])
    (hslot : cfg.offsetToSlot entry.offset = slot) (hinflight : key ∉ c.inflight)
    (hnew : key ∉ c.index) : SlotInv cfg { c with index := c.index.set key entry } [] where
  once := by
    refine h.once.perm ?_
    have hvalues := (values_set_new entry (not_mem_iff_get?.mp hnew)).map
      fun e => cfg.offsetToSlot e.offset
    rw [map_cons, hslot] at hvalues
    exact (hvalues.append_right _).symm
  next_le := h.next_le
  apart k hk := by
    rcases mem_set.mp hk with rfl | hk
    · exact hinflight
    · exact h.apart k hk
  affinity := h.affinity

/-! ## Sections -/

omit [DecidableEq Key] in
lemma slotInv_foldl {α : Type} {f : RawBlockCore Key Meta → α → RawBlockCore Key Meta}
    (hf : ∀ c x, SlotInv cfg c [] → SlotInv cfg (f c x) []) (l : List α) (h : SlotInv cfg c []) :
    SlotInv cfg (l.foldl f c) [] :=
  foldlRecOn (motive := fun c => SlotInv cfg c []) l f h fun c hc x _ => hf c x hc

section

variable (h : SlotInv cfg c [])
include h

/-- A put takes a slot of its own for its write, or nothing happens. -/
lemma reserve_cases (fit : Bool) (item : PutItem Key Meta) :
    c.reserve cfg fit item = c ∨ SlotInv cfg (c.reserve cfg fit item) [] ∧
      ∃ slot w, c.inflight.get? item.key = none ∧ w.offset = cfg.slotToOffset slot ∧
      (c.reserve cfg fit item).inflight = c.inflight.set item.key w ∧
      (c.reserve cfg fit item).index = c.index ∧
      (c.reserve cfg fit item).lockRefcnt = c.lockRefcnt := by
  unfold reserve
  split
  · exact .inl rfl
  split
  · exact .inl rfl
  split
  · exact .inl rfl
  split
  · exact .inl rfl
  rename_i hindex hinflight _
  split
  · exact .inl rfl
  · rename_i offset c' halloc
    obtain ⟨slot, rfl, hhand, hsame, hsame', hlocks⟩ := slotInv_allocateSlot h halloc
    refine .inr ⟨?_, slot, ⟨cfg.slotToOffset slot, item.size, item.metadata, false⟩,
      not_mem_iff_get?.mp hinflight, rfl, by rw [hsame'], hsame, hlocks⟩
    refine SlotInv.setInflight ?_ (cfg.offsetToSlot_slotToOffset slot) (hsame ▸ hindex)
    rw [erase_of_not_mem (not_mem_iff_get?.mp (hsame' ▸ hinflight))]
    exact hhand

lemma slotInv_reserve {fit : Bool} {item : PutItem Key Meta} :
    SlotInv cfg (c.reserve cfg fit item) [] := by
  rcases reserve_cases h fit item with hsame | ⟨hslots, -⟩
  · rwa [hsame]
  · exact hslots

lemma slotInv_abandon : SlotInv cfg (c.abandon cfg key) [] := by
  unfold abandon
  split
  · exact h
  · rename_i write hkey
    exact slotInv_giveSlotBack (h.popInflight hkey)

lemma slotInv_settle {success : Bool} : SlotInv cfg (c.settle cfg success key) [] := by
  unfold settle
  split
  · exact h
  · rename_i write hkey
    have hpop := h.popInflight hkey
    have hindex : key ∉ c.index := fun hin =>
      h.apart key hin (mem_iff_get?.mpr ⟨write, hkey⟩)
    split
    · exact slotInv_giveSlotBack hpop
    · refine (hpop.recordIndex rfl ?_ hindex).congr rfl rfl rfl rfl rfl rfl
      exact fun hin => (mem_erase.mp hin).1 rfl

lemma slotInv_deleteOne {force : Bool} : SlotInv cfg (c.deleteOne cfg force key).1 [] := by
  unfold deleteOne
  dsimp only
  split
  · exact h
  cases hentry : c.index.get? key with
  | some entry =>
    -- an indexed key has no write in flight
    have hnone : c.inflight.get? key = none :=
      not_mem_iff_get?.mp (h.apart key (mem_iff_get?.mpr ⟨entry, hentry⟩))
    rw [hnone]
    exact slotInv_giveSlotBack ((h.popIndex hentry).congr rfl rfl rfl rfl rfl rfl)
  | none =>
    have hindex : key ∉ c.index := not_mem_iff_get?.mpr hentry
    rw [erase_of_not_mem hentry]
    cases hwrite : c.inflight.get? key with
    | none => exact h.congr rfl rfl rfl rfl rfl rfl
    | some write =>
      -- the slot stays with the canceled write
      have hcancel : SlotInv cfg
          { c with inflight := c.inflight.set key { write with canceled := true } } [] :=
        (h.popInflight hwrite).setInflight rfl hindex
      exact hcancel.congr rfl rfl rfl rfl rfl rfl

lemma slotInv_lockOne : SlotInv cfg (c.lockOne key) [] := by
  unfold lockOne
  split
  · exact h.congr rfl rfl rfl rfl rfl rfl
  · exact h

lemma slotInv_deleteMany {keys : List Key} {force : Bool} :
    SlotInv cfg (c.deleteMany cfg keys force).1 [] := by
  refine foldlRecOn (motive := fun state : RawBlockCore Key Meta × List Bool =>
    SlotInv cfg state.1 []) keys _ h fun state hstate key _ => ?_
  exact slotInv_deleteOne hstate

lemma slotInv_step (e : Section Key Meta) : SlotInv cfg (c.step cfg e) [] := by
  cases e with
  | reserve item => exact slotInv_reserve h
  | reserveChunk items => exact slotInv_foldl (fun c item hc => slotInv_reserve hc) items h
  | abandon key => exact slotInv_abandon h
  | settle key success => exact slotInv_settle h
  | settleChunk keys success => exact slotInv_foldl (fun c key hc => slotInv_settle hc) keys h
  | existsMany workerFailed keys lock =>
    cases workerFailed with
    | true => exact h
    | false =>
      cases lock with
      | true => exact slotInv_foldl (fun c key hc => slotInv_lockOne hc) keys h
      | false => exact h
  | getMetadataPrefix keys lock skipLocked =>
    cases lock with
    | true => exact slotInv_foldl (fun c key hc => slotInv_lockOne hc) _ h
    | false => exact h
  | unlockMany keys =>
    exact slotInv_foldl (f := unlockOne) (fun c key hc => hc.congr rfl rfl rfl rfl rfl rfl) keys h
  | deleteMany keys force => exact slotInv_deleteMany h
  | close => exact h.congr rfl rfl rfl rfl rfl rfl

end

/-! ## What the invariant says -/

/-- The key is indexed at the slot or has a write in flight to it. -/
def HasSlot (cfg : Config) (c : RawBlockCore Key Meta) (key : Key) (slot : Nat) : Prop :=
  (∃ e, c.index.get? key = some e ∧ cfg.offsetToSlot e.offset = slot) ∨
    ∃ w, c.inflight.get? key = some w ∧ cfg.offsetToSlot w.offset = slot

/-- Every slot below `next_slot` is once in the index, the writes in flight and
the free pool together; no two keys have one slot; the affinity pools file
free slots under the identifier recorded for them. -/
structure SlotsConsistent (cfg : Config) (c : RawBlockCore Key Meta) : Prop where
  partition : Once (· < c.nextSlot) (c.slots cfg)
  keys_apart : ∀ key key' slot, c.HasSlot cfg key slot → c.HasSlot cfg key' slot → key = key'
  affinity : ∀ pid slot, c.freeSlotsByPlacementId.get? pid slot = some () →
    slot ∈ c.freeSlots ∧ c.slotPlacementIds.get? slot = some pid

lemma SlotInv.keys_apart (h : SlotInv cfg c []) {key' : Key} (hkey : c.HasSlot cfg key slot)
    (hkey' : c.HasSlot cfg key' slot) : key = key' := by
  have hnodup : (c.indexSlots cfg ++ (c.inflightSlots cfg ++ c.freeSlots.keys)).Nodup := h.once.nodup
  have hindex := (nodup_append.mp hnodup).1
  have hinflight := (nodup_append.mp (nodup_append.mp hnodup).2.1).1
  have hcross : ∀ {e w} {k k' : Key}, c.index.get? k = some e → c.inflight.get? k' = some w →
      cfg.offsetToSlot e.offset ≠ cfg.offsetToSlot w.offset := by
    intro e w k k' he hw
    refine (nodup_append.mp hnodup).2.2 _ ?_ _ (mem_append_left _ ?_)
    · exact mem_map.mpr ⟨e, mem_values.mpr ⟨k, he⟩, rfl⟩
    · exact mem_map.mpr ⟨w, mem_values.mpr ⟨k', hw⟩, rfl⟩
  rcases hkey with ⟨e, he, hs⟩ | ⟨w, hw, hs⟩
  · rcases hkey' with ⟨e', he', hs'⟩ | ⟨w', hw', hs'⟩
    · exact key_eq_of_nodup hindex he he' (hs.trans hs'.symm)
    · exact absurd (hs.trans hs'.symm) (hcross he hw')
  · rcases hkey' with ⟨e', he', hs'⟩ | ⟨w', hw', hs'⟩
    · exact absurd (hs'.trans hs.symm) (hcross he' hw)
    · exact key_eq_of_nodup hinflight hw hw' (hs.trans hs'.symm)

lemma SlotInv.consistent (h : SlotInv cfg c []) : SlotsConsistent cfg c :=
  ⟨h.once, fun _ _ _ => h.keys_apart, h.affinity⟩

/-- In every run, whatever the threads do between two sections. -/
theorem slots_consistent (cfg : Config) (es : List (Section Key Meta)) :
    SlotsConsistent cfg (run (step cfg) empty es) :=
  (run_always (SlotInv cfg · []) (fun _ e hc => slotInv_step hc e) (slotInv_empty cfg) es).consistent

/-- In every state a slot can be had unless all slots of the device are indexed
or being written: failed writes, cancelled puts and deletes lose none. -/
theorem allocateSlot_eq_none_iff (cfg : Config) (es : List (Section Key Meta)) (pid : Option Nat) :
    (run (step cfg) empty es).allocateSlot cfg pid = none ↔
      (run (step cfg) empty es).index.entries.length +
        (run (step cfg) empty es).inflight.entries.length = cfg.maxSlots := by
  have hinv : SlotInv cfg (run (step cfg) empty es) [] :=
    run_always (SlotInv cfg · []) (fun _ e hc => slotInv_step hc e) (slotInv_empty cfg) es
  generalize run (step cfg) empty es = c at hinv
  have hlen : c.freeSlots.entries.length +
      (c.index.entries.length + c.inflight.entries.length) = c.nextSlot := by
    have hperm : (c.slots cfg).Perm (range c.nextSlot) :=
      perm_iff_count.mpr fun x => (hinv.once x).trans (once_range _ x).symm
    have hslots := hperm.length_eq
    simp only [slots, indexSlots, inflightSlots, values, Dict.keys, length_append, length_map,
      length_range] at hslots
    omega
  have hle := hinv.next_le
  have hfree : ∀ slot ∈ c.freeSlots, 0 < c.freeSlots.entries.length := fun slot hslot =>
    length_map (f := Prod.fst) ▸ length_pos_of_mem hslot
  unfold allocateSlot
  split
  · rename_i hhit
    have hpos := hfree _ (hinv.affinity _ _ (affinitySlot?_mem hhit)).1
    simp only [reduceCtorEq, false_iff]
    omega
  · split
    · rename_i hlast
      have hpos := length_pos_of_mem (mem_of_getLast? hlast)
      simp only [reduceCtorEq, false_iff]
      omega
    · rename_i hnone
      rw [getLast?_eq_none_iff.mp hnone, length_nil] at hlen
      split <;> simp <;> omega

end RawBlockCore

end LMCache.RawBlock
