/-
LMCache.Coordinator.UsageAgreement — the directory and the usage view count the
same placements.

The two views reduce the same signals on their own. `Mirrors` is what keeps them
together: the placements of the directory, under the identity and with the size
that the usage view gives them, are the entries of its table of sizes. Stores,
deletes and accesses keep it. A fence does not always: the directory drops the
L1 placements that the instance reported last, and the usage view those that the
instance owns. They differ in the shared placements, which have a reporter and
no owner. `agree_iff_spares` says that this is the only way to part.
-/
import LMCache.Coordinator.DirectoryInvariants
import LMCache.Coordinator.UsageManager

namespace LMCache.Coordinator

open Lib List Placement KeyDirectory
open Dict hiding keys
open Multiprocess (ObjectKey)

variable {Digest : Type}

/-! ## Identities -/

/-- The identity of a placement in the usage view. -/
def Placement.idAt (key : ObjectKey Digest) (p : Placement) : PlacementId Digest :=
  ⟨p.tier, key, if p.shared then "" else p.instanceId, p.backend⟩

/-- A placement as an entry of the table of sizes. -/
def Placement.entryAt (key : ObjectKey Digest) (p : Placement) : PlacementId Digest × Nat :=
  (p.idAt key, p.sizeBytes)

variable {key : ObjectKey Digest} {placements : List Placement}

section Identities

variable {batch : CacheEventBatch Digest} {p : Placement}

lemma Placement.idAt_eq_iff (hname : p.instanceId ≠ "") :
    p.idAt key = batch.placementId key ↔ p.matchesBatch batch := by
  have hbatch := batch.instanceId_ne
  simp only [idAt, CacheEventBatch.placementId, matchesBatch]
  cases p.shared <;> cases batch.shared <;> simp [hname, Ne.symm hbatch, and_left_comm]

lemma eraseIdx_perm_filter (hname : ∀ p ∈ placements, p.instanceId ≠ "")
    (hnodup : (placements.map (idAt key)).Nodup) {i : Nat}
    (hfind : findPlacement placements batch = some i) :
    (placements.eraseIdx i).Perm (placements.filter fun p => ¬ p.matchesBatch batch) := by
  obtain ⟨old, -, hold, hperm, -⟩ := findPlacement_some hfind
  have hothers : ∀ p ∈ placements.eraseIdx i, p.matchesBatch batch = false := by
    intro p hp
    have hnames : ∀ q ∈ old :: placements.eraseIdx i, q.instanceId ≠ "" :=
      fun q hq => hname q (hperm.mem_iff.mpr hq)
    have hdistinct : p.idAt key ≠ old.idAt key := by
      have hcons := (hperm.map (idAt key)).nodup_iff.mp hnodup
      rw [map_cons, nodup_cons] at hcons
      exact fun heq => hcons.1 (heq ▸ mem_map_of_mem hp)
    rw [(idAt_eq_iff (hnames old mem_cons_self)).mpr hold, Ne,
      idAt_eq_iff (hnames p (mem_cons_of_mem _ hp))] at hdistinct
    simpa using hdistinct
  have hself : (old :: placements.eraseIdx i).filter (fun p => ¬ p.matchesBatch batch)
      = placements.eraseIdx i := by
    rw [filter_cons_of_neg (by simp [hold]), filter_eq_self]
    intro p hp
    simp [hothers p hp]
  exact hself ▸ (hperm.filter _).symm

lemma filter_of_findPlacement_none (hfind : findPlacement placements batch = none) :
    placements.filter (fun p => ¬ p.matchesBatch batch) = placements := by
  rw [filter_eq_self]
  intro p hp
  have hnone : ∀ p ∈ placements, p.matchesBatch batch = false := by
    simpa [findPlacement] using hfind
  simp [hnone p hp]

variable (hname : ∀ p ∈ placements, p.instanceId ≠ "") (hnodup : (placements.map (idAt key)).Nodup)

include hname hnodup

variable (batch)

lemma deleted_perm :
    (deleted batch placements).Perm (placements.filter fun p => ¬ p.matchesBatch batch) := by
  unfold deleted
  cases hfind : findPlacement placements batch with
  | none => rw [filter_of_findPlacement_none hfind]
  | some i => exact eraseIdx_perm_filter hname hnodup hfind

lemma stored_perm (entry : CacheEventEntry Digest) : (stored batch entry placements).Perm
      (placementOf batch entry :: placements.filter fun p => ¬ p.matchesBatch batch) := by
  unfold stored
  cases hfind : findPlacement placements batch with
  | none =>
    rw [filter_of_findPlacement_none hfind]
    exact perm_append_singleton ..
  | some i =>
    obtain ⟨-, -, -, -, hset⟩ := findPlacement_some hfind
    exact (hset _).trans ((eraseIdx_perm_filter hname hnodup hfind).cons _)

end Identities

open KeyDirectory CacheUsageManager

/-! ## The totals -/

variable {l : List (ObjectKey Digest × Placement)}

section Totals

variable {sizes : Dict (PlacementId Digest) Nat}

lemma count_tally (h : (l.map fun p => p.2.entryAt p.1).Perm sizes.entries) (tier : Tier) :
    (tally (l.map Prod.snd) tier).count = (sizes.keys.filter fun id => id.tier = tier).length := by
  have hcount := ((h.map Prod.fst).filter fun id => id.tier = tier).length_eq
  rw [Dict.keys, ← hcount]
  simp [tally, filter_map, Function.comp_def, entryAt, idAt]

variable (l) in
lemma sum_entryAt (tier : Tier) :
    ((l.map fun p => p.2.entryAt p.1).map fun e => if e.1.tier = tier then (e.2 : Int) else 0).sum
      = (tally (l.map Prod.snd) tier).sizeBytes := by
  induction l with
  | nil => rfl
  | cons p l ih =>
    rw [map_cons, map_cons, sum_cons, ih, map_cons, tally_cons]
    by_cases htier : p.2.tier = tier
    · simp [adjustPlacementStats, entryAt, idAt, htier, Int.add_comm]
    · simp [adjustPlacementStats, entryAt, idAt, htier, Ne.symm htier]

lemma sizeBytes_tally (h : (l.map fun p => p.2.entryAt p.1).Perm sizes.entries) (tier : Tier) :
    (tally (l.map Prod.snd) tier).sizeBytes = sizeOfKind (fun id => id.tier = tier) sizes := by
  rw [← sum_entryAt, (h.map _).sum_eq, sizeOfKind, sumOf]
  simp

end Totals

/-! ## The same placements -/

/-- The placements of the records as entries of the table of sizes. -/
def recorded (directory : Dict (ObjectKey Digest) KeyRecord) : List (PlacementId Digest × Nat) :=
  (placed directory).map fun p => p.2.entryAt p.1

variable [DecidableEq Digest] {directory : Dict (ObjectKey Digest) KeyRecord}

lemma mem_placed {p : Placement} :
    (key, p) ∈ placed directory ↔ p ∈ placementsAt directory key := by
  rw [placed, mem_flat, placementsAt]
  cases directory.get? key <;> simp

/-- The usage view tracks the placements of the directory, each of which has a
reporter with a name. -/
structure Mirrors (directory : Dict (ObjectKey Digest) KeyRecord)
    (usage : CacheUsageManager Digest) : Prop where
  sizes : (recorded directory).Perm usage.placementSizes.entries
  named : ∀ key, ∀ p ∈ placementsAt directory key, p.instanceId ≠ ""

variable {d : KeyDirectory Digest}

section Mirrors

variable {directory' : Dict (ObjectKey Digest) KeyRecord} {usage : CacheUsageManager Digest}

lemma recorded_of_placed (h : (placed directory').Perm
      (placements.map (Prod.mk key) ++ placed (directory.erase key))) : (recorded directory').Perm
      (placements.map (entryAt key) ++ recorded (directory.erase key)) := by
  simpa [recorded, Function.comp_def] using h.map fun p => p.2.entryAt p.1

variable (directory) in
lemma recorded_at (key : ObjectKey Digest) :
    (recorded directory).Perm ((placementsAt directory key).map (entryAt key) ++
      recorded (directory.erase key)) :=
  recorded_of_placed (placed_at directory key)

lemma key_of_mem_recorded_erase {e : PlacementId Digest × Nat}
    (he : e ∈ recorded (directory.erase key)) : e.1.key ≠ key := by
  obtain ⟨⟨held, p⟩, hp, rfl⟩ := mem_map.mp he
  obtain ⟨record, hrecord, -⟩ := mem_flat.mp hp
  rintro rfl
  simp [entryAt, idAt] at hrecord

namespace Mirrors

section

variable (h : Mirrors directory usage)
include h

lemma nodup (key : ObjectKey Digest) : ((placementsAt directory key).map (idAt key)).Nodup := by
  have hperm := (((recorded_at directory key).symm.trans h.sizes).map Prod.fst)
  have hall := hperm.nodup_iff.mpr usage.placementSizes.nodup
  rw [map_append, map_map] at hall
  exact (nodup_append.mp hall).1

lemma erase (batch : CacheEventBatch Digest) (key : ObjectKey Digest) :
    (((placementsAt directory key).filter fun p => ¬ p.matchesBatch batch).map
      (entryAt key) ++ recorded (directory.erase key)).Perm
      (usage.placementSizes.erase (batch.placementId key)).entries := by
  have hsplit := ((recorded_at directory key).symm.trans h.sizes).filter
    fun p => p.1 ≠ batch.placementId key
  rw [filter_append, filter_map] at hsplit
  have hothers : (recorded (directory.erase key)).filter (fun p => p.1 ≠ batch.placementId key)
      = recorded (directory.erase key) := by
    rw [filter_eq_self]
    intro e he
    have hkey := key_of_mem_recorded_erase he
    simp only [decide_eq_true_eq]
    rintro heq
    exact hkey (by rw [heq]; rfl)
  have hown : (placementsAt directory key).filter
        ((fun p => decide (p.1 ≠ batch.placementId key)) ∘ entryAt key)
      = (placementsAt directory key).filter fun p => ¬ p.matchesBatch batch := by
    refine filter_congr fun p hp => ?_
    exact decide_eq_decide.mpr (not_congr (idAt_eq_iff (h.named key p hp)))
  rw [hothers, hown] at hsplit
  exact hsplit

lemma update {usage' : CacheUsageManager Digest} (key : ObjectKey Digest)
    (placements : List Placement)
    (hat : ∀ j, placementsAt directory' j = if j = key then placements else placementsAt directory j)
    (hplaced : (placed directory').Perm
      (placements.map (Prod.mk key) ++ placed (directory.erase key)))
    (hnamed : ∀ p ∈ placements, p.instanceId ≠ "")
    (hsizes : (placements.map (entryAt key) ++ recorded (directory.erase key)).Perm
      usage'.placementSizes.entries) : Mirrors directory' usage' := by
  refine ⟨(recorded_of_placed hplaced).trans hsizes, fun j p hp => ?_⟩
  rw [hat] at hp
  split at hp
  · exact hnamed p hp
  · exact h.named j p hp

end

end Mirrors

variable {batch : CacheEventBatch Digest} {entry : CacheEventEntry Digest}

section

variable (h : Mirrors d.directory usage)
include h

lemma mirrors_store : Mirrors (d.storeEntry batch entry).directory
      (usage.store (batch.placementId entry.key) entry.sizeBytes) := by
  have hname := h.named entry.key
  have hstored := stored_perm batch hname (h.nodup entry.key) entry
  refine h.update entry.key (stored batch entry (placementsAt d.directory entry.key))
    (fun j => ?_) ?_ (fun p hp => ?_) ?_
  · simp only [storeEntry, placementsAt_set, placements_getD]
  · simp only [storeEntry, placements_getD]
    exact placed_set ..
  · rcases mem_stored hp with rfl | hp
    · exact batch.instanceId_ne
    · exact hname p hp
  · rw [placementSizes_store]
    refine ((hstored.map (entryAt entry.key)).append_right _).trans ?_
    exact ((h.erase batch entry.key).cons _).trans (entries_set ..).symm

lemma mirrors_remove :
    Mirrors (d.deleteEntry batch entry).directory (usage.remove (batch.placementId entry.key)) := by
  have herase := h.erase batch entry.key
  rw [← placementSizes_remove] at herase
  cases hrecord : d.directory.get? entry.key with
  | none =>
    have hnone : placementsAt d.directory entry.key = [] := by simp [placementsAt, hrecord]
    have hsame : d.deleteEntry batch entry = d := by simp [deleteEntry, hrecord]
    rw [hnone, erase_of_not_mem hrecord] at herase
    rw [hsame]
    exact ⟨herase, h.named⟩
  | some record =>
    have hat := placementsAt_of hrecord
    have hname := h.named entry.key
    have hdeleted := deleted_perm batch hname (h.nodup entry.key)
    rw [hat] at hname hdeleted herase
    have hdirectory : (d.deleteEntry batch entry).directory
        = putPlacements d.directory entry.key record (deleted batch record.placements) := by
      simp [deleteEntry, hrecord]
    rw [hdirectory]
    refine h.update _ _ (placementsAt_putPlacements _ _ _ _) (placed_putPlacements _ _ _ _)
      (fun p hp => hname p (deleted_sublist.subset hp)) ?_
    exact ((hdeleted.map _).append_right _).trans herase

lemma mirrors_access : Mirrors (d.accessEntry batch entry).directory usage := by
  unfold accessEntry
  split
  · exact h
  · rename_i record hrecord
    have hat := placementsAt_of hrecord
    refine h.update _ _ (fun j => placementsAt_set ..) (placed_set ..) (hat ▸ h.named entry.key) ?_
    rw [← hat]
    exact (recorded_at d.directory entry.key).symm.trans h.sizes

end

variable (batch entry) in
lemma mirrors_applyEntry (h : Mirrors d.directory usage) :
    Mirrors (d.applyEntry batch entry).directory (usage.applyEntry batch entry) := by
  unfold KeyDirectory.applyEntry CacheUsageManager.applyEntry
  cases batch.eventType with
  | store => exact mirrors_store h
  | delete => exact mirrors_remove h
  | access => exact mirrors_access h
  | config => exact h

variable (usage batch) in
/-- The usage view skips accesses as a batch; it has no use for their entries. -/
lemma consume_eq : usage.consume batch
      = batch.entries.foldl (fun usage entry => usage.applyEntry batch entry) usage := by
  unfold CacheUsageManager.consume
  split_ifs with haccess
  · simp [CacheUsageManager.applyEntry, haccess]
  · rfl

variable (batch) in
lemma mirrors_consume (h : Mirrors d.directory usage) :
    Mirrors (d.consume batch).directory (usage.consume batch) := by
  have hstart : (d.withInstance batch.instanceId).directory = d.directory := by
    unfold withInstance
    split <;> rfl
  rw [consume_eq, KeyDirectory.consume]
  rw [← hstart] at h
  generalize d.withInstance batch.instanceId = d at h ⊢
  induction batch.entries generalizing d usage with
  | nil => exact h
  | cons entry entries ih => exact ih _ (mirrors_applyEntry batch entry h)

/-! ### Fences -/

lemma placed_fenceInstance (hd : d.Sound) (instanceId : String) :
    (placed (d.fenceInstance instanceId).directory).Perm
      ((placed d.directory).filter fun p => ¬ p.2.isL1Of instanceId) := by
  have hat : ∀ key, placementsAt (d.fenceInstance instanceId).directory key
      = (placementsAt d.directory key).filter fun p => ¬ p.isL1Of instanceId := by
    intro key
    rw [placementsAt, placementsAt, get?_fenceInstance instanceId hd]
    cases d.directory.get? key with
    | none => rfl
    | some record =>
      simp only [Option.bind_some, keep]
      split_ifs with hnil
      · exact hnil.symm
      · rfl
  exact flat_filter (fun p : Placement => ¬ p.isL1Of instanceId) hat

lemma recorded_fenced (h : Mirrors d.directory usage) (hu : usage.Accounted) (instanceId : String) :
    (((placed d.directory).filter fun p => ¬ (p.2.isL1Of instanceId ∧ ¬ p.2.shared)).map
      fun p => p.2.entryAt p.1).Perm (usage.fenceInstance instanceId).placementSizes.entries := by
  have hsizes := h.sizes.filter fun e =>
    ¬ (e.1.tier = .l1 ∧ e.1.owner = instanceId ∧ instanceId ≠ "")
  rw [entries_fenceInstance hu]
  rw [recorded, filter_map] at hsizes
  refine List.Perm.trans ?_ hsizes
  refine (List.Perm.of_eq (congrArg _ (filter_congr fun p hp => ?_)))
  obtain ⟨key, p⟩ := p
  have hname : p.instanceId ≠ "" := h.named key p (mem_placed.mp hp)
  refine decide_eq_decide.mpr (not_congr ?_)
  simp only [isL1Of, entryAt, idAt, decide_eq_true_eq]
  cases p.shared with
  | true =>
    refine ⟨fun hfalse => absurd rfl hfalse.2, fun hfalse => ?_⟩
    exact absurd hfalse.2.1.symm hfalse.2.2
  | false =>
    constructor
    · rintro ⟨⟨htier, hid⟩, -⟩
      exact ⟨htier, hid, hid ▸ hname⟩
    · rintro ⟨htier, hid, -⟩
      exact ⟨⟨htier, hid⟩, Bool.false_ne_true⟩

variable (directory) in
/-- No shared L1 placement was reported last by the instance. -/
def NoSharedOf (instanceId : String) : Prop :=
  ∀ p ∈ placed directory, p.2.isL1Of instanceId → p.2.shared = false

lemma mirrors_fenceInstance (h : Mirrors d.directory usage) (hd : d.Sound) (hu : usage.Accounted)
    {instanceId : String} (hspared : NoSharedOf d.directory instanceId) :
    Mirrors (d.fenceInstance instanceId).directory (usage.fenceInstance instanceId) := by
  refine ⟨?_, fun key p hp => ?_⟩
  · refine ((placed_fenceInstance hd instanceId).map _).trans ?_
    refine List.Perm.trans (.of_eq (congrArg _ (filter_congr fun p hp => ?_)))
      (recorded_fenced h hu instanceId)
    refine decide_eq_decide.mpr (not_congr ⟨fun hl1 => ⟨hl1, ?_⟩, fun hl1 => hl1.1⟩)
    simp [hspared p hp hl1]
  · have hfenced := (placed_fenceInstance hd instanceId).mem_iff.mp (mem_placed.mpr hp)
    exact h.named key p (mem_placed.mp (mem_of_mem_filter hfenced))

end Mirrors

/-! ## Two views -/

/-- The two views, fed by one broadcaster. -/
structure Views (Digest : Type) where
  directory : KeyDirectory Digest
  usage : CacheUsageManager Digest

variable {signal : Signal Digest}

namespace Views

section

variable (views : Views Digest)

def step (signal : Signal Digest) : Views Digest :=
  ⟨views.directory.deliver signal, views.usage.deliver signal⟩

/-- For each tier the two views have the same number of placements and of bytes. -/
def Agree : Prop :=
  ∀ tier, (views.directory.placementStats tier).count = views.usage.placementCount tier ∧
    (views.directory.placementStats tier).sizeBytes = views.usage.getTotalBytes tier

/-- A fence does not name the last reporter of a shared L1 placement. -/
def Spares : Signal Digest → Prop
  | .broadcast _ => True
  | .fenceInstance instanceId => NoSharedOf views.directory.directory instanceId

/-- What holds while the views count the same placements. -/
structure Together : Prop where
  sound : views.directory.Sound
  accounted : views.usage.Accounted
  mirrors : Mirrors views.directory.directory views.usage

end

variable {views : Views Digest}

section

variable (h : views.Together)
include h

lemma sound_deliver (signal : Signal Digest) : (views.directory.deliver signal).Sound := by
  cases signal with
  | broadcast batch => exact sound_consume batch h.sound
  | fenceInstance instanceId => exact sound_fenceInstance instanceId h.sound

lemma Together.agree : views.Agree := by
  intro tier
  rw [h.sound.tallied, getTotalBytes_eq h.accounted]
  exact ⟨count_tally h.mirrors.sizes tier, sizeBytes_tally h.mirrors.sizes tier⟩

lemma Together.step (hspares : views.Spares signal) : (views.step signal).Together := by
  refine ⟨sound_deliver h signal, accounted_deliver h.accounted signal, ?_⟩
  cases signal with
  | broadcast batch => exact mirrors_consume batch h.mirrors
  | fenceInstance instanceId =>
    exact mirrors_fenceInstance h.mirrors h.sound h.accounted hspares

/-- After a fence that a shared placement does not survive, the directory counts
fewer L1 placements than the usage view. -/
lemma Together.spares_of_agree (hagree : (views.step signal).Agree) : views.Spares signal := by
  cases signal with
  | broadcast batch => exact trivial
  | fenceInstance instanceId =>
    intro p hp hl1
    have hcount := (hagree .l1).1
    have hsound := sound_fenceInstance instanceId h.sound
    have husage := count_tally (recorded_fenced h.mirrors h.accounted instanceId) .l1
    have hfenced := tally_perm ((placed_fenceInstance h.sound instanceId).map Prod.snd)
    simp only [Views.step, KeyDirectory.deliver, CacheUsageManager.deliver] at hcount
    rw [hsound.tallied, hfenced, placementCount, ← husage] at hcount
    simp only [tally, filter_map, length_map, filter_filter, Nat.cast_inj] at hcount
    -- What the directory keeps, the usage view keeps; equally many are the same.
    have hsub : ((placed views.directory.directory).filter fun p =>
          decide (p.2.tier = .l1) && decide (¬ p.2.isL1Of instanceId)).Sublist
        ((placed views.directory.directory).filter fun p =>
          decide (p.2.tier = .l1) && decide (¬ (p.2.isL1Of instanceId ∧ ¬ p.2.shared))) := by
      refine monotone_filter_right _ fun q hq => ?_
      simp only [Bool.and_eq_true, decide_eq_true_eq] at hq ⊢
      exact ⟨hq.1, fun hboth => hq.2 hboth.1⟩
    have hsame := hsub.eq_of_length hcount
    by_contra hunshared
    have hshared : p.2.shared := by simpa using hunshared
    have hkept : p ∈ (placed views.directory.directory).filter fun p =>
        decide (p.2.tier = .l1) && decide (¬ (p.2.isL1Of instanceId ∧ ¬ p.2.shared)) := by
      have htier : p.2.tier = .l1 := by
        simp only [isL1Of, decide_eq_true_eq] at hl1
        exact hl1.1
      simp [hp, htier, hshared]
    rw [← hsame] at hkept
    simp [hl1] at hkept

end

lemma together_new {blend : Option (Nat × Nat)} (h : new blend = .ok d) :
    (⟨d, {}⟩ : Views Digest).Together := by
  have hempty : d.directory = ∅ := (new_empty h).1
  refine ⟨sound_new h, ⟨⟨rolled_empty, rolled_empty, rolled_empty⟩,
    fun id hid => absurd hid (not_mem_empty id), nofun⟩, ?_, fun key p hp => ?_⟩
  · rw [hempty]
    exact .refl _
  · simp [placementsAt, hempty] at hp

/-- The directory and the usage view agree in every state of a run exactly when
no fence names the last reporter of a shared L1 placement. -/
theorem agree_iff_spares {blend : Option (Nat × Nat)} {d : KeyDirectory Digest}
    (h : new blend = .ok d) (signals : List (Signal Digest)) :
    (∀ n, (run step ⟨d, {}⟩ (signals.take n)).Agree) ↔ Along step Spares ⟨d, {}⟩ signals := by
  have hok : Along step (fun _ _ => True) ⟨d, {}⟩ signals := along_of_forall (fun _ _ => trivial) _ _
  exact good_iff_along Together (fun _ hviews => hviews.agree)
    (fun _ _ hviews _ hspares => hviews.step hspares)
    (fun _ _ hviews _ hagree => hviews.spares_of_agree hagree) (together_new h) hok

/-! ### A shared pool -/

/-- Both views at the start. -/
def fresh : Views Nat := ⟨(new none).toOption.get rfl, {}⟩

/-- An instance reports a key in a shared L1 pool. -/
def poolStore (instanceId : String) (hid : instanceId ≠ "") : Signal Nat :=
  .broadcast
    { instanceId := instanceId, incarnation := 1, seq := 1, eventType := .store, tier := .l1,
      backend := "cxl", shared := true, instanceId_ne := hid, seq_pos := Nat.one_pos,
      entries := [{ key := ⟨7, "model", 0, 0, "", []⟩, sizeBytes := 8, offset_ok := unknown_ok }] }

/-- A pool that another instance has reported since outlives the fence in both
views. -/
theorem rereported_agree : (run step fresh
    [poolStore "a" (by decide), poolStore "b" (by decide), .fenceInstance "a"]).Agree := by
  have hnew : new none = .ok fresh.directory := rfl
  refine (agree_iff_spares hnew
    [poolStore "a" (by decide), poolStore "b" (by decide), .fenceInstance "a"]).mpr
      ⟨trivial, trivial, ?_, trivial⟩ 3
  unfold Spares NoSharedOf
  decide

/-- The fence of the instance that reported the pool: the directory drops the
placement, the usage view keeps it. -/
theorem fencedPool_not_agree :
    ((run step fresh [poolStore "a" (by decide), .fenceInstance "a"]).directory.placementStats
      .l1).count = 0 ∧
      (run step fresh [poolStore "a" (by decide), .fenceInstance "a"]).usage.placementCount .l1 = 1 ∧
      ¬ (run step fresh [poolStore "a" (by decide), .fenceInstance "a"]).Agree := by
  refine ⟨by decide, by decide, fun hagree => ?_⟩
  have hcount := (hagree .l1).1
  revert hcount
  decide

end Views

end LMCache.Coordinator
