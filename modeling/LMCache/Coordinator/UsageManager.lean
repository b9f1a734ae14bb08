/-
LMCache.Coordinator.UsageManager — the bytes of the fleet.

The usage view keeps the size of every placement and three rollups of it: by
key, by salt and by node. A store assigns the size and adjusts the rollups by
the difference, a delete takes it out. A fence takes out the L1 placements that
the instance owns. A shared pool is owned by nobody: its owner is the empty
name, it is not in the index of any instance, and no fence reaches it.

`Accounted` holds in every state: the rollups have the totals of the sizes, and
the index of an instance lists its L1 placements.
-/
import LMCache.Lib.Rollup
import LMCache.Coordinator.EventGate

namespace LMCache.Coordinator

open Lib Dict
open Multiprocess (ObjectKey)

variable {Digest : Type}

/-- `_PlacementId`. -/
structure PlacementId (Digest : Type) where
  tier : Tier
  key : ObjectKey Digest
  owner : String
  backend : String
  deriving DecidableEq

/-- `CacheUsageManager`. -/
structure CacheUsageManager (Digest : Type) where
  placementSizes : Dict (PlacementId Digest) Nat := ∅
  keyBytes : Dict (Tier × ObjectKey Digest) Int := ∅
  saltBytes : Dict (Tier × String) Int := ∅
  instanceBytes : Dict (Tier × String × String) Int := ∅
  l1ByInstance : Dict String (List (PlacementId Digest)) := ∅

/-- The placement that a batch is about, for a key. -/
def CacheEventBatch.placementId (batch : CacheEventBatch Digest) (key : ObjectKey Digest) :
    PlacementId Digest :=
  ⟨batch.tier, key, if batch.shared then "" else batch.instanceId, batch.backend⟩

namespace CacheUsageManager

variable [DecidableEq Digest] (usage : CacheUsageManager Digest)

section

variable (id : PlacementId Digest)

/-- `_adjust`. -/
def adjust (delta : Int) : CacheUsageManager Digest :=
  if delta = 0 then usage
  else
    { usage with
      keyBytes := adjustRollup usage.keyBytes (id.tier, id.key) delta
      saltBytes := adjustRollup usage.saltBytes (id.tier, id.key.cacheSalt) delta
      instanceBytes := adjustRollup usage.instanceBytes (id.tier, id.owner, id.backend) delta }

/-- The placements that are filed under an instance. -/
def owned (instanceId : String) : List (PlacementId Digest) :=
  (usage.l1ByInstance.get? instanceId).getD []

/-- The index without a placement; an instance that has none left is dropped. -/
def unfile : Dict String (List (PlacementId Digest)) :=
  match if id.tier = .l1 then usage.l1ByInstance.get? id.owner else none with
  | none => usage.l1ByInstance
  | some owned =>
    let rest := owned.erase id
    if rest = [] then usage.l1ByInstance.erase id.owner else usage.l1ByInstance.set id.owner rest

/-- `_remove`. -/
def remove : CacheUsageManager Digest :=
  adjust { usage with
      l1ByInstance := usage.unfile id
      placementSizes := usage.placementSizes.erase id }
    id (-((usage.placementSizes.get? id).getD 0 : Nat))

/-- The loop body of `consume` for a `STORE`. -/
def store (sizeBytes : Nat) : CacheUsageManager Digest :=
  adjust { usage with
      placementSizes := usage.placementSizes.set id sizeBytes
      l1ByInstance :=
        if id.tier = .l1 ∧ id.owner ≠ "" then
          usage.l1ByInstance.set id.owner ((usage.owned id.owner).insert id)
        else usage.l1ByInstance }
    id (sizeBytes - ((usage.placementSizes.get? id).getD 0 : Nat))

end

/-- The loop body of `consume`. -/
def applyEntry (batch : CacheEventBatch Digest) (entry : CacheEventEntry Digest) :
    CacheUsageManager Digest :=
  match batch.eventType with
  | .store => usage.store (batch.placementId entry.key) entry.sizeBytes
  | .delete => usage.remove (batch.placementId entry.key)
  | _ => usage

/-- `consume`. -/
def consume (batch : CacheEventBatch Digest) : CacheUsageManager Digest :=
  if batch.eventType = .access then usage
  else batch.entries.foldl (fun usage entry => usage.applyEntry batch entry) usage

/-- `fence_instance`. -/
def fenceInstance (instanceId : String) : CacheUsageManager Digest :=
  (usage.owned instanceId).foldl remove
    { usage with l1ByInstance := usage.l1ByInstance.erase instanceId }

/-- What the broadcaster hands to the view. -/
def deliver : Signal Digest → CacheUsageManager Digest
  | .broadcast batch => usage.consume batch
  | .fenceInstance instanceId => usage.fenceInstance instanceId

/-- `get_total_bytes`. -/
def getTotalBytes (tier : Tier) : Int :=
  usage.saltBytes.sumOf fun id total => if id.1 = tier then total else 0

/-- How many placements of a tier are tracked. -/
def placementCount (tier : Tier) : Nat :=
  (usage.placementSizes.keys.filter fun id => id.tier = tier).length

/-! ## Accounting -/

variable {usage : CacheUsageManager Digest}

/-- The three rollups have the totals of the sizes. -/
structure RolledUp (sizes : Dict (PlacementId Digest) Nat) (usage : CacheUsageManager Digest) :
    Prop where
  keys : Rolled (fun id => (id.tier, id.key)) sizes usage.keyBytes
  salts : Rolled (fun id => (id.tier, id.key.cacheSalt)) sizes usage.saltBytes
  nodes : Rolled (fun id => (id.tier, id.owner, id.backend)) sizes usage.instanceBytes

/-- The rollups have the totals of the sizes; an L1 placement with an owner is
filed under it, and nothing else is. -/
structure Accounted (usage : CacheUsageManager Digest) : Prop where
  rolledUp : RolledUp usage.placementSizes usage
  filed : ∀ id ∈ usage.placementSizes, id.tier = .l1 → id.owner ≠ "" → id ∈ usage.owned id.owner
  owner : ∀ instanceId, ∀ id ∈ usage.owned instanceId,
    id.tier = .l1 ∧ id.owner = instanceId ∧ instanceId ≠ ""

section

variable (usage) (id : PlacementId Digest)

@[simp] lemma placementSizes_adjust (delta : Int) :
    (usage.adjust id delta).placementSizes = usage.placementSizes := by
  unfold adjust
  split <;> rfl

@[simp] lemma l1ByInstance_adjust (delta : Int) :
    (usage.adjust id delta).l1ByInstance = usage.l1ByInstance := by
  unfold adjust
  split <;> rfl

@[simp] lemma placementSizes_remove :
    (usage.remove id).placementSizes = usage.placementSizes.erase id := by
  simp [remove]

@[simp] lemma placementSizes_store (sizeBytes : Nat) :
    (usage.store id sizeBytes).placementSizes = usage.placementSizes.set id sizeBytes := by
  simp [store]

lemma owned_store (sizeBytes : Nat) (instanceId : String) :
    (usage.store id sizeBytes).owned instanceId =
      if (id.tier = .l1 ∧ id.owner ≠ "") ∧ instanceId = id.owner
      then (usage.owned instanceId).insert id else usage.owned instanceId := by
  simp only [owned, store, l1ByInstance_adjust]
  by_cases hfiled : id.tier = .l1 ∧ id.owner ≠ ""
  · rw [if_pos hfiled, get?_set]
    by_cases hid : instanceId = id.owner <;> simp [hfiled, hid]
  · simp [hfiled]

lemma owned_remove (instanceId : String) : (usage.remove id).owned instanceId =
      if id.tier = .l1 ∧ instanceId = id.owner
      then (usage.owned instanceId).erase id else usage.owned instanceId := by
  simp only [owned, remove, l1ByInstance_adjust, unfile]
  by_cases htier : id.tier = .l1
  · simp only [htier, if_true]
    cases hget : usage.l1ByInstance.get? id.owner with
    | none =>
      by_cases hid : instanceId = id.owner
      · simp [hid, hget]
      · simp [hid]
    | some owned =>
      by_cases hrest : owned.erase id = []
      · simp only [hrest, if_true, get?_erase]
        by_cases hid : instanceId = id.owner <;> simp [hid, hget, hrest]
      · simp only [hrest, if_false, get?_set]
        by_cases hid : instanceId = id.owner <;> simp [hid, hget]
  · simp [htier]

end

lemma RolledUp.adjust {sizes sizes' : Dict (PlacementId Digest) Nat} (h : RolledUp sizes usage)
    {id : PlacementId Digest} {delta : Int} (hchange : ChangedBy sizes sizes' id delta) :
    RolledUp sizes' (usage.adjust id delta) := by
  unfold CacheUsageManager.adjust
  split_ifs with hzero
  · rw [hzero] at hchange
    exact ⟨h.keys.unchanged hchange, h.salts.unchanged hchange, h.nodes.unchanged hchange⟩
  · exact ⟨h.keys.adjust hchange, h.salts.adjust hchange, h.nodes.adjust hchange⟩

lemma rolledUp_remove (h : RolledUp usage.placementSizes usage) (id : PlacementId Digest) :
    RolledUp (usage.remove id).placementSizes (usage.remove id) := by
  rw [placementSizes_remove]
  refine RolledUp.adjust ?_ (changedBy_erase usage.placementSizes id)
  exact ⟨h.keys, h.salts, h.nodes⟩

lemma rolledUp_store (h : RolledUp usage.placementSizes usage) (id : PlacementId Digest)
    (sizeBytes : Nat) :
    RolledUp (usage.store id sizeBytes).placementSizes (usage.store id sizeBytes) := by
  rw [placementSizes_store]
  refine RolledUp.adjust ?_ (changedBy_set usage.placementSizes id sizeBytes)
  exact ⟨h.keys, h.salts, h.nodes⟩

section

variable (h : usage.Accounted)
include h

lemma accounted_store (id : PlacementId Digest) (sizeBytes : Nat) :
    (usage.store id sizeBytes).Accounted where
  rolledUp := rolledUp_store h.rolledUp id sizeBytes
  filed j hj htier howner := by
    rw [placementSizes_store, mem_set] at hj
    rw [owned_store]
    rcases hj with rfl | hj
    · simp [htier, howner]
    · have hold := h.filed j hj htier howner
      split
      · exact List.mem_insert_of_mem hold
      · exact hold
  owner instanceId j hj := by
    rw [owned_store] at hj
    split_ifs at hj with hfiled
    · rcases List.mem_insert_iff.mp hj with rfl | hj
      · exact ⟨hfiled.1.1, hfiled.2.symm, hfiled.2 ▸ hfiled.1.2⟩
      · exact h.owner instanceId j hj
    · exact h.owner instanceId j hj

lemma accounted_remove (id : PlacementId Digest) : (usage.remove id).Accounted where
  rolledUp := rolledUp_remove h.rolledUp id
  filed j hj htier howner := by
    rw [placementSizes_remove, mem_erase] at hj
    have hold := h.filed j hj.2 htier howner
    rw [owned_remove]
    split
    · exact (List.mem_erase_of_ne hj.1).mpr hold
    · exact hold
  owner instanceId j hj := by
    rw [owned_remove] at hj
    split at hj
    · exact h.owner instanceId j (List.mem_of_mem_erase hj)
    · exact h.owner instanceId j hj

lemma accounted_applyEntry (batch : CacheEventBatch Digest) (entry : CacheEventEntry Digest) :
    (usage.applyEntry batch entry).Accounted := by
  unfold applyEntry
  split
  · exact accounted_store h _ _
  · exact accounted_remove h _
  · exact h

lemma accounted_consume (batch : CacheEventBatch Digest) : (usage.consume batch).Accounted := by
  unfold consume
  split
  · exact h
  · exact run_always Accounted (fun _ entry hu => accounted_applyEntry hu batch entry) h batch.entries

omit h in
lemma foldl_remove (usage : CacheUsageManager Digest) {instanceId : String}
    (ids : List (PlacementId Digest)) (hids : ∀ id ∈ ids, id.owner = instanceId)
    (hnone : usage.l1ByInstance.get? instanceId = none) (h : RolledUp usage.placementSizes usage) :
    RolledUp (ids.foldl remove usage).placementSizes (ids.foldl remove usage) ∧
      (ids.foldl remove usage).l1ByInstance = usage.l1ByInstance ∧
      (ids.foldl remove usage).placementSizes = ids.foldl erase usage.placementSizes := by
  induction ids generalizing usage with
  | nil => exact ⟨h, rfl, rfl⟩
  | cons id ids ih =>
    have hindex : (usage.remove id).l1ByInstance = usage.l1ByInstance := by
      have howner := hids id (List.mem_cons_self)
      simp [remove, unfile, howner, hnone]
    have htail := ih (usage.remove id) (fun j hj => hids j (List.mem_cons_of_mem _ hj))
      (by rw [hindex]; exact hnone) (rolledUp_remove h id)
    rw [hindex, placementSizes_remove] at htail
    exact htail

section

variable (instanceId : String)

/-- A fence pops the instance's index and removes the placements filed there. -/
lemma fenceInstance_spec :
    RolledUp (usage.fenceInstance instanceId).placementSizes (usage.fenceInstance instanceId) ∧
      (usage.fenceInstance instanceId).l1ByInstance = usage.l1ByInstance.erase instanceId ∧
      (usage.fenceInstance instanceId).placementSizes =
      (usage.owned instanceId).foldl erase usage.placementSizes :=
  foldl_remove
    { usage with l1ByInstance := usage.l1ByInstance.erase instanceId } (usage.owned instanceId)
    (fun id hid => (h.owner instanceId id hid).2.1) (get?_erase_self _ _)
    ⟨h.rolledUp.keys, h.rolledUp.salts, h.rolledUp.nodes⟩

/-- A fence takes out the L1 placements that the instance owns. -/
lemma entries_fenceInstance : (usage.fenceInstance instanceId).placementSizes.entries =
      usage.placementSizes.entries.filter fun p =>
      ¬ (p.1.tier = .l1 ∧ p.1.owner = instanceId ∧ instanceId ≠ "") := by
  rw [(fenceInstance_spec h instanceId).2.2, entries_foldl_erase]
  refine List.filter_congr fun p hp => decide_eq_decide.mpr (not_congr ⟨fun hin => ?_, ?_⟩)
  · exact h.owner instanceId p.1 hin
  · rintro ⟨htier, rfl, hne⟩
    exact h.filed p.1 (List.mem_map_of_mem hp) htier hne

lemma accounted_fenceInstance : (usage.fenceInstance instanceId).Accounted := by
  obtain ⟨hrolled, hindex, -⟩ := fenceInstance_spec h instanceId
  have howned : ∀ id, (usage.fenceInstance instanceId).owned id =
      if id = instanceId then [] else usage.owned id := by
    intro id
    rw [owned, hindex, get?_erase]
    split <;> rfl
  refine ⟨hrolled, fun id hid htier howner => ?_, fun other id hid => ?_⟩
  · obtain ⟨p, hp, rfl⟩ := List.mem_map.mp hid
    rw [entries_fenceInstance h, List.mem_filter] at hp
    have hother : p.1.owner ≠ instanceId := by
      rintro rfl
      simp [htier, howner] at hp
    rw [howned, if_neg hother]
    exact h.filed p.1 (List.mem_map_of_mem hp.1) htier howner
  · rw [howned] at hid
    split at hid
    · cases hid
    · exact h.owner other id hid

end

lemma accounted_deliver (signal : Signal Digest) : (usage.deliver signal).Accounted := by
  cases signal with
  | broadcast batch => exact accounted_consume h batch
  | fenceInstance instanceId => exact accounted_fenceInstance h instanceId

lemma getTotalBytes_eq (tier : Tier) :
    usage.getTotalBytes tier = sizeOfKind (fun id => id.tier = tier) usage.placementSizes := by
  simpa [getTotalBytes] using h.rolledUp.salts.sums fun k => k.1 = tier

end

end CacheUsageManager

end LMCache.Coordinator
