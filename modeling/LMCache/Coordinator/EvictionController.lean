/-
LMCache.Coordinator.EvictionController — the eviction of the fleet
(`controllers/eviction_controller.py`, `distributed/quota_manager.py`).

The controller tracks the L2 keys in the order of their use and plans, for
each salt that has reached the watermark of its limit, which keys to delete.
The bytes are not its own: it reads the usage view, which has consumed the
same batch before. So a deleted key leaves the order only when no copy of it
holds bytes, and what the planner can select covers what the view counts.

A salt is due when its usage reaches the watermark, not when it exceeds the
limit: at the default watermark a salt that is exactly full is trimmed.

Left out: the dispatch of a plan to a server (it comes back as delete
events), the HTTP endpoints and what is written to a checkpoint.
-/
import LMCache.Coordinator.UsageManager
import LMCache.EvictionPolicy.IsolatedLru

namespace LMCache.Coordinator

open Lib EvictionPolicy IsolatedLRUEvictionPolicy
open Multiprocess (ObjectKey)

variable {Digest : Type} [DecidableEq Digest]

/-! ## Limits -/

/-- `QuotaManager`. -/
structure QuotaManager where
  limits : Dict String Nat := ∅
  defaultLimitBytes : Option Nat := none

namespace QuotaManager

variable (quota : QuotaManager)

/-- The `ValueError` of a negative limit. -/
def negativeLimit (limitBytes : Int) : String :=
  s!"limit_bytes must be non-negative (got {limitBytes})"

variable (cacheSalt : String)

/-- `set_quota`. -/
def setQuota (limitBytes : Int) : Except String QuotaManager :=
  if limitBytes < 0 then .error (negativeLimit limitBytes)
  else .ok { quota with limits := quota.limits.set cacheSalt limitBytes.toNat }

/-- `delete_quota`. -/
def deleteQuota : Bool × QuotaManager :=
  (decide (cacheSalt ∈ quota.limits), { quota with limits := quota.limits.erase cacheSalt })

/-- `set_default_limit_bytes`. -/
def setDefaultLimitBytes (limitBytes : Option Int) : Except String QuotaManager :=
  match limitBytes with
  | none => .ok { quota with defaultLimitBytes := none }
  | some limitBytes =>
    if limitBytes < 0 then .error (negativeLimit limitBytes)
    else .ok { quota with defaultLimitBytes := some limitBytes.toNat }

/-- `effective_limit_bytes`. -/
def effectiveLimitBytes : Option Nat :=
  match quota.limits.get? cacheSalt with
  | some explicit => some explicit
  | none => quota.defaultLimitBytes

end QuotaManager

/-! ## The reads of the usage view -/

namespace CacheUsageManager

variable (usage : CacheUsageManager Digest)

/-- `get_key_bytes`. -/
def getKeyBytes (tier : Tier) (key : ObjectKey Digest) : Int := (usage.keyBytes.get? (tier, key)).getD 0

/-- `get_salt_bytes`. -/
def getSaltBytes (tier : Tier) (cacheSalt : String) : Int :=
  (usage.saltBytes.get? (tier, cacheSalt)).getD 0

end CacheUsageManager

/-! ## The controller -/

/-- `_pinned_chunk_key`: a pin is on a chunk, in every object group. -/
def pinnedChunkKey (key : ObjectKey Digest) : ObjectKey Digest :=
  if key.objectGroupId ≠ 0 then { key with objectGroupId := 0 } else key

/-- `FleetEvictionController`. -/
structure FleetEvictionController (Digest : Type) [DecidableEq Digest] where
  quotaManager : QuotaManager := {}
  evictionRatio : Rat
  triggerWatermark : Rat
  policy : IsolatedLRUEvictionPolicy Digest := ∅
  pinCounts : Dict (ObjectKey Digest) Nat := ∅

variable {c : FleetEvictionController Digest}

namespace FleetEvictionController

/-- `__init__`. -/
def new (evictionRatio triggerWatermark : Rat) : FleetEvictionController Digest where
  evictionRatio := max 0 (min 1 evictionRatio)
  triggerWatermark := triggerWatermark

section

variable (key : ObjectKey Digest)

/-- `on_store`. -/
def onStore : FleetEvictionController Digest :=
  { c with policy := c.policy.onKeysCreated [key] }

/-- `on_lookup`. -/
def onLookup : FleetEvictionController Digest :=
  { c with policy := c.policy.onKeysTouched [key] }

/-- `on_remove`. -/
def onRemove : FleetEvictionController Digest :=
  { c with policy := c.policy.onKeysRemoved [key] }

end

variable (keys : List (ObjectKey Digest)) (usage : CacheUsageManager Digest)

/-- The loop body of `consume`; `usage` is the view after the batch. -/
def applyEntry (eventType : CacheEventType) (c : FleetEvictionController Digest)
    (entry : CacheEventEntry Digest) : FleetEvictionController Digest :=
  match eventType with
  | .store => c.onStore entry.key
  | .access => c.onLookup entry.key
  | .delete => if usage.getKeyBytes .l2 entry.key = 0 then c.onRemove entry.key else c
  | .config => c

/-- `consume`. -/
def consume (batch : CacheEventBatch Digest) : FleetEvictionController Digest :=
  if batch.tier ≠ .l2 then c else batch.entries.foldl (applyEntry usage batch.eventType) c

/-- `pin`. -/
def pin : FleetEvictionController Digest :=
  { c with
    pinCounts := keys.foldl (fun counts key =>
      counts.set (pinnedChunkKey key) ((counts.get? (pinnedChunkKey key)).getD 0 + 1)) c.pinCounts }

/-- `unpin`. -/
def unpin : FleetEvictionController Digest :=
  { c with
    pinCounts := keys.foldl (fun counts key =>
      let count := (counts.get? (pinnedChunkKey key)).getD 0
      if count ≤ 1 then counts.erase (pinnedChunkKey key)
      else counts.set (pinnedChunkKey key) (count - 1)) c.pinCounts }

/-- `drop_pins`. -/
def dropPins : FleetEvictionController Digest :=
  { c with
    pinCounts := keys.foldl (fun counts key => counts.erase (pinnedChunkKey key)) c.pinCounts }

/-- The filter of `filter_unpinned` and of the planner. -/
def unpinned (key : ObjectKey Digest) : Bool := decide (pinnedChunkKey key ∉ c.pinCounts)

/-- The keys `compute_eviction_plan` selects of one salt. -/
def planSalt (cacheSalt : String) : List (ObjectKey Digest) :=
  let currentBytes := usage.getSaltBytes .l2 cacheSalt
  if currentBytes ≤ 0 then []
  else
    match c.quotaManager.effectiveLimitBytes cacheSalt with
    | none => []
    | some limit =>
      if (currentBytes : Rat) < c.triggerWatermark * limit then []
      else c.policy.victims (if limit = 0 then 1 else c.evictionRatio) c.unpinned cacheSalt

/-- `compute_eviction_plan`. -/
def computeEvictionPlan : Dict String (List (ObjectKey Digest)) :=
  c.policy.getTrackedSalts.foldl (fun plan cacheSalt =>
    let keysToEvict := c.planSalt usage cacheSalt
    if keysToEvict.isEmpty then plan else plan.set cacheSalt keysToEvict) ∅

end FleetEvictionController

/-! ## The coordinator -/

/-- The usage view and the controller that reads it. -/
structure Fleet (Digest : Type) [DecidableEq Digest] where
  usage : CacheUsageManager Digest := {}
  eviction : FleetEvictionController Digest

/-- What reaches the two: the signals of the broadcaster, which hands each to
the view first, and the calls of the operator. -/
inductive FleetEvent (Digest : Type) where
  | signal (signal : Signal Digest)
  | pin (keys : List (ObjectKey Digest))
  | unpin (keys : List (ObjectKey Digest))
  | dropPins (keys : List (ObjectKey Digest))
  | setQuota (cacheSalt : String) (limitBytes : Int)
  | deleteQuota (cacheSalt : String)
  | setDefaultLimit (limitBytes : Option Int)

namespace Fleet

variable (f : Fleet Digest)

/-- Set the limits, unless the call raised. -/
def withQuota (result : Except String QuotaManager) : Fleet Digest :=
  match result with
  | .error _ => f
  | .ok quota => { f with eviction := { f.eviction with quotaManager := quota } }

/-- The coordinator at its start. -/
def new (evictionRatio triggerWatermark : Rat) : Fleet Digest where
  eviction := .new evictionRatio triggerWatermark

/-- One event. The controller ignores fences. -/
def step : FleetEvent Digest → Fleet Digest
  | .signal signal =>
    let usage := f.usage.deliver signal
    { usage := usage
      eviction := match signal with
        | .broadcast batch => f.eviction.consume usage batch
        | .fenceInstance _ => f.eviction }
  | .pin keys => { f with eviction := f.eviction.pin keys }
  | .unpin keys => { f with eviction := f.eviction.unpin keys }
  | .dropPins keys => { f with eviction := f.eviction.dropPins keys }
  | .setQuota cacheSalt limitBytes =>
    f.withQuota (f.eviction.quotaManager.setQuota cacheSalt limitBytes)
  | .deleteQuota cacheSalt =>
    f.withQuota (.ok (f.eviction.quotaManager.deleteQuota cacheSalt).2)
  | .setDefaultLimit limitBytes =>
    f.withQuota (f.eviction.quotaManager.setDefaultLimitBytes limitBytes)

/-- The plan computed now. -/
def plan : Dict String (List (ObjectKey Digest)) := f.eviction.computeEvictionPlan f.usage

/-- The salt holds L2 bytes, and as many as the watermark of its limit. -/
def Due (salt : String) : Prop :=
  0 < f.usage.getSaltBytes .l2 salt ∧ ∃ limit,
    f.eviction.quotaManager.effectiveLimitBytes salt = some limit ∧
      f.eviction.triggerWatermark * limit ≤ f.usage.getSaltBytes .l2 salt

end Fleet

/-! ## Where bytes come from -/

variable {id : PlacementId Digest} {batch : CacheEventBatch Digest} {entry : CacheEventEntry Digest}

namespace CacheUsageManager

variable {usage : CacheUsageManager Digest} {tier : Tier} {key : ObjectKey Digest}

lemma pos_of_adjust {delta : Int} (h : 0 < (usage.adjust id delta).getKeyBytes tier key) :
    0 < usage.getKeyBytes tier key ∨ ((tier, key) = (id.tier, id.key) ∧ 0 < delta) := by
  unfold adjust at h
  split at h
  · exact .inl h
  unfold getKeyBytes adjustRollup at h
  by_cases hid : (tier, key) = (id.tier, id.key)
  · split at h <;> simp [hid] at h
    rcases Int.lt_or_le 0 delta with hdelta | hdelta
    · exact .inr ⟨hid, hdelta⟩
    · simp only [getKeyBytes, hid]
      omega
  · split at h <;> simp only [Dict.get?_set, Dict.get?_erase, if_neg hid] at h <;> exact .inl h

lemma pos_of_remove (h : 0 < (usage.remove id).getKeyBytes tier key) :
    0 < usage.getKeyBytes tier key := by
  obtain hpos | ⟨-, hdelta⟩ := pos_of_adjust h
  · exact hpos
  · omega

lemma pos_of_applyEntry (h : 0 < (usage.applyEntry batch entry).getKeyBytes tier key) :
    0 < usage.getKeyBytes tier key ∨
      (batch.eventType = .store ∧ batch.tier = tier ∧ entry.key = key) := by
  unfold applyEntry at h
  split at h
  · rename_i hstore
    obtain hpos | ⟨hid, -⟩ := pos_of_adjust h
    · exact .inl hpos
    · obtain ⟨rfl, rfl⟩ := Prod.mk.inj hid
      exact .inr ⟨hstore, rfl, rfl⟩
  · exact .inl (pos_of_remove h)
  · exact .inl h

lemma pos_of_consume (h : 0 < (usage.consume batch).getKeyBytes tier key) :
    0 < usage.getKeyBytes tier key ∨
      (batch.eventType = .store ∧ batch.tier = tier ∧ ∃ entry ∈ batch.entries, entry.key = key) := by
  unfold consume at h
  split at h
  · exact .inl h
  generalize batch.entries = entries at h
  induction entries generalizing usage with
  | nil => exact .inl h
  | cons entry entries ih =>
    obtain hpos | ⟨hstore, htier, e, he, hkey⟩ := ih h
    · obtain hpos | ⟨hstore, htier, hkey⟩ := pos_of_applyEntry hpos
      · exact .inl hpos
      · exact .inr ⟨hstore, htier, entry, List.mem_cons_self, hkey⟩
    · exact .inr ⟨hstore, htier, e, List.mem_cons_of_mem _ he, hkey⟩

lemma pos_of_foldl_remove {ids : List (PlacementId Digest)}
    (h : 0 < (ids.foldl remove usage).getKeyBytes tier key) : 0 < usage.getKeyBytes tier key := by
  induction ids generalizing usage with
  | nil => exact h
  | cons id ids ih => exact pos_of_remove (ih h)

lemma pos_of_fenceInstance {instanceId : String}
    (h : 0 < (usage.fenceInstance instanceId).getKeyBytes tier key) :
    0 < usage.getKeyBytes tier key := by
  have hpopped := pos_of_foldl_remove (show 0 < ((usage.owned instanceId).foldl remove
    { usage with l1ByInstance := usage.l1ByInstance.erase instanceId }).getKeyBytes tier key from h)
  exact hpopped

end CacheUsageManager

/-! ## What stays tracked -/

variable {keys : List (ObjectKey Digest)}

namespace FleetEvictionController

variable {usage : CacheUsageManager Digest} {eventType : CacheEventType} {key : ObjectKey Digest}

section

variable (hpos : 0 < usage.getKeyBytes .l2 key)
include hpos

lemma mem_applyEntry (h : key ∈ c.policy) : key ∈ (applyEntry usage eventType c entry).policy := by
  unfold applyEntry
  split
  · exact mem_onKeysCreated.mpr (.inl h)
  · exact mem_onKeysTouched.mpr h
  · split
    · refine mem_onKeysRemoved.mpr ⟨h, fun hkey => ?_⟩
      obtain rfl := List.mem_singleton.mp hkey
      omega
    · exact h
  · exact h

lemma mem_foldl_applyEntry (h : key ∈ c.policy) (entries : List (CacheEventEntry Digest)) :
    key ∈ (entries.foldl (applyEntry usage eventType) c).policy :=
  run_always (fun c : FleetEvictionController Digest => key ∈ c.policy)
    (fun _ _ hc => mem_applyEntry hpos hc) h entries

lemma mem_foldl_store {entries : List (CacheEventEntry Digest)}
    (hentry : ∃ entry ∈ entries, entry.key = key) :
    key ∈ (entries.foldl (applyEntry usage .store) c).policy := by
  obtain ⟨entry, hentry, rfl⟩ := hentry
  obtain ⟨before, after, rfl⟩ := List.append_of_mem hentry
  rw [List.foldl_append]
  refine mem_foldl_applyEntry hpos ?_ after
  exact mem_onKeysCreated.mpr (.inr (List.mem_singleton_self _))

end

lemma mem_consume (h : ∀ key, 0 < usage.getKeyBytes .l2 key → key ∈ c.policy)
    (hpos : 0 < (usage.consume batch).getKeyBytes .l2 key) :
    key ∈ (c.consume (usage.consume batch) batch).policy := by
  obtain hold | ⟨hstore, htier, hentry⟩ := CacheUsageManager.pos_of_consume hpos
  · unfold consume
    split
    · exact h key hold
    · exact mem_foldl_applyEntry hpos (h key hold) _
  · rw [consume, if_neg (by simp [htier]), hstore]
    exact mem_foldl_store hpos hentry

variable (c) in
lemma evictionRatio_consume (usage : CacheUsageManager Digest) (batch : CacheEventBatch Digest) :
    (c.consume usage batch).evictionRatio = c.evictionRatio := by
  have hentry : ∀ (c : FleetEvictionController Digest) (entry : CacheEventEntry Digest),
      (applyEntry usage batch.eventType c entry).evictionRatio = c.evictionRatio := by
    intro c entry
    unfold applyEntry
    cases batch.eventType with
    | delete => dsimp only; split <;> rfl
    | _ => rfl
  unfold consume
  split
  · rfl
  · exact foldl_frame evictionRatio hentry batch.entries c

/-! ## What a plan holds -/

lemma get?_computeEvictionPlan {salt : String} :
    (c.computeEvictionPlan usage).get? salt = some keys ↔
      salt ∈ c.policy.getTrackedSalts ∧ c.planSalt usage salt = keys ∧ keys ≠ [] := by
  have hfold : ∀ (salts : List String) (plan : Dict String (List (ObjectKey Digest))),
      (salts.foldl (fun plan cacheSalt =>
        let keysToEvict := c.planSalt usage cacheSalt
        if keysToEvict.isEmpty then plan else plan.set cacheSalt keysToEvict) plan).get? salt =
        if salt ∈ salts ∧ c.planSalt usage salt ≠ [] then some (c.planSalt usage salt)
        else plan.get? salt := by
    intro salts
    induction salts with
    | nil => intro plan; simp
    | cons s salts ih =>
      intro plan
      rw [List.foldl_cons, ih]
      by_cases hs : salt = s
      · subst hs
        by_cases hnil : c.planSalt usage salt = [] <;> simp [hnil]
      · by_cases hnil : c.planSalt usage s = [] <;> simp [hs, hnil, Dict.get?_set]
  rw [computeEvictionPlan, hfold]
  split_ifs with h
  · constructor
    · rintro hkeys
      obtain rfl := Option.some.inj hkeys
      exact ⟨h.1, rfl, h.2⟩
    · rintro ⟨-, rfl, -⟩
      rfl
  · constructor
    · simp
    · rintro ⟨hsalt, rfl, hne⟩
      exact absurd ⟨hsalt, hne⟩ h

end FleetEvictionController

namespace Fleet

variable {f : Fleet Digest} {salt : String} {key : ObjectKey Digest}

instance : Decidable (f.Due salt) :=
  match hlimit : f.eviction.quotaManager.effectiveLimitBytes salt with
  | none => .isFalse fun h => by
    obtain ⟨-, limit, hsome, -⟩ := h
    simp [hlimit] at hsome
  | some limit => decidable_of_iff (0 < f.usage.getSaltBytes .l2 salt ∧
      f.eviction.triggerWatermark * limit ≤ f.usage.getSaltBytes .l2 salt) (by simp [Due, hlimit])

lemma planSalt_of_not_due (h : ¬ f.Due salt) : f.eviction.planSalt f.usage salt = [] := by
  unfold FleetEvictionController.planSalt
  dsimp only
  split
  · rfl
  rename_i hbytes
  split
  · rfl
  rename_i limit hlimit
  split
  · rfl
  rename_i hreached
  exact absurd ⟨Int.not_le.mp hbytes, limit, hlimit, not_lt.mp hreached⟩ h

/-- The victims of a salt that is due are those of the policy, at one of the
two ratios. -/
lemma planSalt_of_due (h : f.Due salt) : ∃ ratio, (ratio = 1 ∨ ratio = f.eviction.evictionRatio) ∧
      f.eviction.planSalt f.usage salt =
      f.eviction.policy.victims ratio f.eviction.unpinned salt := by
  obtain ⟨hbytes, limit, hlimit, hreached⟩ := h
  refine ⟨if limit = 0 then 1 else f.eviction.evictionRatio, ?_, ?_⟩
  · split
    · exact .inl rfl
    · exact .inr rfl
  · unfold FleetEvictionController.planSalt
    simp only [hlimit]
    rw [if_neg (Int.not_le.mpr hbytes), if_neg (not_lt.mpr hreached)]

/-- A plan holds unpinned keys of salts that are due. -/
lemma due_of_plan (h : f.plan.get? salt = some keys) :
    f.Due salt ∧ ∀ key ∈ keys, key.cacheSalt = salt ∧ pinnedChunkKey key ∉ f.eviction.pinCounts := by
  obtain ⟨-, rfl, hne⟩ := FleetEvictionController.get?_computeEvictionPlan.mp h
  by_cases hdue : f.Due salt
  · refine ⟨hdue, fun key hkey => ?_⟩
    obtain ⟨ratio, -, hplan⟩ := planSalt_of_due hdue
    rw [hplan] at hkey
    obtain ⟨-, hsalt, hunpinned⟩ := mem_victims hkey
    exact ⟨hsalt, of_decide_eq_true hunpinned⟩
  · exact absurd (planSalt_of_not_due hdue) hne

/-- A due salt with an unpinned tracked key is in the plan. -/
lemma plan_of_due (hratio : 0 < f.eviction.evictionRatio) (hkey : key ∈ f.eviction.policy)
    (hdue : f.Due key.cacheSalt) (hunpinned : pinnedChunkKey key ∉ f.eviction.pinCounts) :
    ∃ keys, f.plan.get? key.cacheSalt = some keys ∧ ∃ victim, victim ∈ keys := by
  obtain ⟨ratio, hchoice, hplan⟩ := planSalt_of_due hdue
  have hpos : 0 < ratio := by
    rcases hchoice with rfl | rfl
    · decide
    · exact hratio
  have hne : f.eviction.planSalt f.usage key.cacheSalt ≠ [] := by
    rw [hplan]
    exact victims_ne_nil hpos hkey (decide_eq_true hunpinned)
  have hsalt := mem_getTrackedSalts_of_mem hkey
  exact ⟨_, FleetEvictionController.get?_computeEvictionPlan.mpr ⟨hsalt, rfl, hne⟩,
    List.exists_mem_of_ne_nil _ hne⟩

/-! ## Every run -/

/-- The keys that hold L2 bytes are tracked. -/
def Tracks (f : Fleet Digest) : Prop :=
  ∀ key, 0 < f.usage.getKeyBytes .l2 key → key ∈ f.eviction.policy

lemma withQuota_eq (f : Fleet Digest) (result : Except String QuotaManager) :
    ∃ quota, f.withQuota result = { f with eviction := { f.eviction with quotaManager := quota } } := by
  cases result with
  | error message => exact ⟨_, rfl⟩
  | ok quota => exact ⟨quota, rfl⟩

lemma tracks_step (h : f.Tracks) (event : FleetEvent Digest) : (f.step event).Tracks := by
  cases event with
  | signal signal =>
    cases signal with
    | broadcast batch => exact fun key hpos => FleetEvictionController.mem_consume h hpos
    | fenceInstance instanceId =>
      exact fun key hpos => h key (CacheUsageManager.pos_of_fenceInstance hpos)
  | pin keys => exact h
  | unpin keys => exact h
  | dropPins keys => exact h
  | setQuota cacheSalt limitBytes =>
    obtain ⟨quota, hquota⟩ := f.withQuota_eq (f.eviction.quotaManager.setQuota cacheSalt limitBytes)
    rw [step, hquota]
    exact h
  | deleteQuota cacheSalt => exact h
  | setDefaultLimit limitBytes =>
    obtain ⟨quota, hquota⟩ := f.withQuota_eq
      (f.eviction.quotaManager.setDefaultLimitBytes limitBytes)
    rw [step, hquota]
    exact h

lemma evictionRatio_step (f : Fleet Digest) (event : FleetEvent Digest) :
    (f.step event).eviction.evictionRatio = f.eviction.evictionRatio := by
  cases event with
  | signal signal =>
    cases signal with
    | broadcast batch => exact FleetEvictionController.evictionRatio_consume ..
    | fenceInstance instanceId => rfl
  | setQuota cacheSalt limitBytes =>
    obtain ⟨quota, hquota⟩ := f.withQuota_eq (f.eviction.quotaManager.setQuota cacheSalt limitBytes)
    rw [step, hquota]
  | setDefaultLimit limitBytes =>
    obtain ⟨quota, hquota⟩ := f.withQuota_eq
      (f.eviction.quotaManager.setDefaultLimitBytes limitBytes)
    rw [step, hquota]
  | _ => rfl

/-- The coordinator after a stream of events. -/
def after (evictionRatio triggerWatermark : Rat) (events : List (FleetEvent Digest)) :
    Fleet Digest :=
  run step (new evictionRatio triggerWatermark) events

variable {ratio watermark : Rat}

lemma evictionRatio_after (hratio : 0 < ratio) (events : List (FleetEvent Digest)) :
    0 < (after ratio watermark events).eviction.evictionRatio := by
  have hone : (0 : Rat) < 1 := by decide
  refine run_always (fun f : Fleet Digest => 0 < f.eviction.evictionRatio)
    (fun f event hf => ?_) (lt_max_of_lt_right (lt_min hone hratio)) events
  rw [evictionRatio_step]
  exact hf

/-- In every run with a positive ratio: a key that holds L2 bytes is tracked, a
plan holds unpinned keys of salts whose usage has reached the watermark of
their limit, and such a salt has a victim as soon as it has an unpinned
tracked key. -/
theorem plan_covers_due_salts (ratio watermark : Rat) (hratio : 0 < ratio)
    (events : List (FleetEvent Digest)) :
    let f := after ratio watermark events
    (∀ key, 0 < f.usage.getKeyBytes .l2 key → key ∈ f.eviction.policy) ∧
      (∀ salt keys, f.plan.get? salt = some keys → f.Due salt ∧
      ∀ key ∈ keys, key.cacheSalt = salt ∧ pinnedChunkKey key ∉ f.eviction.pinCounts) ∧
      ∀ key ∈ f.eviction.policy, f.Due key.cacheSalt →
      pinnedChunkKey key ∉ f.eviction.pinCounts →
      ∃ keys, f.plan.get? key.cacheSalt = some keys ∧ ∃ victim, victim ∈ keys :=
  ⟨run_always Tracks (fun _ event hf => tracks_step hf event)
      (fun _ hpos => by simp [new, CacheUsageManager.getKeyBytes] at hpos) events, fun _ _ h => due_of_plan h,
    fun _ hkey hdue hunpinned => plan_of_due (evictionRatio_after hratio events) hkey hdue hunpinned⟩

/-- The keys of the runs below. -/
def tenantKey (chunk : Nat) : ObjectKey Nat := ⟨chunk, "m", 0, 1, "tenant", []⟩

lemma a_ne : "a" ≠ "" := by decide

/-- A limit of 16 bytes, and a pool that stores two keys of eight. -/
def filledToLimit : List (FleetEvent Nat) :=
  [.setQuota "tenant" 16, .signal (.broadcast
      { instanceId := "a", incarnation := 0, seq := 1, eventType := .store, tier := .l2,
        backend := "fs", shared := true, instanceId_ne := a_ne, seq_pos := Nat.one_pos,
        entries := [7, 8].map fun chunk =>
          { key := tenantKey chunk, sizeBytes := 8, offset_ok := unknown_ok } })]

/-- A salt whose usage is exactly its limit is trimmed. -/
theorem plan_at_limit :
    let f := after (1 / 2) 1 filledToLimit
    f.eviction.quotaManager.effectiveLimitBytes "tenant" = some 16 ∧
      ¬ 16 < f.usage.getSaltBytes .l2 "tenant" ∧ f.plan.get? "tenant" = some [tenantKey 7] := by
  decide +kernel

/-- The least recent key of the salt is pinned. -/
def pinnedFirst : List (FleetEvent Nat) := filledToLimit ++ [.pin [tenantKey 7]]

theorem plan_covers_pinned :
    let f := after (1 / 2) 1 pinnedFirst
    ∃ keys, f.plan.get? "tenant" = some keys ∧ ∃ victim, victim ∈ keys :=
  (plan_covers_due_salts (1 / 2) 1 (by decide +kernel) pinnedFirst).2.2 (tenantKey 8)
    (by decide +kernel) (by decide +kernel) (by decide +kernel)

/-! ## Pins -/

/-- The pins on a chunk after an event, out of `n`. -/
def pinsLeft (chunk : ObjectKey Digest) (n : Nat) : FleetEvent Digest → Nat
  | .pin keys => keys.foldl (fun n key => if pinnedChunkKey key = chunk then n + 1 else n) n
  | .unpin keys => keys.foldl (fun n key => if pinnedChunkKey key = chunk then n - 1 else n) n
  | .dropPins keys => keys.foldl (fun n key => if pinnedChunkKey key = chunk then 0 else n) n
  | _ => n

/-- The table has a chunk while it has pins, with their number. -/
def Counts (chunk : ObjectKey Digest) (counts : Dict (ObjectKey Digest) Nat) (n : Nat) : Prop :=
  counts.get? chunk = if n = 0 then none else some n

lemma counts_step {chunk : ObjectKey Digest} {n : Nat} (h : Counts chunk f.eviction.pinCounts n)
    (event : FleetEvent Digest) :
    Counts chunk (f.step event).eviction.pinCounts (pinsLeft chunk n event) := by
  cases event with
  | signal signal =>
    cases signal with
    | broadcast batch =>
      simp only [step, FleetEvictionController.consume]
      split
      · exact h
      · refine (foldl_frame (fun c : FleetEvictionController Digest => c.pinCounts)
          (fun c entry => ?_) batch.entries f.eviction).symm ▸ h
        unfold FleetEvictionController.applyEntry
        cases batch.eventType with
        | delete => dsimp only; split <;> rfl
        | _ => rfl
    | fenceInstance instanceId => exact h
  | pin keys =>
    refine List.foldl_rel (r := Counts chunk) h fun key _ counts n hn => ?_
    grind [Counts, Dict.get?_set]
  | unpin keys =>
    refine List.foldl_rel (r := Counts chunk) h fun key _ counts n hn => ?_
    grind [Counts, Dict.get?_set, Dict.get?_erase]
  | dropPins keys =>
    refine List.foldl_rel (r := Counts chunk) h fun key _ counts n hn => ?_
    grind [Counts, Dict.get?_erase]
  | deleteQuota cacheSalt => exact h
  | _ =>
    simp only [step, withQuota]
    split <;> exact h

/-- In every run, a chunk with pins left is in no plan, in none of its groups. -/
theorem plan_spares_pinned (ratio watermark : Rat) (events : List (FleetEvent Digest))
    (salt : String) (keys : List (ObjectKey Digest)) (key : ObjectKey Digest) (hkey : key ∈ keys)
    (hplan : (after ratio watermark events).plan.get? salt = some keys) :
    events.foldl (pinsLeft (pinnedChunkKey key)) 0 = 0 := by
  have hcounts : Counts (pinnedChunkKey key) (after ratio watermark events).eviction.pinCounts _ :=
    List.foldl_rel (r := fun f => Counts (pinnedChunkKey key) f.eviction.pinCounts)
      (a := new ratio watermark) (b := 0) rfl fun event _ f n h => counts_step h event
  rw [Counts, Dict.not_mem_iff_get?.mp ((due_of_plan hplan).2 key hkey).2] at hcounts
  by_contra hne
  rw [if_neg hne] at hcounts
  cases hcounts

/-- Pinned twice in two object groups, unpinned once and dropped, the key is planned. -/
def pinnedAgain : List (FleetEvent Nat) :=
  [.pin [tenantKey 7, { tenantKey 7 with objectGroupId := 2 }], .unpin [tenantKey 7],
   .pin [tenantKey 8], .dropPins [tenantKey 7]]

theorem tenantKey_unpinned :
    (filledToLimit ++ pinnedAgain).foldl (pinsLeft (pinnedChunkKey (tenantKey 7))) 0 = 0 :=
  plan_spares_pinned (1 / 2) 1 (filledToLimit ++ pinnedAgain) "tenant" [tenantKey 7] (tenantKey 7)
    (by decide) (by decide +kernel)

end Fleet

end LMCache.Coordinator
