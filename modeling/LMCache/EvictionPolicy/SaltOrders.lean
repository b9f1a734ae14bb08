/-
LMCache.EvictionPolicy.SaltOrders — the isolated policy against one plain LRU
policy for each salt.

Each notification does to the bucket of a salt what it does to a plain policy
that is given the keys of that salt only, so the two decide alike. A capture
keeps the order of a bucket but not the tags of its keys (`encode_key`): after a
restore the decisions name keys without tags, and keys that differ in their
tags have become one. So a restore changes no decision exactly when no tracked
key has tags (`decide_alike_iff_untagged`).
-/
import LMCache.EvictionPolicy.IsolatedLru
import LMCache.Coordinator.DirectoryCheckpoint

namespace LMCache.EvictionPolicy

open Lib List
open IsolatedLRUEvictionPolicy (targetCount selectVictims selectVictims_eq bucket_onKeysCreated
  bucket_onKeysTouched bucket_onKeysRemoved)
open Coordinator (encodeKey decodeKey untagged untagged_eq_self_iff)
open Multiprocess (ObjectKey)

variable {Digest : Type} [DecidableEq Digest]

/-! ## Decisions of the plain policy -/

namespace LRUEvictionPolicy

/-- `get_eviction_actions`, with the destination it determines. -/
def getEvictionActions (p : LRUEvictionPolicy (ObjectKey Digest)) (destination : EvictionDestination)
    (expectedRatio : Rat) (eligible : ObjectKey Digest → Bool) : List (EvictionAction Digest) :=
  if p.order.isEmpty then []
  else
    let target := targetCount (max 0 (min 1 expectedRatio)) p.order.length
    if target = 0 then []
    else
      let keysToEvict := selectVictims eligible target p.order []
      if keysToEvict.isEmpty then [] else [⟨destination, keysToEvict⟩]

variable {Key : Type} [DecidableEq Key]

/-- `OrderedDict` of keys in order: a key that comes again keeps its place. -/
def ofKeys (keys : List Key) : LRUEvictionPolicy Key :=
  ⟨keys.reverse.dedup.reverse, nodup_reverse.mpr (nodup_dedup _)⟩

lemma mem_ofKeys {keys : List Key} {k : Key} : k ∈ ofKeys keys ↔ k ∈ keys := by
  show k ∈ keys.reverse.dedup.reverse ↔ k ∈ keys
  simp

lemma ofKeys_order (p : LRUEvictionPolicy Key) : ofKeys p.order = p := by
  have hnodup := (nodup_reverse.mpr p.nodup).dedup
  simp [ofKeys, hnodup]

omit [DecidableEq Digest] in
/-- Everything is evicted at ratio one. -/
lemma getEvictionActions_one (p : LRUEvictionPolicy (ObjectKey Digest)) (d : EvictionDestination) :
    p.getEvictionActions d 1 (fun _ => true) = if p.order = [] then [] else [⟨d, p.order⟩] := by
  unfold getEvictionActions
  by_cases h : p.order = []
  · simp [h]
  · have htarget : targetCount 1 p.order.length = p.order.length := by
      have hfloor : (p.order.length : Rat).floor = p.order.length := by simp [Rat.floor]
      simp [targetCount, hfloor, h]
    simp [h, htarget, selectVictims_eq]

end LRUEvictionPolicy

/-! ## Capture and restore -/

namespace IsolatedLRUEvictionPolicy

variable (p : IsolatedLRUEvictionPolicy Digest)

/-- `restore` of what `capture` wrote. -/
def reload : IsolatedLRUEvictionPolicy Digest where
  perSaltOrder := p.perSaltOrder.mapValues fun _ order =>
    .ofKeys ((order.order.map encodeKey).map decodeKey)
  destinations := p.destinations
  defaultDestination := p.defaultDestination
  filed salt order h key hkey := by
    rw [Dict.get?_mapValues] at h
    obtain ⟨old, hold, rfl⟩ := Option.map_eq_some_iff.mp h
    rw [LRUEvictionPolicy.mem_ofKeys, map_map] at hkey
    obtain ⟨k, hk, rfl⟩ := mem_map.mp hkey
    exact p.filed salt old hold k hk
  nonempty salt order h hnil := by
    rw [Dict.get?_mapValues] at h
    obtain ⟨old, hold, rfl⟩ := Option.map_eq_some_iff.mp h
    obtain ⟨k, hk⟩ := exists_mem_of_ne_nil _ (p.nonempty salt old hold)
    have hmem : decodeKey (encodeKey k) ∈ LRUEvictionPolicy.ofKeys _ :=
      LRUEvictionPolicy.mem_ofKeys.mpr (mem_map_of_mem (mem_map_of_mem hk))
    exact ne_nil_of_mem hmem hnil

lemma bucket_reload (salt : String) :
    p.reload.bucket salt = .ofKeys ((p.bucket salt).order.map untagged) := by
  show ((p.perSaltOrder.mapValues _).get? salt).getD ∅ = _
  rw [Dict.get?_mapValues, bucket]
  cases p.perSaltOrder.get? salt with
  | none => rfl
  | some order =>
    simp only [map_map]
    rfl

/-- Both policies select from a bucket in the same way. -/
lemma getEvictionActions_eq (ratio : Rat) (eligible : ObjectKey Digest → Bool) (salt : String) :
    p.getEvictionActions ratio eligible (some salt) = .ok ((p.bucket salt).getEvictionActions
      (p.destinations.head?.getD p.defaultDestination) ratio eligible) := by
  unfold getEvictionActions LRUEvictionPolicy.getEvictionActions
  dsimp only
  split_ifs <;> rfl

end IsolatedLRUEvictionPolicy

/-! ## Side by side -/

/-- What happens to the policy; a reload is a capture and its restore. -/
inductive PolicyEvent (Digest : Type) where
  | created (keys : List (ObjectKey Digest))
  | touched (keys : List (ObjectKey Digest))
  | removed (keys : List (ObjectKey Digest))
  | reloaded

/-- The isolated policy, and for each salt a plain policy that is told of the
keys of that salt. -/
structure SideBySide (Digest : Type) [DecidableEq Digest] where
  isolated : IsolatedLRUEvictionPolicy Digest
  plain : String → LRUEvictionPolicy (ObjectKey Digest)

namespace SideBySide

def init : SideBySide Digest := ⟨∅, fun _ => ∅⟩

section

variable (s : SideBySide Digest)

def step : PolicyEvent Digest → SideBySide Digest
  | .created keys => ⟨s.isolated.onKeysCreated keys,
      fun salt => (s.plain salt).onKeysCreated (keys.filter (·.cacheSalt = salt))⟩
  | .touched keys => ⟨s.isolated.onKeysTouched keys,
      fun salt => (s.plain salt).onKeysTouched (keys.filter (·.cacheSalt = salt))⟩
  | .removed keys => ⟨s.isolated.onKeysRemoved keys,
      fun salt => (s.plain salt).onKeysRemoved (keys.filter (·.cacheSalt = salt))⟩
  | .reloaded => ⟨s.isolated.reload, s.plain⟩

/-- Every decision for a salt is that of its plain policy. -/
def DecideAlike : Prop :=
  ∀ salt ratio eligible, s.isolated.getEvictionActions ratio eligible (some salt)
    = .ok ((s.plain salt).getEvictionActions
        (s.isolated.destinations.head?.getD s.isolated.defaultDestination) ratio eligible)

/-- A reload finds no key with tags. -/
def Untagged : PolicyEvent Digest → Prop
  | .reloaded => ∀ key ∈ s.isolated, key.tags = []
  | _ => True

end

variable {s : SideBySide Digest}

/-- The decisions show the whole order. -/
lemma decideAlike_iff : s.DecideAlike ↔ ∀ salt, s.isolated.bucket salt = s.plain salt := by
  constructor
  · intro h salt
    have hall := h salt 1 fun _ => true
    rw [IsolatedLRUEvictionPolicy.getEvictionActions_eq] at hall
    simp only [LRUEvictionPolicy.getEvictionActions_one] at hall
    have horder : (s.isolated.bucket salt).order = (s.plain salt).order := by
      split at hall <;> split at hall <;> simp_all
    rw [← LRUEvictionPolicy.ofKeys_order (s.plain salt), ← horder, LRUEvictionPolicy.ofKeys_order]
  · intro h salt ratio eligible
    rw [IsolatedLRUEvictionPolicy.getEvictionActions_eq, h]

lemma decideAlike_step (h : s.DecideAlike) {e : PolicyEvent Digest} (he : s.Untagged e) :
    (s.step e).DecideAlike := by
  rw [decideAlike_iff] at h ⊢
  intro salt
  cases e with
  | created keys =>
    show (s.isolated.onKeysCreated keys).bucket salt = (s.plain salt).onKeysCreated _
    rw [bucket_onKeysCreated, h]
  | touched keys =>
    show (s.isolated.onKeysTouched keys).bucket salt = (s.plain salt).onKeysTouched _
    rw [bucket_onKeysTouched, h]
  | removed keys =>
    show (s.isolated.onKeysRemoved keys).bucket salt = (s.plain salt).onKeysRemoved _
    rw [bucket_onKeysRemoved, h]
  | reloaded =>
    have hsame : (s.isolated.bucket salt).order.map untagged = (s.isolated.bucket salt).order := by
      refine map_congr_left (g := id) (fun key hkey => ?_) |>.trans (map_id _)
      obtain rfl := s.isolated.filed_bucket hkey
      exact untagged_eq_self_iff.mpr (he key hkey)
    show s.isolated.reload.bucket salt = s.plain salt
    rw [IsolatedLRUEvictionPolicy.bucket_reload, hsame, LRUEvictionPolicy.ofKeys_order, h]

lemma untagged_of_step (h : s.DecideAlike) {e : PolicyEvent Digest}
    (hstep : (s.step e).DecideAlike) : s.Untagged e := by
  cases e with
  | reloaded =>
    intro key hkey
    have hbefore := decideAlike_iff.mp h key.cacheSalt
    have hafter : s.isolated.reload.bucket key.cacheSalt = s.plain key.cacheSalt :=
      decideAlike_iff.mp hstep key.cacheSalt
    have hmem : key ∈ s.isolated.reload.bucket key.cacheSalt := by
      rw [hafter, ← hbefore]
      exact hkey
    rw [IsolatedLRUEvictionPolicy.bucket_reload, LRUEvictionPolicy.mem_ofKeys] at hmem
    obtain ⟨k, -, rfl⟩ := mem_map.mp hmem
    rfl
  | _ => trivial

/-- In every state of a run the decisions for each salt are those of its plain
policy, exactly when no reload finds a key with tags. -/
theorem decide_alike_iff_untagged (events : List (PolicyEvent Digest)) :
    (∀ n, (run step (init : SideBySide Digest) (events.take n)).DecideAlike) ↔
      Along step Untagged (init : SideBySide Digest) events := by
  have hok : Along step (fun _ _ => True) (init : SideBySide Digest) events :=
    along_of_forall (fun _ _ => trivial) events init
  exact good_iff_along DecideAlike (fun _ h => h) (fun _ _ h _ he => decideAlike_step h he)
    (fun _ _ h _ hstep => untagged_of_step h hstep) (decideAlike_iff.mpr fun _ => rfl) hok

/-- A key with a tag comes back without it. -/
theorem tagged_reload_decides_otherwise : ¬ (run step (init : SideBySide Nat)
    [.created [⟨7, "model", 0, 0, "", [("lora", "a")]⟩], .reloaded]).DecideAlike := by
  intro h
  have hbucket := congrArg LRUEvictionPolicy.order (decideAlike_iff.mp h "")
  revert hbucket
  decide +kernel

end SideBySide

end LMCache.EvictionPolicy
