/-
LMCache.EvictionPolicy.IsolatedLru — one LRU order for each `cache_salt`
(`eviction_policy/isolated_lru.py`).

A bucket is the order of the plain LRU policy. A key is filed in the bucket of
its own salt and a bucket that runs empty is dropped; both are fields of the
policy, so every bucket has a victim to offer. Left out: the policy's own
lock, what it writes to a checkpoint, the counts for tests.
-/
import LMCache.EvictionPolicy.Lru
import LMCache.Multiprocess.ObjectKeys
import Mathlib.Algebra.Order.Ring.Unbundled.Rat

namespace LMCache.EvictionPolicy

open Lib List LRUEvictionPolicy Dict
open Multiprocess (ObjectKey)

variable {Digest : Type} [DecidableEq Digest]

/-- `EvictionDestination`. -/
inductive EvictionDestination where
  | discard
  | l2Cache
  deriving DecidableEq, Repr

/-- `EvictionAction`. -/
structure EvictionAction (Digest : Type) where
  destination : EvictionDestination
  keys : List (ObjectKey Digest)

/-- `IsolatedLRUEvictionPolicy`. -/
structure IsolatedLRUEvictionPolicy (Digest : Type) [DecidableEq Digest] where
  perSaltOrder : Dict String (LRUEvictionPolicy (ObjectKey Digest))
  destinations : List EvictionDestination
  defaultDestination : EvictionDestination
  filed : ∀ salt order, perSaltOrder.get? salt = some order → ∀ key ∈ order, key.cacheSalt = salt
  nonempty : ∀ salt order, perSaltOrder.get? salt = some order → order.order ≠ []

namespace IsolatedLRUEvictionPolicy

/-- `__init__` with the default destination. -/
def empty : IsolatedLRUEvictionPolicy Digest where
  perSaltOrder := ∅
  destinations := []
  defaultDestination := .discard
  filed _ _ h := by simp at h
  nonempty _ _ h := by simp at h

instance : EmptyCollection (IsolatedLRUEvictionPolicy Digest) := ⟨empty⟩

variable (p : IsolatedLRUEvictionPolicy Digest)

/-- The bucket of a salt, empty when there is none. -/
def bucket (salt : String) : LRUEvictionPolicy (ObjectKey Digest) :=
  (p.perSaltOrder.get? salt).getD ∅

/-- The policy tracks the key. -/
instance : Membership (ObjectKey Digest) (IsolatedLRUEvictionPolicy Digest) :=
  ⟨fun p key => key ∈ p.bucket key.cacheSalt⟩

instance (key : ObjectKey Digest) : Decidable (key ∈ p) :=
  inferInstanceAs (Decidable (key ∈ p.bucket key.cacheSalt))

lemma filed_bucket {salt : String} {key : ObjectKey Digest} (h : key ∈ p.bucket salt) :
    key.cacheSalt = salt := by
  unfold bucket at h
  cases hget : p.perSaltOrder.get? salt with
  | none => simp [hget] at h
  | some order => exact p.filed salt order hget key (by simpa [hget] using h)

/-- A key moves to the end of its bucket, which is opened for it if need be. -/
def pushEnd (key : ObjectKey Digest) : IsolatedLRUEvictionPolicy Digest where
  perSaltOrder := p.perSaltOrder.set key.cacheSalt ((p.bucket key.cacheSalt).pushEnd key)
  destinations := p.destinations
  defaultDestination := p.defaultDestination
  filed salt order h k hk := by
    obtain ⟨hsalt, rfl⟩ | ⟨-, h⟩ := get?_set_cases h
    · obtain hk | rfl := mem_pushEnd.mp hk
      · exact hsalt ▸ p.filed_bucket hk
      · exact hsalt.symm
    · exact p.filed salt order h k hk
  nonempty salt order h := by
    obtain ⟨-, rfl⟩ | ⟨-, h⟩ := get?_set_cases h
    · simp [LRUEvictionPolicy.pushEnd]
    · exact p.nonempty salt order h

section

variable (keys : List (ObjectKey Digest))

/-- `on_keys_created`. -/
def onKeysCreated : IsolatedLRUEvictionPolicy Digest :=
  keys.reverse.foldl pushEnd p

/-- `on_keys_touched`. -/
def onKeysTouched : IsolatedLRUEvictionPolicy Digest :=
  keys.reverse.foldl (fun p key => if key ∈ p then p.pushEnd key else p) p

/-- The loop body of `on_keys_removed`. -/
def removeKey (key : ObjectKey Digest) : IsolatedLRUEvictionPolicy Digest :=
  match hget : p.perSaltOrder.get? key.cacheSalt with
  | none => p
  | some order =>
    let rest := order.onKeysRemoved [key]
    if hrest : rest.order = [] then
      { p with
        perSaltOrder := p.perSaltOrder.erase key.cacheSalt
        filed := fun salt order h => by
          replace h := (get?_of_erase h).2
          exact p.filed salt order h
        nonempty := fun salt order h => by
          replace h := (get?_of_erase h).2
          exact p.nonempty salt order h }
    else
      { p with
        perSaltOrder := p.perSaltOrder.set key.cacheSalt rest
        filed := fun salt order' h k hk => by
          obtain ⟨hsalt, rfl⟩ | ⟨-, h⟩ := get?_set_cases h
          · rw [hsalt]
            exact p.filed _ order hget k (mem_onKeysRemoved.mp hk).1
          · exact p.filed salt order' h k hk
        nonempty := fun salt order' h => by
          rw [get?_set] at h
          split at h
          · exact Option.some.inj h ▸ hrest
          · exact p.nonempty salt order' h }

/-- `on_keys_removed`. -/
def onKeysRemoved : IsolatedLRUEvictionPolicy Digest :=
  keys.foldl removeKey p

end

/-- `get_tracked_salts`. -/
def getTrackedSalts : List String := p.perSaltOrder.keys

/-- The loop over the pool: the first `targetCount` eligible keys. -/
def selectVictims (eligible : ObjectKey Digest → Bool) (targetCount : Nat) :
    List (ObjectKey Digest) → List (ObjectKey Digest) → List (ObjectKey Digest)
  | [], keysToEvict => keysToEvict
  | key :: pool, keysToEvict =>
    if !eligible key then selectVictims eligible targetCount pool keysToEvict
    else if targetCount ≤ (keysToEvict ++ [key]).length then keysToEvict ++ [key]
    else selectVictims eligible targetCount pool (keysToEvict ++ [key])

/-- The number of keys a ratio asks for, at least one if it is positive. -/
def targetCount (expectedRatio : Rat) (poolSize : Nat) : Nat :=
  let count := (poolSize * expectedRatio).floor.toNat
  if 0 < expectedRatio ∧ count = 0 then 1 else count

/-- `get_eviction_actions`; the error is the `ValueError` of a missing salt. -/
def getEvictionActions (expectedRatio : Rat) (eligible : ObjectKey Digest → Bool)
    (cacheSalt : Option String) : Except String (List (EvictionAction Digest)) :=
  match cacheSalt with
  | none =>
    .error ("IsolatedLRUEvictionPolicy.get_eviction_actions requires cache_salt; this policy is " ++
      "per-bucket and has no global eviction path.")
  | some cacheSalt =>
    let pool := (p.bucket cacheSalt).order
    if pool.isEmpty then .ok []
    else
      let target := targetCount (max 0 (min 1 expectedRatio)) pool.length
      if target = 0 then .ok []
      else
        let keysToEvict := selectVictims eligible target pool []
        if keysToEvict.isEmpty then .ok []
        else .ok [⟨p.destinations.head?.getD p.defaultDestination, keysToEvict⟩]

/-! ## The tracked set -/

section Tracked

variable {p : IsolatedLRUEvictionPolicy Digest} {key k : ObjectKey Digest}

lemma mem_getTrackedSalts_of_mem (h : key ∈ p) : key.cacheSalt ∈ p.getTrackedSalts := by
  by_contra hnone
  have hget : p.perSaltOrder.get? key.cacheSalt = none := not_mem_iff_get?.mp hnone
  have hempty : key ∈ p.bucket key.cacheSalt := h
  simp [bucket, hget] at hempty

/-! ### One bucket at a time -/

variable {salt : String}

lemma bucket_pushEnd : (p.pushEnd key).bucket salt
    = if key.cacheSalt = salt then (p.bucket salt).pushEnd key else p.bucket salt := by
  show ((p.perSaltOrder.set _ _).get? salt).getD ∅ = _
  rw [get?_set]
  by_cases hsalt : key.cacheSalt = salt
  · simp [hsalt]
  · rw [if_neg (Ne.symm hsalt), if_neg hsalt]
    rfl

lemma bucket_removeKey : (p.removeKey key).bucket salt
    = if key.cacheSalt = salt then (p.bucket salt).onKeysRemoved [key] else p.bucket salt := by
  unfold removeKey
  by_cases hsalt : key.cacheSalt = salt
  · subst hsalt
    split
    · rename_i hget
      simp only [bucket, hget]
      rfl
    · rename_i order hget
      dsimp only
      split
      · rename_i hrest
        simp only [bucket, hget, get?_erase]
        exact (LRUEvictionPolicy.mk.injEq .. ▸ hrest.symm : (∅ : LRUEvictionPolicy _) = _)
      · simp [bucket, hget]
  · rw [if_neg hsalt]
    split
    · rfl
    · dsimp only
      split
      · simp [bucket, get?_erase, Ne.symm hsalt]
      · simp [bucket, get?_set, Ne.symm hsalt]

lemma bucket_foldl {body : IsolatedLRUEvictionPolicy Digest → ObjectKey Digest → _}
    {f : LRUEvictionPolicy (ObjectKey Digest) → ObjectKey Digest → _}
    (hbody : ∀ p key, bucket (body p key) salt
      = if key.cacheSalt = salt then f (p.bucket salt) key else p.bucket salt)
    (keys : List (ObjectKey Digest)) : (keys.foldl body p).bucket salt
      = (keys.filter (·.cacheSalt = salt)).foldl f (p.bucket salt) := by
  induction keys generalizing p with
  | nil => rfl
  | cons key keys ih =>
    rw [foldl_cons, ih, hbody]
    split <;> simp_all

variable {keys : List (ObjectKey Digest)}

lemma bucket_onKeysCreated : (p.onKeysCreated keys).bucket salt
    = (p.bucket salt).onKeysCreated (keys.filter (·.cacheSalt = salt)) := by
  rw [onKeysCreated, bucket_foldl fun _ _ => bucket_pushEnd, filter_reverse]
  rfl

lemma bucket_onKeysTouched : (p.onKeysTouched keys).bucket salt
    = (p.bucket salt).onKeysTouched (keys.filter (·.cacheSalt = salt)) := by
  rw [onKeysTouched, bucket_foldl (f := fun order key => if key ∈ order then order.pushEnd key
    else order) (fun p key => ?_), filter_reverse]
  · rfl
  · have hmem : key.cacheSalt = salt → (key ∈ p ↔ key ∈ p.bucket salt) := by
      rintro rfl
      rfl
    split
    · rw [bucket_pushEnd]
      split <;> simp_all
    · split <;> simp_all

lemma bucket_onKeysRemoved : (p.onKeysRemoved keys).bucket salt
    = (p.bucket salt).onKeysRemoved (keys.filter (·.cacheSalt = salt)) :=
  bucket_foldl (fun _ _ => bucket_removeKey) keys

lemma mem_onKeysCreated : k ∈ p.onKeysCreated keys ↔ k ∈ p ∨ k ∈ keys := by
  show k ∈ (p.onKeysCreated keys).bucket k.cacheSalt ↔ k ∈ p.bucket k.cacheSalt ∨ k ∈ keys
  rw [bucket_onKeysCreated, LRUEvictionPolicy.mem_onKeysCreated]
  simp

lemma mem_onKeysTouched : k ∈ p.onKeysTouched keys ↔ k ∈ p := by
  show k ∈ (p.onKeysTouched keys).bucket k.cacheSalt ↔ k ∈ p.bucket k.cacheSalt
  rw [bucket_onKeysTouched, LRUEvictionPolicy.mem_onKeysTouched]

lemma mem_onKeysRemoved : k ∈ p.onKeysRemoved keys ↔ k ∈ p ∧ k ∉ keys := by
  show k ∈ (p.onKeysRemoved keys).bucket k.cacheSalt ↔ k ∈ p.bucket k.cacheSalt ∧ k ∉ keys
  rw [bucket_onKeysRemoved, LRUEvictionPolicy.mem_onKeysRemoved]
  simp

end Tracked

/-! ## The victims -/

section Victims

variable {p : IsolatedLRUEvictionPolicy Digest} {eligible : ObjectKey Digest → Bool} {target : Nat}
  {pool acc : List (ObjectKey Digest)}

section

omit [DecidableEq Digest]

/-- The loop takes the first eligible keys of the pool, one at least. -/
lemma selectVictims_eq : selectVictims eligible target pool acc
    = acc ++ (pool.filter eligible).take (max 1 (target - acc.length)) := by
  induction pool generalizing acc with
  | nil => simp [selectVictims]
  | cons key pool ih =>
    unfold selectVictims
    by_cases hkey : eligible key
    · simp only [hkey, Bool.not_true, Bool.false_eq_true, if_false, length_append, length_singleton,
        filter_cons_of_pos]
      split
      · have hone : max 1 (target - acc.length) = 1 := by omega
        simp [hone]
      · have hmore : max 1 (target - acc.length) = max 1 (target - (acc.length + 1)) + 1 := by omega
        rw [ih, hmore]
        simp
    · simp [hkey, ih]

end

variable {ratio : Rat}

lemma targetCount_pos (h : 0 < ratio) (poolSize : Nat) : 0 < targetCount ratio poolSize := by
  unfold targetCount
  dsimp only
  split_ifs with hcount
  · exact Nat.one_pos
  · exact Nat.pos_of_ne_zero fun hzero => hcount ⟨h, hzero⟩

/-- What the actions of a salt evict. -/
def victims (p : IsolatedLRUEvictionPolicy Digest) (ratio : Rat) (eligible : ObjectKey Digest → Bool)
    (salt : String) : List (ObjectKey Digest) :=
  match p.getEvictionActions ratio eligible (some salt) with
  | .error _ => []
  | .ok actions => actions.flatMap EvictionAction.keys

lemma mem_victims {salt : String} {key : ObjectKey Digest}
    (h : key ∈ p.victims ratio eligible salt) :
    key ∈ p ∧ key.cacheSalt = salt ∧ eligible key := by
  unfold victims getEvictionActions at h
  dsimp only at h
  split_ifs at h
  · simp at h
  · simp at h
  · simp at h
  · simp only [flatMap_cons, flatMap_nil, append_nil, selectVictims_eq] at h
    obtain ⟨hpool, heligible⟩ := mem_filter.mp (mem_of_mem_take h)
    have hsalt : key.cacheSalt = salt := p.filed_bucket hpool
    exact ⟨by rw [← hsalt] at hpool; exact hpool, hsalt, heligible⟩

/-- A salt with an eligible key has a victim, however small the ratio. -/
lemma victims_ne_nil (hratio : 0 < ratio) {key : ObjectKey Digest} (hkey : key ∈ p)
    (heligible : eligible key) : p.victims ratio eligible key.cacheSalt ≠ [] := by
  have hpool : key ∈ (p.bucket key.cacheSalt).order := hkey
  have hone : (0 : Rat) < 1 := by decide
  have hclamped : 0 < max 0 (min 1 ratio) := lt_max_of_lt_right (lt_min hone hratio)
  have htarget := targetCount_pos hclamped (p.bucket key.cacheSalt).order.length
  have hne : (p.bucket key.cacheSalt).order ≠ [] := ne_nil_of_mem hpool
  have hselected := ne_nil_of_mem (mem_filter.mpr ⟨hpool, heligible⟩)
  unfold victims getEvictionActions
  simp [hne, htarget.ne', selectVictims_eq, hselected]

end Victims

end IsolatedLRUEvictionPolicy

end LMCache.EvictionPolicy
