/-
LMCache.EvictionPolicy.Lru — the LRU policy and its bridge to the L1
manager (`eviction_policy/lru.py`, `eviction.py`).

`_order` is an `OrderedDict` with no values: a list of distinct keys, least
recently used first. The bridge `L1EvictionPolicy` turns the manager's
callbacks into policy calls; `tracking` is the policy after the callbacks of
a log. Left out: destinations, the eviction decision itself, the policy's
own lock.
-/
import LMCache.L1Manager.Base

namespace LMCache.EvictionPolicy

open List L1Manager

/-- `LRUEvictionPolicy`: `_order`, most recently used at the end. -/
structure LRUEvictionPolicy (Key : Type) where
  order : List Key
  nodup : order.Nodup

namespace LRUEvictionPolicy

variable {Key : Type}

def empty : LRUEvictionPolicy Key := ⟨[], .nil⟩

instance : EmptyCollection (LRUEvictionPolicy Key) := ⟨empty⟩

instance : Membership Key (LRUEvictionPolicy Key) := ⟨fun p key => key ∈ p.order⟩

variable [DecidableEq Key]

instance (p : LRUEvictionPolicy Key) (key : Key) : Decidable (key ∈ p) :=
  inferInstanceAs (Decidable (key ∈ p.order))

section

variable (p : LRUEvictionPolicy Key) (keys : List Key)

/-- `_order[key] = None`, then `move_to_end(key)`. -/
def pushEnd (key : Key) : LRUEvictionPolicy Key where
  order := p.order.erase key ++ [key]
  nodup := by
    refine (p.nodup.erase key).append (nodup_singleton key) fun k hk hmem => ?_
    rw [mem_singleton.mp hmem] at hk
    exact p.nodup.not_mem_erase hk

/-- `on_keys_created`. -/
def onKeysCreated : LRUEvictionPolicy Key :=
  keys.reverse.foldl pushEnd p

/-- `on_keys_touched`. -/
def onKeysTouched : LRUEvictionPolicy Key :=
  keys.reverse.foldl (fun p key => if key ∈ p then p.pushEnd key else p) p

/-- `on_keys_removed`. -/
def onKeysRemoved : LRUEvictionPolicy Key :=
  keys.foldl (fun p key => ⟨p.order.erase key, p.nodup.erase key⟩) p

end

/-! ## The tracked set -/

variable {p : LRUEvictionPolicy Key} {k : Key}

omit [DecidableEq Key] in
@[simp] lemma not_mem_empty (k : Key) : k ∉ (∅ : LRUEvictionPolicy Key) := not_mem_nil

lemma mem_pushEnd {key : Key} : k ∈ p.pushEnd key ↔ k ∈ p ∨ k = key := by
  show k ∈ p.order.erase key ++ [key] ↔ k ∈ p.order ∨ k = key
  by_cases hk : k = key <;> simp [hk]

variable {keys : List Key}

lemma mem_onKeysCreated : k ∈ p.onKeysCreated keys ↔ k ∈ p ∨ k ∈ keys := by
  rw [onKeysCreated, ← mem_reverse]
  generalize keys.reverse = l
  induction l generalizing p with
  | nil => simp
  | cons key l ih => rw [foldl_cons, ih, mem_pushEnd, mem_cons, or_assoc]

lemma mem_onKeysTouched : k ∈ p.onKeysTouched keys ↔ k ∈ p := by
  rw [onKeysTouched]
  generalize keys.reverse = l
  induction l generalizing p with
  | nil => rfl
  | cons key l ih =>
    rw [foldl_cons, ih]
    split_ifs with hkey
    · rw [mem_pushEnd]
      exact or_iff_left_of_imp fun h => h ▸ hkey
    · rfl

lemma mem_onKeysRemoved : k ∈ p.onKeysRemoved keys ↔ k ∈ p ∧ k ∉ keys := by
  rw [onKeysRemoved]
  induction keys generalizing p with
  | nil => simp
  | cons key keys ih =>
    rw [foldl_cons, ih, mem_cons]
    show k ∈ p.order.erase key ∧ _ ↔ k ∈ p.order ∧ _
    rw [p.nodup.mem_erase_iff]
    tauto

end LRUEvictionPolicy

/-! ## The bridge -/

variable {Key : Type} [DecidableEq Key]

/-- `L1EvictionPolicy`: what the policy does on one callback. The policy's
`on_keys_reserved` is the inherited one, `on_keys_created`. -/
def onNotice (p : LRUEvictionPolicy Key) : L1Notice Key → LRUEvictionPolicy Key
  | .reservedRead _ => p
  | .readFinished _ => p
  | .reservedWrite keys => p.onKeysCreated keys
  | .writeFinished keys => p.onKeysCreated keys
  | .finishWriteAndReserveRead keys => p.onKeysCreated keys
  | .deletedByManager keys => p.onKeysRemoved keys
  | .accessed keys => p.onKeysTouched keys

def onReport (p : LRUEvictionPolicy Key) : Report Key → LRUEvictionPolicy Key
  | .notice n => onNotice p n
  | .event _ => p

/-- The policy after the callbacks of a log. -/
def tracking (log : List (Report Key)) : LRUEvictionPolicy Key := log.foldl onReport ∅

/-- Which keys a list of reports makes the policy track, out of `P`. -/
def TrackedAfter (rs : List (Report Key)) (P : Key → Prop) : Key → Prop :=
  match rs with
  | [] => P
  | .notice (.reservedWrite keys) :: rs => TrackedAfter rs (fun k => P k ∨ k ∈ keys)
  | .notice (.writeFinished keys) :: rs => TrackedAfter rs (fun k => P k ∨ k ∈ keys)
  | .notice (.finishWriteAndReserveRead keys) :: rs => TrackedAfter rs (fun k => P k ∨ k ∈ keys)
  | .notice (.deletedByManager keys) :: rs => TrackedAfter rs (fun k => P k ∧ k ∉ keys)
  | _ :: rs => TrackedAfter rs P

lemma mem_tracking_append (log rs : List (Report Key)) (k : Key) :
    k ∈ tracking (log ++ rs) ↔ TrackedAfter rs (· ∈ tracking log) k := by
  have hgen : ∀ (p : LRUEvictionPolicy Key) (P : Key → Prop), (∀ k, k ∈ p ↔ P k) →
      (k ∈ rs.foldl onReport p ↔ TrackedAfter rs P k) := by
    induction rs with
    | nil => intro p P hp; exact hp k
    | cons r rs ih =>
      intro p P hp
      cases r with
      | event e => exact ih p P hp
      | notice n =>
        cases n with
        | reservedRead keys => exact ih p P hp
        | readFinished keys => exact ih p P hp
        | accessed keys =>
          exact ih _ P fun k => LRUEvictionPolicy.mem_onKeysTouched.trans (hp k)
        | reservedWrite keys =>
          exact ih _ _ fun k => LRUEvictionPolicy.mem_onKeysCreated.trans (or_congr_left (hp k))
        | writeFinished keys =>
          exact ih _ _ fun k => LRUEvictionPolicy.mem_onKeysCreated.trans (or_congr_left (hp k))
        | finishWriteAndReserveRead keys =>
          exact ih _ _ fun k => LRUEvictionPolicy.mem_onKeysCreated.trans (or_congr_left (hp k))
        | deletedByManager keys =>
          exact ih _ _ fun k => LRUEvictionPolicy.mem_onKeysRemoved.trans (and_congr_left' (hp k))
  rw [tracking, foldl_append]
  exact hgen (tracking log) _ fun _ => Iff.rfl

/-! ## Recency -/

/-- The uses of tracked keys, the last one at the end. -/
def recordUse (uses : List Key) : Report Key → List Key
  | .notice (.reservedWrite keys) | .notice (.writeFinished keys)
  | .notice (.finishWriteAndReserveRead keys) => uses ++ keys.reverse
  | .notice (.accessed keys) => uses ++ keys.reverse.filter (· ∈ uses)
  | .notice (.deletedByManager keys) => uses.filter (· ∉ keys)
  | _ => uses

namespace LRUEvictionPolicy

variable {p : LRUEvictionPolicy Key} {uses : List Key} (h : p.order = uses.dedup)
include h

lemma order_pushEnd (key : Key) : (p.pushEnd key).order = (uses ++ [key]).dedup := by
  show p.order.erase key ++ [key] = _
  rw [h]
  clear h
  symm
  induction uses with
  | nil => simp
  | cons k uses ih =>
    by_cases hk : k = key <;> by_cases hmem : k ∈ uses <;>
      simp_all [dedup_cons_of_mem, dedup_cons_of_notMem]

lemma order_onKeysCreated (keys : List Key) :
    (p.onKeysCreated keys).order = (uses ++ keys.reverse).dedup := by
  rw [onKeysCreated]
  induction keys.reverse generalizing p uses with
  | nil => simpa using h
  | cons key l ih => simpa using ih (order_pushEnd h key)

lemma order_onKeysTouched (keys : List Key) :
    (p.onKeysTouched keys).order = (uses ++ keys.reverse.filter (· ∈ uses)).dedup := by
  rw [onKeysTouched]
  induction keys.reverse generalizing p uses with
  | nil => simpa using h
  | cons key l ih =>
    have hmem : key ∈ p ↔ key ∈ uses := by
      show key ∈ p.order ↔ _
      rw [h, mem_dedup]
    by_cases hkey : key ∈ uses
    · have hsame : ∀ k, k ∈ uses ++ [key] ↔ k ∈ uses := by simp +contextual [hkey]
      simpa [hmem, hkey, hsame] using ih (order_pushEnd h key)
    · simpa [hmem, hkey] using ih h

omit h in
lemma dedup_filter (P : Key → Bool) : uses.dedup.filter P = (uses.filter P).dedup := by
  induction uses with
  | nil => rfl
  | cons k uses ih => 
    by_cases hmem : k ∈ uses <;> by_cases hk : P k <;>
      simp_all [dedup_cons_of_mem, dedup_cons_of_notMem]

lemma order_onKeysRemoved (keys : List Key) :
    (p.onKeysRemoved keys).order = (uses.filter (· ∉ keys)).dedup := by
  rw [onKeysRemoved]
  induction keys generalizing p uses with
  | nil => simpa using h
  | cons key keys ih =>
    have herase : p.order.erase key = (uses.filter (· ≠ key)).dedup := by
      rw [← dedup_filter, ← h, p.nodup.erase_eq_filter]
      grind
    rw [foldl_cons, ih herase, filter_filter]
    simp [Bool.and_comm]

end LRUEvictionPolicy

/-- The policy keeps the tracked keys in the order of their last use. -/
theorem tracking_order (log : List (Report Key)) :
    (tracking log).order = (log.foldl recordUse []).dedup := by
  refine foldl_rel
    (r := fun (p : LRUEvictionPolicy Key) (uses : List Key) => p.order = uses.dedup)
    rfl fun report _ p uses h => ?_
  cases report with
  | event e => exact h
  | notice n =>
    cases n with
    | reservedRead keys => exact h
    | readFinished keys => exact h
    | accessed keys => exact LRUEvictionPolicy.order_onKeysTouched h keys
    | deletedByManager keys => exact LRUEvictionPolicy.order_onKeysRemoved h keys
    | _ keys => exact LRUEvictionPolicy.order_onKeysCreated h keys

end LMCache.EvictionPolicy
