/-
LMCache.StorageControllers.AdapterLifecycle — adding and removing L2 adapters
while a controller runs.

The prefetch and the store controller attach and detach adapters in the same
way. A caller queues an operation with an event to wait on; the loop applies
the queue at the top of an iteration and, at its end, detaches the draining
adapters that nothing refers to any more. The two controllers differ in what
"refers to" means, which is the parameter `inUse`.

An id stands for one adapter for as long as the controller lives, so the
table of attached adapters is a list of ids.
-/
import LMCache.Lib.Dict
import LMCache.Lib.Run

namespace LMCache.StorageControllers

open Lib List Dict

/-- `AddAdapterOp` and `RemoveAdapterOp`; `done` is the event to set. -/
inductive AdapterOp where
  | add (adapterId done : Nat)
  | remove (adapterId done : Nat)
  deriving DecidableEq, Repr

/-- The adapter tables of a controller, and the events set so far. -/
structure AdapterTable where
  l2Adapters : List Nat
  draining : Dict Nat Nat
  pendingAdapterOps : List AdapterOp
  eventsSet : List Nat
  nodup : l2Adapters.Nodup
  drains_attached : ∀ id ∈ draining, id ∈ l2Adapters

namespace AdapterTable

/-- The controller starts with the adapters of its configuration. -/
def init (l2Adapters : List Nat) (hnodup : l2Adapters.Nodup) : AdapterTable :=
  ⟨l2Adapters, ∅, [], [], hnodup, fun id h => absurd h (not_mem_empty id)⟩

variable (t : AdapterTable)

/-- `add_adapter` and `request_remove_adapter`, on the caller's thread. -/
def request (op : AdapterOp) : AdapterTable :=
  { t with pendingAdapterOps := t.pendingAdapterOps ++ [op] }

/-- `done.set()`. -/
def setEvent (done : Nat) : AdapterTable := { t with eventsSet := t.eventsSet ++ [done] }

/-- `_l2_adapters[adapter_id] = adapter`. -/
def attach (adapterId : Nat) : AdapterTable :=
  if h : adapterId ∈ t.l2Adapters then t
  else { t with
    l2Adapters := t.l2Adapters ++ [adapterId]
    nodup := nodup_append.mpr ⟨t.nodup, nodup_singleton _, fun _ ha _ hb he =>
      h (mem_singleton.mp hb ▸ he ▸ ha)⟩
    drains_attached := fun id hid => mem_append_left _ (t.drains_attached id hid) }

/-- `_draining[adapter_id] = done`, for an attached adapter. -/
def drain (adapterId done : Nat) (h : adapterId ∈ t.l2Adapters) : AdapterTable :=
  { t with
    draining := t.draining.set adapterId done
    drains_attached := fun id hid => by
      rcases mem_set.mp hid with rfl | hid
      · exact h
      · exact t.drains_attached id hid }

/-- Take an adapter out of every table. -/
def detach (adapterId : Nat) : AdapterTable :=
  { t with
    l2Adapters := t.l2Adapters.filter (· ≠ adapterId)
    draining := t.draining.erase adapterId
    nodup := t.nodup.filter _
    drains_attached := fun id hid => by
      obtain ⟨hne, hmem⟩ := mem_erase.mp hid
      exact mem_filter.mpr ⟨t.drains_attached id hmem, by simpa using hne⟩ }

/-- The body of the loop of `_apply_pending_adapter_ops`. -/
def applyOp : AdapterOp → AdapterTable
  | .add adapterId done => (t.attach adapterId).setEvent done
  | .remove adapterId done =>
    if h : adapterId ∈ t.l2Adapters then t.drain adapterId done h else t.setEvent done

/-- `_apply_pending_adapter_ops`. -/
def applyPendingAdapterOps : AdapterTable :=
  t.pendingAdapterOps.foldl applyOp { t with pendingAdapterOps := [] }

/-- The body of the loop of `_finalize_drained_adapters`. -/
def finalizeAdapter (inUse : Nat → Bool) (adapterId : Nat) : AdapterTable :=
  if inUse adapterId then t
  else
    match t.draining.get? adapterId with
    | none => t
    | some done => (t.detach adapterId).setEvent done

/-- `_finalize_drained_adapters`. -/
def finalizeDrainedAdapters (inUse : Nat → Bool) : AdapterTable :=
  t.draining.keys.foldl (finalizeAdapter · inUse) t

/-! ## What stays attached -/

variable {t : AdapterTable} {id done : Nat}

lemma mem_applyOp (h : id ∈ t.l2Adapters) (op : AdapterOp) : id ∈ (t.applyOp op).l2Adapters := by
  cases op with
  | add adapterId added =>
    simp only [applyOp, attach]
    split
    · exact h
    · exact mem_append_left _ h
  | remove adapterId removed =>
    simp only [applyOp]
    split <;> exact h

lemma applyOp_pending (op : AdapterOp) :
    (t.applyOp op).pendingAdapterOps = t.pendingAdapterOps := by
  cases op with
  | add adapterId added =>
    simp only [applyOp, setEvent, attach]
    split <;> rfl
  | remove adapterId removed =>
    simp only [applyOp]
    split <;> rfl

lemma foldl_applyOp (ops : List AdapterOp) (t : AdapterTable) :
    (∀ id ∈ t.l2Adapters, id ∈ (ops.foldl applyOp t).l2Adapters) ∧
      (ops.foldl applyOp t).pendingAdapterOps = t.pendingAdapterOps := by
  induction ops generalizing t with
  | nil => exact ⟨fun _ h => h, rfl⟩
  | cons op ops ih =>
    obtain ⟨hmem, hpending⟩ := ih (t.applyOp op)
    exact ⟨fun id h => hmem id (mem_applyOp h op), hpending.trans (applyOp_pending op)⟩

lemma mem_applyPendingAdapterOps (h : id ∈ t.l2Adapters) :
    id ∈ t.applyPendingAdapterOps.l2Adapters :=
  (foldl_applyOp t.pendingAdapterOps { t with pendingAdapterOps := [] }).1 id h

section

variable {inUse : Nat → Bool}

/-- An adapter in use is not detached. -/
lemma mem_finalizeAdapter (h : id ∈ t.l2Adapters) (hused : inUse id) (adapterId : Nat) :
    id ∈ (t.finalizeAdapter inUse adapterId).l2Adapters := by
  unfold finalizeAdapter
  split_ifs with hfree
  · exact h
  · split
    · exact h
    · have hne : id ≠ adapterId := fun he => hfree (he ▸ hused)
      exact mem_filter.mpr ⟨h, by simpa using hne⟩

lemma mem_finalizeDrainedAdapters (h : id ∈ t.l2Adapters) (hused : inUse id) :
    id ∈ (t.finalizeDrainedAdapters inUse).l2Adapters := by
  unfold finalizeDrainedAdapters
  generalize t.draining.keys = ids
  induction ids generalizing t with
  | nil => exact h
  | cons adapterId ids ih => exact ih (mem_finalizeAdapter h hused adapterId)

/-! ## Who still waits -/

variable (t id done) in
/-- The event of a remove request: queued with it, waiting for the adapter to
drain, or set. -/
def Awaits : Prop :=
  .remove id done ∈ t.pendingAdapterOps ∨ t.draining.get? id = some done ∨ done ∈ t.eventsSet

/-- No remove request among the operations finds its adapter draining. -/
def NoOverwrite : List AdapterOp → AdapterTable → Prop
  | [], _ => True
  | op :: ops, t => (∀ id done, op = .remove id done → id ∉ t.draining) ∧
    NoOverwrite ops (t.applyOp op)

lemma applyOp_awaits {op : AdapterOp} (hop : ∀ id done, op = .remove id done → id ∉ t.draining)
    (h : op = .remove id done ∨ t.draining.get? id = some done ∨ done ∈ t.eventsSet) :
    (t.applyOp op).draining.get? id = some done ∨ done ∈ (t.applyOp op).eventsSet := by
  cases op with
  | add adapterId added =>
    have hsame : (t.attach adapterId).draining = t.draining ∧
        (t.attach adapterId).eventsSet = t.eventsSet := by
      unfold attach
      split <;> exact ⟨rfl, rfl⟩
    simp only [applyOp, setEvent, hsame]
    rcases h with heq | hdrain | hset
    · cases heq
    · exact .inl hdrain
    · exact .inr (mem_append_left _ hset)
  | remove adapterId removed =>
    simp only [applyOp]
    split
    · simp only [drain, get?_set]
      rcases h with heq | hdrain | hset
      · cases heq
        exact .inl (if_pos rfl)
      · have hne : id ≠ adapterId := fun he =>
          hop adapterId removed rfl (he ▸ mem_iff_get?.mpr ⟨done, hdrain⟩)
        exact .inl ((if_neg hne).trans hdrain)
      · exact .inr hset
    · rcases h with heq | hdrain | hset
      · cases heq
        exact .inr (mem_append_right _ (mem_singleton_self _))
      · exact .inl hdrain
      · exact .inr (mem_append_left _ hset)

lemma foldl_applyOp_awaits (ops : List AdapterOp) (hops : NoOverwrite ops t)
    (h : .remove id done ∈ ops ∨ t.draining.get? id = some done ∨ done ∈ t.eventsSet) :
    (ops.foldl applyOp t).draining.get? id = some done ∨
      done ∈ (ops.foldl applyOp t).eventsSet := by
  induction ops generalizing t with
  | nil => exact h.resolve_left not_mem_nil
  | cons op ops ih =>
    refine ih hops.2 ?_
    rcases h with hmem | hrest
    · rcases mem_cons.mp hmem with heq | hmem
      · exact .inr (applyOp_awaits hops.1 (.inl heq.symm))
      · exact .inl hmem
    · exact .inr (applyOp_awaits hops.1 (.inr hrest))

lemma finalizeAdapter_eventsSet {adapterId : Nat} (h : done ∈ t.eventsSet) :
    done ∈ (t.finalizeAdapter inUse adapterId).eventsSet := by
  unfold finalizeAdapter
  split
  · exact h
  · split
    · exact h
    · exact mem_append_left _ h

end

variable (inUse : Nat → Bool) (h : t.draining.get? id = some done ∨ done ∈ t.eventsSet)
include h

/-- Looking at one draining adapter loses no waiter, and wakes its own unless
it is in use. -/
lemma finalizeAdapter_awaits (adapterId : Nat) :
    ((t.finalizeAdapter inUse adapterId).draining.get? id = some done ∨
      done ∈ (t.finalizeAdapter inUse adapterId).eventsSet) ∧
      (inUse id = false → adapterId = id → done ∈ (t.finalizeAdapter inUse adapterId).eventsSet) := by
  unfold finalizeAdapter
  split_ifs with hused
  · refine ⟨h, fun hfree heq => ?_⟩
    rw [heq, hfree] at hused
    cases hused
  · split
    · rename_i hnone
      refine ⟨h, fun _ heq => ?_⟩
      rw [← heq, hnone] at h
      exact h.resolve_left (fun hsome => nomatch hsome)
    · rename_i drained hdrained
      simp only [setEvent, detach, get?_erase]
      by_cases heq : id = adapterId
      · have hset : done ∈ t.eventsSet ++ [drained] := by
          rcases h with hdrain | hset
          · rw [heq, hdrained] at hdrain
            rw [Option.some.inj hdrain]
            exact mem_append_right _ (mem_singleton_self _)
          · exact mem_append_left _ hset
        exact ⟨.inr hset, fun _ _ => hset⟩
      · rw [if_neg heq]
        exact ⟨h.imp_right (mem_append_left _), fun _ he => absurd he.symm heq⟩

lemma foldl_finalizeAdapter_awaits (ids : List Nat) :
    ((ids.foldl (finalizeAdapter · inUse) t).draining.get? id = some done ∨
      done ∈ (ids.foldl (finalizeAdapter · inUse) t).eventsSet) ∧
      (inUse id = false → id ∈ ids ∨ done ∈ t.eventsSet →
      done ∈ (ids.foldl (finalizeAdapter · inUse) t).eventsSet) := by
  induction ids generalizing t with
  | nil => exact ⟨h, fun _ hmem => hmem.resolve_left not_mem_nil⟩
  | cons adapterId ids ih =>
    obtain ⟨hstep, hwake⟩ := finalizeAdapter_awaits inUse h adapterId
    obtain ⟨hrest, hset⟩ := ih hstep
    refine ⟨hrest, fun hfree hmem => hset hfree ?_⟩
    rcases hmem with hmem | hdone
    · rcases mem_cons.mp hmem with heq | hmem
      · exact .inr (hwake hfree heq.symm)
      · exact .inl hmem
    · exact .inr (finalizeAdapter_eventsSet hdone)

/-- At the end of an iteration every waiter of an adapter that is not in use has
been woken; the others still wait. -/
lemma finalizeDrainedAdapters_awaits :
    (t.finalizeDrainedAdapters inUse).Awaits id done ∧
      (inUse id = false → done ∈ (t.finalizeDrainedAdapters inUse).eventsSet) := by
  obtain ⟨hawaits, hset⟩ := foldl_finalizeAdapter_awaits inUse h t.draining.keys
  refine ⟨.inr hawaits, fun hfree => hset hfree ?_⟩
  exact h.imp_left fun hdrain => mem_iff_get?.mpr ⟨done, hdrain⟩

end AdapterTable

end LMCache.StorageControllers
