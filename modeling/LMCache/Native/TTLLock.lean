/-
LMCache.Native.TTLLock — the counting lock with a time-to-live
(`csrc/lmcache_native/ttl_lock.cpp`).

The C++ class is three atomics updated by compare-and-swap loops. Every
call that changes a lock is made inside the L1 manager's critical section,
so each loop succeeds at its first attempt and the model is the sequential
meaning of the loop bodies. `now` is the value `now_ms()` reads; `int64_t`
is `Int`, since a counter or a deadline near `2^63` is out of reach.

`lockTimes` and `unlockTimes` are the callers' `for _ in range(total)`
loops around `lock()` and `unlock()`.
-/

namespace LMCache.Native

/-- `TTLLock`: a holder count, one deadline shared by all holders, and the
time-to-live that `lock()` adds to the clock. -/
structure TTLLock where
  counter : Int
  expirationMs : Int
  ttlMs : Int
  deriving DecidableEq, Repr

namespace TTLLock

/-- `TTLLock(ttl_sec)`. -/
def new (ttlSec : Nat) : TTLLock := ⟨0, 0, (ttlSec : Int) * 1000⟩

/-- `lock()`: an expired lock restarts at one holder, a live one gains a
holder; either way the deadline is refreshed. -/
def lock (l : TTLLock) (now : Int) : TTLLock :=
  if now ≥ l.expirationMs then
    { l with counter := 1, expirationMs := now + l.ttlMs }
  else
    { l with counter := l.counter + 1, expirationMs := now + l.ttlMs }

/-- `unlock()`: never below zero, and blind to the deadline. -/
def unlock (l : TTLLock) : TTLLock :=
  if l.counter ≤ 0 then l else { l with counter := l.counter - 1 }

/-- `is_locked()`. -/
def isLocked (l : TTLLock) (now : Int) : Bool :=
  decide (l.counter > 0) && decide (now < l.expirationMs)

def lockTimes (l : TTLLock) (now : Int) : Nat → TTLLock
  | 0 => l
  | n + 1 => (l.lock now).lockTimes now n

def unlockTimes (l : TTLLock) : Nat → TTLLock
  | 0 => l
  | n + 1 => l.unlock.unlockTimes n

/-! ## What the calls do to the three fields -/

theorem isLocked_iff {l : TTLLock} {now : Int} :
    l.isLocked now ↔ 0 < l.counter ∧ now < l.expirationMs := by
  simp [isLocked]

theorem isLocked_of_le {l : TTLLock} {now now' : Int} (hle : now ≤ now')
    (h : l.isLocked now') : l.isLocked now := by
  rw [isLocked_iff] at h ⊢
  omega

theorem not_isLocked_iff {l : TTLLock} {now : Int} :
    l.isLocked now = false ↔ l.counter ≤ 0 ∨ l.expirationMs ≤ now := by
  rw [← Bool.not_eq_true, isLocked_iff]; omega

variable (l : TTLLock) (now : Int)

@[simp] theorem lock_ttlMs : (l.lock now).ttlMs = l.ttlMs := by
  unfold lock; split <;> rfl

@[simp] theorem lock_expirationMs : (l.lock now).expirationMs = now + l.ttlMs := by
  unfold lock; split <;> rfl

theorem lock_counter :
    (l.lock now).counter = if now ≥ l.expirationMs then 1 else l.counter + 1 := by
  unfold lock; split <;> rfl

@[simp] theorem unlock_ttlMs : l.unlock.ttlMs = l.ttlMs := by
  unfold unlock; split <;> rfl

@[simp] theorem unlock_expirationMs : l.unlock.expirationMs = l.expirationMs := by
  unfold unlock; split <;> rfl

variable (n : Nat)

@[simp] theorem lockTimes_ttlMs : (l.lockTimes now n).ttlMs = l.ttlMs := by
  induction n generalizing l with
  | zero => rfl
  | succ n ih => rw [lockTimes, ih, lock_ttlMs]

@[simp] theorem unlockTimes_ttlMs : (l.unlockTimes n).ttlMs = l.ttlMs := by
  induction n generalizing l with
  | zero => rfl
  | succ n ih => rw [unlockTimes, ih, unlock_ttlMs]

@[simp] theorem unlockTimes_expirationMs : (l.unlockTimes n).expirationMs = l.expirationMs := by
  induction n generalizing l with
  | zero => rfl
  | succ n ih => rw [unlockTimes, ih, unlock_expirationMs]

/-- Taking `n ≥ 1` locks at one instant leaves the deadline one
time-to-live ahead. -/
theorem lockTimes_expirationMs : (l.lockTimes now (n + 1)).expirationMs = now + l.ttlMs := by
  induction n generalizing l with
  | zero => simp [lockTimes]
  | succ n ih => rw [lockTimes, ih, lock_ttlMs]

/-- With a positive time-to-live the loop adds `n` holders to a live lock
and restarts an expired one at `n`. -/
theorem lockTimes_counter (httl : 0 < l.ttlMs) : (l.lockTimes now (n + 1)).counter
      = (if now ≥ l.expirationMs then 0 else l.counter) + (n + 1) := by
  induction n generalizing l with
  | zero => simp only [lockTimes, lock_counter]; split <;> simp
  | succ n ih =>
    rw [lockTimes, ih (l.lock now) (by simpa using httl)]
    have hlive : ¬ now ≥ (l.lock now).expirationMs := by simp; omega
    rw [lock_counter]
    split <;> (push_cast; omega)

theorem lockTimes_counter_nonneg (h : 0 ≤ l.counter) : 0 ≤ (l.lockTimes now n).counter := by
  induction n generalizing l with
  | zero => exact h
  | succ n ih =>
    refine ih (l.lock now) ?_
    rw [lock_counter]
    split <;> omega

/-- The unlock loop takes `n` holders away, stopping at zero. -/
theorem unlockTimes_counter (h : 0 ≤ l.counter) :
    (l.unlockTimes n).counter = max 0 (l.counter - n) := by
  induction n generalizing l with
  | zero => simp only [unlockTimes]; omega
  | succ n ih =>
    have hu : l.unlock.counter = max 0 (l.counter - 1) := by
      unfold unlock
      split
      · omega
      · dsimp only; omega
    rw [unlockTimes, ih _ (by omega)]
    push_cast; omega

theorem unlockTimes_add (m : Nat) : l.unlockTimes (m + n) = (l.unlockTimes m).unlockTimes n := by
  induction m generalizing l with
  | zero => rw [Nat.zero_add]; rfl
  | succ m ih => rw [Nat.succ_add, unlockTimes, ih, unlockTimes]

theorem lockTimes_add (m : Nat) :
    l.lockTimes now (m + n) = (l.lockTimes now m).lockTimes now n := by
  induction m generalizing l with
  | zero => rw [Nat.zero_add]; rfl
  | succ m ih => rw [Nat.succ_add, lockTimes, ih, lockTimes]

/-- Nothing is left to unlock at zero. -/
theorem unlockTimes_of_counter_nonpos (h : l.counter ≤ 0) : l.unlockTimes n = l := by
  induction n with
  | zero => rfl
  | succ n ih => rw [unlockTimes, unlock, if_pos h, ih]

/-- A live lock that stops being one through unlocks alone has run out of
holders, and further unlocks leave it. -/
theorem unlockTimes_of_released {l : TTLLock} {now : Int} {m : Nat}
    (hl : l.isLocked now) (hm : (l.unlockTimes m).isLocked now = false) (n : Nat) :
    (l.unlockTimes m).unlockTimes n = l.unlockTimes m := by
  apply unlockTimes_of_counter_nonpos
  rw [isLocked_iff] at hl
  rw [not_isLocked_iff, unlockTimes_expirationMs] at hm
  omega

end TTLLock

end LMCache.Native
