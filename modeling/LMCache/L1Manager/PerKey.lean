/-
LMCache.L1Manager.PerKey — what a whole call does to one key.

The loops of the manager treat their keys independently, so the effect of a
call on a key is the loop body's effect repeated as often as the list names
the key. For the read side this gives closed forms: `reserve_read` takes
`total` locks per occurrence, `finish_read` releases `total` per occurrence
until the lock runs out, and then a temporary object is gone. For
`_reclaim_staging` the closed form is a filter on the write locks.
-/
import LMCache.L1Manager.ActionsTheorems

namespace LMCache.L1Manager

open List Lib Native L1State L1ObjectState Dict

variable {Key Obj : Type} [DecidableEq Key] [DecidableEq Obj]

/-! ## `reserve_read` -/

omit [DecidableEq Obj] in
lemma reserveRead_loop_get? (now : Int) (total : Nat) (keys : List Key)
    (acc : ReserveReadAcc Key Obj) (key : Key) :
    (keys.foldl (reserveReadKey now total) acc).st.objects.get? key
      = (acc.st.objects.get? key).map (fun e =>
      { e with readLock := e.readLock.lockTimes now (keys.count key * total) }) := by
  induction keys generalizing acc with
  | nil =>
    rw [foldl_nil]
    cases acc.st.objects.get? key <;> simp [TTLLock.lockTimes]
  | cons k keys ih =>
    rw [foldl_cons, ih, count_cons]
    unfold reserveReadKey
    cases hk : acc.st.objects.get? k with
    | none =>
      by_cases hkey : k = key
      · subst hkey
        simp [hk]
      · simp [hkey]
    | some e =>
      by_cases hkey : k = key
      · subst hkey
        simp only [get?_set_self, hk, Option.map_some, beq_self_eq_true, if_true]
        rw [add_comm, Nat.add_mul, Nat.one_mul, TTLLock.lockTimes_add]
      · simp [get?_set_ne _ _ (Ne.symm hkey), hkey]

/-- `reserve_read` takes `total` locks for every time the key is named. -/
lemma reserveRead_get? (now : Int) (keys : List Key) (n : Int) (s : L1State Key Obj) (key : Key) :
    (s.step ⟨now, .reserveRead keys n⟩).objects.get? key
      = (s.objects.get? key).map (fun e => { e with
      readLock := e.readLock.lockTimes now (keys.count key * validateReadLocks n) }) :=
  reserveRead_loop_get? now (validateReadLocks n) keys ⟨s, ∅, []⟩ key

/-! ## `finish_read` -/

/-- A resident entry after `count` locks were released at `now`. -/
def L1ObjectState.afterFinish (now : Int) (count : Nat) (e : L1ObjectState Obj) :
    Option (L1ObjectState Obj) :=
  if e.readLock.isLocked now then
    if e.isTemporary && !(e.readLock.unlockTimes count).isLocked now then none
    else some { e with readLock := e.readLock.unlockTimes count }
  else some e

section

omit [DecidableEq Obj]

lemma afterFinish_zero (now : Int) (e : L1ObjectState Obj) : e.afterFinish now 0 = some e := by
  unfold afterFinish
  split
  · rename_i hl
    simp [TTLLock.unlockTimes, hl]
  · rfl

/-- Releasing in two steps is releasing at once: a lock that ran out in the
first step makes the second a no-op. -/
lemma afterFinish_add (now : Int) (m n : Nat) (e : L1ObjectState Obj) :
    (e.afterFinish now m).bind (fun e' => e'.afterFinish now n) = e.afterFinish now (m + n) := by
  unfold afterFinish
  cases hl : e.readLock.isLocked now with
  | false => simp [hl]
  | true =>
    rw [TTLLock.unlockTimes_add]
    cases hm : (e.readLock.unlockTimes m).isLocked now with
    | false =>
      rw [TTLLock.unlockTimes_of_released hl hm]
      cases ht : e.isTemporary <;> simp [hm]
    | true => simp [hm]

lemma finishRead_loop_get? (now : Int) (total : Nat) (keys : List Key)
    (acc : FinishReadAcc Key Obj) (key : Key) :
    (keys.foldl (finishReadKey now total) acc).st.objects.get? key
      = (acc.st.objects.get? key).bind (fun e => e.afterFinish now (keys.count key * total)) := by
  induction keys generalizing acc with
  | nil =>
    rw [foldl_nil]
    cases acc.st.objects.get? key <;> simp [afterFinish_zero]
  | cons k keys ih =>
    have hbody : (finishReadKey now total acc k).st.objects.get? key
        = (acc.st.objects.get? key).bind
            (fun e => e.afterFinish now (if k = key then total else 0)) := by
      unfold finishReadKey
      by_cases hkey : k = key
      · subst hkey
        cases hk : acc.st.objects.get? k with
        | none => simp [hk]
        | some e =>
          cases hl : e.readLock.isLocked now with
          | false => simp [hk, hl, afterFinish]
          | true =>
            cases hd : (e.isTemporary && !(e.readLock.unlockTimes total).isLocked now) with
            | false =>
              simp only [hl, hd, afterFinish, Option.bind_some, if_true]
              exact get?_set_self _ _ _
            | true =>
              simp only [hl, hd, afterFinish, Option.bind_some, if_true]
              exact get?_erase_self _ _
      · have hne : key ≠ k := Ne.symm hkey
        have hid : (acc.st.objects.get? key).bind (fun e => e.afterFinish now 0)
            = acc.st.objects.get? key := by
          cases acc.st.objects.get? key <;> simp [afterFinish_zero]
        rw [if_neg hkey, hid]
        split
        · rfl
        split
        · rfl
        dsimp only
        split
        · exact get?_erase_ne _ hne
        · exact get?_set_ne _ _ hne
    rw [foldl_cons, ih, hbody, Option.bind_assoc]
    congr 1
    funext e
    rw [afterFinish_add]
    congr 1
    by_cases hkey : k = key
    · simp [hkey, Nat.add_mul, add_comm]
    · simp [hkey]

end

/-- `finish_read` releases `total` locks for every time the key is named. -/
lemma finishRead_get? (now : Int) (keys : List Key) (n : Int) (s : L1State Key Obj) (key : Key) :
    (s.step ⟨now, .finishRead keys n⟩).objects.get? key = (s.objects.get? key).bind
      (fun e => e.afterFinish now (keys.count key * validateReadLocks n)) :=
  finishRead_loop_get? now (validateReadLocks n) keys ⟨s, ∅, [], [], []⟩ key

/-! ## `finish_write_and_reserve_read` -/

/-- `tag` holds a live write reservation for `key`. -/
def L1State.stagesLive (s : L1State Key Obj) (now : Int) (key : Key) (tag : String) : Bool :=
  (s.getStaging key tag).any (fun e => e.writeLock.isLocked now)

section FinishWriteAndReserveRead

variable {now : Int} {total : Nat} {tag : String}

/-- The entry a key gets when its live staging entry `staged` is admitted and
locked: the staged one, or the resident one if there is one. -/
def admitted (now : Int) (total : Nat) (resident : Option (L1ObjectState Obj))
    (staged : L1ObjectState Obj) : L1ObjectState Obj :=
  let e := resident.getD staged.taken
  { e with readLock := e.readLock.lockTimes now total }

section

omit [DecidableEq Obj]

lemma foldl_filter {α β : Type} {f : α → Key → α} {g : α → Option β} {p : β → Bool} {key : Key}
    (hf : ∀ acc k, g (f acc k) = if k = key then (g acc).filter p else g acc)
    (keys : List Key) (acc : α) :
    g (keys.foldl f acc) = if key ∈ keys then (g acc).filter p else g acc := by
  induction keys generalizing acc with
  | nil => simp
  | cons k keys ih =>
    rw [foldl_cons, ih, hf]
    by_cases hk : k = key
    · subst hk
      simp
    · simp [hk, Ne.symm hk]

lemma takeStaging_getStaging (s : L1State Key Obj) (k key : Key) :
    (s.takeStaging now k tag).2.getStaging key tag
      = if k = key then (s.getStaging key tag).filter (fun e => !e.writeLock.isLocked now)
      else s.getStaging key tag := by
  obtain ⟨e, he, hl, htake⟩ | ⟨err, -, htake, hexp⟩ := takeStaging_cases s now k tag
  · have hpop : (s.popped k tag e).getStaging key tag
        = if k = key then none else s.getStaging key tag := by
      simp only [getStaging, popped, NestedDict.get?_pop, and_true, eq_comm]
    rw [htake, hpop]
    by_cases hk : k = key
    · subst hk
      simp [he, Option.filter_some, hl]
    · simp [hk]
  · rw [htake]
    by_cases hk : k = key
    · subst hk
      cases hs : s.getStaging k tag with
      | none => simp
      | some e => simp [Option.filter_some, hexp e hs]
    · simp [hk]

lemma finishWriteAndReserveReadKey_getStaging (acc : FinishWriteReserveReadAcc Key Obj)
    (k key : Key) : (finishWriteAndReserveReadKey now total tag acc k).st.getStaging key tag
      = if k = key then (acc.st.getStaging key tag).filter (fun e => !e.writeLock.isLocked now)
      else acc.st.getStaging key tag := by
  rw [← takeStaging_getStaging]
  unfold finishWriteAndReserveReadKey
  dsimp only
  split
  · rfl
  · split <;> rfl

lemma finishWriteAndReserveReadKey_get? (acc : FinishWriteReserveReadAcc Key Obj) (k key : Key) :
    (finishWriteAndReserveReadKey now total tag acc k).st.objects.get? key = if k = key then
      match (acc.st.getStaging key tag).filter (fun e => e.writeLock.isLocked now) with
          | none => acc.st.objects.get? key
          | some staged => some (admitted now total (acc.st.objects.get? key) staged)
        else acc.st.objects.get? key := by
  unfold finishWriteAndReserveReadKey
  obtain ⟨e, he, hl, htake⟩ | ⟨err, -, htake, hexp⟩ := takeStaging_cases acc.st now k tag
  · simp only [htake]
    have hpop : (acc.st.popped k tag e).objects = acc.st.objects := rfl
    by_cases hk : k = key
    · subst hk
      simp only [he, Option.filter_some, hl, hpop]
      cases hr : acc.st.objects.get? k with
      | none => exact get?_set_self _ _ _
      | some r => exact get?_set_self _ _ _
    · simp only [hk, hpop]
      cases acc.st.objects.get? k with
      | none => exact get?_set_ne _ _ (Ne.symm hk)
      | some r => exact get?_set_ne _ _ (Ne.symm hk)
  · simp only [htake]
    by_cases hk : k = key
    · subst hk
      cases hs : acc.st.getStaging k tag with
      | none => simp
      | some e => simp [Option.filter_some, hexp e hs]
    · simp [hk]

lemma finishWriteAndReserveRead_loop_get? (keys : List Key)
    (acc : FinishWriteReserveReadAcc Key Obj) (key : Key) :
    (keys.foldl (finishWriteAndReserveReadKey now total tag) acc).st.objects.get? key
      = if key ∈ keys then
      match (acc.st.getStaging key tag).filter (fun e => e.writeLock.isLocked now) with
          | none => acc.st.objects.get? key
          | some staged => some (admitted now total (acc.st.objects.get? key) staged)
        else acc.st.objects.get? key := by
  induction keys generalizing acc with
  | nil => simp
  | cons k keys ih =>
    rw [foldl_cons, ih, finishWriteAndReserveReadKey_get?, finishWriteAndReserveReadKey_getStaging]
    by_cases hk : k = key
    · subst hk
      -- the first occurrence took the live entry, so the rest find none
      simp only [mem_cons]
      split
      · simp
      · rfl
    · simp [hk, Ne.symm hk]

end

/-- `finish_write_and_reserve_read` admits and locks a key it names when its
tag holds a live reservation. -/
lemma finishWriteAndReserveRead_get? (now : Int) (keys : List Key) (n : Int) (tag : String)
    (s : L1State Key Obj) (key : Key) :
    (s.step ⟨now, .finishWriteAndReserveRead keys n tag⟩).objects.get? key = if key ∈ keys then
      match (s.getStaging key tag).filter (fun e => e.writeLock.isLocked now) with
          | none => s.objects.get? key
          | some staged => some (admitted now (validateReadLocks n) (s.objects.get? key) staged)
        else s.objects.get? key := by
  refine Eq.trans ?_ (finishWriteAndReserveRead_loop_get? keys ⟨s, ∅, [], [], []⟩ key)
  simp only [step, finishWriteAndReserveRead]
  split <;> rfl

end FinishWriteAndReserveRead

/-! ## `_reclaim_staging` -/

section Reclaim

variable {now : Int} {force : Bool} {key : Key} (items : List (String × L1ObjectState Obj))

omit [DecidableEq Obj] in
lemma reclaim_loop_getStaging (hnd : (items.map Prod.fst).Nodup)
    (acc : L1State Key Obj × List Obj) (hitems : ∀ p ∈ items, acc.1.getStaging key p.1 = some p.2)
    (k : Key) (t : String) : (items.foldl (reclaimTag now key force) acc).1.getStaging k t
      = if k = key ∧ t ∈ items.map Prod.fst then
      (acc.1.getStaging key t).filter (fun e => e.writeLock.isLocked now && !force)
      else acc.1.getStaging k t := by
  induction items generalizing acc with
  | nil => simp
  | cons p items ih =>
    obtain ⟨tag, e⟩ := p
    have he : acc.1.getStaging key tag = some e := hitems (tag, e) mem_cons_self
    rw [map_cons, nodup_cons] at hnd
    have htag : tag ∉ items.map Prod.fst := hnd.1
    have hrest : ∀ q ∈ items, acc.1.getStaging key q.1 = some q.2 :=
      fun q hq => hitems q (mem_cons_of_mem _ hq)
    rw [foldl_cons, reclaimTag_eq he]
    simp only [map_cons, mem_cons]
    by_cases hskip : (e.writeLock.isLocked now && !force)
    · rw [if_pos hskip, ih hnd.2 acc hrest]
      by_cases ht : t = tag
      · subst ht
        by_cases hk : k = key
        · simp only [hk, htag, and_false, if_false, he, true_or, and_self, if_true,
            Option.filter_some, hskip]
        · simp only [hk, false_and]
      · simp only [ht, false_or]
    · rw [if_neg hskip]
      have hpop : ∀ j u, (acc.1.popped key tag e).getStaging j u
          = if j = key ∧ u = tag then none else acc.1.getStaging j u :=
        fun j u => NestedDict.get?_pop acc.1.staging key j tag u
      rw [ih hnd.2 (acc.1.popped key tag e, _) fun q hq => ?_]
      · by_cases ht : t = tag
        · subst ht
          by_cases hk : k = key
          · simp only [hk, htag, hpop, he, true_or, Option.filter_some, hskip]
            rfl
          · simp only [hk, hpop, false_and, if_false]
        · simp only [hpop, ht, and_false, if_false, false_or]
      · have hne : q.1 ≠ tag := fun h => hnd.1 (h ▸ mem_map.mpr ⟨q, hq, rfl⟩)
        rw [hpop, if_neg (by simp [hne])]
        exact hrest q hq

/-- `_reclaim_staging` keeps the live entries of the key (none of them when
forced) and every other key's. -/
lemma reclaimStaging_getStaging (s : L1State Key Obj) (k : Key) (t : String) :
    (s.reclaimStaging now key force).2.getStaging k t
      = if k = key then (s.getStaging key t).filter (fun e => e.writeLock.isLocked now && !force)
      else s.getStaging k t := by
  refine (reclaim_loop_getStaging (s.staging.inner key).entries (s.staging.inner key).nodup
    (s, []) (fun p hp => mem_entries.mp hp) k t).trans ?_
  by_cases hk : k = key
  · subst hk
    by_cases ht : t ∈ (s.staging.inner k).entries.map Prod.fst
    · simp [ht]
    · have hnone : s.getStaging k t = none := not_mem_iff_get?.mp ht
      simp [hnone]
  · simp [hk]

end Reclaim

end LMCache.L1Manager
