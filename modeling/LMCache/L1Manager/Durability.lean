/-
LMCache.L1Manager.Durability — does a successful `finish_write` last?

A resident object that is not temporary leaves L1 only through `delete` or
`clear` (`step_keeps_permanent`); a temporary one also goes when its last
reader finishes. `finish_write` reports success in two ways. When it admits
its own staging object, what becomes resident is as permanent as the
reservation asked for. When the key is already resident it discards its
object and keeps the resident one, *with that one's temporary flag*: if the
resident object was a temporary prefetch buffer, the write that was just
reported successful disappears with the next `finish_read`.

`survives_iff_not_temporary` says that this is the only case.
-/
import LMCache.L1Manager.ActionsTheorems

namespace LMCache.L1Manager

open Lib Native L1State TTLLock Dict

variable {Key Obj : Type} [DecidableEq Key] [DecidableEq Obj]

/-- The call asks for the removal of `key`. Eviction is a `delete`. -/
def L1Op.Removes (key : Key) : L1Op Key Obj → Prop
  | .delete keys _ => key ∈ keys
  | .clear _ => True
  | _ => False

section Permanent

variable {s : L1State Key Obj} {key : Key}

/-- A permanent resident object stays until it is asked away. -/
lemma step_keeps_permanent {c : L1Call Key Obj} (hok : c.op.AllocatorHonest s)
    (hrem : ¬ c.op.Removes key) (h : ∃ r, s.objects.get? key = some r ∧ r.isTemporary = false) :
    ∃ r, (s.step c).objects.get? key = some r ∧ r.isTemporary = false := by
  refine step_inv (fun m => ∃ r, m.st.objects.get? key = some r ∧ r.isTemporary = false)
    hok ?_ h
  rintro a m m' hallow hd ⟨r, hr, htemp⟩
  obtain hsame | ⟨e, n, -, he, he'⟩ | ⟨e, n, -, he, -, -, he'⟩ | ⟨e, why, rfl, he, hw, -⟩ |
    ⟨_, _, -, hnone, -⟩ := hd.get?_objects key
  · exact ⟨r, hsame.trans hr, htemp⟩
  · rw [hr] at he
    cases he
    exact ⟨_, he', htemp⟩
  · rw [hr] at he
    cases he
    exact ⟨_, he', htemp⟩
  · rw [hr] at he
    cases he
    exfalso
    generalize c.op = op at hallow hrem
    cases hallow with
    | finishRead_drop => exact Bool.false_ne_true (htemp.symm.trans hw.1)
    | delete_drop hk => exact hrem hk
    | delete_dropForced hk => exact hrem hk
    | clear_drop => exact hrem trivial
    | clear_dropForced => exact hrem trivial
  · rw [hr] at hnone
    cases hnone

end Permanent

/-! ## The state `finish_write` leaves -/

section FinishWrite

variable {s : L1State Key Obj} {now : Int} {keys : List Key} {tag : String} {key : Key}

omit [DecidableEq Obj] in
lemma finishWriteKey_success {acc : FinishWriteAcc Key Obj} (k : Key)
    (h : acc.ret.get? key = some .success → key ∈ acc.st.objects) :
    (finishWriteKey now tag acc k).ret.get? key = some .success →
      key ∈ (finishWriteKey now tag acc k).st.objects := by
  intro hret
  unfold finishWriteKey at hret ⊢
  obtain ⟨e, he, hl, htake⟩ | ⟨err, herr, htake, -⟩ := takeStaging_cases acc.st now k tag
  · simp only [htake] at hret ⊢
    split at hret
    · rename_i hk
      rw [if_pos hk]
      rw [get?_set] at hret
      split at hret
      · rename_i hkey
        exact hkey ▸ hk
      · exact h hret
    · rename_i hk
      rw [if_neg hk]
      rw [get?_set] at hret
      refine mem_set.mpr ?_
      split at hret
      · exact .inl ‹_›
      · exact .inr (h hret)
  · simp only [htake, get?_set] at hret ⊢
    split at hret
    · exact absurd (Option.some.inj hret) herr
    · exact h hret

/-- A key `finish_write` reports success for is resident when it returns. -/
lemma finishWrite_success_resident (h : (finishWrite now keys tag s).1.get? key = some .success) :
    key ∈ (s.step ⟨now, .finishWrite keys tag⟩).objects := by
  have hloop := List.foldlRecOn
    (motive := fun acc : FinishWriteAcc Key Obj =>
      acc.ret.get? key = some .success → key ∈ acc.st.objects)
    keys (finishWriteKey now tag) (b := ⟨s, ∅, [], []⟩) (by simp)
    (fun acc hacc k _ => finishWriteKey_success k hacc) h
  simp only [step, finishWrite]
  split <;> exact hloop

/-- When neither the reservation nor a resident object is temporary, what
`finish_write` leaves is not. -/
lemma finishWrite_permanent {e : L1ObjectState Obj} (he : s.getStaging key tag = some e)
    (htemp : e.isTemporary = false)
    (hres : ∀ r, s.objects.get? key = some r → r.isTemporary = false) :
    ∀ r, (s.step ⟨now, .finishWrite keys tag⟩).objects.get? key = some r →
      r.isTemporary = false := by
  refine (step_inv (fun m => (∀ e', m.st.getStaging key tag = some e' → e' = e) ∧
    ∀ r, m.st.objects.get? key = some r → r.isTemporary = false)
    (c := ⟨now, .finishWrite keys tag⟩) trivial ?_ ⟨?_, hres⟩).2
  · rintro a m m' hallow hd ⟨hstg, hperm⟩
    constructor
    · intro e' he'
      obtain hsame | ⟨_, _, rfl, _⟩ | ⟨_, _, _, rfl | rfl, _⟩ | ⟨_, _, _, hnone⟩ :=
        hd.get?_staging key tag
      · exact hstg e' (hsame ▸ he')
      · cases hallow
      · cases hallow
      · cases hallow
      · rw [hnone] at he'
        cases he'
    · intro r hr
      obtain hsame | ⟨_, _, rfl, _⟩ | ⟨_, _, rfl, _⟩ | ⟨_, _, rfl, _⟩ |
        ⟨e', t, rfl, -, hst, -, he'⟩ := hd.get?_objects key
      · exact hperm r (hsame ▸ hr)
      · cases hallow
      · cases hallow
      · cases hallow
      · cases hallow
        rw [he'] at hr
        cases hr
        rw [hstg e' hst]
        exact htemp
  · intro e' he'
    rw [he] at he'
    cases he'
    rfl

/-- `finish_write` leaves a resident entry exactly as it is. -/
lemma finishWrite_keeps_resident (now : Int) (keys : List Key) (tag : String)
    {r : L1ObjectState Obj} (hr : s.objects.get? key = some r) :
    (s.step ⟨now, .finishWrite keys tag⟩).objects.get? key = some r := by
  refine step_inv (fun m => m.st.objects.get? key = some r)
    (c := ⟨now, .finishWrite keys tag⟩) trivial ?_ hr
  intro a m m' hallow hd hm
  obtain hsame | ⟨_, _, rfl, _⟩ | ⟨_, _, rfl, _⟩ | ⟨_, _, rfl, _⟩ | ⟨_, _, rfl, hnone, _⟩ :=
    hd.get?_objects key
  · exact hsame.trans hm
  · cases hallow
  · cases hallow
  · cases hallow
  · rw [hm] at hnone
    cases hnone

end FinishWrite

/-! ## A reader of a temporary object -/

/-- One reader that comes at `now` and finishes at once. -/
def readOnce (now : Int) (key : Key) : List (L1Call Key Obj) :=
  [⟨now, .reserveRead [key] 1⟩, ⟨now, .finishRead [key] 1⟩]

/-- After the read lock of a temporary object has expired, the next reader
takes the object with it. -/
lemma readOnce_drops_temporary {s : L1State Key Obj} {key : Key} {now : Int}
    {r : L1ObjectState Obj} (hr : s.objects.get? key = some r) (htemp : r.isTemporary)
    (httl : 0 < r.readLock.ttlMs) (hexp : r.readLock.expirationMs ≤ now) :
    key ∉ (run step s (readOnce now key)).objects := by
  have hlocked : (r.readLock.lock now).isLocked now := by
    rw [isLocked_iff, lock_counter, lock_expirationMs]
    omega
  have hcount : (r.readLock.lock now).counter = 1 := by
    rw [lock_counter, if_pos hexp]
  have hfree : ((r.readLock.lock now).unlock).isLocked now = false := by
    rw [not_isLocked_iff]
    left
    rw [unlock, if_neg (by omega)]
    simp only [hcount]
    omega
  have hone : validateReadLocks 1 = 1 := rfl
  have hreserve : (s.step ⟨now, .reserveRead [key] 1⟩).objects.get? key
      = some { r with readLock := r.readLock.lock now } := by
    simp [step, reserveRead, reserveReadKey, hr, hone, lockTimes, reportReadReserved, report]
  simp only [readOnce, run_cons]
  generalize s.step ⟨now, .reserveRead [key] 1⟩ = s' at hreserve
  simp [step, finishRead, finishReadKey, hreserve, hone, unlockTimes, hlocked,
    hfree, htemp, free, report, mem_erase]

/-! ## Which successful writes last -/

/-- After any run, take a `finish_write` that reports success for a key
reserved as non-temporary. The key stays resident through every continuation
that does not ask for its removal exactly when the key was not resident as a
temporary object at that moment. -/
theorem survives_iff_not_temporary (config : L1ManagerConfig) (calls : List (L1Call Key Obj))
    (hok : Along step (fun s c => c.op.AllocatorHonest s) (.init config) calls)
    (httl : 0 < config.readTtlSeconds) (now : Int) (keys : List Key) (tag : String) (key : Key)
    (e : L1ObjectState Obj)
    (hstaged : (run step (.init config) calls).getStaging key tag = some e)
    (htemp : e.isTemporary = false)
    (hsuccess : (finishWrite now keys tag (run step (.init config) calls)).1.get? key
      = some .success) :
    (∀ more, Along step (fun s c => c.op.AllocatorHonest s ∧ ¬ c.op.Removes key)
      (run step (.init config) (calls ++ [⟨now, .finishWrite keys tag⟩])) more →
      key ∈ (run step (.init config)
      (calls ++ [⟨now, .finishWrite keys tag⟩] ++ more)).objects) ↔
    ∀ r, (run step (.init config) calls).objects.get? key = some r →
      r.isTemporary = false := by
  obtain ⟨hentries, hconfig⟩ := run_entriesOk config hok
  simp only [run_append]
  generalize run step (.init config) calls = s at *
  constructor
  · intro h r hr
    by_contra hnot
    have hrtemp : r.isTemporary := by simpa using hnot
    have hkept := finishWrite_keeps_resident now keys tag hr
    have hrttl : 0 < r.readLock.ttlMs := by
      rw [(hentries.resident key r hr).1, hconfig]
      omega
    refine readOnce_drops_temporary hkept hrtemp hrttl (Int.le_refl _) (h _ ?_)
    exact ⟨⟨trivial, fun h => h⟩, ⟨trivial, fun h => h⟩, trivial⟩
  · intro hres more hmore
    have hperm : ∃ r, (s.step ⟨now, .finishWrite keys tag⟩).objects.get? key = some r ∧
        r.isTemporary = false := by
      obtain ⟨r, hr⟩ := mem_iff_get?.mp (finishWrite_success_resident hsuccess)
      exact ⟨r, hr, finishWrite_permanent hstaged htemp hres r hr⟩
    obtain ⟨r, hr, -⟩ := run_inv (fun s => ∃ r, s.objects.get? key = some r ∧
        r.isTemporary = false)
      (fun s c hs hc => step_keeps_permanent hc.1 hc.2 hs) hperm hmore
    exact mem_iff_get?.mpr ⟨r, hr⟩

/-- A store of key `7` under the tag `"w"`. -/
def storeSeven : List (L1Call Nat Nat) :=
  [⟨0, .reserveWrite [7] [false] "w" ⟨.success, [(100, 8)]⟩⟩]

/-- The same store, while a prefetch brings key `7` in as a temporary object
and finishes first. -/
def storeSevenDuringPrefetch : List (L1Call Nat Nat) :=
  storeSeven ++
  [⟨1, .reserveWrite [7] [true] "p" ⟨.success, [(101, 8)]⟩⟩,
   ⟨2, .finishWriteAndReserveRead [7] 1 "p"⟩]

theorem storeSeven_survives_reader : 7 ∈ (run step (.init ⟨600, 300⟩)
      (storeSeven ++ [⟨1, .finishWrite [7] "w"⟩] ++ readOnce 2 7)).objects := by
  have hok : Along step (fun s c => c.op.AllocatorHonest s)
      (.init ⟨600, 300⟩ : L1State Nat Nat) storeSeven :=
    ⟨fun _ => ⟨by decide, by decide, by decide⟩, trivial⟩
  refine (survives_iff_not_temporary ⟨600, 300⟩ storeSeven hok (by decide) 1 [7] "w" 7
    { freshEntry ⟨600, 300⟩ 0 100 false with stagingCharge := 8 } (by decide) rfl
    (by decide)).mpr ?_ (readOnce 2 7) ?_
  · intro r hr
    cases hr
  · exact ⟨⟨trivial, fun h => h⟩, ⟨trivial, fun h => h⟩, trivial⟩

/-- The store is reported successful, and the prefetch's reader takes the
key with it when it finishes. -/
theorem storeSeven_lost_to_prefetch :
    ((run step (.init ⟨600, 300⟩) storeSevenDuringPrefetch).getStaging 7 "w").map
      L1ObjectState.isTemporary = some false ∧ (finishWrite 3 [7] "w"
      (run step (.init ⟨600, 300⟩) storeSevenDuringPrefetch)).1.get? 7 = some .success ∧
    Along step (fun s c => c.op.AllocatorHonest s ∧ ¬ c.op.Removes 7)
      (.init ⟨600, 300⟩ : L1State Nat Nat)
      (storeSevenDuringPrefetch ++ [⟨3, .finishWrite [7] "w"⟩, ⟨4, .finishRead [7] 1⟩]) ∧
    7 ∉ (run step (.init ⟨600, 300⟩)
      (storeSevenDuringPrefetch ++ [⟨3, .finishWrite [7] "w"⟩, ⟨4, .finishRead [7] 1⟩])).objects := by
  refine ⟨by decide, by decide, ?_, by decide⟩
  exact ⟨⟨fun _ => ⟨by decide, by decide, by decide⟩, fun h => h⟩,
    ⟨fun _ => ⟨by decide, by decide, by decide⟩, fun h => h⟩,
    ⟨trivial, fun h => h⟩, ⟨trivial, fun h => h⟩, ⟨trivial, fun h => h⟩, trivial⟩

end LMCache.L1Manager
