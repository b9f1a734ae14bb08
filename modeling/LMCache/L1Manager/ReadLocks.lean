/-
LMCache.L1Manager.ReadLocks — what a read lock protects.

The read lock of an object is one counter and one deadline; it does not know
its holders. This module keeps the missing book: a `Ledger` is the manager
together with, for each key, the list of readers that hold its lock, one
occurrence per lock. The list starts empty when an object becomes resident,
and again when a lock is taken after its deadline, because `TTLLock::lock`
then restarts the counter.

As long as every reader only releases what the ledger says it holds
(`Disciplined`), the counter is the length of the list (`LedgerOk`), and a
reader with a lock left on the list, younger than the time-to-live, keeps the
object in place (`read_locks_protect`). A reader that releases after its own
lock expired, when another reader has taken the lock since, releases the
other one's lock.
-/
import LMCache.L1Manager.PerKey
import LMCache.L1Manager.Isolation

namespace LMCache.L1Manager

open List Lib Native L1Call TTLLock L1ObjectState L1State

variable {Key Obj Reader : Type} [DecidableEq Key] [DecidableEq Obj] [DecidableEq Reader]

/-! ## Who holds what -/

section

variable (s : L1State Key Obj) (c : L1Call Key Obj) (key : Key)

/-- The number of read locks the call takes on `key`. -/
def L1Call.granted : Nat :=
  match c.op with
  | .reserveRead keys n =>
    if key ∈ s.objects then keys.count key * validateReadLocks n else 0
  | .finishWriteAndReserveRead keys n tag =>
    if key ∈ keys ∧ s.stagesLive c.now key tag = true then validateReadLocks n else 0
  | _ => 0

/-- The number of read locks the call releases on `key`. -/
def L1Call.released : Nat :=
  match c.op with
  | .finishRead keys n =>
    if (s.objects.get? key).any (fun e => e.readLock.isLocked c.now) then
      keys.count key * validateReadLocks n
    else 0
  | _ => 0

/-- The call takes the read lock of `key` after its deadline. -/
def L1Call.restarts : Bool :=
  decide (0 < c.granted s key) &&
    (s.objects.get? key).any (fun e => decide (e.readLock.expirationMs ≤ c.now))

end

/-- A call and the reader that makes it. -/
structure ReaderCall (Reader Key Obj : Type) where
  reader : Reader
  call : L1Call Key Obj

/-- The manager with the holders of every read lock. -/
structure Ledger (Reader Key Obj : Type) [DecidableEq Key] where
  st : L1State Key Obj
  holders : Key → List Reader

def Ledger.init (config : L1ManagerConfig) : Ledger Reader Key Obj := ⟨.init config, fun _ => []⟩

/-- The holders that remain of `held` after the call. -/
def ReaderCall.remaining (s : L1State Key Obj) (c : ReaderCall Reader Key Obj) (key : Key)
    (held : List Reader) : List Reader :=
  if c.call.restarts s key then []
  else held.diff (replicate (c.call.released s key) c.reader)

section

variable (l : Ledger Reader Key Obj) (c : ReaderCall Reader Key Obj)

def Ledger.step : Ledger Reader Key Obj where
  st := l.st.step c.call
  holders key :=
    if key ∈ (l.st.step c.call).objects then
      replicate (c.call.granted l.st key) c.reader ++ c.remaining l.st key (l.holders key)
    else []

/-- The caller releases no more locks than it holds. -/
def Disciplined : Prop :=
  c.call.op.AllocatorHonest l.st ∧ ∀ key, c.call.released l.st key ≤ (l.holders key).count c.reader

end

/-- The counter of each resident lock is the number of its holders. -/
structure LedgerOk (l : Ledger Reader Key Obj) : Prop where
  entries : EntriesOk l.st
  absent : ∀ key, l.st.objects.get? key = none → l.holders key = []
  counted : ∀ key e, l.st.objects.get? key = some e → e.readLock.counter = (l.holders key).length

/-! ## Releasing from a list -/

lemma length_diff_replicate {held : List Reader} {m : Nat} {r : Reader}
    (h : m ≤ held.count r) : (held.diff (replicate m r)).length = held.length - m := by
  induction m generalizing held with
  | zero => simp
  | succ m ih =>
    have hmem : r ∈ held := count_pos_iff.mp (by omega)
    rw [replicate_succ, diff_cons, ih, length_erase_of_mem hmem]
    · omega
    · rw [count_erase_self]
      omega

/-! ## Calls that leave read locks alone -/

/-- The calls that take or release read locks. -/
def L1Op.touchesReadLocks : L1Op Key Obj → Bool
  | .reserveRead .. => true
  | .finishRead .. => true
  | .finishWriteAndReserveRead .. => true
  | _ => false

/-- The call may remove a key that is read-locked. -/
def L1Op.ForcesOut (key : Key) : L1Op Key Obj → Prop
  | .delete keys force => force ∧ key ∈ keys
  | .clear force => force
  | _ => False

variable {e : L1ObjectState Obj}

section Untouched

variable {s : L1State Key Obj} {c : L1Call Key Obj} {key : Key}

omit [DecidableEq Obj] in
lemma allows_of_not_touchesReadLocks {op : L1Op Key Obj} (hop : op.touchesReadLocks = false)
    {a : Action Key Obj} (ha : op.Allows s a) :
    (∀ k n, a ≠ .lockRead k n) ∧ (∀ k n, a ≠ .unlockRead k n) ∧
      (∀ k n, a ≠ .drop k (.temporary n)) := by
  cases ha <;> simp_all [L1Op.touchesReadLocks]

/-- A read-locked entry stays as it is through a call that neither touches
read locks nor forces. -/
lemma step_keeps_locked (hok : c.op.AllocatorHonest s) (hop : c.op.touchesReadLocks = false)
    (hforce : ¬ c.op.ForcesOut key) (he : s.objects.get? key = some e)
    (hl : e.readLock.isLocked c.now) : (s.step c).objects.get? key = some e := by
  refine step_inv (fun m => m.st.objects.get? key = some e) hok ?_ he
  intro a m m' hallow hd hm
  obtain ⟨hlock, hunlock, htemp⟩ := allows_of_not_touchesReadLocks hop hallow
  obtain hsame | ⟨_, n, rfl, _⟩ | ⟨_, n, rfl, _⟩ | ⟨e', why, rfl, he', hw, _⟩ |
    ⟨_, _, -, hnone, _⟩ := hd.get?_objects key
  · exact hsame.trans hm
  · exact absurd rfl (hlock key n)
  · exact absurd rfl (hunlock key n)
  · rw [hm] at he'
    cases he'
    exfalso
    generalize c.op = op at hallow hforce
    cases hallow with
    | finishRead_drop => exact htemp key _ rfl
    | delete_drop => exact Bool.false_ne_true (hw.symm.trans hl)
    | clear_drop => exact Bool.false_ne_true (hw.symm.trans hl)
    | delete_dropForced hk => exact hforce ⟨rfl, hk⟩
    | clear_dropForced => exact hforce rfl
  · rw [hm] at hnone
    cases hnone

/-- After a call that does not touch read locks a resident entry is the one
from before, or a new one whose lock was never taken. -/
lemma step_entry_origin (hok : c.op.AllocatorHonest s) (hop : c.op.touchesReadLocks = false)
    (hs : EntriesOk s) (he : (s.step c).objects.get? key = some e) : s.objects.get? key = some e ∨
      s.objects.get? key = none ∧ e.readLock = new s.config.readTtlSeconds := by
  have hinv := step_inv (fun m =>
    (EntriesOk m.st ∧ m.st.config = s.config) ∧
    ((∃ t, c.op.Allows s (.promote key t)) →
      ∀ r, s.objects.get? key = some r → m.st.objects.get? key = some r) ∧
    ∀ e, m.st.objects.get? key = some e → s.objects.get? key = some e ∨
      s.objects.get? key = none ∧ e.readLock = new s.config.readTtlSeconds) hok ?_
    ⟨⟨hs, rfl⟩, fun _ _ h => h, fun _ h => .inl h⟩
  · exact hinv.2.2 e he
  rintro a m m' hallow hd ⟨⟨hent, hcfg⟩, hkept, horigin⟩
  refine ⟨⟨hd.entriesOk hent, hd.config.trans hcfg⟩, ?_⟩
  obtain ⟨hlock, hunlock, -⟩ := allows_of_not_touchesReadLocks hop hallow
  obtain hsame | ⟨_, n, rfl, _⟩ | ⟨_, n, rfl, _⟩ | ⟨_, why, rfl, _, _, hnone⟩ |
    ⟨e₀, t, rfl, hnone, hst, _, he'⟩ := hd.get?_objects key
  · exact ⟨fun hp r hr => hsame.trans (hkept hp r hr), fun e he => horigin e (hsame ▸ he)⟩
  · exact absurd rfl (hlock key n)
  · exact absurd rfl (hunlock key n)
  · refine ⟨fun ⟨t, hp⟩ => absurd rfl ((allows_of_promote hp hallow).1 key why), ?_⟩
    intro e he
    rw [hnone] at he
    cases he
  · have hfree : s.objects.get? key = none := by
      cases hr : s.objects.get? key with
      | none => rfl
      | some r =>
        rw [hkept ⟨t, hallow⟩ r hr] at hnone
        cases hnone
    refine ⟨fun _ r hr => absurd (hr.symm.trans hfree) (by simp), fun e he => .inr ⟨hfree, ?_⟩⟩
    rw [he'] at he
    cases he
    exact (hent.staged key t e₀ hst).trans (by rw [hcfg])

end Untouched

/-! ## The ledger counts the locks -/

variable {l : Ledger Reader Key Obj}

section LedgerStep

variable {c : ReaderCall Reader Key Obj} {key : Key}

lemma step_holders_of_mem (h : (l.st.step c.call).objects.get? key = some e) :
    (l.step c).holders key = replicate (c.call.granted l.st key) c.reader ++
      c.remaining l.st key (l.holders key) :=
  if_pos (Dict.mem_iff_get?.mpr ⟨e, h⟩)

omit [DecidableEq Obj] in
lemma remaining_of_not_touches (hop : c.call.op.touchesReadLocks = false)
    (s : L1State Key Obj) (key : Key) (held : List Reader) :
    c.call.granted s key = 0 ∧ c.remaining s key held = held := by
  obtain ⟨r, now, op⟩ := c
  cases op <;> simp_all [L1Op.touchesReadLocks, granted, released, restarts, ReaderCall.remaining]

omit [DecidableEq Reader] in
lemma lockTimes_counter_holders (now : Int) (n : Nat) (r : Reader) {lock : TTLLock}
    {held : List Reader} (httl : 0 < lock.ttlMs) (h : lock.counter = held.length) :
    (lock.lockTimes now n).counter = (replicate n r ++
      if decide (0 < n) && decide (lock.expirationMs ≤ now) then [] else held).length := by
  cases n with
  | zero => simpa [lockTimes] using h
  | succ n =>
    rw [lockTimes_counter _ _ _ httl]
    by_cases hx : lock.expirationMs ≤ now
    · simp [hx]
    · simp [hx]
      omega

/-- The calls that take read locks. -/
def L1Op.TakesReadLocks (op : L1Op Key Obj) : Prop :=
  op.touchesReadLocks ∧ ∀ keys n, op ≠ .finishRead keys n

lemma locked_of_takes {s : L1State Key Obj} {c : L1Call Key Obj} (hop : c.op.TakesReadLocks)
    (h : EntriesOk s) (he : (s.step c).objects.get? key = some e) :
    ∃ lock : TTLLock, lock.ttlMs = s.config.readTtlSeconds * 1000 ∧
      e.readLock = lock.lockTimes c.now (c.granted s key) ∧
      (s.objects.get? key = none ∧ lock = new s.config.readTtlSeconds ∨
      ∃ e₀, s.objects.get? key = some e₀ ∧ lock = e₀.readLock) := by
  obtain ⟨now, op⟩ := c
  cases op with
  | reserveRead keys n =>
    rw [reserveRead_get?, Option.map_eq_some_iff] at he
    obtain ⟨e₀, he₀, rfl⟩ := he
    have hmem : key ∈ s.objects := Dict.mem_iff_get?.mpr ⟨e₀, he₀⟩
    exact ⟨e₀.readLock, (h.resident key e₀ he₀).1, by simp [granted, hmem], .inr ⟨e₀, he₀, rfl⟩⟩
  | finishRead keys n => exact absurd rfl (hop.2 keys n)
  | finishWriteAndReserveRead keys n tag =>
    rw [finishWriteAndReserveRead_get?] at he
    by_cases hlive : key ∈ keys ∧ s.stagesLive now key tag
    · obtain ⟨staged, hst, hl⟩ := (Option.any_eq_true _ _).mp hlive.2
      rw [if_pos hlive.1, hst, Option.filter_some, if_pos hl] at he
      cases he
      simp only [granted, if_pos hlive]
      cases hr : s.objects.get? key with
      | none =>
        have hnew := h.staged key tag staged hst
        exact ⟨staged.readLock, by rw [hnew]; rfl, rfl, .inl ⟨rfl, hnew⟩⟩
      | some e₀ => exact ⟨e₀.readLock, (h.resident key e₀ hr).1, rfl, .inr ⟨e₀, rfl, rfl⟩⟩
    · have hsame : s.objects.get? key = some e := by
        split_ifs at he with hk
        · split at he
          · exact he
          · rename_i staged hst
            obtain ⟨hst, hl⟩ := Option.filter_eq_some_iff.mp hst
            exact absurd ⟨hk, (Option.any_eq_true _ _).mpr ⟨staged, hst, hl⟩⟩ hlive
        · exact he
      exact ⟨e.readLock, (h.resident key e hsame).1, by simp [granted, hlive, lockTimes],
        .inr ⟨e, hsame, rfl⟩⟩
  | _ => cases hop.1

lemma counted_of_takes (hop : c.call.op.TakesReadLocks)
    (httl : 0 < l.st.config.readTtlSeconds) (h : LedgerOk l)
    (he : (l.st.step c.call).objects.get? key = some e) :
    e.readLock.counter = ((l.step c).holders key).length := by
  have hreleased : c.call.released l.st key = 0 := by
    unfold released
    split
    · rename_i hfinish
      exact absurd hfinish (hop.2 _ _)
    · rfl
  obtain ⟨lock, hms, hlock, hcases⟩ := locked_of_takes hop h.entries he
  have hpos : 0 < lock.ttlMs := by omega
  rw [step_holders_of_mem he, hlock]
  rcases hcases with ⟨hnone, rfl⟩ | ⟨e₀, he₀, rfl⟩
  · simpa [ReaderCall.remaining, h.absent key hnone] using
      lockTimes_counter_holders c.call.now (c.call.granted l.st key) c.reader hpos
        (show _ = (([] : List Reader).length : Int) from rfl)
  · simpa [restarts, hreleased, ReaderCall.remaining, he₀] using
      lockTimes_counter_holders c.call.now (c.call.granted l.st key) c.reader hpos
        (h.counted key e₀ he₀)

variable {keys : List Key}

lemma counted_finishRead {now : Int} {n : Int} {r : Reader}
    (hdis : Disciplined l ⟨r, now, .finishRead keys n⟩) (h : LedgerOk l)
    (he : (l.st.step ⟨now, .finishRead keys n⟩).objects.get? key = some e) :
    e.readLock.counter = ((l.step ⟨r, now, .finishRead keys n⟩).holders key).length := by
  rw [step_holders_of_mem he]
  rw [finishRead_get?, Option.bind_eq_some_iff] at he
  obtain ⟨e₀, he₀, hfin⟩ := he
  have hcount := h.counted key e₀ he₀
  have hheld := hdis.2 key
  simp only [released, he₀, Option.any_some] at hheld
  simp only [granted, restarts, released, ReaderCall.remaining, he₀,
    Option.any_some, replicate_zero, nil_append, Nat.lt_irrefl, decide_false,
    Bool.false_and, Bool.false_eq_true, if_false]
  unfold afterFinish at hfin
  split at hfin
  · rename_i hl
    rw [if_pos hl] at hheld ⊢
    split at hfin
    · cases hfin
    · cases hfin
      rw [length_diff_replicate hheld, unlockTimes_counter _ _ (by omega)]
      omega
  · rename_i hl
    cases hfin
    simpa [hl] using hcount

/-- A disciplined call keeps the ledger in step with the counters. -/
lemma LedgerOk.step (httl : 0 < l.st.config.readTtlSeconds) (hdis : Disciplined l c)
    (h : LedgerOk l) : LedgerOk (l.step c) where
  entries := step_entriesOk hdis.1 h.entries
  absent key hnone := if_neg (Dict.not_mem_iff_get?.mpr hnone)
  counted key e he := by
    by_cases hop : c.call.op.touchesReadLocks
    · obtain ⟨r, now, op⟩ := c
      cases op with
      | reserveRead keys n => exact counted_of_takes ⟨hop, by simp⟩ httl h he
      | finishRead keys n => exact counted_finishRead hdis h he
      | finishWriteAndReserveRead keys n tag => exact counted_of_takes ⟨hop, by simp⟩ httl h he
      | _ => cases hop
    · have hop := Bool.eq_false_iff.mpr hop
      obtain ⟨hgrant, hrem⟩ := remaining_of_not_touches hop l.st key (l.holders key)
      rw [step_holders_of_mem he, hgrant, hrem]
      obtain hsame | ⟨hnone, hnew⟩ := step_entry_origin hdis.1 hop h.entries he
      · simpa using h.counted key e hsame
      · rw [hnew, h.absent key hnone]
        rfl

end LedgerStep

/-! ## Protection -/

/-- The locks the call releases on `key` in the name of reader `r`. -/
def ReaderCall.releasedBy (s : L1State Key Obj) (c : ReaderCall Reader Key Obj) (r : Reader)
    (key : Key) : Nat :=
  if c.reader = r then c.call.released s key else 0

/-- The locks reader `r` releases on `key` in the calls `cs` made from `l`. -/
def totalReleased (r : Reader) (key : Key) :
    Ledger Reader Key Obj → List (ReaderCall Reader Key Obj) → Nat
  | _, [] => 0
  | l, c :: cs => c.releasedBy l.st r key + totalReleased r key (l.step c) cs

variable (l) in
/-- Reader `r` has at least `k` locks on `key`, bound to `o`, and the lock
does not expire before `deadline`. -/
def Protected (r : Reader) (key : Key) (o : Obj) (deadline : Int) (k : Nat) : Prop :=
  ∃ e, l.st.objects.get? key = some e ∧ e.memoryObj = o ∧ deadline ≤ e.readLock.expirationMs ∧
    k ≤ (l.holders key).count r

variable {config : L1ManagerConfig} {cs : List (ReaderCall Reader Key Obj)}

section Protection

variable {c : ReaderCall Reader Key Obj} {r : Reader} {key : Key} {o : Obj} {deadline : Int}
  {k : Nat}

omit [DecidableEq Obj] in
lemma Protected.locked (h : LedgerOk l) (hp : Protected l r key o deadline k) (hk : 0 < k)
    {now : Int} (hnow : now < deadline) (he : l.st.objects.get? key = some e) :
    e.readLock.isLocked now := by
  obtain ⟨e', he', -, hexp, hcount⟩ := hp
  rw [he] at he'
  cases he'
  have hlen : (l.holders key).count r ≤ (l.holders key).length := count_le_length
  have hcounter := h.counted key e he
  exact isLocked_iff.mpr ⟨by omega, by omega⟩

lemma le_lockTimes_expirationMs {lock : TTLLock} {now : Int} (n : Nat)
    (hexp : deadline ≤ lock.expirationMs) (hnow : deadline ≤ now + lock.ttlMs) :
    deadline ≤ (lock.lockTimes now n).expirationMs := by
  cases n with
  | zero => exact hexp
  | succ n =>
    rw [lockTimes_expirationMs]
    exact hnow

/-- A call that locks a live lock only adds holders. -/
lemma protected_of_locked {n : Nat} (he : l.st.objects.get? key = some e) (hobj : e.memoryObj = o)
    (hexp : deadline ≤ e.readLock.expirationMs) (hcount : k ≤ (l.holders key).count r)
    (hnow : c.call.now < deadline) (hlate : deadline ≤ c.call.now + e.readLock.ttlMs)
    (hrel : c.call.released l.st key = 0) (he' : (l.st.step c.call).objects.get? key
      = some { e with readLock := e.readLock.lockTimes c.call.now n }) :
    Protected (l.step c) r key o deadline k := by
  refine ⟨_, he', hobj, le_lockTimes_expirationMs n hexp hlate, ?_⟩
  have hrestart : c.call.restarts l.st key = false := by
    have hlive : ¬ e.readLock.expirationMs ≤ c.call.now := by omega
    simp [restarts, he, hlive]
  rw [step_holders_of_mem he', ReaderCall.remaining, hrestart, hrel, count_append]
  simp only [Bool.false_eq_true, if_false, replicate_zero, diff_nil]
  omega

/-- A disciplined release leaves a protected key protected by the locks that
remain: the counter after it is at least the number of them. -/
lemma protected_finishRead {reader : Reader} {now : Int} {keys : List Key} {n : Int}
    (hdis : Disciplined l ⟨reader, now, .finishRead keys n⟩) (h : LedgerOk l)
    (hp : Protected l r key o deadline k) (hnow : now < deadline)
    (hk : (ReaderCall.mk reader ⟨now, .finishRead keys n⟩).releasedBy l.st r key < k) :
    Protected (l.step ⟨reader, now, .finishRead keys n⟩) r key o deadline
      (k - (ReaderCall.mk reader ⟨now, .finishRead keys n⟩).releasedBy l.st r key) := by
  have ⟨e, he, hobj, hexp, hcount⟩ := hp
  have hl := hp.locked h (by omega) hnow he
  have hheld := hdis.2 key
  simp only [released, he, Option.any_some, hl, if_true] at hheld
  simp only [ReaderCall.releasedBy, released, he, Option.any_some, hl, if_true] at hk ⊢
  generalize hm : keys.count key * validateReadLocks n = m at hheld hk ⊢
  -- what is left on the list, and on the counter
  have hleft : (if reader = r then m else 0) < k ∧
      k - (if reader = r then m else 0) ≤ ((l.holders key).diff (replicate m reader)).count r := by
    rw [count_diff, count_replicate]
    simp only [beq_iff_eq]
    omega
  have hcounter : (e.readLock.unlockTimes m).counter
      = ((l.holders key).diff (replicate m reader)).length := by
    have hcnt := h.counted key e he
    rw [unlockTimes_counter _ _ (by omega), length_diff_replicate hheld]
    omega
  have hstill : (e.readLock.unlockTimes m).isLocked now := by
    have hlen : ((l.holders key).diff (replicate m reader)).count r
      ≤ ((l.holders key).diff (replicate m reader)).length := count_le_length
    rw [isLocked_iff, unlockTimes_expirationMs]
    omega
  have he' : (l.st.step ⟨now, .finishRead keys n⟩).objects.get? key
      = some { e with readLock := e.readLock.unlockTimes m } := by
    rw [finishRead_get?, he, hm]
    simp [afterFinish, hl, hstill]
  refine ⟨_, he', hobj, by simpa using hexp, ?_⟩
  rw [step_holders_of_mem he']
  simpa [granted, restarts, released, ReaderCall.remaining, he, hl, hm] using hleft.2

/-- One disciplined call before the deadline, not forcing the key out: the
locks the reader does not release still protect the key. -/
lemma Protected.step (hdis : Disciplined l c) (h : LedgerOk l)
    (hp : Protected l r key o deadline k) (hnow : c.call.now < deadline)
    (hlate : deadline ≤ c.call.now + l.st.config.readTtlSeconds * 1000)
    (hforce : ¬ c.call.op.ForcesOut key) (hk : c.releasedBy l.st r key < k) :
    Protected (l.step c) r key o deadline (k - c.releasedBy l.st r key) := by
  have ⟨e, he, hobj, hexp, hcount⟩ := hp
  have hl := hp.locked h (by omega) hnow he
  have httl := (h.entries.resident key e he).1
  rw [← httl] at hlate
  by_cases hop : c.call.op.touchesReadLocks
  · obtain ⟨reader, now, op⟩ := c
    cases op with
    | reserveRead keys n =>
      have he' := reserveRead_get? now keys n l.st key
      rw [he] at he'
      simpa [ReaderCall.releasedBy, released] using
        protected_of_locked he hobj hexp hcount hnow hlate rfl he'
    | finishRead keys n => exact protected_finishRead hdis h hp hnow hk
    | finishWriteAndReserveRead keys n tag =>
      have he' : ∃ m, (l.st.step ⟨now, .finishWriteAndReserveRead keys n tag⟩).objects.get? key
          = some { e with readLock := e.readLock.lockTimes now m } := by
        rw [finishWriteAndReserveRead_get?, he]
        split
        · split
          · exact ⟨0, rfl⟩
          · exact ⟨validateReadLocks n, rfl⟩
        · exact ⟨0, rfl⟩
      obtain ⟨m, he'⟩ := he'
      simpa [ReaderCall.releasedBy, released] using
        protected_of_locked he hobj hexp hcount hnow hlate rfl he'
    | _ => cases hop
  · have hop := Bool.eq_false_iff.mpr hop
    obtain ⟨hgrant, hrem⟩ := remaining_of_not_touches hop l.st key (l.holders key)
    have he' := step_keeps_locked hdis.1 hop hforce he hl
    refine ⟨e, he', hobj, hexp, ?_⟩
    rw [step_holders_of_mem he', hgrant, hrem]
    simp only [replicate_zero, nil_append]
    omega

/-- A run of such calls that together release fewer than `k` locks. -/
lemma Protected.run {t : Int} (hdis : Along Ledger.step Disciplined l cs) (h : LedgerOk l)
    (hcfg : l.st.config = config) (httl : 0 < config.readTtlSeconds)
    (hp : Protected l r key o (t + config.readTtlSeconds * 1000) k)
    (htime : ∀ d ∈ cs, t ≤ d.call.now ∧ d.call.now < t + config.readTtlSeconds * 1000)
    (hforce : ∀ d ∈ cs, ¬ d.call.op.ForcesOut key) (hk : totalReleased r key l cs < k) :
    (run Ledger.step l cs).st.boundTo key = some o := by
  induction cs generalizing l k with
  | nil =>
    obtain ⟨e, he, hobj, -⟩ := hp
    rw [run_nil, boundTo, he]
    exact congrArg some hobj
  | cons d cs ih =>
    obtain ⟨ht, hnow⟩ := htime d mem_cons_self
    simp only [totalReleased] at hk
    have hstep := hp.step hdis.1 h hnow (by rw [hcfg]; omega) (hforce d mem_cons_self) (by omega)
    exact ih hdis.2 (h.step (hcfg ▸ httl) hdis.1) ((step_config hdis.1.1).trans hcfg) hstep
      (fun d' hd' => htime d' (mem_cons_of_mem _ hd'))
      (fun d' hd' => hforce d' (mem_cons_of_mem _ hd')) (by omega)

/-- Whoever receives an object with a lock on it is protected from then on. -/
lemma protected_of_receives (h : LedgerOk l) (hrec : c.call.Receives l.st key o)
    (hgrant : 0 < c.call.granted l.st key) :
    Protected (l.step c) c.reader key o (c.call.now + l.st.config.readTtlSeconds * 1000)
      (c.call.granted l.st key) := by
  obtain ⟨e, he, hobj⟩ := Option.map_eq_some_iff.mp (receives_bound hrec)
  refine ⟨e, he, hobj, ?_, ?_⟩
  · have hop : c.call.op.TakesReadLocks := by
      unfold granted at hgrant
      split at hgrant <;> simp_all [L1Op.TakesReadLocks, L1Op.touchesReadLocks]
    obtain ⟨lock, httl, hlock, -⟩ := locked_of_takes hop h.entries he
    obtain ⟨n, hn⟩ := Nat.exists_eq_succ_of_ne_zero (Nat.ne_of_gt hgrant)
    have hexp := lockTimes_expirationMs lock c.call.now n
    rw [httl] at hexp
    rw [hlock, hn]
    exact Int.le_of_eq hexp.symm
  · have hcount : ((l.step c).holders key).count c.reader = c.call.granted l.st key +
        (c.remaining l.st key (l.holders key)).count c.reader := by
      rw [step_holders_of_mem he, count_append, count_replicate_self]
    omega

end Protection

/-! ## Runs -/

section Runs

lemma run_ledgerOk (httl : 0 < config.readTtlSeconds)
    (h : Along Ledger.step Disciplined (.init config) cs) :
    LedgerOk (run Ledger.step (.init config) cs) ∧
      (run Ledger.step (.init config) cs).st.config = config :=
  run_inv (fun l => LedgerOk l ∧ l.st.config = config)
    (fun _ _ hl hc => ⟨hl.1.step (hl.2 ▸ httl) hc, (step_config hc.1).trans hl.2⟩)
    ⟨⟨entriesOk_init config, fun _ _ => rfl, nofun⟩, rfl⟩ h

lemma live_of_boundTo {key : Key} {o : Obj}
    (hdis : Along Ledger.step Disciplined (.init config) cs)
    (h : (run Ledger.step (.init config) cs).st.boundTo key = some o) :
    o ∈ (run Ledger.step (.init config) cs).st.memoryManager.live := by
  obtain ⟨leaked, hacc⟩ := run_inv
    (fun l : Ledger Reader Key Obj => ∃ leaked, Accounts ⟨l.st, []⟩ leaked)
    (fun _ _ hl hc => step_exists_accounts hc.1 hl) ⟨[], accounts_init config⟩ hdis
  obtain ⟨e, he, hobj⟩ := Option.map_eq_some_iff.mp h
  refine hacc.balance.mem_iff.mpr ?_
  rw [refs_def]
  simp only [mem_append, mem_map]
  exact .inl (.inl (.inl ⟨e, Dict.mem_values.mpr ⟨key, he⟩, hobj⟩))

/-- A reader that got locks on an object keeps the object, until it has
released as many locks as it got or the time-to-live has passed: in a run in
which no caller releases more than it holds and nobody forces the key out,
the key is still bound to the object and the object is not freed. -/
theorem read_locks_protect (config : L1ManagerConfig)
    (before after : List (ReaderCall Reader Key Obj)) (c : ReaderCall Reader Key Obj)
    (key : Key) (o : Obj)
    (hdis : Along Ledger.step Disciplined (.init config) (before ++ c :: after))
    (hrec : c.call.Receives (run Ledger.step (.init config) before).st key o)
    (htime : ∀ d ∈ after, c.call.now ≤ d.call.now ∧
      d.call.now < c.call.now + config.readTtlSeconds * 1000)
    (hforce : ∀ d ∈ after, ¬ d.call.op.ForcesOut key)
    (hleft : totalReleased c.reader key (run Ledger.step (.init config) (before ++ [c])) after
      < c.call.granted (run Ledger.step (.init config) before).st key) :
    (run Ledger.step (.init config) (before ++ c :: after)).st.boundTo key = some o ∧
      o ∈ (run Ledger.step (.init config) (before ++ c :: after)).st.memoryManager.live := by
  have hbound : (run Ledger.step (.init config) (before ++ c :: after)).st.boundTo key
      = some o := by
    rw [run_append] at hleft ⊢
    cases after with
    | nil => exact receives_bound hrec
    | cons d after =>
      -- a call within the time-to-live: it is not zero
      have httl : 0 < config.readTtlSeconds := by
        have := htime d mem_cons_self
        omega
      obtain ⟨hbefore, hc, hafter⟩ := along_append.mp hdis
      obtain ⟨hl, hcfg⟩ := run_ledgerOk httl hbefore
      have hp := protected_of_receives hl hrec (by omega)
      simp only [hcfg] at hp
      rw [run_cons]
      exact hp.run hafter (hl.step (hcfg.symm ▸ httl) hc) ((step_config hc.1).trans hcfg) httl
        htime hforce hleft
  exact ⟨hbound, live_of_boundTo hdis hbound⟩

/-- Key `7` is written into object `100`, with a time-to-live of 300 s for
read locks. -/
def storeForReaders : List (ReaderCall String Nat Nat) :=
  [⟨"writer", 0, .reserveWrite [7] [false] "w" ⟨.success, [(100, 8)]⟩⟩,
   ⟨"writer", 1, .finishWrite [7] "w"⟩]

/-- Two readers, the first of which finishes before an eviction. -/
theorem storeForReaders_second_protected :
    (run Ledger.step (.init ⟨600, 300⟩) (storeForReaders ++ ⟨"second", 3, .reserveRead [7] 1⟩ ::
      [⟨"first", 4, .reserveRead [7] 2⟩, ⟨"first", 5, .finishRead [7] 2⟩,
       ⟨"evictor", 6, .delete [7] false⟩])).st.boundTo 7 = some 100 ∧
    100 ∈ (run Ledger.step (.init ⟨600, 300⟩) (storeForReaders ++
      ⟨"second", 3, .reserveRead [7] 1⟩ ::
      [⟨"first", 4, .reserveRead [7] 2⟩, ⟨"first", 5, .finishRead [7] 2⟩,
       ⟨"evictor", 6, .delete [7] false⟩])).st.memoryManager.live := by
  refine read_locks_protect ⟨600, 300⟩ storeForReaders _ ⟨"second", 3, .reserveRead [7] 1⟩ 7 100
    ?_ ?_ (by decide) ?_ (by decide)
  · have hnone : ∀ key : Nat, ¬ (key = 7) → ([7] : List Nat).count key = 0 := by
      intro key h
      simp [Ne.symm h]
    refine ⟨⟨fun _ => ⟨by decide, by decide, by decide⟩, fun _ => Nat.zero_le _⟩,
      ⟨trivial, fun _ => Nat.zero_le _⟩, ⟨trivial, fun _ => Nat.zero_le _⟩,
      ⟨trivial, fun _ => Nat.zero_le _⟩, ⟨trivial, fun key => ?_⟩,
      ⟨trivial, fun _ => Nat.zero_le _⟩, trivial⟩
    by_cases h : key = 7
    · subst h
      decide
    · simp [released, hnone key h]
  · simp only [L1Call.Receives]
    decide
  · simp [L1Op.ForcesOut]

/-- The lock has no owner and its count is clamped. First: a reader whose
lock expired releases late, the lock it hits is the one another reader has
taken since, and the object is evicted under the other reader, who released
nothing. Second: a reader that asked for 200 locks got 128, and the object is
evicted when it has released 128. -/
theorem read_locks_without_owner : (∃ after : List (ReaderCall String Nat Nat),
      (mk 300002 (.reserveRead [7] 1)).Receives
      (run Ledger.step (.init ⟨600, 300⟩) (storeForReaders ++
      [⟨"first", 2, .reserveRead [7] 1⟩])).st 7 100 ∧
      (∀ d ∈ after, 300002 ≤ d.call.now ∧ d.call.now < 300002 + 300 * 1000) ∧
      (∀ d ∈ after, ¬ d.call.op.ForcesOut 7 ∧ d.reader ≠ "second") ∧
      100 ∉ (run Ledger.step (.init ⟨600, 300⟩) (storeForReaders ++
      [⟨"first", 2, .reserveRead [7] 1⟩] ++
      ⟨"second", 300002, .reserveRead [7] 1⟩ :: after)).st.memoryManager.live) ∧
    (∃ after : List (ReaderCall String Nat Nat), (mk 2 (.reserveRead [7] 200)).Receives
      (run Ledger.step (.init ⟨600, 300⟩) storeForReaders).st 7 100 ∧
      (∀ d ∈ after, 2 ≤ d.call.now ∧ d.call.now < 2 + 300 * 1000) ∧
      (∀ d ∈ after, ¬ d.call.op.ForcesOut 7) ∧
      totalReleased "only" 7 (run Ledger.step (.init ⟨600, 300⟩) (storeForReaders ++
      [⟨"only", 2, .reserveRead [7] 200⟩])) after < 200 ∧
      100 ∉ (run Ledger.step (.init ⟨600, 300⟩) (storeForReaders ++
      ⟨"only", 2, .reserveRead [7] 200⟩ :: after)).st.memoryManager.live) := by
  refine ⟨⟨[⟨"first", 300003, .finishRead [7] 1⟩, ⟨"evictor", 300004, .delete [7] false⟩],
      ?_, by decide, by simp [L1Op.ForcesOut], by decide⟩,
    ⟨[⟨"only", 3, .finishRead [7] 128⟩, ⟨"evictor", 4, .delete [7] false⟩],
      ?_, by decide, by simp [L1Op.ForcesOut], by decide +kernel, by decide +kernel⟩⟩
  · simp only [L1Call.Receives]
    decide
  · simp only [L1Call.Receives]
    decide +kernel

end Runs

end LMCache.L1Manager
