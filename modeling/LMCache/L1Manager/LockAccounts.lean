/-
LMCache.L1Manager.LockAccounts — the read locks of one caller.

A controller shares the L1 manager with other threads. Its trace has every call
with the manager the call found (`SeenCall`), so the holders of every read lock
can be computed from it: `true` stands for the controller, `false` for everybody
else. The controller keeps its own account, of what it was granted and what it
gave back (`netLocks`).

While no lock in use expires, nobody forces and the others release only what
they hold (`SecureCall`), the two agree and the counter of the lock is the
number of its holders (`Books`), as long as the account is never overdrawn.
-/
import LMCache.L1Manager.ReadLocks
import LMCache.L1Manager.Reservations
import Mathlib.Algebra.Ring.Int.Defs

namespace LMCache.L1Manager

open List Lib Native L1Call TTLLock L1State

variable {Key Obj : Type} [DecidableEq Key] [DecidableEq Obj]

/-- The read locks on `key` a call gives back. -/
def givenBack (key : Key) : L1Op Key Obj → Nat
  | .finishRead keys n => keys.count key * validateReadLocks n
  | _ => 0

/-- A call with the manager it found; `own` if the controller made it. -/
structure SeenCall (Key Obj : Type) [DecidableEq Key] where
  found : L1State Key Obj
  own : Bool
  call : L1Call Key Obj

/-- The holders of the read locks after the call. -/
def passOn (held : Key → List Bool) (c : SeenCall Key Obj) : Key → List Bool :=
  (Ledger.step ⟨c.found, held⟩ ⟨c.own, c.call⟩).holders

/-- The holders of the read locks after the calls. -/
def lockHolders (calls : List (SeenCall Key Obj)) : Key → List Bool :=
  run passOn (fun _ => []) calls

/-- What the controller's calls took less what they gave back. -/
def netLocks (calls : List (SeenCall Key Obj)) (key : Key) : Int :=
  (calls.map fun c => if c.own then (c.call.granted c.found key : Int) - givenBack key c.call.op
    else 0).sum

/-- No read lock in use has expired, the call does not force, and if it is not
the controller's it releases no more than the others hold. -/
structure SecureCall (held : Key → List Bool) (c : SeenCall Key Obj) : Prop where
  honest : c.call.op.AllocatorHonest c.found
  unforced : c.call.op.forces = false
  unexpired : ∀ key e, c.found.objects.get? key = some e → 0 < e.readLock.counter →
    c.call.now < e.readLock.expirationMs
  lasting : 0 < c.found.config.readTtlSeconds
  others : c.own = false → ∀ key, c.call.released c.found key ≤ (held key).count false

/-- Every call is secure. -/
def Secure (calls : List (SeenCall Key Obj)) : Prop :=
  Along passOn SecureCall (fun _ => []) calls

/-- The counter of each read lock is the number of its holders, and the
controller's account says how often it is one of them. -/
structure Books (s : L1State Key Obj) (calls : List (SeenCall Key Obj)) : Prop where
  ledger : LedgerOk ⟨s, lockHolders calls⟩
  own : ∀ key, ((lockHolders calls key).count true : Int) = netLocks calls key

lemma books_nil (config : L1ManagerConfig) : Books (.init config : L1State Key Obj) [] :=
  ⟨⟨entriesOk_init config, fun _ _ => rfl, nofun⟩, fun _ => rfl⟩

/-! ## One call -/

section

variable {s : L1State Key Obj} {c : L1Call Key Obj} {key : Key}

omit [DecidableEq Obj] in
lemma released_le_givenBack : c.released s key ≤ givenBack key c.op := by
  obtain ⟨now, op⟩ := c
  cases op with
  | finishRead keys n =>
    simp only [released, givenBack]
    split
    · exact Nat.le_refl _
    · exact Nat.zero_le _
  | _ => exact Nat.le_refl _

omit [DecidableEq Obj] in
lemma released_of_locked {e : L1ObjectState Obj} (he : s.objects.get? key = some e)
    (hl : e.readLock.isLocked c.now) : c.released s key = givenBack key c.op := by
  obtain ⟨now, op⟩ := c
  cases op with
  | finishRead keys n =>
    have hany : (s.objects.get? key).any (fun e => e.readLock.isLocked now) := by
      rw [he]
      exact hl
    simp only [released, givenBack, if_pos hany]
  | _ => rfl

variable (s c key) in
omit [DecidableEq Obj] in
/-- A call takes read locks or gives some back. -/
lemma granted_or_givenBack : c.granted s key = 0 ∨ givenBack key c.op = 0 := by
  obtain ⟨now, op⟩ := c
  cases op with
  | finishRead keys n => exact .inl rfl
  | _ => exact .inr rfl

/-- A key on which locks were granted is resident. -/
lemma granted_of_absent (h : (s.step c).objects.get? key = none) : c.granted s key = 0 := by
  obtain ⟨now, op⟩ := c
  cases op with
  | reserveRead keys n =>
    rw [reserveRead_get?, Option.map_eq_none_iff] at h
    exact if_neg (Dict.not_mem_iff_get?.mpr h)
  | finishWriteAndReserveRead keys n tag =>
    refine if_neg fun hlive => ?_
    obtain ⟨staged, hst, hl⟩ := (Option.any_eq_true _ _).mp hlive.2
    rw [finishWriteAndReserveRead_get?, if_pos hlive.1, hst, Option.filter_some, if_pos hl] at h
    cases h
  | _ => rfl

omit [DecidableEq Key] [DecidableEq Obj] in
lemma not_forcesOut {op : L1Op Key Obj} (h : op.forces = false) : ¬ op.ForcesOut key := by
  cases op <;> simp_all [L1Op.forces, L1Op.ForcesOut]

variable {held : Key → List Bool} {own : Bool}

section

variable (hl : LedgerOk ⟨s, held⟩) (hc : SecureCall held ⟨s, own, c⟩)
include hl hc

omit [DecidableEq Obj] in
/-- A lock with a holder is locked. -/
lemma SecureCall.locked {r : Bool} (hr : 0 < (held key).count r) :
    ∃ e, s.objects.get? key = some e ∧ e.readLock.isLocked c.now ∧
      c.now < e.readLock.expirationMs := by
  have hlen : (held key).count r ≤ (held key).length := count_le_length
  cases he : s.objects.get? key with
  | none =>
    have hnone : held key = [] := hl.absent key he
    simp [hnone] at hr
  | some e =>
    have hcounter : e.readLock.counter = (held key).length := hl.counted key e he
    have hlive := hc.unexpired key e he (by omega)
    exact ⟨e, rfl, isLocked_iff.mpr ⟨by omega, hlive⟩, hlive⟩

/-- A secure call drops only keys whose locks the caller releases. -/
lemma SecureCall.count_le_of_absent (hdis : Disciplined ⟨s, held⟩ ⟨own, c⟩)
    (h : (s.step c).objects.get? key = none) (r : Bool) :
    (held key).count r ≤ if own = r then c.released s key else 0 := by
  by_contra hlt
  obtain ⟨e, he, -, hlive⟩ := hc.locked hl (Nat.lt_of_le_of_lt (Nat.zero_le _) (not_le.mp hlt))
  have hlasting := hc.lasting
  dsimp only at hlasting
  have hprotected : Protected ⟨s, held⟩ r key e.memoryObj (c.now + 1) ((held key).count r) :=
    ⟨e, he, rfl, by omega, Nat.le_refl _⟩
  obtain ⟨e', he', -⟩ := hprotected.step hdis hl (by dsimp only; omega) (by dsimp only; omega)
    (not_forcesOut hc.unforced) (not_le.mp hlt)
  exact absurd (h.symm.trans he') (by simp)

omit [DecidableEq Obj] in
/-- Nobody loses a lock because it is taken after its deadline. -/
lemma SecureCall.remaining (key : Key) : ReaderCall.remaining s ⟨own, c⟩ key (held key)
    = (held key).diff (replicate (c.released s key) own) := by
  unfold ReaderCall.remaining
  split_ifs with hrestart
  · obtain ⟨e, he, hexp⟩ := (Option.any_eq_true _ _).mp (Bool.and_eq_true_iff.mp hrestart).2
    have hcounter : e.readLock.counter = (held key).length := hl.counted key e he
    have hexp := of_decide_eq_true hexp
    have hnone : held key = [] := by
      refine length_eq_zero_iff.mp (Nat.eq_zero_of_not_pos fun hpos => ?_)
      have hlive := hc.unexpired key e he (by omega)
      dsimp only at hexp hlive
      omega
    rw [hnone, nil_diff]
  · rfl

end

variable {calls : List (SeenCall Key Obj)}

/-- A secure call keeps the books, unless it is the controller's and overdraws
its account. -/
lemma Books.call (h : Books s calls) (hc : SecureCall (lockHolders calls) ⟨s, own, c⟩)
    (hown : own → ∀ key, 0 ≤ netLocks (calls ++ [⟨s, own, c⟩]) key) :
    Books (s.step c) (calls ++ [⟨s, own, c⟩]) := by
  have hholders : lockHolders (calls ++ [⟨s, own, c⟩])
      = (Ledger.step ⟨s, lockHolders calls⟩ ⟨own, c⟩).holders := run_append ..
  have hnet : ∀ key, netLocks (calls ++ [⟨s, own, c⟩]) key = netLocks calls key +
      if own then (c.granted s key : Int) - givenBack key c.op else 0 := by
    simp [netLocks]
  have hdis : Disciplined ⟨s, lockHolders calls⟩ ⟨own, c⟩ := by
    refine ⟨hc.honest, fun key => ?_⟩
    cases own with
    | false => exact hc.others rfl key
    | true =>
      have hafter := hown rfl key
      have hbefore := h.own key
      have hle : c.released s key ≤ givenBack key c.op := released_le_givenBack
      rw [hnet, if_pos rfl] at hafter
      dsimp only
      rcases granted_or_givenBack s c key with hzero | hzero <;> omega
  have hledger : LedgerOk ⟨s.step c, (Ledger.step ⟨s, lockHolders calls⟩ ⟨own, c⟩).holders⟩ :=
    LedgerOk.step hc.lasting hdis h.ledger
  rw [← hholders] at hledger
  refine ⟨hledger, fun key => ?_⟩
  have hbefore := h.own key
  have hle : c.released s key ≤ givenBack key c.op := released_le_givenBack
  have hafter := fun hself => hown hself key
  rw [hnet] at hafter ⊢
  rw [hholders]
  cases he : (s.step c).objects.get? key with
  | none =>
    have hgone := hc.count_le_of_absent h.ledger hdis he true
    have hnone : (Ledger.step ⟨s, lockHolders calls⟩ ⟨own, c⟩).holders key = [] :=
      if_neg (Dict.not_mem_iff_get?.mpr he)
    rw [hnone, count_nil]
    have hgranted := granted_of_absent he
    cases own with
    | false =>
      simp only [Bool.false_eq_true, if_false] at hgone ⊢
      omega
    | true =>
      simp only [if_true] at hgone hafter ⊢
      have hpositive := hafter trivial
      omega
  | some e =>
    rw [step_holders_of_mem he, hc.remaining h.ledger, count_append, count_diff]
    cases own with
    | false => simpa [count_replicate] using hbefore
    | true =>
      simp only [count_replicate_self, if_true] at hafter ⊢
      have hpositive := hafter trivial
      -- a lock that is held is locked, so what is given back is released
      have hreleased : 0 < (lockHolders calls key).count true →
          c.released s key = givenBack key c.op := by
        intro hpos
        obtain ⟨e₀, he₀, hlocked, -⟩ := hc.locked h.ledger hpos
        exact released_of_locked he₀ hlocked
      rcases granted_or_givenBack s c key with hzero | hzero
      · rcases Nat.eq_zero_or_pos ((lockHolders calls key).count true) with hnone | hpos
        · omega
        · have := hreleased hpos
          omega
      · omega

end

/-! ## Calls that are secure by themselves -/

/-- The allocator's promise can be evaluated. -/
instance (op : L1Op Key Obj) (s : L1State Key Obj) : Decidable (op.AllocatorHonest s) :=
  match op with
  | .reserveWrite keys isTemporary tag alloc =>
    decidable_of_iff (freshItems s keys isTemporary tag ≠ [] →
      (alloc.objs.map Prod.fst).Nodup ∧
        (∀ o ∈ alloc.objs.map Prod.fst, o ∉ s.memoryManager.live) ∧
        (alloc.err = .success → alloc.objs.length = (freshItems s keys isTemporary tag).length))
      ⟨fun h hfresh => ⟨(h hfresh).1, (h hfresh).2.1, (h hfresh).2.2⟩,
        fun h hfresh => ⟨(h hfresh).nodup, (h hfresh).fresh, (h hfresh).length⟩⟩
  | .reserveRead .. => isTrue trivial
  | .unsafeRead .. => isTrue trivial
  | .finishRead .. => isTrue trivial
  | .finishWrite .. => isTrue trivial
  | .finishWriteAndReserveRead .. => isTrue trivial
  | .finishWriteAndDelete .. => isTrue trivial
  | .delete .. => isTrue trivial
  | .touchKeys .. => isTrue trivial
  | .clear .. => isTrue trivial

/-- The call is secure whoever holds the locks: only the controller releases. -/
def SeenCall.calm (c : SeenCall Key Obj) : Bool :=
  decide (c.call.op.AllocatorHonest c.found) && !c.call.op.forces &&
    decide (0 < c.found.config.readTtlSeconds) && c.found.objects.values.all (fun e =>
      decide (e.readLock.counter ≤ 0) || decide (c.call.now < e.readLock.expirationMs)) &&
    match c.call.op with
    | .finishRead .. => c.own
    | _ => true

lemma secure_of_calm {calls : List (SeenCall Key Obj)} (h : calls.all SeenCall.calm) :
    Secure calls := by
  refine along_iff_forall.mpr fun before c after hcalls => ?_
  have hcalm := all_eq_true.mp h c (by simp [hcalls])
  simp only [SeenCall.calm, Bool.and_eq_true, decide_eq_true_eq, all_eq_true, Bool.or_eq_true,
    Bool.not_eq_true'] at hcalm
  obtain ⟨⟨⟨⟨hhonest, hforce⟩, hlasting⟩, hlive⟩, hown⟩ := hcalm
  refine ⟨hhonest, hforce, fun key e he hpos => ?_, hlasting, fun hother key => ?_⟩
  · exact (hlive e (Dict.mem_values.mpr ⟨key, he⟩)).resolve_left (by omega)
  · rw [hother] at hown
    unfold released
    split
    · simp_all
    · exact Nat.zero_le _

end LMCache.L1Manager
