/-
LMCache.StorageControllers.Holdings — what a request holds, and what leaves
it alone.

A request can hold read locks in L1 managers, locks ("pins") in L2 adapters,
and outstanding lookup and load tasks; `holds` is the net amount of each over
the trace. Its staging entries are those under its own tag.

Every act is made for one request or for none. An act for another request
changes nothing a request holds, and, as long as its reservations do not
expire and nobody uses its tag or force (`Quiet`), none of its staging
entries: this is `Frame`. The own calls of a request are described one by
one, by `total_callL1` and the `staged_callL1` lemmas.

The trace also has the holders of every read lock. As long as all its calls are
secure (`SecureFor`) and the request is `Solvent`, what the request holds is what
the L1 managers count (`Booked`).
-/
import LMCache.StorageControllers.World

namespace LMCache.StorageControllers

open List Lib Native L1Manager World

variable {Key Obj : Type} [DecidableEq Key]

/-! ## Amounts -/

/-- A thing a request can hold. -/
inductive Item (Key : Type) where
  | read (l1Idx : Nat) (key : Key)
  | pin (adapter : Nat) (key : Key)
  | lookup (adapter : Nat)
  | load (adapter : Nat)
  deriving DecidableEq

omit [DecidableEq Key] in
/-- What holds of the pins and of the tasks holds of all items but the read locks. -/
lemma Item.rest {P : Item Key → Prop} (hpin : ∀ adapter key, P (.pin adapter key))
    (hlookup : ∀ adapter, P (.lookup adapter)) (hload : ∀ adapter, P (.load adapter))
    (x : Item Key) (hx : ∀ l1Idx key, x ≠ .read l1Idx key) : P x := by
  cases x with
  | read l1Idx key => exact absurd rfl (hx l1Idx key)
  | pin adapter key => exact hpin adapter key
  | lookup adapter => exact hlookup adapter
  | load adapter => exact hload adapter

/-- The request an act is made for. -/
def Act.requester : Act Key Obj → Option Nat
  | .l1 caller _ _ _ => caller
  | .submitLookup request _ _ => some request
  | .lookupReply request _ _ _ => some request
  | .submitUnlock request _ _ => some request
  | .submitLoad request _ _ _ _ => some request
  | .loadReply request _ _ _ => some request
  | .publish request _ _ _ => some request
  | .retire request _ _ => some request
  | .wake => none

/-- What an act adds to the item. -/
def Act.amount : Item Key → Act Key Obj → Int
  | .read l1Idx key, .l1 _ idx found call =>
    if idx = l1Idx then (call.granted found key : Int) - givenBack key call.op else 0
  | .pin adapter key, .lookupReply _ idx _ (some keys) =>
    if idx = adapter then keys.count key else 0
  | .pin adapter key, .submitUnlock _ idx keys =>
    if idx = adapter then -(keys.count key : Int) else 0
  | .lookup adapter, .submitLookup _ idx (some _) => if idx = adapter then 1 else 0
  | .lookup adapter, .lookupReply _ idx _ (some _) => if idx = adapter then -1 else 0
  | .load adapter, .submitLoad _ idx (some _) _ _ => if idx = adapter then 1 else 0
  | .load adapter, .loadReply _ idx _ (some _) => if idx = adapter then -1 else 0
  | _, _ => 0

/-- The call, if it is one on the L1 manager; `own` if the request made it. -/
def Act.seen (request l1Idx : Nat) : Act Key Obj → Option (SeenCall Key Obj)
  | .l1 caller idx found call =>
    if idx = l1Idx then some ⟨found, decide (caller = some request), call⟩ else none
  | _ => none

/-- The act admits loaded keys of which one has no live staging entry. -/
def Act.misses : Act Key Obj → Bool
  | .l1 _ _ found ⟨now, .finishWriteAndReserveRead keys _ tag⟩ =>
    keys.any fun key => !found.stagesLive now key tag
  | _ => false

section

variable (request : Nat) (trace : List (Act Key Obj))

/-- What the calls of other threads must not do, and the clock must not show,
during a request: no force, no use of its tag, no expired reservation of it.
The allocator keeps its promise throughout. -/
structure QuietCall (caller : Option Nat) (found : L1State Key Obj) (call : L1Call Key Obj) :
    Prop where
  honest : call.op.AllocatorHonest found
  others : caller = none →
    call.op.forces = false ∧ ∀ key, ¬ call.op.Names key (getPrefetchWriteTag request)
  unexpired : ∀ key entry, found.getStaging key (getPrefetchWriteTag request) = some entry →
    entry.writeLock.isLocked call.now

/-- Every L1 call of the trace is quiet for the request. -/
def Quiet : Prop :=
  ∀ caller idx found call, .l1 caller idx found call ∈ trace →
    QuietCall request caller found call

/-- The calls on one L1 manager. -/
def callsOn (l1Idx : Nat) : List (SeenCall Key Obj) := trace.filterMap (Act.seen request l1Idx)

/-- Every L1 call of the trace is secure for the request. -/
def SecureFor [DecidableEq Obj] : Prop := ∀ l1Idx, Secure (callsOn request trace l1Idx)

/-- No load of the request was admitted without its staging entry. -/
def NeverMissed : Prop :=
  ∀ a ∈ trace, a.requester = some request → a.misses = false

end

namespace World

variable (w : World Key Obj) (request : Nat)

/-- The sum of `f` over the acts of a request. -/
def total (f : Act Key Obj → Int) : Int :=
  (w.trace.map fun a => if a.requester = some request then f a else 0).sum

/-- The net amount of the item the request holds. -/
def holds (x : Item Key) : Int :=
  w.total request (Act.amount x)

/-- The holders of the read locks of an L1 manager: `true` for the request, once
per lock. -/
def holders [DecidableEq Obj] (l1Idx : Nat) : Key → List Bool :=
  lockHolders (callsOn request w.trace l1Idx)

/-- The books of every L1 manager agree with what the request holds. -/
def Booked [DecidableEq Obj] : Prop :=
  ∀ l1Idx, Books (w.l1 l1Idx) (callsOn request w.trace l1Idx)

/-- The request gave back no more than it was granted. -/
def Solvent : Prop := ∀ l1Idx key, 0 ≤ w.holds request (.read l1Idx key)

/-- The request has a staging entry for the key. -/
def staged (l1Idx : Nat) (key : Key) : Bool :=
  ((w.l1 l1Idx).getStaging key (getPrefetchWriteTag request)).isSome

variable {w request} in
lemma total_eq_zero {f : Act Key Obj → Int}
    (h : ∀ a ∈ w.trace, a.requester = some request → f a = 0) : w.total request f = 0 := by
  refine sum_eq_zero fun x hx => ?_
  obtain ⟨a, ha, rfl⟩ := mem_map.mp hx
  exact ite_eq_right_iff.mpr (h a ha)

end World

lemma Quiet.of_append {request : Nat} {acts acts' : List (Act Key Obj)}
    (h : Quiet request (acts ++ acts')) : Quiet request acts :=
  fun caller idx found call hmem => h caller idx found call (mem_append_left _ hmem)

lemma NeverMissed.of_append {request : Nat} {acts acts' : List (Act Key Obj)}
    (h : NeverMissed request (acts ++ acts')) : NeverMissed request acts :=
  fun a hmem => h a (mem_append_left _ hmem)

lemma SecureFor.of_append [DecidableEq Obj] {request : Nat} {acts acts' : List (Act Key Obj)}
    (h : SecureFor request (acts ++ acts')) : SecureFor request acts := by
  intro l1Idx
  have hidx := h l1Idx
  rw [callsOn, filterMap_append, Secure, along_append] at hidx
  exact hidx.1

/-! ## The books -/

section Books

variable [DecidableEq Obj] {request : Nat} {w : World Key Obj}

omit [DecidableEq Obj] in
/-- The account of the books is what the request holds. -/
lemma netLocks_callsOn (l1Idx : Nat) (key : Key) :
    netLocks (callsOn request w.trace l1Idx) key = w.holds request (.read l1Idx key) := by
  rw [netLocks, callsOn, World.holds, total]
  induction w.trace with
  | nil => rfl
  | cons a acts ih =>
    rw [map_cons, sum_cons, ← ih, filterMap_cons]
    cases a with
    | l1 caller idx found call =>
      by_cases hidx : idx = l1Idx
      · simp [Act.seen, Act.requester, Act.amount, hidx]
      · simp [Act.seen, Act.amount, hidx]
    | _ => simp [Act.seen, Act.amount]

lemma World.Booked.solvent (h : w.Booked request) : w.Solvent request := by
  intro l1Idx key
  rw [← netLocks_callsOn, ← (h l1Idx).own key]
  exact Int.natCast_nonneg _

lemma World.Booked.record {a : Act Key Obj} (h : w.Booked request)
    (ha : ∀ l1Idx, a.seen request l1Idx = none) : (w.record a).Booked request := by
  intro l1Idx
  have hcalls : callsOn request (w.trace ++ [a]) l1Idx = callsOn request w.trace l1Idx := by
    simp [callsOn, ha]
  rw [World.record, hcalls]
  exact h l1Idx

/-- A secure call keeps the books, unless the request gives back more than it
holds. -/
lemma World.Booked.onL1 {caller : Option Nat} {l1Idx : Nat} {call : L1Call Key Obj}
    (h : w.Booked request) (hsecure : SecureFor request (w.onL1 caller l1Idx call).trace)
    (hsolvent : caller = some request → (w.onL1 caller l1Idx call).Solvent request) :
    (w.onL1 caller l1Idx call).Booked request := by
  intro idx
  have hcalls : callsOn request (w.onL1 caller l1Idx call).trace idx = callsOn request w.trace idx ++
      if l1Idx = idx then [⟨w.l1 l1Idx, decide (caller = some request), call⟩] else [] := by
    simp only [callsOn, World.onL1, filterMap_append]
    by_cases heq : l1Idx = idx <;> simp [Act.seen, heq]
  have hidx := hsecure idx
  have hnet := fun hown => hsolvent hown idx
  simp only [← netLocks_callsOn] at hnet
  rw [hcalls] at hidx hnet ⊢
  by_cases heq : l1Idx = idx
  · subst heq
    simp only [if_true, World.onL1, Function.update_self] at hidx hnet ⊢
    exact (h l1Idx).call (along_append.mp hidx).2.1 fun hown => hnet (of_decide_eq_true hown)
  · simp only [if_neg heq, append_nil, World.onL1, Function.update_of_ne (Ne.symm heq)]
    exact h idx

end Books

/-! ## What leaves a request alone -/

lemma extended_trans {t t' t'' : List (Act Key Obj)} {P : Act Key Obj → Prop}
    (h : ∃ acts, t' = t ++ acts ∧ ∀ a ∈ acts, P a)
    (h' : ∃ acts, t'' = t' ++ acts ∧ ∀ a ∈ acts, P a) :
    ∃ acts, t'' = t ++ acts ∧ ∀ a ∈ acts, P a := by
  obtain ⟨acts, ht, hacts⟩ := h
  obtain ⟨acts', ht', hacts'⟩ := h'
  refine ⟨acts ++ acts', by rw [ht', ht, append_assoc], fun a ha => ?_⟩
  rcases mem_append.mp ha with ha | ha
  · exact hacts a ha
  · exact hacts' a ha

/-- `w'` is reached from `w` without acts of the request, and its staging
entries stay, and so do the books. -/
structure Frame [DecidableEq Obj] (request : Nat) (w w' : World Key Obj) : Prop where
  trace : ∃ acts, w'.trace = w.trace ++ acts ∧ ∀ a ∈ acts, a.requester ≠ some request
  staged : Quiet request w'.trace → ∀ l1Idx key,
    w'.staged request l1Idx key = w.staged request l1Idx key
  booked : SecureFor request w'.trace → w.Booked request → w'.Booked request

variable [DecidableEq Obj]

namespace Frame

variable {request : Nat} {w w' w'' : World Key Obj}

lemma refl (w : World Key Obj) : Frame request w w := ⟨⟨[], by simp⟩, fun _ _ _ => rfl, fun _ => id⟩

section

variable (h : Frame request w w')
include h

lemma trans (h' : Frame request w' w'') : Frame request w w'' where
  trace := extended_trans h.trace h'.trace
  staged hq l1Idx key := by
    obtain ⟨acts', hw', -⟩ := h'.trace
    exact (h'.staged hq l1Idx key).trans (h.staged ((hw' ▸ hq).of_append) l1Idx key)
  booked hsecure hbooked := by
    obtain ⟨acts', hw', -⟩ := h'.trace
    exact h'.booked hsecure (h.booked ((hw' ▸ hsecure).of_append) hbooked)

lemma total (f : Act Key Obj → Int) : w'.total request f = w.total request f := by
  obtain ⟨acts, hw, hacts⟩ := h.trace
  have hzero : (acts.map fun a => if a.requester = some request then f a else 0).sum = 0 := by
    refine sum_eq_zero fun x hx => ?_
    obtain ⟨a, ha, rfl⟩ := mem_map.mp hx
    exact if_neg (hacts a ha)
  rw [World.total, hw, map_append, sum_append, hzero, add_zero]
  rfl

lemma neverMissed : NeverMissed request w'.trace ↔ NeverMissed request w.trace := by
  obtain ⟨acts, hw, hacts⟩ := h.trace
  rw [hw]
  refine ⟨NeverMissed.of_append, fun hn a ha hr => ?_⟩
  rcases mem_append.mp ha with ha | ha
  · exact hn a ha hr
  · exact absurd hr (hacts a ha)

lemma quiet (hq : Quiet request w'.trace) : Quiet request w.trace := by
  obtain ⟨acts, hw, -⟩ := h.trace
  exact (hw ▸ hq).of_append

lemma mem_trace {a : Act Key Obj} (ha : a.requester = some request) :
    a ∈ w'.trace ↔ a ∈ w.trace := by
  obtain ⟨acts, hw, hacts⟩ := h.trace
  rw [hw, mem_append]
  exact ⟨fun h => h.resolve_right fun hmem => hacts a hmem ha, .inl⟩

end

end Frame

variable {env : Environment Key Obj} {request : Nat} {w : World Key Obj}

lemma frame_record {a : Act Key Obj} (ha : a.requester ≠ some request)
    (hseen : ∀ l1Idx, a.seen request l1Idx = none) : Frame request w (w.record a) where
  trace := ⟨[a], rfl, fun _ hb => mem_singleton.mp hb ▸ ha⟩
  staged _ _ _ := rfl
  booked _ h := h.record hseen

variable {l1Idx : Nat}

lemma staged_onL1 {caller : Option Nat} {call : L1Call Key Obj}
    (hq : Quiet request (w.onL1 caller l1Idx call).trace) (hforce : call.op.forces = false)
    {idx : Nat} {key : Key}
    (hname : idx = l1Idx → ¬ call.op.Names key (getPrefetchWriteTag request)) :
    (w.onL1 caller l1Idx call).staged request idx key = w.staged request idx key := by
  have hcall : QuietCall request caller (w.l1 l1Idx) call :=
    hq _ _ _ _ (mem_append_right _ (mem_singleton_self _))
  simp only [staged, onL1]
  by_cases hidx : idx = l1Idx
  · subst hidx
    rw [Function.update_self, step_getStaging hcall.honest hforce (hcall.unexpired key)
      fun h => absurd h (hname rfl)]
  · rw [Function.update_of_ne hidx]

lemma frame_onL1_other {call : L1Call Key Obj} : Frame request w (w.onL1 none l1Idx call) where
  trace := ⟨[_], rfl, fun a ha => by rw [mem_singleton.mp ha]; simp [Act.requester]⟩
  staged hq idx key := by
    have hcall : QuietCall request none (w.l1 l1Idx) call :=
      hq _ _ _ _ (mem_append_right _ (mem_singleton_self _))
    obtain ⟨hforce, hname⟩ := hcall.others rfl
    exact staged_onL1 hq hforce fun _ => hname key
  booked hsecure h := h.onL1 hsecure nofun

lemma frame_interleave : Frame request w (w.interleave env) := by
  unfold World.interleave
  generalize env.others w.trace.length = calls
  induction calls generalizing w with
  | nil => exact .refl w
  | cons c calls ih => exact frame_onL1_other.trans ih

/-- The calls a request makes: they never force and use its own tag only. -/
def OwnCall (request : Nat) (op : L1Op Key Obj) : Prop :=
  op.forces = false ∧ ∀ key tag, op.Names key tag → tag = getPrefetchWriteTag request

variable {op : L1Op Key Obj}

lemma frame_callL1 {caller : Nat} (hop : OwnCall caller op) (hne : caller ≠ request) :
    Frame request w (w.callL1 env caller l1Idx op) := by
  refine frame_interleave.trans ⟨⟨[_], rfl, fun a ha => ?_⟩, fun hq idx key => ?_,
    fun hsecure h => h.onL1 hsecure fun heq => absurd (Option.some.inj heq) hne⟩
  · rw [mem_singleton.mp ha]
    exact fun h => hne (Option.some.inj h)
  · refine staged_onL1 hq hop.1 fun _ hname => hne ?_
    exact getPrefetchWriteTag_inj (hop.2 key _ hname).symm

/-! ## The calls of the request itself -/

omit [DecidableEq Obj] in
lemma total_record (f : Act Key Obj → Int) (a : Act Key Obj) : (w.record a).total request f
      = w.total request f + if a.requester = some request then f a else 0 := by
  simp [total, record]

lemma total_callL1 (f : Act Key Obj → Int) (l1Idx : Nat) (op : L1Op Key Obj) :
    (w.callL1 env request l1Idx op).total request f = w.total request f
      + f (.l1 (some request) l1Idx (w.met env l1Idx) ⟨w.time env, op⟩) := by
  have hothers : (w.interleave env).total request f = w.total request f := frame_interleave.total f
  rw [← hothers]
  simp [total, callL1, onL1, met, Act.requester]

lemma quiet_interleave_of_callL1 (hq : Quiet request (w.callL1 env request l1Idx op).trace) :
    Quiet request (w.interleave env).trace ∧
      QuietCall request (some request) (w.met env l1Idx) ⟨w.time env, op⟩ :=
  ⟨hq.of_append, hq _ _ _ _ (mem_append_right _ (mem_singleton_self _))⟩

/-- A staging entry the call does not name stays. -/
lemma staged_callL1_other (hforce : op.forces = false)
    (hq : Quiet request (w.callL1 env request l1Idx op).trace) {idx : Nat} {key : Key}
    (hname : idx = l1Idx → ¬ op.Names key (getPrefetchWriteTag request)) :
    (w.callL1 env request l1Idx op).staged request idx key = w.staged request idx key := by
  have hown := staged_onL1 hq hforce hname
  rw [callL1, hown]
  exact frame_interleave.staged (quiet_interleave_of_callL1 hq).1 idx key

/-- The two calls that take staging entries. -/
inductive Finishes (request : Nat) (keys : List Key) : L1Op Key Obj → Prop
  | reserveRead (n : Int) :
    Finishes request keys (.finishWriteAndReserveRead keys n (getPrefetchWriteTag request))
  | delete : Finishes request keys (.finishWriteAndDelete keys (getPrefetchWriteTag request))

/-- A finishing call takes the entries it names and no other. -/
lemma staged_callL1_finish {keys : List Key} (hop : Finishes request keys op)
    (hq : Quiet request (w.callL1 env request l1Idx op).trace) (idx : Nat) (key : Key) :
    (w.callL1 env request l1Idx op).staged request idx key
      = (w.staged request idx key && !(decide (idx = l1Idx) && decide (key ∈ keys))) := by
  obtain ⟨hq', hcall⟩ := quiet_interleave_of_callL1 hq
  have hbefore := frame_interleave.staged hq' idx key
  rw [← hbefore]
  by_cases hidx : idx = l1Idx
  · subst hidx
    have hlive := hcall.unexpired key
    have hstep : ((w.met env idx).step ⟨w.time env, op⟩).getStaging key (getPrefetchWriteTag request)
        = if key ∈ keys then ((w.met env idx).getStaging key (getPrefetchWriteTag request)).filter
            (fun e => !e.writeLock.isLocked (w.time env))
          else (w.met env idx).getStaging key (getPrefetchWriteTag request) := by
      cases hop with
      | reserveRead n => exact finishWriteAndReserveRead_getStaging keys n _ key
      | delete => exact finishWriteAndDelete_getStaging keys _ key
    simp only [staged, callL1, onL1, Function.update_self]
    simp only [met] at hstep hlive
    rw [hstep]
    cases he : ((w.interleave env).l1 idx).getStaging key (getPrefetchWriteTag request) with
    | none => by_cases hk : key ∈ keys <;> simp
    | some e =>
      have hl := hlive e he
      by_cases hk : key ∈ keys <;> simp [hk, hl]
  · simp [staged, callL1, onL1, hidx]

end LMCache.StorageControllers
