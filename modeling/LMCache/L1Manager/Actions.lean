/-
LMCache.L1Manager.Actions — what a call can do to the manager's tables.

A method of the manager moves memory objects between four places: the
allocator, the staging table, the resident map, and its own local lists
(`need_to_free`, `discarded`, `allocated_objs`, `freed`). This module names
the moves. An `Action` touches one key (or calls the allocator), `Does`
says when it is enabled and what it changes, and `L1Op.Allows` is the table
of which call may take which action. `step_reaches` is the connection with
the methods: every call is a chain of allowed actions, with nothing left in
the local lists at its end. Invariants are then proved once per action.

The objects in the local lists are in `limbo`: handed out, but referenced
by neither table.
-/
import LMCache.L1Manager.Base
import LMCache.Lib.Run

namespace LMCache.L1Manager

open Lib Native Relation

variable {Key Obj : Type} [DecidableEq Key] [DecidableEq Obj]

/-! ## The allocator's side of the contract -/

/-- Neither resident nor staged under `tag`. -/
def L1State.isFresh (s : L1State Key Obj) (tag : String) (key : Key) : Bool :=
  decide (key ∉ s.objects) && (s.getStaging key tag).isNone

section

variable (s : L1State Key Obj) (key : Key)

/-- The `(key, is_temporary)` pairs for which `reserve_write` has to allocate. -/
def freshItems (keys : List Key) (isTemporary : List Bool) (tag : String) : List (Key × Bool) :=
  (keys.zip isTemporary).filter (fun p => s.isFresh tag p.1)

/-- What an allocator promises when asked for `count` objects: it hands out
distinct objects that are not already handed out, and `count` of them when
it reports success. -/
structure AllocOutcome.Honest (alloc : AllocOutcome Obj) (m : MemoryManager Obj)
    (count : Nat) : Prop where
  nodup : (alloc.objs.map Prod.fst).Nodup
  fresh : ∀ o ∈ alloc.objs.map Prod.fst, o ∉ m.live
  length : alloc.err = .success → alloc.objs.length = count

/-- The allocator keeps its promise in the `allocate` call this operation
makes, if it makes one. -/
def L1Op.AllocatorHonest : L1Op Key Obj → Prop
  | .reserveWrite keys isTemporary tag alloc =>
    freshItems s keys isTemporary tag ≠ [] →
      alloc.Honest s.memoryManager (freshItems s keys isTemporary tag).length
  | _ => True

/-- A `reserve_write` that names twice a key it has to allocate for, and
gets the memory. -/
def L1Op.RepeatsFreshKey : L1Op Key Obj → Prop
  | .reserveWrite keys isTemporary tag alloc =>
    keys.length = isTemporary.length ∧ alloc.err = .success ∧
      ¬ ((freshItems s keys isTemporary tag).map Prod.fst).Nodup
  | _ => False

/-! ## Actions -/

/-- Why a resident object is dropped. -/
inductive DropReason where
  /-- `finish_read` released the last of the `count` locks of a temporary object. -/
  | temporary (count : Nat)
  | unlocked
  | forced

/-- Why a staging object is taken off the table. -/
inductive UnstageReason where
  | finished
  | expired
  | forced

def DropReason.Applies (now : Int) (e : L1ObjectState Obj) : DropReason → Prop
  | .temporary count => e.isTemporary ∧ e.readLock.isLocked now ∧
      (e.readLock.unlockTimes count).isLocked now = false
  | .unlocked => e.readLock.isLocked now = false
  | .forced => True

def UnstageReason.Applies (now : Int) (e : L1ObjectState Obj) : UnstageReason → Prop
  | .finished => e.writeLock.isLocked now
  | .expired => e.writeLock.isLocked now = false
  | .forced => True

inductive Action (Key Obj : Type) where
  | lockRead (key : Key) (count : Nat)
  | unlockRead (key : Key) (count : Nat)
  | drop (key : Key) (why : DropReason)
  | handOver (key : Key) (tag : String)
  | stage (key : Key) (tag : String)
  /-- Stages over an entry that is already there. -/
  | restage (key : Key) (tag : String)
  | promote (key : Key) (tag : String)
  | unstage (key : Key) (tag : String) (why : UnstageReason)
  | alloc (objs : List Obj)
  | free (objs : List Obj)
  | report (rs : List (Report Key))

/-- A state in the middle of a call. -/
structure Mid (Key Obj : Type) [DecidableEq Key] where
  st : L1State Key Obj
  limbo : List Obj

/-- A staging entry as `reserve_write` builds it. -/
def freshEntry (config : L1ManagerConfig) (now : Int) (o : Obj) (isTemp : Bool) :
    L1ObjectState Obj where
  memoryObj := o
  writeLock := (TTLLock.new config.writeTtlSeconds).lock now
  readLock := TTLLock.new config.readTtlSeconds
  isTemporary := isTemp
  stagingCharge := 0

/-- The entry `_take_staging` returns for the staging entry `e`. -/
def L1ObjectState.taken (e : L1ObjectState Obj) : L1ObjectState Obj :=
  { e with writeLock := e.writeLock.unlock, stagingCharge := 0 }

/-- The state after `_pop_staging` of the entry `e`. -/
def L1State.popped (tag : String) (e : L1ObjectState Obj) : L1State Key Obj :=
  { s with
    staging := s.staging.pop key tag
    stagingBytes := s.stagingBytes - e.stagingCharge }

def L1State.setObject (e : L1ObjectState Obj) : L1State Key Obj :=
  { s with objects := s.objects.set key e }

def L1State.eraseObject : L1State Key Obj :=
  { s with objects := s.objects.erase key }

end

inductive Does (now : Int) : Action Key Obj → Mid Key Obj → Mid Key Obj → Prop where
  | lockRead {m : Mid Key Obj} {key : Key} {e : L1ObjectState Obj} (count : Nat)
      (he : m.st.objects.get? key = some e) :
      Does now (.lockRead key count) m
        ⟨m.st.setObject key { e with readLock := e.readLock.lockTimes now count }, m.limbo⟩
  | unlockRead {m : Mid Key Obj} {key : Key} {e : L1ObjectState Obj} (count : Nat)
      (he : m.st.objects.get? key = some e) (hl : e.readLock.isLocked now)
      (hkeep : e.isTemporary → (e.readLock.unlockTimes count).isLocked now) :
      Does now (.unlockRead key count) m
        ⟨m.st.setObject key { e with readLock := e.readLock.unlockTimes count }, m.limbo⟩
  | drop {m : Mid Key Obj} {key : Key} {e : L1ObjectState Obj} {why : DropReason}
      (he : m.st.objects.get? key = some e) (hw : why.Applies now e) :
      Does now (.drop key why) m ⟨m.st.eraseObject key, m.limbo ++ [e.memoryObj]⟩
  | handOver {m : Mid Key Obj} {key : Key} {tag : String} {e : L1ObjectState Obj}
      (isTemp : Bool) (hr : key ∉ m.st.objects) (he : m.st.getStaging key tag = some e)
      (hx : e.writeLock.isLocked now = false) :
      Does now (.handOver key tag) m ⟨{ m.st with
            staging := m.st.staging.put key tag
              { e with writeLock := e.writeLock.lock now, isTemporary := isTemp } },
         m.limbo⟩
  | stage {m : Mid Key Obj} {key : Key} {tag : String} {o : Obj} {rest : List Obj}
      (isTemp : Bool) (size : Nat) (hr : key ∉ m.st.objects)
      (hn : m.st.getStaging key tag = none) (hl : m.limbo = o :: rest) :
      Does now (.stage key tag) m
        ⟨m.st.putStaging key tag (freshEntry m.st.config now o isTemp) size, rest⟩
  | restage {m : Mid Key Obj} {key : Key} {tag : String} {o : Obj} {rest : List Obj}
      {old : L1ObjectState Obj} (isTemp : Bool) (size : Nat) (hr : key ∉ m.st.objects)
      (ho : m.st.getStaging key tag = some old) (hl : m.limbo = o :: rest) :
      Does now (.restage key tag) m
        ⟨m.st.putStaging key tag (freshEntry m.st.config now o isTemp) size, rest⟩
  | promote {m : Mid Key Obj} {key : Key} {tag : String} {e : L1ObjectState Obj}
      (hr : m.st.objects.get? key = none) (he : m.st.getStaging key tag = some e)
      (hl : e.writeLock.isLocked now) :
      Does now (.promote key tag) m ⟨(m.st.popped key tag e).setObject key e.taken, m.limbo⟩
  | unstage {m : Mid Key Obj} {key : Key} {tag : String} {e : L1ObjectState Obj}
      {why : UnstageReason} (he : m.st.getStaging key tag = some e)
      (hw : why.Applies now e) :
      Does now (.unstage key tag why) m ⟨m.st.popped key tag e, m.limbo ++ [e.memoryObj]⟩
  | alloc {m : Mid Key Obj} (objs : List Obj) (hnd : objs.Nodup)
      (hf : ∀ o ∈ objs, o ∉ m.st.memoryManager.live) :
      Does now (.alloc objs) m
        ⟨{ m.st with memoryManager := m.st.memoryManager.handOut objs }, m.limbo ++ objs⟩
  | free {m : Mid Key Obj} {rest : List Obj} (objs : List Obj) (hl : m.limbo = rest ++ objs) :
      Does now (.free objs) m ⟨m.st.free objs, rest⟩
  | report {m : Mid Key Obj} (rs : List (Report Key)) :
      Does now (.report rs) m ⟨m.st.report rs, m.limbo⟩

/-- A chain of actions that `P` permits. -/
def Reaches (now : Int) (P : Action Key Obj → Prop) : Mid Key Obj → Mid Key Obj → Prop :=
  ReflTransGen (fun m m' => ∃ a, P a ∧ Does now a m m')

/-- Which call may take which action. -/
inductive L1Op.Allows (s : L1State Key Obj) : L1Op Key Obj → Action Key Obj → Prop where
  | free (op : L1Op Key Obj) (objs : List Obj) : Allows s op (.free objs)
  | report (op : L1Op Key Obj) (rs : List (Report Key)) : Allows s op (.report rs)
  | reserveRead_lock {keys : List Key} {n : Int} {key : Key} (hk : key ∈ keys) :
      Allows s (.reserveRead keys n) (.lockRead key (validateReadLocks n))
  | finishRead_unlock {keys : List Key} {n : Int} {key : Key} (hk : key ∈ keys) :
      Allows s (.finishRead keys n) (.unlockRead key (validateReadLocks n))
  | finishRead_drop {keys : List Key} {n : Int} {key : Key} (hk : key ∈ keys) :
      Allows s (.finishRead keys n) (.drop key (.temporary (validateReadLocks n)))
  | reserveWrite_handOver {keys temps tag alloc} {key : Key} (hk : key ∈ keys) :
      Allows s (.reserveWrite keys temps tag alloc) (.handOver key tag)
  | reserveWrite_alloc (keys temps tag) (alloc : AllocOutcome Obj) :
      Allows s (.reserveWrite keys temps tag alloc) (.alloc (alloc.objs.map Prod.fst))
  | reserveWrite_stage {keys temps tag alloc} {key : Key} (hk : key ∈ keys) :
      Allows s (.reserveWrite keys temps tag alloc) (.stage key tag)
  | reserveWrite_restage {keys temps tag alloc} {key : Key} (hk : key ∈ keys)
      (hr : (L1Op.reserveWrite keys temps tag alloc).RepeatsFreshKey s)
      (hn : s.getStaging key tag = none) :
      Allows s (.reserveWrite keys temps tag alloc) (.restage key tag)
  | finishWrite_promote {keys tag} {key : Key} (hk : key ∈ keys) :
      Allows s (.finishWrite keys tag) (.promote key tag)
  | finishWrite_discard {keys tag} {key : Key} (hk : key ∈ keys) :
      Allows s (.finishWrite keys tag) (.unstage key tag .finished)
  | finishWriteAndReserveRead_promote {keys n tag} {key : Key} (hk : key ∈ keys) :
      Allows s (.finishWriteAndReserveRead keys n tag) (.promote key tag)
  | finishWriteAndReserveRead_discard {keys n tag} {key : Key} (hk : key ∈ keys) :
      Allows s (.finishWriteAndReserveRead keys n tag) (.unstage key tag .finished)
  | finishWriteAndReserveRead_lock {keys n tag} {key : Key} (hk : key ∈ keys) :
      Allows s (.finishWriteAndReserveRead keys n tag) (.lockRead key (validateReadLocks n))
  | finishWriteAndDelete_discard {keys tag} {key : Key} (hk : key ∈ keys) :
      Allows s (.finishWriteAndDelete keys tag) (.unstage key tag .finished)
  | delete_reclaim {keys force tag} {key : Key} (hk : key ∈ keys) :
      Allows s (.delete keys force) (.unstage key tag .expired)
  | delete_discard {keys tag} {key : Key} (hk : key ∈ keys) :
      Allows s (.delete keys true) (.unstage key tag .forced)
  | delete_drop {keys force} {key : Key} (hk : key ∈ keys) :
      Allows s (.delete keys force) (.drop key .unlocked)
  | delete_dropForced {keys} {key : Key} (hk : key ∈ keys) :
      Allows s (.delete keys true) (.drop key .forced)
  | clear_reclaim (force : Bool) (key : Key) (tag : String) :
      Allows s (.clear force) (.unstage key tag .expired)
  | clear_discard (key : Key) (tag : String) : Allows s (.clear true) (.unstage key tag .forced)
  | clear_drop (key : Key) : Allows s (.clear false) (.drop key .unlocked)
  | clear_dropForced (key : Key) : Allows s (.clear true) (.drop key .forced)

/-! ## Chains -/

variable {s : L1State Key Obj} {op : L1Op Key Obj}

section Chains

variable {now : Int} {P Q : Action Key Obj → Prop} {m m' m'' : Mid Key Obj}

lemma Reaches.refl (m : Mid Key Obj) : Reaches now P m m := ReflTransGen.refl

lemma Reaches.trans (h : Reaches now P m m') (h' : Reaches now P m' m'') :
    Reaches now P m m'' := ReflTransGen.trans h h'

lemma Reaches.one {a : Action Key Obj} (hP : P a) (hd : Does now a m m') :
    Reaches now P m m' := ReflTransGen.single ⟨a, hP, hd⟩

lemma Reaches.then {a : Action Key Obj} (h : Reaches now P m m') (hP : P a)
    (hd : Does now a m' m'') : Reaches now P m m'' := ReflTransGen.tail h ⟨a, hP, hd⟩

/-- What every permitted action preserves, a chain preserves. -/
lemma Reaches.inv {Inv : Mid Key Obj → Prop}
    (hstep : ∀ a m m', P a → Does now a m m' → Inv m → Inv m')
    (h : Reaches now P m m') (hm : Inv m) : Inv m' := by
  induction h with
  | refl => exact hm
  | tail _ hlast ih =>
    obtain ⟨a, hPa, hd⟩ := hlast
    exact hstep a _ _ hPa hd ih

/-- A loop whose body takes permitted actions, with `π` telling which local
list is in limbo. -/
lemma Reaches.foldl {α β : Type} {f : α → β → α} (π : α → Mid Key Obj) {l : List β}
    (hbody : ∀ acc, ∀ x ∈ l, Reaches now P (π acc) (π (f acc x))) (acc : α) :
    Reaches now P (π acc) (π (l.foldl f acc)) :=
  foldl_chain π hbody acc

/-- The last thing a method does with its local list is to free it. -/
lemma Reaches.free_limbo {st : L1State Key Obj} {objs : List Obj}
    (h : Reaches now (op.Allows s) m ⟨st, objs⟩) : Reaches now (op.Allows s) m ⟨st.free objs, []⟩ :=
  h.then (.free op objs) (.free objs (by simp))

lemma Reaches.report (h : Reaches now (op.Allows s) m m') (rs : List (Report Key)) :
    Reaches now (op.Allows s) m ⟨m'.st.report rs, m'.limbo⟩ :=
  h.then (.report op rs) (.report rs)

lemma Reaches.reportStagingGone (h : Reaches now (op.Allows s) m m') (keys : List Key) :
    Reaches now (op.Allows s) m ⟨m'.st.reportStagingGone keys, m'.limbo⟩ := by
  unfold L1State.reportStagingGone
  split
  · exact h
  · exact h.report _

end Chains

end LMCache.L1Manager
