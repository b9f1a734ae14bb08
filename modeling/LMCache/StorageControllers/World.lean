/-
LMCache.StorageControllers.World — what a prefetch request does outside the
controller.

The controller's own tables are small; what matters about a request is what
it does to the L1 managers and the L2 adapters. `World` is the L1 managers
together with the trace of every call made so far. What a request holds is read off the trace: `holds`
sums, over the calls made in its name, what they took and what they gave
back.

Everything the controller does not decide comes from an `Environment`: the
calls other threads make between two of its own, the clock, the allocator,
the adapters' answers. Each is indexed by the number of calls made so far,
so every behaviour is the behaviour of some environment.
-/
import LMCache.StorageControllers.Cells
import LMCache.L1Manager.LockAccounts

namespace LMCache.StorageControllers

open Lib Native L1Manager

/-! ## Requests and results -/

/-- `MemorySegment`. -/
inductive MemorySegment where
  | vram | dram | cxl | gds | storage
  deriving DecidableEq, Repr

/-- `MemoryResidency`. -/
inductive MemoryResidency where
  | localHost | remote | dummy
  deriving DecidableEq, Repr

/-- `MemoryTags`, compared by equality only. -/
structure MemoryTags where
  segment : MemorySegment
  residency : MemoryResidency
  deriving DecidableEq, Repr

/-- `PrefetchLockMode`. -/
inductive PrefetchLockMode where
  | lock
  | noLock
  deriving DecidableEq, Repr

/-- `PrefetchTaskSpec`, with the checks of its constructor. -/
structure PrefetchTaskSpec (Key : Type) where
  keyGroups : List (GroupedObjectKeys Key)
  fetchingPolicy : FetchingPolicy
  lockMode : PrefetchLockMode
  allowedL1MemoryTags : Option (List MemoryTags)
  allowedL2MemoryTags : Option (List MemoryTags)
  nonempty : keyGroups ≠ []
  same_size : ∀ row ∈ keyGroups, ∀ row' ∈ keyGroups, row.keys.length = row'.keys.length

namespace PrefetchTaskSpec

variable {Key : Type} (spec : PrefetchTaskSpec Key)

/-- The number of rows. -/
def numRows : Nat := spec.keyGroups.length

/-- `group_size`: the number of columns. -/
def groupSize : Nat := spec.keyGroups.head?.elim 0 fun row => row.keys.length

lemma rows : Rows spec.keyGroups spec.numRows spec.groupSize where
  length := rfl
  width := by
    intro g hg
    cases hgs : spec.keyGroups with
    | nil => exact absurd hgs spec.nonempty
    | cons row rest =>
      simp only [groupSize, hgs]
      exact spec.same_size g hg row (by rw [hgs]; exact List.mem_cons_self)
  pos := List.length_pos_iff.mpr spec.nonempty

end PrefetchTaskSpec

/-- `PrefetchResult`; the cached counts are left out. -/
structure PrefetchResult (Key : Type) (numRows numCols : Nat) where
  hitCells : Bitmap2D numRows numCols
  l1HitCells : Bitmap2D numRows numCols
  l2HitCells : Bitmap2D numRows numCols
  foundCells : Option (Bitmap2D numRows numCols)
  l1Owners : Dict Key Nat

/-! ## The trace -/

/-- `_get_prefetch_write_tag`. -/
def getPrefetchWriteTag (requestId : Nat) : String := s!"prefetch:{requestId}"

/-- Requests do not share a tag. -/
lemma getPrefetchWriteTag_inj {a b : Nat} (h : getPrefetchWriteTag a = getPrefetchWriteTag b) :
    a = b := by
  have hrepr : Nat.repr a = Nat.repr b := (String.append_right_inj "prefetch:").mp h
  have hdigits : Nat.toDigits 10 a = Nat.toDigits 10 b := String.ofList_inj.mp hrepr
  have hvalue := congrArg (fun cs => Nat.ofDigitChars 10 cs 0) hdigits
  simpa only [Nat.ofDigitChars_toDigits (by decide : 1 < 10) (Nat.le_refl 10)] using hvalue

/-- How a request left the in-flight table. -/
inductive Retirement where
  | finished
  | aborted
  | cleanedUp
  deriving DecidableEq, Repr

/-- One call, or one step of the controller that others can see. An L1 call
comes with the manager as it found it, the end of a request with all of them.
`none` as the caller of an L1 call is any other thread; as a task it is a
submission that raised, as the keys of a reply a query without a result. -/
inductive Act (Key Obj : Type) [DecidableEq Key] where
  | l1 (caller : Option Nat) (l1Idx : Nat) (found : L1State Key Obj) (call : L1Call Key Obj)
  | submitLookup (request adapter : Nat) (task : Option Nat)
  | lookupReply (request adapter task : Nat) (locked : Option (List Key))
  | submitUnlock (request adapter : Nat) (keys : List Key)
  | submitLoad (request adapter : Nat) (task : Option Nat) (keys : List Key) (objects : List Obj)
  | loadReply (request adapter task : Nat) (loaded : Option (List Key))
  | publish (request : Nat) (found : Nat → L1State Key Obj) (spec : PrefetchTaskSpec Key)
      (result : PrefetchResult Key spec.numRows spec.groupSize)
  | retire (request : Nat) (found : Nat → L1State Key Obj) (how : Retirement)
  | wake

/-- The answer of an adapter to a query: one bit per key of the task. -/
inductive Reply where
  | raises
  | pending
  | done (bits : Nat → Bool)

/-- What the controller does not decide, by the number of calls so far. -/
structure Environment (Key Obj : Type) where
  others : Nat → List (Nat × L1Call Key Obj)
  clock : Nat → Int
  allocate : Nat → AllocOutcome Obj
  hasSubscribers : Nat → Bool
  submit : Nat → Option Nat
  reply : Nat → Reply
  memoryUsage : Nat → Nat → Nat × Nat

/-- The L1 managers by index, and the calls made so far, oldest first. -/
structure World (Key Obj : Type) [DecidableEq Key] where
  l1 : Nat → L1State Key Obj
  trace : List (Act Key Obj)

variable {Key Obj : Type} [DecidableEq Key] [DecidableEq Obj]

namespace World

variable (env : Environment Key Obj) (w : World Key Obj)

/-- A step that leaves the L1 managers alone. -/
def record (a : Act Key Obj) : World Key Obj := { w with trace := w.trace ++ [a] }

/-- One call on an L1 manager. -/
def onL1 (caller : Option Nat) (l1Idx : Nat) (call : L1Call Key Obj) : World Key Obj where
  l1 := Function.update w.l1 l1Idx ((w.l1 l1Idx).step call)
  trace := w.trace ++ [.l1 caller l1Idx (w.l1 l1Idx) call]

/-- The calls other threads get in before the next call. -/
def interleave : World Key Obj :=
  (env.others w.trace.length).foldl (fun w c => w.onL1 none c.1 c.2) w

/-- The manager the next call finds. -/
def met (l1Idx : Nat) : L1State Key Obj := (w.interleave env).l1 l1Idx

/-- The clock reading of the next call. -/
def time : Int := env.clock (w.interleave env).trace.length

/-- The allocator's answer to the next call. -/
def allocated : AllocOutcome Obj := env.allocate (w.interleave env).trace.length

/-- A call in the name of a request. -/
def callL1 (request l1Idx : Nat) (op : L1Op Key Obj) : World Key Obj :=
  (w.interleave env).onL1 (some request) l1Idx ⟨w.time env, op⟩

end World

end LMCache.StorageControllers
