/-
LMCache.MemoryAllocators.PagedTensor — the paged allocator and the page
objects it recycles.

A page object is never recreated: `free` appends it to `free_blocks`,
`allocate` pops it and resets its metadata. Two counters of the object can
bring it back, `ref_count` through `ref_count_down` and `pin_count` through
`unpin`; both run under the object's own lock, so each is one step here. A
`deque` operation is atomic. `batched_allocate` and `batched_free` hold no
lock between two pages, so another thread can run there: a batched call in
progress is a `BatchedCall` and `advance` is one iteration of its loop.

`Pool` puts owners beside the allocator. The holds are not in the code: they
are the references and pins that were taken and not yet released.
-/
import LMCache.Lib.Custody
import LMCache.Lib.Extents
import LMCache.Lib.Run

namespace LMCache.MemoryAllocators

open Lib

variable {Shapes Dtypes Owner : Type} [DecidableEq Shapes] [DecidableEq Owner]

/-! ## Page objects -/

structure TensorMemoryObj (Shapes Dtypes : Type) where
  address : Nat
  shapes : Shapes
  dtypes : Dtypes
  refCount : Int
  pinCount : Int
  rawData : Extent
  usedSizeOverride : Option Nat
  l1ManagerId : Option Nat
  valid : Bool

/-- `raw_data[:n]` -/
def sliceTo (view : Extent) (n : Nat) : Extent := ⟨view.start, min n view.size⟩

structure PagedTensorMemoryAllocator (Shapes Dtypes : Type) where
  shapes : Shapes
  alignBytes : Nat
  numPages : Nat
  /-- the page objects by page index -/
  objs : Nat → TensorMemoryObj Shapes Dtypes
  freeBlocks : List Nat
  numActiveAllocations : Int
  totalAllocatedSize : Int

namespace PagedTensorMemoryAllocator

variable (a : PagedTensorMemoryAllocator Shapes Dtypes)

/-- `paged_buffers[page_idx]` -/
def pagedBuffer (alignBytes idx : Nat) : Extent := ⟨idx * alignBytes, alignBytes⟩

section

variable (sizeBytes : Shapes → Dtypes → Nat) (shapes : Shapes) (dtypes : Dtypes)

/-- `__init__`; `none` where the size check fails (or divides by zero). -/
def init (bufferSize : Nat) : Option (PagedTensorMemoryAllocator Shapes Dtypes) :=
  let alignBytes := sizeBytes shapes dtypes
  if alignBytes = 0 ∨ bufferSize % alignBytes ≠ 0 then none
  else some
    { shapes, alignBytes
      numPages := bufferSize / alignBytes
      objs := fun idx =>
        { address := idx, shapes, dtypes
          refCount := 1
          pinCount := 0
          rawData := pagedBuffer alignBytes idx
          usedSizeOverride := none
          l1ManagerId := none
          valid := true }
      freeBlocks := List.range (bufferSize / alignBytes)
      numActiveAllocations := 0
      totalAllocatedSize := 0 }

def modify (p : Nat) (f : TensorMemoryObj Shapes Dtypes → TensorMemoryObj Shapes Dtypes) :
    PagedTensorMemoryAllocator Shapes Dtypes :=
  { a with objs := Function.update a.objs p (f (a.objs p)) }

section Modify

variable {a} {p q : Nat} {f : TensorMemoryObj Shapes Dtypes → TensorMemoryObj Shapes Dtypes}

section

omit [DecidableEq Shapes]

@[simp] lemma objs_modify : (a.modify p f).objs q = if q = p then f (a.objs p) else a.objs q := by
  simp [modify, Function.update_apply]

@[simp] lemma shapes_modify : (a.modify p f).shapes = a.shapes := rfl

@[simp] lemma alignBytes_modify : (a.modify p f).alignBytes = a.alignBytes := rfl

@[simp] lemma freeBlocks_modify : (a.modify p f).freeBlocks = a.freeBlocks := rfl

end

end Modify

/-- The metadata a popped page object gets, in `allocate` and in each
iteration of `batched_allocate`. -/
def reuse (obj : TensorMemoryObj Shapes Dtypes) : TensorMemoryObj Shapes Dtypes :=
  { obj with
    shapes, dtypes
    refCount := 1
    usedSizeOverride := none
    l1ManagerId := none
    rawData := if shapes ≠ a.shapes then sliceTo obj.rawData (sizeBytes shapes dtypes)
      else obj.rawData }

/-- `free_blocks.popleft()` and the reset of the popped object. -/
def takeBlock : Option (Nat × PagedTensorMemoryAllocator Shapes Dtypes) :=
  match a.freeBlocks with
  | [] => none
  | p :: rest => some (p, { a.modify p (a.reuse sizeBytes shapes dtypes) with freeBlocks := rest })

def allocate : PagedTensorMemoryAllocator Shapes Dtypes × Option Nat :=
  match a.takeBlock sizeBytes shapes dtypes with
  | none => (a, none)
  | some (p, a) =>
    ({ a with
      numActiveAllocations := a.numActiveAllocations + 1
      totalAllocatedSize := a.totalAllocatedSize + a.alignBytes }, some p)

end

variable (p : Nat)

/-- The view is restored and the object appended to `free_blocks`. -/
def giveBack : PagedTensorMemoryAllocator Shapes Dtypes :=
  { a.modify p fun obj =>
      if obj.shapes ≠ a.shapes then { obj with rawData := pagedBuffer a.alignBytes obj.address }
      else obj with
    freeBlocks := a.freeBlocks ++ [p] }

def free : PagedTensorMemoryAllocator Shapes Dtypes :=
  if (a.objs p).valid then
    { a.giveBack p with
      totalAllocatedSize := a.totalAllocatedSize - a.alignBytes
      numActiveAllocations := a.numActiveAllocations - 1 }
  else a

/-- One iteration of the loop of `batched_free`. -/
def batchedFreeOne : PagedTensorMemoryAllocator Shapes Dtypes :=
  if (a.objs p).valid then a.giveBack p else a

def batchedFreeStats (numFreedBlocks : Nat) (updateStats : Bool) :
    PagedTensorMemoryAllocator Shapes Dtypes :=
  if updateStats then
    { a with
      totalAllocatedSize := a.totalAllocatedSize - a.alignBytes * numFreedBlocks
      numActiveAllocations := a.numActiveAllocations - numFreedBlocks }
  else a

def batchedFree (memoryObjs : List Nat) (updateStats : Bool) :
    PagedTensorMemoryAllocator Shapes Dtypes :=
  if memoryObjs = [] then a
  else (memoryObjs.foldl batchedFreeOne a).batchedFreeStats memoryObjs.length updateStats

def batchedAllocateStats (batchSize : Nat) : PagedTensorMemoryAllocator Shapes Dtypes :=
  { a with
    numActiveAllocations := a.numActiveAllocations + batchSize
    totalAllocatedSize := (a.numActiveAllocations + batchSize) * a.alignBytes }

/-- The loop of `batched_allocate`, with `left` iterations to go. -/
def batchedAllocateLoop (sizeBytes : Shapes → Dtypes → Nat) (shapes : Shapes) (dtypes : Dtypes)
    (batchSize : Nat) : PagedTensorMemoryAllocator Shapes Dtypes → Nat → List Nat →
    PagedTensorMemoryAllocator Shapes Dtypes × Option (List Nat)
  | a, 0, allocatedBlocks => (a.batchedAllocateStats batchSize, some allocatedBlocks)
  | a, left + 1, allocatedBlocks =>
    match a.takeBlock sizeBytes shapes dtypes with
    | none => (a.batchedFree allocatedBlocks false, none)
    | some (p, a) =>
      batchedAllocateLoop sizeBytes shapes dtypes batchSize a left (allocatedBlocks ++ [p])

def batchedAllocate (sizeBytes : Shapes → Dtypes → Nat) (shapes : Shapes) (dtypes : Dtypes)
    (batchSize : Nat) : PagedTensorMemoryAllocator Shapes Dtypes × Option (List Nat) :=
  batchedAllocateLoop sizeBytes shapes dtypes batchSize a batchSize []

/-! ## The counters of a page object -/

def refCountUp : PagedTensorMemoryAllocator Shapes Dtypes :=
  a.modify p fun obj => { obj with refCount := obj.refCount + 1 }

/-- A negative count is set back to zero. -/
def refCountDown : PagedTensorMemoryAllocator Shapes Dtypes :=
  let a := a.modify p fun obj => { obj with refCount := max (obj.refCount - 1) 0 }
  if (a.objs p).refCount = 0 ∧ (a.objs p).pinCount = 0 then a.free p else a

def pin : PagedTensorMemoryAllocator Shapes Dtypes :=
  a.modify p fun obj => { obj with pinCount := obj.pinCount + 1 }

/-- A negative count is set back to zero, after the page went back. -/
def unpin : PagedTensorMemoryAllocator Shapes Dtypes :=
  let a := a.modify p fun obj => { obj with pinCount := obj.pinCount - 1 }
  let a := if (a.objs p).pinCount ≤ 0 ∧ (a.objs p).refCount ≤ 0 then a.free p else a
  a.modify p fun obj => { obj with pinCount := max obj.pinCount 0 }

end PagedTensorMemoryAllocator

/-! ## Batched calls in progress -/

/-- A batched call between two iterations of its loop. -/
inductive BatchedCall (Shapes Dtypes : Type)
  | allocating (shapes : Shapes) (dtypes : Dtypes) (batchSize left : Nat) (got : List Nat)
  | freeing (given left : List Nat) (updateStats : Bool)

inductive Progress (Shapes Dtypes : Type)
  | running (c : BatchedCall Shapes Dtypes)
  | returned (pages : List Nat)

namespace BatchedCall

variable (sizeBytes : Shapes → Dtypes → Nat)

/-- The pages only the call has. -/
def pages : BatchedCall Shapes Dtypes → List Nat
  | .allocating _ _ _ _ got => got
  | .freeing _ left _ => left

def advance (a : PagedTensorMemoryAllocator Shapes Dtypes) : BatchedCall Shapes Dtypes →
      PagedTensorMemoryAllocator Shapes Dtypes × Progress Shapes Dtypes
  | .allocating _ _ batchSize 0 got => (a.batchedAllocateStats batchSize, .returned got)
  | .allocating shapes dtypes batchSize (left + 1) got =>
    match a.takeBlock sizeBytes shapes dtypes with
    | none => (a, .running (.freeing got got false))
    | some (p, a) => (a, .running (.allocating shapes dtypes batchSize left (got ++ [p])))
  | .freeing given [] updateStats => (a.batchedFreeStats given.length updateStats, .returned [])
  | .freeing given (p :: left) updateStats =>
    (a.batchedFreeOne p, .running (.freeing given left updateStats))

/-- The call runs to its end with no other thread in between. -/
inductive Finishes : PagedTensorMemoryAllocator Shapes Dtypes → BatchedCall Shapes Dtypes →
    PagedTensorMemoryAllocator Shapes Dtypes → List Nat → Prop
  | returned {a a' c ps} (h : advance sizeBytes a c = (a', .returned ps)) : Finishes a c a' ps
  | running {a a' a'' c c' ps} (h : advance sizeBytes a c = (a', .running c'))
      (hrest : Finishes a' c' a'' ps) : Finishes a c a'' ps

lemma finishes_freeing (given left : List Nat) (updateStats : Bool)
    (a : PagedTensorMemoryAllocator Shapes Dtypes) :
    Finishes sizeBytes a (.freeing given left updateStats)
      ((left.foldl PagedTensorMemoryAllocator.batchedFreeOne a).batchedFreeStats
      given.length updateStats) [] := by
  induction left generalizing a with
  | nil => exact .returned rfl
  | cons p left ih => exact .running rfl (ih (a.batchedFreeOne p))

/-- Run alone, the iterations are `batched_free`. -/
lemma finishes_batchedFree (ps : List Nat) (updateStats : Bool)
    (a : PagedTensorMemoryAllocator Shapes Dtypes) :
    Finishes sizeBytes a (.freeing ps ps updateStats) (a.batchedFree ps updateStats) [] := by
  have h := finishes_freeing sizeBytes ps ps updateStats a
  unfold PagedTensorMemoryAllocator.batchedFree
  split_ifs with hnil
  · subst hnil
    -- an empty list leaves the statistics as they are
    have hstats : a.batchedFreeStats 0 updateStats = a := by
      cases updateStats <;> simp [PagedTensorMemoryAllocator.batchedFreeStats]
    simpa [hstats] using h
  · exact h

lemma finishes_batchedAllocateLoop (shapes : Shapes) (dtypes : Dtypes) (batchSize left : Nat)
    (got : List Nat) (a : PagedTensorMemoryAllocator Shapes Dtypes) :
    let result := PagedTensorMemoryAllocator.batchedAllocateLoop sizeBytes shapes dtypes batchSize
      a left got
    Finishes sizeBytes a (.allocating shapes dtypes batchSize left got) result.1
      (result.2.getD []) := by
  induction left generalizing a got with
  | zero => exact .returned rfl
  | succ left ih =>
    simp only [PagedTensorMemoryAllocator.batchedAllocateLoop]
    cases htake : a.takeBlock sizeBytes shapes dtypes with
    | none =>
      refine .running ?_ (finishes_batchedFree sizeBytes got false a)
      simp only [advance, htake]
    | some taken =>
      refine .running ?_ (ih (got ++ [taken.1]) taken.2)
      simp only [advance, htake]

/-- Run alone, the iterations are `batched_allocate`. -/
theorem finishes_batchedAllocate (shapes : Shapes) (dtypes : Dtypes) (batchSize : Nat)
    (a : PagedTensorMemoryAllocator Shapes Dtypes) :
    Finishes sizeBytes a (.allocating shapes dtypes batchSize batchSize [])
      (a.batchedAllocate sizeBytes shapes dtypes batchSize).1
      ((a.batchedAllocate sizeBytes shapes dtypes batchSize).2.getD []) :=
  finishes_batchedAllocateLoop sizeBytes shapes dtypes batchSize batchSize [] a

end BatchedCall

/-! ## Owners -/

inductive Share
  | reference
  | pin
deriving DecidableEq

structure Pool (Owner Shapes Dtypes : Type) where
  allocator : PagedTensorMemoryAllocator Shapes Dtypes
  holds : List (Owner × Share × Nat)
  calls : List (Owner × BatchedCall Shapes Dtypes)

inductive Event (Owner Shapes Dtypes : Type)
  | allocate (o : Owner) (shapes : Shapes) (dtypes : Dtypes)
  | batchedAllocate (o : Owner) (shapes : Shapes) (dtypes : Dtypes) (batchSize : Nat)
  | refCountUp (o : Owner) (p : Nat)
  | refCountDown (o : Owner) (p : Nat)
  | pin (o : Owner) (p : Nat)
  | unpin (o : Owner) (p : Nat)
  | free (o : Owner) (p : Nat)
  | batchedFree (o : Owner) (memoryObjs : List Nat) (updateStats : Bool)
  /-- the `i`-th batched call in progress runs one iteration -/
  | advance (i : Nat)

namespace Pool

variable (sizeBytes : Shapes → Dtypes → Nat) (w : Pool Owner Shapes Dtypes)

/-- The pages inside batched calls in progress. -/
def transit : List Nat := w.calls.flatMap (·.2.pages)

def custody : Custody Owner Share Nat := ⟨w.allocator.freeBlocks, w.transit, w.holds⟩

/-- `free` and `batched_free` give up every reference the caller has on the page. -/
def step : Event Owner Shapes Dtypes → Pool Owner Shapes Dtypes
  | .allocate o shapes dtypes =>
    match w.allocator.allocate sizeBytes shapes dtypes with
    | (a, none) => { w with allocator := a }
    | (a, some p) => { w with allocator := a, holds := (o, .reference, p) :: w.holds }
  | .batchedAllocate o shapes dtypes n =>
    { w with calls := w.calls ++ [(o, .allocating shapes dtypes n n [])] }
  | .refCountUp o p =>
    { w with allocator := w.allocator.refCountUp p, holds := (o, .reference, p) :: w.holds }
  | .refCountDown o p =>
    { w with
      allocator := w.allocator.refCountDown p
      holds := w.holds.erase (o, .reference, p) }
  | .pin o p => { w with allocator := w.allocator.pin p, holds := (o, .pin, p) :: w.holds }
  | .unpin o p =>
    { w with allocator := w.allocator.unpin p, holds := w.holds.erase (o, .pin, p) }
  | .free o p =>
    { w with
      allocator := w.allocator.free p
      holds := w.holds.filter (· ≠ (o, .reference, p)) }
  | .batchedFree o ps updateStats =>
    { w with
      holds := w.holds.filter fun t => ¬ (t.1 = o ∧ t.2.1 = .reference ∧ t.2.2 ∈ ps)
      calls := w.calls ++ [(o, .freeing ps ps updateStats)] }
  | .advance i =>
    match w.calls[i]? with
    | none => w
    | some (o, c) =>
      match c.advance sizeBytes w.allocator with
      | (a, .running c') =>
        { w with allocator := a, calls := w.calls.take i ++ (o, c') :: w.calls.drop (i + 1) }
      | (a, .returned ps) =>
        { allocator := a
          holds := ps.map (o, .reference, ·) ++ w.holds
          calls := w.calls.take i ++ w.calls.drop (i + 1) }

/-- The pages an event hands to an owner. -/
def handedOut : Event Owner Shapes Dtypes → List Nat
  | .allocate _ shapes dtypes => (w.allocator.allocate sizeBytes shapes dtypes).2.toList
  | .advance i =>
    match w.calls[i]? with
    | none => []
    | some (_, c) =>
      match (c.advance sizeBytes w.allocator).2 with
      | .running _ => []
      | .returned ps => ps
  | _ => []

/-- A release is of a reference or a pin the owner took and still has. -/
def ReleasesOwn : Event Owner Shapes Dtypes → Prop
  | .refCountDown o p => (o, .reference, p) ∈ w.holds
  | .unpin o p => (o, .pin, p) ∈ w.holds
  | .free o p => (o, .reference, p) ∈ w.holds
  | .batchedFree o ps _ => ps.Nodup ∧ ∀ p ∈ ps, (o, .reference, p) ∈ w.holds
  | _ => True

/-- A page is shared only while somebody has it, and returned directly only
by an owner who has it alone. -/
def SharesHeld : Event Owner Shapes Dtypes → Prop
  | .refCountUp _ p => p ∈ Custody.pages w.holds
  | .pin _ p => p ∈ Custody.pages w.holds
  | .free o p => ∀ t ∈ w.holds, t.2.2 = p → t.1 = o ∧ t.2.1 = .reference
  | .batchedFree o ps _ => ∀ t ∈ w.holds, t.2.2 ∈ ps → t.1 = o ∧ t.2.1 = .reference
  | _ => True

instance (e : Event Owner Shapes Dtypes) : Decidable (w.ReleasesOwn e) := by
  cases e <;> dsimp only [ReleasesOwn] <;> infer_instance

instance (e : Event Owner Shapes Dtypes) : Decidable (w.SharesHeld e) := by
  cases e <;> dsimp only [SharesHeld] <;> infer_instance

/-- Nothing allocated yet. -/
def fresh (a : PagedTensorMemoryAllocator Shapes Dtypes) : Pool Owner Shapes Dtypes := ⟨a, [], []⟩

end Pool

end LMCache.MemoryAllocators
