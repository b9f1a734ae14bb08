/-
LMCache.MemoryManagement.AddressManager — the first-fit address allocator
(`AddressManager` of `memory_management.py`).

The manager keeps the free blocks of an address space in a list ordered by
address. `allocate` cuts the head off the first block that is large enough,
`batched_allocate` carves as many pieces as it can out of each block in one
pass and commits at the end, `free` returns a block and joins it with the free
neighbours it touches, `sbrk` appends to the space.

A sorted list is a list here: `add` is `insort`, `remove` is `erase`, and the
in-place change of a block's size is `replace`.
-/
import LMCache.Lib.Extents
import Mathlib.Data.Nat.Bitwise
import Mathlib.Algebra.Ring.Int.Defs

namespace LMCache.MemoryManagement

open Lib

/-- `FreeBlock`. -/
abbrev FreeBlock := Extent

/-- `can_be_coalesced`. -/
def canBeCoalesced (b succ : FreeBlock) : Bool := decide (b.start + b.size = succ.start)

/-- What the two allocation methods raise. -/
inductive AllocationError where
  | valueError
  | runtimeError
  deriving DecidableEq, Repr

/-- The fields of `AddressManager`; the alignment is positive. -/
structure AddressManager where
  size : Nat
  align : Nat
  explicitList : List FreeBlock
  totalAllocatedSize : Int
  align_pos : 0 < align

namespace AddressManager

/-- `__init__`. -/
def init (size align : Nat) (halign : 0 < align) : AddressManager where
  size := size
  align := align
  explicitList := [⟨0, size⟩]
  totalAllocatedSize := 0
  align_pos := halign

variable (m : AddressManager)

/-- `compute_aligned_size`: `(raw_size + align - 1) & ~(align - 1)`, the bits of
`align - 1` cleared. -/
def computeAlignedSize (rawSize : Nat) : Nat :=
  (rawSize + m.align - 1) ^^^ ((rawSize + m.align - 1) &&& (m.align - 1))

lemma computeAlignedSize_eq (rawSize : Nat) :
    m.computeAlignedSize rawSize = Nat.ldiff (rawSize + m.align - 1) (m.align - 1) := by
  refine Nat.eq_of_testBit_eq fun i => ?_
  rw [computeAlignedSize, Nat.testBit_xor, Nat.testBit_and, Nat.testBit_ldiff]
  cases (rawSize + m.align - 1).testBit i <;> cases (m.align - 1).testBit i <;> rfl

/-- `_coalesce`: the free list after the merge, `none` when there is nothing to
merge with. -/
def coalesce (currBlock : FreeBlock) (prevBlock succBlock : Option FreeBlock) :
    Option (List FreeBlock) :=
  let mergePrev := prevBlock.filter fun prev => canBeCoalesced prev currBlock
  let mergeSucc := succBlock.filter fun succ => canBeCoalesced currBlock succ
  match mergePrev, mergeSucc with
  | some prev, some succ =>
    some ((m.explicitList.replace prev
      ⟨prev.start, prev.size + (currBlock.size + succ.size)⟩).erase succ)
  | some prev, none =>
    some (m.explicitList.replace prev ⟨prev.start, prev.size + currBlock.size⟩)
  | none, some succ =>
    some (insort ⟨succ.start - currBlock.size, succ.size + currBlock.size⟩
      (m.explicitList.erase succ))
  | none, none => none

/-- `allocate`: the address and the aligned size. -/
def allocate (size : Int) : AddressManager × Except AllocationError Extent :=
  if size ≤ 0 then (m, .error .valueError)
  else
    let alignedSize := m.computeAlignedSize size.toNat
    match m.explicitList.find? fun block => decide (block.size ≥ alignedSize) with
    | none => (m, .error .runtimeError)
    | some block =>
      let rest := m.explicitList.erase block
      ({ m with
        explicitList :=
          if block.size > alignedSize then
            insort ⟨block.start + alignedSize, block.size - alignedSize⟩ rest
          else rest
        totalAllocatedSize := m.totalAllocatedSize + alignedSize }, .ok ⟨block.start, alignedSize⟩)

/-- What `batched_allocate` collects in its pass over the free list. -/
structure Carving where
  remaining : Nat
  allocateResult : List Extent
  blocksToRemove : List FreeBlock
  blocksToAdd : List FreeBlock

/-- The pass over the free list. -/
def carve (alignedSize : Nat) : List FreeBlock → Carving → Carving
  | [], acc => acc
  | block :: blocks, acc =>
    if acc.remaining ≤ 0 then acc
    else if block.size < alignedSize then carve alignedSize blocks acc
    else
      let numFromBlock := min acc.remaining (block.size / alignedSize)
      let used := numFromBlock * alignedSize
      carve alignedSize blocks
        { remaining := acc.remaining - numFromBlock
          allocateResult := acc.allocateResult ++ (List.range numFromBlock).map fun i =>
            ⟨block.start + i * alignedSize, alignedSize⟩
          blocksToRemove := acc.blocksToRemove ++ [block]
          blocksToAdd :=
            if block.size > used then
              acc.blocksToAdd ++ [⟨block.start + used, block.size - used⟩]
            else acc.blocksToAdd }

/-- `batched_allocate`. -/
def batchedAllocate (size batchSize : Int) :
    AddressManager × Except AllocationError (List Extent) :=
  if size ≤ 0 then (m, .error .valueError)
  else if batchSize < 0 then (m, .error .runtimeError)
  else
    let alignedSize := m.computeAlignedSize size.toNat
    let acc := carve alignedSize m.explicitList ⟨batchSize.toNat, [], [], []⟩
    if acc.remaining > 0 then (m, .error .runtimeError)
    else
      let removed := acc.blocksToRemove.foldl List.erase m.explicitList
      ({ m with
        explicitList := acc.blocksToAdd.foldl (fun blocks block => insort block blocks) removed
        totalAllocatedSize := m.totalAllocatedSize + alignedSize * batchSize },
        .ok acc.allocateResult)

/-- `k` calls of `allocate`, up to the first that raises. -/
def allocateMany (size : Int) : Nat → AddressManager →
    AddressManager × Except AllocationError (List Extent)
  | 0, m => (m, .ok [])
  | k + 1, m =>
    match m.allocate size with
    | (m, .error e) => (m, .error e)
    | (m, .ok block) =>
      match allocateMany size k m with
      | (m, .error e) => (m, .error e)
      | (m, .ok blocks) => (m, .ok (block :: blocks))

/-- `SortedList.bisect_left` by start. -/
def bisectLeft (blocks : List FreeBlock) (start : Nat) : Nat :=
  (blocks.takeWhile fun block => decide (block.start < start)).length

/-- `free`. -/
def free (address size : Nat) : AddressManager :=
  let newFreeBlock : FreeBlock := ⟨address, size⟩
  let index := bisectLeft m.explicitList address
  let prevBlock := if index > 0 then m.explicitList[index - 1]? else none
  let succBlock := m.explicitList[index]?
  { m with
    explicitList :=
      (m.coalesce newFreeBlock prevBlock succBlock).getD (insort newFreeBlock m.explicitList)
    totalAllocatedSize := m.totalAllocatedSize - size }

/-- `sbrk`. -/
def sbrk (size : Nat) : AddressManager :=
  let size := m.computeAlignedSize size
  let newBlock : FreeBlock := ⟨m.size, size⟩
  { m with
    explicitList :=
      (m.coalesce newBlock m.explicitList.getLast? none).getD (insort newBlock m.explicitList)
    size := m.size + size }

/-- `check_consistency`. -/
def checkConsistency : Bool :=
  (m.explicitList.zip m.explicitList.tail).all (fun p => !canBeCoalesced p.1 p.2) &&
    decide ((m.explicitList.map fun b => (b.size : Int)).sum + m.totalAllocatedSize = m.size)

end AddressManager

/-! ## A heap in use -/

/-- The manager with the blocks that are allocated. -/
structure Heap where
  manager : AddressManager
  live : List Extent

/-- The calls on the manager. -/
inductive HeapOp where
  | allocate (size : Int)
  | batchedAllocate (size batchSize : Int)
  | free (address size : Nat)
  | sbrk (size : Nat)
  deriving DecidableEq, Repr

namespace Heap

def init (size align : Nat) (halign : 0 < align) : Heap := ⟨.init size align halign, []⟩

/-- A call, and what it does to the live blocks. -/
def step (h : Heap) : HeapOp → Heap
  | .allocate size =>
    match h.manager.allocate size with
    | (m, .ok block) => ⟨m, h.live ++ [block]⟩
    | (m, .error _) => ⟨m, h.live⟩
  | .batchedAllocate size batchSize =>
    match h.manager.batchedAllocate size batchSize with
    | (m, .ok blocks) => ⟨m, h.live ++ blocks⟩
    | (m, .error _) => ⟨m, h.live⟩
  | .free address size => ⟨h.manager.free address size, h.live.erase ⟨address, size⟩⟩
  | .sbrk size => ⟨h.manager.sbrk size, h.live⟩

/-- Only live blocks are freed. -/
def FreesLive (h : Heap) : HeapOp → Prop
  | .free address size => ⟨address, size⟩ ∈ h.live
  | _ => True

instance (h : Heap) (op : HeapOp) : Decidable (h.FreesLive op) :=
  match op with
  | .free address size => inferInstanceAs (Decidable (⟨address, size⟩ ∈ h.live))
  | .allocate _ => isTrue trivial
  | .batchedAllocate _ _ => isTrue trivial
  | .sbrk _ => isTrue trivial

end Heap

end LMCache.MemoryManagement
