/-
LMCache.Coordinator.BlendIndex — which cached chunks a token sequence contains.

The index maps the fingerprint of a chunk's content to the chunks that hold
it (the occupants, in the order they were indexed), each with the namespaces
that stored it. A query rolls the fingerprint over its tokens, asks the
occupancy filter first and the table next, and verifies a candidate token by
token.

A match depends on the table only through its entries: the filter lets every
live fingerprint pass (`Covers`, kept by every operation), so two indexes whose
entries are alike answer alike (`Refines.findMatches_eq`). The counters behind
`stats()` are left out.
-/
import LMCache.Coordinator.Events

namespace LMCache.Coordinator

open Lib
open Multiprocess (ObjectKey)

variable {Digest : Type}

/-! ## Namespaces and matches -/

/-- `BlendNamespace`. -/
structure BlendNamespace where
  modelName : String
  cacheSalt : String
  worldSize : Nat
  deriving DecidableEq

/-- `ObjectKey.WorldSizeFromKVRank`. -/
def worldSizeFromKVRank (kvRank : Nat) : Nat := (kvRank >>> 24) &&& 0xFF

/-- `BlendNamespace.from_object_key`. -/
def BlendNamespace.fromObjectKey (key : ObjectKey Digest) : BlendNamespace where
  modelName := key.modelName
  cacheSalt := key.cacheSalt
  worldSize := worldSizeFromKVRank key.kvRank

/-- `BlendMatch`. -/
structure BlendMatch (Digest : Type) where
  chunkHash : Digest
  oldSt : Int
  curSt : Nat
  deriving DecidableEq

/-! ## Fingerprints -/

/-- `POLY_BASE`. -/
def polyBase : UInt64 := 0x9E3779B97F4A7C15

/-- The polynomial hash of one window, in `uint64`. -/
def polyHash (base : UInt64) (window : List UInt64) : UInt64 :=
  window.foldl (fun h x => h * base + x) 0

/-- `chunk_hash_windows_numba`. -/
def chunkHashWindows (arr : List UInt64) (k : Nat) (base : UInt64) : List UInt64 :=
  (List.range (arr.length / k)).map fun w => polyHash base ((arr.drop (w * k)).take k)

/-- The loop of `rolling_hash_windows_numba` past the first window: each value
leaves out the oldest token and takes in the newest. -/
def rollFrom (base power : UInt64) : UInt64 → List UInt64 → List UInt64 → List UInt64
  | h, old :: olds, new :: news =>
    let next := (h - old * power) * base + new
    next :: rollFrom base power next olds news
  | _, _, _ => []

/-- `rolling_hash_windows_numba`. -/
def rollingHashWindows (arr : List UInt64) (k : Nat) (base : UInt64) : List UInt64 :=
  let first := polyHash base (arr.take k)
  first :: rollFrom base (base ^ (k - 1)) first arr (arr.drop k)

/-! ## The index -/

/-- `_Occupant`. -/
structure Occupant where
  tokenOffset : Int
  namespaces : List BlendNamespace

/-- `_FingerprintEntry`. -/
structure FingerprintEntry (Digest : Type) where
  tokenIds : List UInt32
  occupants : Dict Digest Occupant

/-- `BlendIndex`, with the checks of its constructor. The filter is the array
`slots` of length `tableSize`. -/
structure BlendIndex (Digest : Type) where
  chunkSize : Nat
  probeStride : Nat
  fingerprintTable : Dict UInt64 (FingerprintEntry Digest)
  tableSize : Nat
  slots : Nat → Bool
  bitsSet : Nat
  chunkSize_pos : 1 ≤ chunkSize
  probeStride_pos : 1 ≤ probeStride

/-- `_TABLE_GROWTH`. -/
def tableGrowth : Nat := 16

/-- `_MIN_TABLE_SIZE`. -/
def minTableSize : Nat := 1 <<< 10

namespace BlendIndex

def new (chunkSize probeStride : Nat) : Except String (BlendIndex Digest) :=
  if hsize : 1 ≤ chunkSize then
    if hstride : 1 ≤ probeStride then
      .ok ⟨chunkSize, probeStride, ∅, minTableSize, fun _ => false, 0, hsize, hstride⟩
    else .error "probe_stride must be >= 1"
  else .error "chunk_size must be >= 1"

/-- The fingerprint of one chunk's content. -/
def fingerprintOf (chunkSize : Nat) (tokenIds : List UInt32) : UInt64 :=
  (chunkHashWindows (tokenIds.map UInt32.toUInt64) chunkSize polyBase).headD 0

variable (idx : BlendIndex Digest)

/-- `_fingerprint`. -/
def fingerprint (tokenIds : List UInt32) : UInt64 := fingerprintOf idx.chunkSize tokenIds

section

variable (poly : UInt64)

/-- The slot of a fingerprint. -/
def slot : Nat := poly.toNat &&& (idx.tableSize - 1)

/-- The loop of `_rebuild_table` that doubles the size. -/
def growSize (need : Nat) : Nat → Nat → Nat
  | 0, size => size
  | fuel + 1, size => if size < need then growSize need fuel (2 * size) else size

/-- `_rebuild_table`. -/
def rebuildTable : BlendIndex Digest :=
  let need := tableGrowth * idx.fingerprintTable.entries.length
  let size := growSize need need minTableSize
  let slots := fun s => idx.fingerprintTable.keys.any fun poly => (poly.toNat &&& (size - 1)) = s
  { idx with tableSize := size, slots, bitsSet := (List.range size).countP slots }

/-- A content that was not indexed yet. -/
def insertContent (tokenIds : List UInt32) : BlendIndex Digest :=
  let inserted : BlendIndex Digest := { idx with
    fingerprintTable := idx.fingerprintTable.set poly ⟨tokenIds, ∅⟩
    slots := fun s => s = idx.slot poly || idx.slots s
    bitsSet := if idx.slots (idx.slot poly) then idx.bitsSet else idx.bitsSet + 1 }
  if inserted.tableSize < tableGrowth * inserted.fingerprintTable.entries.length then
    inserted.rebuildTable
  else inserted

/-- The last chunk of a content is gone. -/
def dropContent : BlendIndex Digest :=
  let dropped : BlendIndex Digest :=
    { idx with fingerprintTable := idx.fingerprintTable.erase poly }
  if 2 * dropped.fingerprintTable.entries.length < dropped.bitsSet then dropped.rebuildTable
  else dropped

/-- `_fingerprint_table[poly] = entry`. -/
def setEntry (entry : FingerprintEntry Digest) : BlendIndex Digest :=
  { idx with fingerprintTable := idx.fingerprintTable.set poly entry }

end

/-- An occupant with one more claim. -/
def claimed (occupant : Option Occupant) (tokenOffset : Int) (ns : BlendNamespace) : Occupant :=
  match occupant with
  | none => ⟨tokenOffset, [ns]⟩
  | some occupant => ⟨tokenOffset, occupant.namespaces.insert ns⟩

variable [DecidableEq Digest]

section

variable (tokenIds : List UInt32)

/-- `add`. -/
def add (chunkHash : Digest) (tokenOffset : Int) (ns : BlendNamespace) : BlendIndex Digest :=
  if tokenIds.length ≠ idx.chunkSize then idx
  else
    let poly := idx.fingerprint tokenIds
    let entry := (idx.fingerprintTable.get? poly).getD ⟨tokenIds, ∅⟩
    let prepared := if poly ∈ idx.fingerprintTable then idx else idx.insertContent poly tokenIds
    prepared.setEntry poly { entry with
      occupants := entry.occupants.set chunkHash
        (claimed (entry.occupants.get? chunkHash) tokenOffset ns) }

/-- The last claim on a chunk is gone. -/
def dropOccupant (poly : UInt64) (entry : FingerprintEntry Digest) (chunkHash : Digest) :
    BlendIndex Digest :=
  if (entry.occupants.erase chunkHash).entries.isEmpty then idx.dropContent poly
  else idx.setEntry poly { entry with occupants := entry.occupants.erase chunkHash }

/-- `remove_claim`. -/
def removeClaim (chunkHash : Digest) (ns : BlendNamespace) : BlendIndex Digest :=
  if tokenIds.length ≠ idx.chunkSize then idx
  else
    let poly := idx.fingerprint tokenIds
    match idx.fingerprintTable.get? poly with
    | none => idx
    | some entry =>
      match entry.occupants.get? chunkHash with
      | none => idx
      | some occupant =>
        if ns ∉ occupant.namespaces then idx
        else if occupant.namespaces.erase ns ≠ [] then
          idx.setEntry poly { entry with
            occupants := entry.occupants.set chunkHash
              { occupant with namespaces := occupant.namespaces.erase ns } }
        else idx.dropOccupant poly entry chunkHash

/-- `remove_chunk`. -/
def removeChunk (chunkHash : Digest) : BlendIndex Digest :=
  if tokenIds.length ≠ idx.chunkSize then idx
  else
    let poly := idx.fingerprint tokenIds
    match idx.fingerprintTable.get? poly with
    | none => idx
    | some entry =>
      match entry.occupants.get? chunkHash with
      | none => idx
      | some _ => idx.dropOccupant poly entry chunkHash

end

/-! ## Queries -/

/-- The match of an entry at a position of the query: the first occupant of the
namespace that was not matched yet, if the window holds the content. -/
def entryMatch (entry : FingerprintEntry Digest) (window : List UInt64) (ns : BlendNamespace)
    (seen : List Digest) (curSt : Nat) : Option (BlendMatch Digest) :=
  match entry.occupants.entries.find? fun p => p.1 ∉ seen ∧ ns ∈ p.2.namespaces with
  | none => none
  | some (chunkHash, occupant) =>
    if window = entry.tokenIds.map UInt32.toUInt64 then
      some ⟨chunkHash, occupant.tokenOffset, curSt⟩
    else none

variable (query : List UInt64) (ns : BlendNamespace)

/-- One position of the probe. -/
def matchStep (acc : List Digest × List (BlendMatch Digest)) (probe : UInt64 × Nat) :
    List Digest × List (BlendMatch Digest) :=
  if idx.slots (idx.slot probe.1) then
    match idx.fingerprintTable.get? probe.1 with
    | none => acc
    | some entry =>
      let curSt := probe.2 * idx.probeStride
      match entryMatch entry ((query.drop curSt).take idx.chunkSize) ns acc.1 curSt with
      | none => acc
      | some found => (found.chunkHash :: acc.1, acc.2 ++ [found])
  else acc

/-- Every `stride`-th element. -/
def strided {α : Type} (stride : Nat) (l : List α) : List α :=
  (List.range ((l.length + stride - 1) / stride)).filterMap fun i => l[i * stride]?

/-- `match`. -/
def findMatches : List (BlendMatch Digest) :=
  if query.length < idx.chunkSize then []
  else
    let probe := strided idx.probeStride (rollingHashWindows query idx.chunkSize polyBase)
    (probe.zipIdx.foldl (idx.matchStep query ns) ([], [])).2

end BlendIndex

end LMCache.Coordinator
