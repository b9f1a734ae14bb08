/-
LMCache.RawBlock.MetaContainers — the two metadata containers on the device.

A container is a header block followed by a payload area. A checkpoint is
written to the containers in turn, the payload before the header, under the
next sequence number; a restart reads both and takes the valid one with the
higher number, the first container on a tie.

`crashState` is the device after the first `k` bytes of a checkpoint write,
in issue order. The blocks written are padded; what the padding holds is
whatever the leased buffers held, so it is a parameter.
-/
import LMCache.Lib.Bytes
import LMCache.RawBlock.Core

namespace LMCache.RawBlock

open Lib

/-- What the constructor has checked about the metadata region. -/
structure MetaLayout where
  blockAlign : Nat
  containerBytes : Nat
  metaMagic : Bytes
  metaVersion : Nat
  align_pos : 0 < blockAlign
  align_dvd : blockAlign ∣ containerBytes
  align_lt : blockAlign < containerBytes
  magic_length : metaMagic.length = 8

/-- Eight rounds of the CRC-32 register, with the reflected polynomial. -/
def crc32Byte (crc : BitVec 32) (byte : UInt8) : BitVec 32 :=
  (List.range 8).foldl (fun crc _ => (crc >>> 1) ^^^ if crc.getLsbD 0 then 0xEDB88320#32 else 0#32)
    (crc ^^^ byte.toBitVec.setWidth 32)

/-- `zlib.crc32(payload)` -/
def crc32 (payload : Bytes) : Nat := (~~~ payload.foldl crc32Byte (~~~ 0#32)).toNat

lemma crc32_lt (payload : Bytes) : crc32 payload < 256 ^ 4 := BitVec.isLt _

-- the check value of CRC-32, for the digits 1 to 9
example : crc32 [49, 50, 51, 52, 53, 54, 55, 56, 57] = 0xCBF43926 := by decide +kernel

structure MetaHeader where
  seq : Nat
  payloadLen : Nat
  crc : Nat
  containerOffset : Nat
deriving DecidableEq

/-- `_META_HEADER_STRUCT.size` -/
def metaHeaderSize : Nat := 32

namespace MetaLayout

variable (lay : MetaLayout)

/-- `_meta_payload_capacity` -/
def payloadCapacity : Nat := lay.containerBytes - lay.blockAlign

/-- `_meta_container_offsets` -/
def containerOffset (idx : Nat) : Nat := idx * lay.containerBytes

/-- `_META_HEADER_STRUCT.pack(...)`, for fields that fit. -/
def packHeader (seq payloadLen crc : Nat) : Bytes :=
  lay.metaMagic ++ (leBytes 4 lay.metaVersion ++ (leBytes 8 seq ++ (leBytes 8 payloadLen ++
    leBytes 4 crc)))

section

variable (dev : Device)

/-- `_read_meta_header`; a read error is a `none` like any other. -/
def readMetaHeader (offset : Nat) : Option MetaHeader :=
  let hdr := dev.read offset metaHeaderSize
  let magic := hdr.take 8
  let version := leValue ((hdr.drop 8).take 4)
  let seq := leValue ((hdr.drop 12).take 8)
  let payloadLen := leValue ((hdr.drop 20).take 8)
  let crc := leValue ((hdr.drop 28).take 4)
  if magic ≠ lay.metaMagic ∨ version ≠ lay.metaVersion then none
  else if payloadLen = 0 ∨ payloadLen > lay.payloadCapacity then none
  else some ⟨seq, payloadLen, crc, offset⟩

/-- `_load_meta_payload` -/
def loadMetaPayload (header : MetaHeader) : Option Bytes :=
  let payload := dev.read (header.containerOffset + lay.blockAlign) header.payloadLen
  if crc32 payload ≠ header.crc then none else some payload

def readContainer (idx : Nat) : Option (MetaHeader × Bytes) := do
  let header ← lay.readMetaHeader dev (lay.containerOffset idx)
  let payload ← lay.loadMetaPayload dev header
  return (header, payload)

/-- One round of the loop of `_select_latest_checkpoint`. -/
def better (best : Option (MetaHeader × Bytes)) (found : Option (MetaHeader × Bytes)) :
    Option (MetaHeader × Bytes) :=
  match best, found with
  | best, none => best
  | none, some f => some f
  | some b, some f => if f.1.seq > b.1.seq then some f else some b

def selectLatestCheckpoint : Option (MetaHeader × Bytes) :=
  [0, 1].foldl (fun best idx => better best (lay.readContainer dev idx)) none

end

/-! ## Writing -/

/-- The index of the container the checkpoint after `metaSeq` goes to. -/
def targetIdx (metaSeq : Nat) : Nat := metaSeq % 2

structure CheckpointWrite where
  payload : Bytes
  /-- what the leased buffers held behind the payload and behind the header -/
  payloadPad : Bytes
  headerPad : Bytes

variable (metaSeq : Nat) (w : CheckpointWrite)

def payloadBlock : Bytes :=
  w.payload ++ w.payloadPad.take (roundUp w.payload.length lay.blockAlign - w.payload.length)

def headerBlock : Bytes :=
  lay.packHeader (metaSeq + 1) w.payload.length (crc32 w.payload) ++
    w.headerPad.take (lay.blockAlign - metaHeaderSize)

/-- The write gets to the device: the payload fits its area, the header its
block, and every field its place in the header. -/
structure Writable : Prop where
  nonempty : w.payload ≠ []
  fits : w.payload.length ≤ lay.payloadCapacity
  align_le : metaHeaderSize ≤ lay.blockAlign
  version_lt : lay.metaVersion < 256 ^ 4
  seq_lt : metaSeq + 1 < 256 ^ 8
  length_lt : w.payload.length < 256 ^ 8

/-- The device after the first `k` bytes: payload block, then header block. -/
def crashState (dev : Device) (k : Nat) : Device :=
  let target := lay.containerOffset (targetIdx metaSeq)
  let dev := dev.write (target + lay.blockAlign) ((lay.payloadBlock w).take k)
  dev.write target ((lay.headerBlock metaSeq w).take (k - (lay.payloadBlock w).length))

/-- The two writes of `_write_checkpoint`. -/
def writeCheckpoint (dev : Device) : Device :=
  let target := lay.containerOffset (targetIdx metaSeq)
  (dev.write (target + lay.blockAlign) (lay.payloadBlock w)).write target (lay.headerBlock metaSeq w)

/-- The checkpoint a restart should find. -/
def written : MetaHeader × Bytes :=
  (⟨metaSeq + 1, w.payload.length, crc32 w.payload, lay.containerOffset (targetIdx metaSeq)⟩,
    w.payload)

end MetaLayout

/-- What happens to the checkpoint found at start. -/
inductive LoadAtStart
  | loaded
  | skipped
  | rejected
deriving DecidableEq

/-- `_meta_seq` after the constructor. -/
def startSeq (lay : MetaLayout) (dev : Device) : LoadAtStart → Nat
  | .loaded => ((lay.selectLatestCheckpoint dev).map fun found => found.1.seq).getD 0
  | .skipped => 0
  | .rejected => 0

/-- The device after successful checkpoint writes, numbered from `metaSeq`. -/
def writeCheckpoints (lay : MetaLayout) : Device → Nat → List MetaLayout.CheckpointWrite → Device
  | dev, _, [] => dev
  | dev, metaSeq, w :: ws =>
    writeCheckpoints lay (lay.writeCheckpoint metaSeq w dev) (metaSeq + 1) ws

/-- All of them get to the device. -/
def AllWritable (lay : MetaLayout) : Nat → List MetaLayout.CheckpointWrite → Prop
  | _, [] => True
  | metaSeq, w :: ws => lay.Writable metaSeq w ∧ AllWritable lay (metaSeq + 1) ws

end LMCache.RawBlock
