/-
LMCache.RawBlock.SlotWrites — puts on the device, snapshots, crashes and
restarts.

A put writes its slot without holding the store's lock: first the header
block, then the payload behind it. Both are one stretch of bytes here, and any
bytes of a write that has begun may have reached the device when the power
fails; what is kept is the order of the two writes.

`Machine` is the store in memory with the device under it. The last four
fields record the past: which put was the last to change a slot and how much
of it got through, which puts were begun and which were committed, and the
snapshots that were taken. A restart loses everything but the device and may
find any snapshot of the past: which of them the metadata containers yield is
the subject of the checkpoint modules.
-/
import LMCache.RawBlock.CheckpointLoad
import LMCache.Lib.Bytes
import LMCache.Lib.Run

namespace LMCache.RawBlock

open Lib

variable {Meta : Type}

/-- The layout with what the constructor asks of alignment and slot headers. -/
structure SlotLayout extends Layout where
  capacityBytes : Nat
  block_align_pos : 0 < blockAlign
  header_fits : 24 ≤ headerBytes

/-! ## Slot headers -/

/-- `b"LMCBLK01"` -/
def slotMagic : Bytes := [76, 77, 67, 66, 76, 75, 48, 49]

/-- The bytes `_encode_header_into_buffer` sets. -/
def encodeHeader (slotIdentity payloadLen : Nat) : Bytes :=
  slotMagic ++ (leBytes 8 (slotIdentity % 2 ^ 64) ++ leBytes 8 payloadLen)

/-- `_decode_slot_header` -/
def decodeSlotHeader (hdr : Bytes) : Option (Nat × Nat) :=
  if hdr.length < 24 ∨ hdr.take 8 ≠ slotMagic then none
  else some (leValue ((hdr.drop 8).take 8), leValue ((hdr.drop 16).take 8))

/-- `_read_slot_header` of a read that succeeds. -/
def SlotLayout.readSlotHeader (lay : SlotLayout) (dev : Device) (offset : Nat) :
    Option (Nat × Nat) :=
  decodeSlotHeader (dev.read offset lay.headerBytes)

/-! ## Writing a slot -/

/-- A key spec with the object to store. `filler` is what the buffers hold
behind the header and behind the payload. -/
structure Put (Meta : Type) where
  key : String
  slotIdentity : Nat
  payload : Bytes
  metadata : Meta
  placementId : Option Nat
  filler : Bytes
deriving DecidableEq

namespace Put

variable (lay : SlotLayout) (put : Put Meta)

def item : PutItem String Meta := ⟨put.key, put.payload.length, put.metadata, put.placementId⟩

/-- No step before the write raises: the payload fits the slot and its length
fits the header field. -/
def ready : Bool :=
  lay.payloadFitsSlot put.payload.length && decide (put.payload.length < 2 ^ 64)

/-- The bytes written to the slot: the header block and `total_len`. -/
def length : Nat :=
  lay.headerBytes +
    if lay.requiresTransferAlignment then roundUp put.payload.length lay.blockAlign
    else put.payload.length

def byteAt (i : Nat) : UInt8 :=
  if i < 24 then (encodeHeader put.slotIdentity put.payload.length).getD i 0
  else if lay.headerBytes ≤ i ∧ i - lay.headerBytes < put.payload.length then
    put.payload.getD (i - lay.headerBytes) 0
  else put.filler.getD i 0

end Put

/-- A put with a slot and the positions in it that have reached the device. -/
structure Writing (Meta : Type) where
  put : Put Meta
  offset : Nat
  persisted : List Nat
deriving DecidableEq

namespace Writing

variable (lay : SlotLayout) (w : Writing Meta)

def Finished : Prop := ∀ i < w.put.length lay, i ∈ w.persisted

def HeaderWritten : Prop := ∀ i < lay.headerBytes, i ∈ w.persisted

instance : Decidable (w.Finished lay) := inferInstanceAs (Decidable (∀ i < _, i ∈ w.persisted))

instance : Decidable (w.HeaderWritten lay) := inferInstanceAs (Decidable (∀ i < _, i ∈ w.persisted))

end Writing

/-! ## Snapshots and restarts -/

/-- How the metadata of an entry is written to a checkpoint. -/
structure MetaFields (Meta : Type) where
  shape : Meta → Json
  dtype : Meta → Json
  fmt : Meta → Json
  cachedPositions : Meta → Json

section Snapshot

variable (fields : MetaFields Meta) (py : Python Meta) (lay : SlotLayout)

def snapshotEntry (e : Entry Meta) : Json :=
  .obj [("offset", .int e.offset), ("size", .int e.size), ("shape", fields.shape e.metadata),
    ("dtype", fields.dtype e.metadata), ("fmt", fields.fmt e.metadata),
    ("cached_positions", fields.cachedPositions e.metadata)]

/-- `_snapshot_state` -/
def snapshotState (c : RawBlockCore String Meta) : Json :=
  .obj [("version", .int 1), ("device_path", .str lay.devicePath),
    ("capacity_bytes", .int lay.capacityBytes), ("block_align", .int lay.blockAlign),
    ("header_bytes", .int lay.headerBytes), ("slot_bytes", .int lay.slotBytes),
    ("meta_total_bytes", .int lay.metaTotalBytes), ("meta_magic", .str lay.metaMagicText),
    ("meta_version", .int lay.metaVersion), ("data_base_offset", .int lay.dataBaseOffset),
    ("next_slot", .int c.nextSlot),
    ("entries", .obj (c.index.entries.map fun p => (p.1, snapshotEntry fields p.2)))]

/-- The index the load builds before it looks at the slots. -/
def loadedIndex (document : Json) : Dict String (Entry Meta) :=
  match checkDocument py lay.toLayout document with
  | .error _ => ∅
  | .ok (data, _) => (loadEntries py lay.toLayout ∅ (entriesOf data)).1

variable (dev : Device) (unreadable : List String)

/-- The header read for each loaded entry; a read may fail. -/
def slotHeaders (index : Dict String (Entry Meta)) (key : String) : Option (Nat × Nat) :=
  match index.get? key with
  | none => none
  | some e => if key ∈ unreadable then none else lay.readSlotHeader dev e.offset

/-- The store after `_load_checkpoint_from_device` found the document. An
exception ends the constructor, so there is no store to use. -/
def restarted (document : Json) : RawBlockCore String Meta :=
  match RawBlockCore.empty.applyLoadedState py lay.toLayout
      (slotHeaders lay dev unreadable (loadedIndex py lay document)) document with
  | (.refused .raised, _) => RawBlockCore.empty.close
  | (_, c) => c

end Snapshot

/-! ## The machine -/

structure Machine (Meta : Type) where
  core : RawBlockCore String Meta
  device : Device
  writing : Dict String (Writing Meta)
  lastWriter : Dict Nat (Writing Meta)
  issued : List (Put Meta)
  completed : List (Put Meta)
  snapshots : List Json

inductive Event (Meta : Type)
  | reserve (requireFit : Bool) (put : Put Meta)
  | persist (key : String) (positions : List Nat)
  | abandon (key : String)
  | settle (key : String) (success : Bool)
  | deleteMany (keys : List String) (force : Bool)
  | existsMany (workerFailed : Bool) (keys : List String) (lock : Bool)
  | getMetadataPrefix (keys : List String) (lock : Bool) (skipLocked : List String)
  | unlockMany (keys : List String)
  | close
  | checkpoint
  | restart (snapshot : Option Nat) (unreadable : List String)

namespace Machine

/-- A new store on a device with any contents. -/
def start (device : Device) : Machine Meta := ⟨.empty, device, ∅, ∅, [], [], []⟩

variable (fields : MetaFields Meta) (py : Python Meta) (lay : SlotLayout) (m : Machine Meta)

/-- The put goes on to its write if this section took a slot for it. -/
def reserve (requireFit : Bool) (put : Put Meta) : Machine Meta :=
  let core := m.core.reserve lay.toConfig requireFit put.item
  match m.core.inflight.get? put.key, core.inflight.get? put.key with
  | none, some write =>
    { m with
      core
      writing := m.writing.set put.key ⟨put, write.offset, []⟩
      issued := put :: m.issued }
  | _, _ => { m with core }

/-- One byte of the write of `key` reaches the device; one of the payload only
after the header write. -/
def persistByte (key : String) (i : Nat) : Machine Meta :=
  match m.writing.get? key with
  | none => m
  | some w =>
    if w.put.ready lay ∧ i < w.put.length lay ∧ (i < lay.headerBytes ∨ w.HeaderWritten lay) then
      let w := { w with persisted := i :: w.persisted }
      { m with
        device := m.device.write (w.offset + i) [w.put.byteAt lay i]
        writing := m.writing.set key w
        lastWriter := m.lastWriter.set w.offset w }
    else m

/-- The last section of a put. It reports success only after its write. -/
def settle (key : String) (success : Bool) : Machine Meta :=
  match m.writing.get? key with
  | none => m
  | some w =>
    if success ∧ ¬ w.Finished lay then m
    else
      let core := m.core.settle lay.toConfig success key
      { m with
        core
        writing := m.writing.erase key
        completed := if key ∈ core.index then w.put :: m.completed else m.completed }

def step : Event Meta → Machine Meta
  | .reserve requireFit put => m.reserve lay requireFit put
  | .persist key positions => positions.foldl (fun m i => m.persistByte lay key i) m
  | .abandon key =>
    { m with core := m.core.abandon lay.toConfig key, writing := m.writing.erase key }
  | .settle key success => m.settle lay key success
  | .deleteMany keys force => { m with core := (m.core.deleteMany lay.toConfig keys force).1 }
  | .existsMany workerFailed keys lock =>
    { m with core := (m.core.existsMany workerFailed keys lock).1 }
  | .getMetadataPrefix keys lock skipLocked =>
    { m with core := (m.core.getMetadataPrefix keys lock skipLocked).1 }
  | .unlockMany keys => { m with core := m.core.unlockMany keys }
  | .close => { m with core := m.core.close }
  | .checkpoint => { m with snapshots := m.snapshots ++ [snapshotState fields lay m.core] }
  | .restart snapshot unreadable =>
    { m with
      core :=
        match snapshot.bind (m.snapshots[·]?) with
        | none => .empty
        | some document => restarted py lay m.device unreadable document
      writing := ∅ }

end Machine

end LMCache.RawBlock
