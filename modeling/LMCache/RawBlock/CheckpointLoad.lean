/-
LMCache.RawBlock.CheckpointLoad — applying a decoded checkpoint document.

The document is whatever `json.loads` returns, so every field can have any
type. `int()` is modelled case by case; what the code hands to other
libraries (`int` of a text, `str` of a value, building a shape or a tensor)
is a parameter of the model, `none` where the call raises.

`_apply_loaded_state` checks the layout fields before it touches the store,
then clears the store and loads the entries one by one. A conversion that
raises in the loop leaves the store as far as the loop got: the verdict then is
a refusal, but the state is not the one before.
-/
import LMCache.RawBlock.Core
import Mathlib.Data.Rat.Floor

namespace LMCache.RawBlock

open Lib

/-- A decoded JSON value. A float is the rational it denotes, `none` for
`NaN` and the infinities. -/
inductive Json
  | null
  | bool (b : Bool)
  | int (n : Int)
  | float (value : Option Rat)
  | str (s : String)
  | arr (items : List Json)
  | obj (members : List (String × Json))

/-- Calls into other libraries; `none` where they raise. -/
structure Python (Meta : Type) where
  intOfStr : String → Option Int
  strOf : Json → String
  /-- the metadata built from the shape, format, positions and dtype of an entry -/
  metadataOf : String → Dict String Json → Option Meta
  /-- `slot_identity_from_encoded_key` -/
  slotIdentity : String → Option Nat

/-- The configuration with the fields a checkpoint is compared with. -/
structure Layout extends Config where
  devicePath : String
  metaTotalBytes : Nat
  metaMagicText : String
  metaVersion : Nat
  metaVerifyOnLoad : Bool

/-- `False` returned, or an exception. -/
inductive Refusal
  | rejected
  | raised
deriving DecidableEq

inductive Verdict
  | accepted
  | refused (why : Refusal)
deriving DecidableEq

namespace Json

/-- The dictionary of an object: of two members with one name the later counts. -/
def asDict : Json → Option (Dict String Json)
  | .obj members => some (members.foldl (fun d p => d.set p.1 p.2) ∅)
  | _ => none

/-- `int(value)` -/
def toInt {Meta : Type} (py : Python Meta) : Json → Option Int
  | .null => none
  | .bool b => some (if b then 1 else 0)
  | .int n => some n
  | .float none => none
  | .float (some q) => some (if 0 ≤ q then ⌊q⌋ else ⌈q⌉)
  | .str s => py.intOfStr s
  | .arr _ => none
  | .obj _ => none

/-- `bool(value)` -/
def truthy : Json → Bool
  | .null => false
  | .bool b => b
  | .int n => n ≠ 0
  | .float q => q ≠ some 0
  | .str s => s ≠ ""
  | .arr items => !items.isEmpty
  | .obj members => !members.isEmpty

end Json

variable {Meta : Type} (py : Python Meta) (lay : Layout)

/-! ## The layout fields -/

section

variable (data : Dict String Json)

/-- `int(data.get(name, default))` -/
def intField (name : String) (default : Int) : Except Refusal Int :=
  match data.get? name with
  | none => .ok default
  | some v => (v.toInt py).elim (.error .raised) .ok

/-- A field that must be the store's own; absent means the same. -/
def expectInt (name : String) (own : Nat) : Except Refusal Unit := do
  let n ← intField py data name own
  if n ≠ own then .error .rejected

def checkVersion : Except Refusal Unit := do
  let n ← intField py data "version" 0
  if n ≠ 1 then .error .rejected

/-- Only a path that is present and not empty is compared. -/
def checkDevicePath : Except Refusal Unit :=
  match data.get? "device_path" with
  | none => .ok ()
  | some v =>
    match v with
    | .str s => if s ≠ "" ∧ s ≠ lay.devicePath then .error .rejected else .ok ()
    | v => if v.truthy then .error .rejected else .ok ()

def checkMagic : Except Refusal Unit :=
  match data.get? "meta_magic" with
  | none => .ok ()
  | some v => if py.strOf v ≠ lay.metaMagicText then .error .rejected else .ok ()

/-- A conversion error is a rejection here. -/
def checkNextSlot : Except Refusal Nat :=
  match intField py data "next_slot" 0 with
  | .error _ => .error .rejected
  | .ok n => if n < 0 ∨ n > lay.maxSlots then .error .rejected else .ok n.toNat

/-- What has to hold before the store is touched; the dictionary and `next_slot`. -/
def checkDocument (document : Json) : Except Refusal (Dict String Json × Nat) :=
  match document.asDict with
  | none => .error .rejected
  | some data => do
    checkVersion py data
    checkDevicePath lay data
    expectInt py data "block_align" lay.blockAlign
    expectInt py data "header_bytes" lay.headerBytes
    expectInt py data "slot_bytes" lay.slotBytes
    expectInt py data "meta_total_bytes" lay.metaTotalBytes
    checkMagic py lay data
    expectInt py data "meta_version" lay.metaVersion
    let nextSlot ← checkNextSlot py lay data
    return (data, nextSlot)

/-! ## The entries -/

/-- `_is_valid_checkpoint_entry` -/
def isValidCheckpointEntry (offset size : Int) : Bool :=
  let rel := offset - lay.dataBaseOffset
  decide (0 ≤ rel) && decide (rel % lay.slotBytes = 0) &&
    decide (rel / lay.slotBytes < lay.maxSlots) &&
    (decide (0 < size) && decide (size ≤ (lay.slotBytes : Int) - lay.headerBytes))

/-- One round of the loop: `ok none` skips the entry. -/
def loadEntry (encodedKey : String) (entry : Json) : Except Refusal (Option (Entry Meta)) :=
  match entry.asDict with
  | none => .ok none
  | some fields => do
    let offset ← intField py fields "offset" 0
    let size ← intField py fields "size" 0
    if isValidCheckpointEntry lay offset size then
      match py.metadataOf encodedKey fields with
      | none => .error .raised
      | some metadata => return some ⟨offset.toNat, size.toNat, metadata⟩
    else return none

/-- The loop over `entries.items()`; the index it reached is part of the answer. -/
def loadEntries : Dict String (Entry Meta) → List (String × Json) → Dict String (Entry Meta) × Bool
  | index, [] => (index, true)
  | index, (key, entry) :: rest =>
    match loadEntry py lay key entry with
    | .error _ => (index, false)
    | .ok none => loadEntries index rest
    | .ok (some e) => loadEntries (index.set key e) rest

/-- `data.get("entries", {})`, empty unless it is an object. -/
def entriesOf : List (String × Json) :=
  match (data.get? "entries").bind Json.asDict with
  | none => []
  | some entries => entries.entries

end

/-- `_is_stale_header` of the header read for the entry. -/
def isStaleHeader (key : String) (entry : Entry Meta) (slotHdr : Option (Nat × Nat)) : Bool :=
  match slotHdr, py.slotIdentity key with
  | some (slotIdentity, payloadLen), some expected =>
    slotIdentity ≠ expected || payloadLen ≠ entry.size
  | _, _ => true

namespace RawBlockCore

variable (c : RawBlockCore String Meta)

/-- Everything a load replaces is cleared first. -/
def clearForLoad (nextSlot : Nat) : RawBlockCore String Meta :=
  { c with
    nextSlot
    freeSlots := ∅
    freeSlotsByPlacementId := ∅
    slotPlacementIds := ∅
    index := ∅
    lockRefcnt := ∅ }

/-- The slots below `n` outside `used`, in order. -/
def slotsExcept (n : Nat) (used : List Nat) : Dict Nat Unit :=
  ⟨((List.range n).filter (· ∉ used)).map fun slot => (slot, ()), by
    rw [List.map_map]
    show (List.map id _).Nodup
    rw [List.map_id]
    exact List.nodup_range.filter _⟩

def rebuildFreeSlots : RawBlockCore String Meta :=
  { c with
    freeSlots := slotsExcept c.nextSlot (c.index.values.map fun e => lay.offsetToSlot e.offset)
    metaDirtyTotal := 0
    metaPersisted := 0 }

/-- One dropped entry of `_validate_loaded_entries`. -/
def dropEntry (key : String) : RawBlockCore String Meta :=
  match c.index.get? key with
  | none => { c with lockRefcnt := c.lockRefcnt.erase key }
  | some entry =>
    { c with index := c.index.erase key, lockRefcnt := c.lockRefcnt.erase key }.appendFreeSlot
      lay.toConfig (lay.offsetToSlot entry.offset)

variable (slotHdr : String → Option (Nat × Nat))

/-- `_validate_loaded_entries`; `slotHdr key` is what reading the slot of the
entry of `key` returned. -/
def validateLoadedEntries : RawBlockCore String Meta :=
  let toDrop := (c.index.entries.filter fun p => isStaleHeader py p.1 p.2 (slotHdr p.1)).map (·.1)
  if toDrop = [] then c
  else
    let c := toDrop.foldl (fun c key => c.dropEntry lay key) c
    { c with metaDirtyTotal := c.metaDirtyTotal + 1 }

def applyLoadedState (document : Json) : Verdict × RawBlockCore String Meta :=
  match checkDocument py lay document with
  | .error why => (.refused why, c)
  | .ok (data, nextSlot) =>
    let (index, finished) := loadEntries py lay ∅ (entriesOf data)
    let c := { c.clearForLoad nextSlot with index }
    if finished then
      let c := c.rebuildFreeSlots lay
      (.accepted, if lay.metaVerifyOnLoad then c.validateLoadedEntries py lay slotHdr else c)
    else (.refused .raised, c)

end RawBlockCore

end LMCache.RawBlock
