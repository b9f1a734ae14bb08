/-
LMCache.Coordinator.Events — the cache events of the fleet.

The MP servers report to the coordinator in batches. A batch carries the
position of its emitter's stream (incarnation and sequence number) and the
keys it is about. The checks of the two constructors are fields, so a batch
that the constructor rejects cannot be written down.
-/
import LMCache.Multiprocess.ObjectKeys

namespace LMCache.Coordinator

open Multiprocess (ObjectKey)

variable {Digest : Type}

/-- `Tier`; the events target a concrete one. -/
inductive Tier where
  | l1
  | l2
  deriving DecidableEq, Repr

/-- `CacheEventType`. -/
inductive CacheEventType where
  | store
  | delete
  | access
  | config
  deriving DecidableEq, Repr

/-- `UNKNOWN_TOKEN_OFFSET`. -/
def unknownTokenOffset : Int := -1

/-- An entry's default offset passes its check. -/
theorem unknown_ok : 0 ≤ unknownTokenOffset ∨ unknownTokenOffset = unknownTokenOffset := .inr rfl

/-- `CacheEventEntry`. The key is the converted one: what cannot be converted
is rejected with the request that carries it. -/
structure CacheEventEntry (Digest : Type) where
  key : ObjectKey Digest
  sizeBytes : Nat := 0
  tokenIds : List Int := []
  tokenOffset : Int := unknownTokenOffset
  offset_ok : 0 ≤ tokenOffset ∨ tokenOffset = unknownTokenOffset := by decide
  deriving DecidableEq

/-- `CacheEventBatch`, without the capacities that a `config` batch declares. -/
structure CacheEventBatch (Digest : Type) where
  instanceId : String
  incarnation : Nat
  seq : Nat
  eventType : CacheEventType
  tier : Tier
  backend : String
  entries : List (CacheEventEntry Digest) := []
  shared : Bool := false
  ts : Nat := 0
  droppedEvents : Nat := 0
  instanceId_ne : instanceId ≠ "" := by decide
  backend_ne : eventType ≠ .access → backend ≠ "" := by decide
  seq_pos : 1 ≤ seq := by decide
  config_entries : eventType = .config → entries = [] := by nofun
  deriving DecidableEq

end LMCache.Coordinator
