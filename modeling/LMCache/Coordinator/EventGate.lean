/-
LMCache.Coordinator.EventGate — admission of the event streams.

The gate keeps a cursor for each emitter: the incarnation it follows and the
last sequence number admitted from it. A batch of an older incarnation is
stale, a sequence number seen before is a duplicate, a newer incarnation
fences the emitter and starts a new cursor. Dropping an instance forgets its
cursor and records the incarnation in a second table, against which late L1
batches are checked until the instance registers again.

What the consumers get is the list of `Signal`s a call returns. Clocks and log
messages are left out.
-/
import LMCache.Coordinator.Events

namespace LMCache.Coordinator

open Lib

variable {Digest : Type}

/-- `IngestResult`. -/
inductive IngestResult where
  | admitted
  | duplicate
  | staleIncarnation
  deriving DecidableEq, Repr

/-- `_StreamCursor`. -/
structure StreamCursor where
  incarnation : Nat
  lastSeq : Nat := 0
  gapDetected : Bool := false
  lastDroppedEvents : Option Nat := none
  missingBatches : Nat := 0
  eventsDropped : Nat := 0
  deriving DecidableEq

/-- `EventGateStats`: the totals; the cursors are the gate's own. -/
structure EventGateStats where
  batchesApplied : Nat := 0
  batchesDuplicate : Nat := 0
  batchesStale : Nat := 0
  batchesMissing : Nat := 0
  eventsDropped : Nat := 0
  deriving DecidableEq

/-- What the broadcaster hands to every consumer. -/
inductive Signal (Digest : Type) where
  | broadcast (batch : CacheEventBatch Digest)
  | fenceInstance (instanceId : String)
  deriving DecidableEq

/-- `EventGate`. -/
structure EventGate where
  cursors : Dict String StreamCursor
  departed : Dict String Nat
  stats : EventGateStats

namespace EventGate

def new : EventGate := ⟨∅, ∅, {}⟩

/-! ## Admission -/

section

variable (cursor : StreamCursor) (batch : CacheEventBatch Digest)

/-- `_mark_gap`. -/
def markGap : StreamCursor := { cursor with gapDetected := true }

/-- The batches an admitted batch skipped, as the gate reports them: none for
a stream it was not tracking. -/
def reported (tracked : Bool) : Nat :=
  if tracked then batch.seq - cursor.lastSeq - 1 else 0

/-- The events an emitter newly reports as dropped. -/
def newlyDropped : Nat :=
  match cursor.lastDroppedEvents with
  | some last => batch.droppedEvents - last
  | none => 0

/-- The cursor after an admitted batch, with its loss accounted. -/
def advance (tracked : Bool) : StreamCursor :=
  let skipped := batch.seq - cursor.lastSeq - 1
  let seqChecked :=
    if 0 < skipped then
      { markGap cursor with missingBatches := cursor.missingBatches + reported cursor batch tracked }
    else cursor
  let lossChecked :=
    if 0 < newlyDropped cursor batch then
      { markGap seqChecked with
        eventsDropped := seqChecked.eventsDropped + newlyDropped cursor batch }
    else seqChecked
  { lossChecked with lastDroppedEvents := some batch.droppedEvents, lastSeq := batch.seq }

end

variable (cursor : StreamCursor)

section

variable (batch : CacheEventBatch Digest) (tracked : Bool)

@[simp] lemma advance_incarnation :
    (advance cursor batch tracked).incarnation = cursor.incarnation := by
  simp only [advance]
  split <;> split <;> rfl

@[simp] lemma advance_lastSeq : (advance cursor batch tracked).lastSeq = batch.seq := by rfl

@[simp] lemma advance_missingBatches : (advance cursor batch tracked).missingBatches
      = cursor.missingBatches + reported cursor batch tracked := by
  have hnone : ¬ 0 < batch.seq - cursor.lastSeq - 1 → reported cursor batch tracked = 0 := by
    simp only [reported]
    split <;> omega
  simp only [advance, markGap]
  split <;> split <;> simp_all

end

section

variable (gate : EventGate) (batch : CacheEventBatch Digest)

/-- The end of `_admit`: the batch passed the checks and reaches the
consumers. -/
def accept (cursor : StreamCursor) (tracked : Bool) : EventGate where
  cursors := gate.cursors.set batch.instanceId (advance cursor batch tracked)
  departed := gate.departed
  stats := { gate.stats with
    batchesMissing := gate.stats.batchesMissing + reported cursor batch tracked
    eventsDropped := gate.stats.eventsDropped + newlyDropped cursor batch }

/-- The cursor a stream starts with. The history of a stream joined midway is
unknown. -/
def freshCursor (tracked : Bool) : StreamCursor where
  incarnation := batch.incarnation
  lastDroppedEvents := if tracked || batch.seq = 1 then some 0 else none

/-- `_admit` past the table of departed instances. -/
def admitCursor : IngestResult × List (Signal Digest) × EventGate :=
  match gate.cursors.get? batch.instanceId with
  | none => (.admitted, [.broadcast batch], gate.accept batch (freshCursor batch false) false)
  | some cursor =>
    if batch.incarnation < cursor.incarnation then (.staleIncarnation, [], gate)
    else if cursor.incarnation < batch.incarnation then
      -- The emitter restarted: what its memory held is void.
      (.admitted, [.fenceInstance batch.instanceId, .broadcast batch],
        gate.accept batch (freshCursor batch true) true)
    else if batch.seq ≤ cursor.lastSeq then (.duplicate, [], gate)
    else (.admitted, [.broadcast batch], gate.accept batch cursor true)

/-- `_admit`. -/
def admitBatch : IngestResult × List (Signal Digest) × EventGate :=
  match gate.departed.get? batch.instanceId with
  | none => gate.admitCursor batch
  | some departed =>
    if departed < batch.incarnation then
      { gate with departed := gate.departed.erase batch.instanceId }.admitCursor batch
    else if batch.tier = .l1 then (.staleIncarnation, [], gate)
    else gate.admitCursor batch

def countResult (stats : EventGateStats) : IngestResult → EventGateStats
  | .admitted => { stats with batchesApplied := stats.batchesApplied + 1 }
  | .duplicate => { stats with batchesDuplicate := stats.batchesDuplicate + 1 }
  | .staleIncarnation => { stats with batchesStale := stats.batchesStale + 1 }

/-- `ingest`. -/
def ingest : IngestResult × List (Signal Digest) × EventGate :=
  let (result, signals, after) := gate.admitBatch batch
  (result, signals, { after with stats := countResult after.stats result })

/-- `drop_instance`; it always sends a fence. -/
def dropInstance (instanceId : String) : EventGate :=
  match gate.cursors.get? instanceId with
  | none => gate
  | some cursor =>
    { gate with
      cursors := gate.cursors.erase instanceId
      departed := gate.departed.set instanceId cursor.incarnation }

/-- `readmit_instance`. -/
def readmitInstance (instanceId : String) : EventGate :=
  { gate with departed := gate.departed.erase instanceId }

/-! ## Checkpoints -/

/-- The fields of a captured cursor; captures of older versions have no last
one. -/
structure CapturedCursor where
  incarnation : Nat
  lastSeq : Nat
  gapDetected : Bool
  lastDroppedEvents : Option (Option Nat)

/-- `capture`. -/
def capture : Dict String CapturedCursor :=
  gate.cursors.mapValues fun _ cursor =>
    ⟨cursor.incarnation, cursor.lastSeq, cursor.gapDetected, some cursor.lastDroppedEvents⟩

end

/-- `restore`: only into a gate that holds no cursors. -/
def restore (gate : EventGate) (state : Dict String CapturedCursor) : Except String EventGate :=
  if gate.cursors.entries.isEmpty then
    .ok { gate with
      cursors := state.mapValues fun _ fields =>
        { incarnation := fields.incarnation, lastSeq := fields.lastSeq,
          gapDetected := fields.gapDetected, lastDroppedEvents := fields.lastDroppedEvents.join } }
  else .error "restore() requires a gate that has admitted nothing"

/-! ## The calls as events -/

/-- A call of the gate. -/
inductive Op (Digest : Type) where
  | ingest (batch : CacheEventBatch Digest)
  | dropInstance (instanceId : String)
  | readmitInstance (instanceId : String)
  deriving DecidableEq

/-- What a call answers and what it sends to the consumers. -/
def reply (gate : EventGate) : Op Digest → Option IngestResult × List (Signal Digest)
  | .ingest batch => (some (gate.ingest batch).1, (gate.ingest batch).2.1)
  | .dropInstance instanceId => (none, [.fenceInstance instanceId])
  | .readmitInstance _ => (none, [])

def step (gate : EventGate) : Op Digest → EventGate
  | .ingest batch => (gate.ingest batch).2.2
  | .dropInstance instanceId => gate.dropInstance instanceId
  | .readmitInstance instanceId => gate.readmitInstance instanceId

/-! ## What a call does -/

/-- The missing batches an `ingest` adds to the totals. -/
def newlyMissing (gate : EventGate) (batch : CacheEventBatch Digest) : Nat :=
  (gate.ingest batch).2.2.stats.batchesMissing - gate.stats.batchesMissing

/-- Everything an `ingest` can do to the cursors: the result, what the
consumers get, the missing batches it reports, and the cursors after it. -/
inductive Ingested (cursors : Dict String StreamCursor) (batch : CacheEventBatch Digest) :
    IngestResult → List (Signal Digest) → Nat → Dict String StreamCursor → Prop where
  | refused {result : IngestResult} (hresult : result ≠ .admitted) :
    Ingested cursors batch result [] 0 cursors
  | started (hnone : cursors.get? batch.instanceId = none) :
    Ingested cursors batch .admitted [.broadcast batch] 0
      (cursors.set batch.instanceId (advance (freshCursor batch false) batch false))
  | restarted {cursor : StreamCursor} (hsome : cursors.get? batch.instanceId = some cursor)
      (hnewer : cursor.incarnation < batch.incarnation) :
    Ingested cursors batch .admitted [.fenceInstance batch.instanceId, .broadcast batch]
      (batch.seq - 1)
      (cursors.set batch.instanceId (advance (freshCursor batch true) batch true))
  | continued {cursor : StreamCursor} (hsome : cursors.get? batch.instanceId = some cursor)
      (hsame : batch.incarnation = cursor.incarnation) (hseq : cursor.lastSeq < batch.seq) :
    Ingested cursors batch .admitted [.broadcast batch] (batch.seq - cursor.lastSeq - 1)
      (cursors.set batch.instanceId (advance cursor batch true))

section

variable (gate : EventGate) (batch : CacheEventBatch Digest)

/-- The table of departed instances after a batch: a newer incarnation lifts
the ban of its instance. -/
lemma departed_ingest (id : String) :
    (gate.ingest batch).2.2.departed.get? id = if id = batch.instanceId ∧
      ∃ departed, gate.departed.get? id = some departed ∧ departed < batch.incarnation
      then none else gate.departed.get? id := by
  have hcursor : ∀ g : EventGate, (g.admitCursor batch).2.2.departed = g.departed := by
    intro g
    unfold admitCursor
    repeat' split
    all_goals rfl
  simp only [ingest, admitBatch]
  cases hdeparted : gate.departed.get? batch.instanceId with
  | none =>
    rw [hcursor, if_neg]
    rintro ⟨rfl, departed, hsome, -⟩
    simp [hdeparted] at hsome
  | some departed =>
    dsimp only
    split
    · rename_i hlt
      rw [hcursor, Dict.get?_erase]
      by_cases hid : id = batch.instanceId
      · subst hid
        simp [hdeparted, hlt]
      · simp [hid]
    · have hstays : ¬(id = batch.instanceId ∧
          ∃ departed, gate.departed.get? id = some departed ∧ departed < batch.incarnation) := by
        rintro ⟨rfl, d, hsome, hlt⟩
        rw [hdeparted, Option.some.injEq] at hsome
        omega
      rw [if_neg hstays]
      by_cases htier : batch.tier = .l1
      · rw [if_pos htier]
      · rw [if_neg htier, hcursor]

lemma admitCursor_ingested :
    Ingested gate.cursors batch (gate.admitCursor batch).1 (gate.admitCursor batch).2.1
      ((gate.admitCursor batch).2.2.stats.batchesMissing - gate.stats.batchesMissing)
      (gate.admitCursor batch).2.2.cursors := by
  unfold admitCursor
  split
  · rename_i hnone
    simpa [accept, reported] using Ingested.started hnone
  · rename_i cursor hsome
    split
    · simpa using Ingested.refused (by simp)
    · split
      · rename_i hnewer
        simpa [accept, reported, freshCursor] using Ingested.restarted hsome hnewer
      · split
        · simpa using Ingested.refused (by simp)
        · simpa [accept, reported] using Ingested.continued hsome (by omega) (by omega)

lemma ingested :
    Ingested gate.cursors batch (gate.ingest batch).1 (gate.ingest batch).2.1 (gate.newlyMissing batch)
      (gate.ingest batch).2.2.cursors := by
  have hcount : ∀ stats result, (countResult stats result).batchesMissing = stats.batchesMissing := by
    intro stats result
    cases result <;> rfl
  simp only [newlyMissing, ingest, hcount, admitBatch]
  split
  · exact gate.admitCursor_ingested batch
  · split
    · -- Lifting the ban leaves the cursors and the totals alone.
      exact admitCursor_ingested { gate with departed := gate.departed.erase batch.instanceId } batch
    · split
      · simpa using Ingested.refused (by simp)
      · exact gate.admitCursor_ingested batch

end

lemma Ingested.cursors_ne {cursors after : Dict String StreamCursor}
    {batch : CacheEventBatch Digest} {result : IngestResult} {signals : List (Signal Digest)}
    {missing : Nat} (h : Ingested cursors batch result signals missing after) {id : String}
    (hid : id ≠ batch.instanceId) : after.get? id = cursors.get? id := by
  cases h with
  | refused hresult => rfl
  | started hnone => exact Dict.get?_set_ne _ _ hid
  | restarted hsome hnewer => exact Dict.get?_set_ne _ _ hid
  | continued hsome hsame hseq => exact Dict.get?_set_ne _ _ hid

end EventGate

end LMCache.Coordinator
