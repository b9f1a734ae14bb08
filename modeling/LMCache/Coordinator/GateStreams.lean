/-
LMCache.Coordinator.GateStreams — what the consumers see of one emitter.

Beside the gate we keep, for each emitter, what the consumers got from it
since it was last dropped: fences, and batches with the missing batches the
gate reported with them. `InOrder` is what a consumer may rely on, and it
holds of every such log, whatever arrives in whatever order. The cursor
`Follows` the log: every admitted batch is at or behind it, and an incarnation
that is over lies before a fence.
-/
import LMCache.Coordinator.EventGate

namespace LMCache.Coordinator

open List Lib EventGate

variable {Digest : Type}

/-! ## Logs -/

/-- What the consumers get of one emitter. -/
inductive Delivery (Digest : Type) where
  | fence
  | delivered (batch : CacheEventBatch Digest) (missing : Nat)

/-- The signals of an `ingest` are about the emitter of its batch. -/
def Signal.delivery (missing : Nat) : Signal Digest → Delivery Digest
  | .broadcast batch => .delivered batch missing
  | .fenceInstance _ => .fence

namespace Delivery

def admitted? : Delivery Digest → Option (CacheEventBatch Digest × Nat)
  | .fence => none
  | .delivered batch missing => some (batch, missing)

section

variable (log : List (Delivery Digest)) (incarnation : Nat)

/-- The admitted batches of a log, each with the missing batches reported. -/
def batches : List (CacheEventBatch Digest × Nat) :=
  log.filterMap admitted?

def ofIncarnation : List (CacheEventBatch Digest × Nat) :=
  (batches log).filter fun p => p.1.incarnation = incarnation

def numAdmitted : Nat :=
  (ofIncarnation log incarnation).length

def numMissing : Nat :=
  ((ofIncarnation log incarnation).map Prod.snd).sum

def lastSeq? : Option Nat :=
  (ofIncarnation log incarnation).getLast?.map fun p => p.1.seq

/-- An earlier incarnation was tracked before this one. -/
def Replaced : Prop :=
  ∃ p ∈ batches log, p.1.incarnation < incarnation

end

/-- The order of one emitter's batches. -/
def Precedes (p q : CacheEventBatch Digest × Nat) : Prop :=
  p.1.incarnation < q.1.incarnation ∨ p.1.incarnation = q.1.incarnation ∧ p.1.seq < q.1.seq

/-- Batches ascend, incarnations are separated by fences, and what did not
arrive of a tracked incarnation is accounted. -/
structure InOrder (log : List (Delivery Digest)) : Prop where
  ordered : (batches log).Pairwise Precedes
  fenced : ∀ (i j : Nat) a m b n, i < j → log[i]? = some (delivered a m) → log[j]? = some (delivered b n) →
    a.incarnation ≠ b.incarnation → ∃ k, i < k ∧ k < j ∧ log[k]? = some fence
  accounted : ∀ incarnation seq, Replaced log incarnation → lastSeq? log incarnation = some seq →
    numAdmitted log incarnation + numMissing log incarnation = seq

/-- The cursor of an emitter against its log. -/
structure Follows (log : List (Delivery Digest)) (cursor : StreamCursor) : Prop where
  bound : ∀ p ∈ batches log, p.1.incarnation < cursor.incarnation ∨
    p.1.incarnation = cursor.incarnation ∧ p.1.seq ≤ cursor.lastSeq
  last : lastSeq? log cursor.incarnation = some cursor.lastSeq
  missing : cursor.missingBatches = numMissing log cursor.incarnation
  closed : ∀ (i : Nat) a m, log[i]? = some (delivered a m) → a.incarnation ≠ cursor.incarnation →
    ∃ k, i < k ∧ log[k]? = some fence

/-! ## Logs that grow -/

variable {log : List (Delivery Digest)} {b : CacheEventBatch Digest} {m : Nat}

@[simp] lemma batches_append_batch :
    batches (log ++ [delivered b m]) = batches log ++ [(b, m)] := by
  simp [batches, admitted?]

@[simp] lemma batches_append_fence : batches (log ++ [fence]) = batches log := by
  simp [batches, admitted?]

lemma ofIncarnation_append_batch (incarnation : Nat) :
    ofIncarnation (log ++ [delivered b m]) incarnation =
      ofIncarnation log incarnation ++ if b.incarnation = incarnation then [(b, m)] else [] := by
  simp only [ofIncarnation]
  split <;> simp_all

lemma numAdmitted_append_batch :
    numAdmitted (log ++ [delivered b m]) b.incarnation = numAdmitted log b.incarnation + 1 := by
  simp [numAdmitted, ofIncarnation_append_batch]

lemma numMissing_append_batch :
    numMissing (log ++ [delivered b m]) b.incarnation = numMissing log b.incarnation + m := by
  simp [numMissing, ofIncarnation_append_batch]

lemma lastSeq?_append_batch : lastSeq? (log ++ [delivered b m]) b.incarnation = some b.seq := by
  simp [lastSeq?, ofIncarnation_append_batch]

namespace InOrder

lemma nil : InOrder ([] : List (Delivery Digest)) where
  ordered := by simp [batches]
  fenced := by simp
  accounted := by simp [Replaced, batches]

lemma append_fence (h : InOrder log) : InOrder (log ++ [fence]) where
  ordered := by simpa using h.ordered
  fenced i j a m b n hij hi hj hne := by
    have hlast : ∀ {k : Nat} {c l}, (log ++ [fence])[k]? = some (delivered c l) →
        log[k]? = some (delivered c l) := by
      intro k c l hk
      rw [getElem?_append] at hk
      split at hk
      · exact hk
      · simp [getElem?_singleton] at hk
    obtain ⟨k, hik, hkj, hk⟩ := h.fenced i j a m b n hij (hlast hi) (hlast hj) hne
    exact ⟨k, hik, hkj, by rw [getElem?_append_left (List.getElem?_eq_some_iff.mp hk).1, hk]⟩
  accounted incarnation seq := by
    simpa [Replaced, lastSeq?, numAdmitted, numMissing, ofIncarnation]
      using h.accounted incarnation seq

lemma append_batch (h : InOrder log) (hbefore : ∀ p ∈ batches log, Precedes p (b, m))
    (hclosed : ∀ (i : Nat) a n, log[i]? = some (delivered a n) → a.incarnation ≠ b.incarnation →
      ∃ k, i < k ∧ log[k]? = some fence) (haccount : Replaced log b.incarnation →
      numAdmitted log b.incarnation + 1 + (numMissing log b.incarnation + m) = b.seq) :
    InOrder (log ++ [delivered b m]) where
  ordered := by
    rw [batches_append_batch, pairwise_append]
    exact ⟨h.ordered, by simp, by simpa using hbefore⟩
  fenced i j a n c l hij hi hj hne := by
    have hfence : ∀ {k : Nat}, log[k]? = some fence → (log ++ [delivered b m])[k]? = some fence := by
      intro k hk
      rw [getElem?_append_left (List.getElem?_eq_some_iff.mp hk).1, hk]
    -- Only the second of the two batches can be the new one.
    have hlen : j ≤ log.length := by
      have := (List.getElem?_eq_some_iff.mp hj).1
      simp at this
      omega
    rw [getElem?_append_left (by omega)] at hi
    rcases hlen.lt_or_eq with hlt | rfl
    · rw [getElem?_append_left hlt] at hj
      obtain ⟨k, hik, hkj, hk⟩ := h.fenced i j a n c l hij hi hj hne
      exact ⟨k, hik, hkj, hfence hk⟩
    · simp only [getElem?_concat_length] at hj
      obtain ⟨rfl, rfl⟩ := hj
      obtain ⟨k, hik, hk⟩ := hclosed i a n hi hne
      exact ⟨k, hik, (List.getElem?_eq_some_iff.mp hk).1, hfence hk⟩
  accounted incarnation seq hreplaced hseq := by
    by_cases hinc : b.incarnation = incarnation
    · subst hinc
      rw [lastSeq?_append_batch, Option.some.injEq] at hseq
      rw [numAdmitted_append_batch, numMissing_append_batch, ← hseq]
      exact haccount (by simpa [Replaced] using hreplaced)
    · -- a batch of another incarnation changes nothing in the books of this one
      have hbooks : ofIncarnation (log ++ [delivered b m]) incarnation
          = ofIncarnation log incarnation := by
        simp [ofIncarnation_append_batch, hinc]
      simp only [numAdmitted, numMissing, lastSeq?, hbooks] at hseq ⊢
      obtain ⟨last, hlast, -⟩ := Option.map_eq_some_iff.mp hseq
      obtain ⟨hmem, hlastInc⟩ : last ∈ batches log ∧ last.1.incarnation = incarnation := by
        simpa [ofIncarnation] using mem_of_getLast? hlast
      refine h.accounted incarnation seq ?_ hseq
      obtain ⟨p, hp, hlt⟩ := hreplaced
      rw [batches_append_batch, mem_append, mem_singleton] at hp
      rcases hp with hp | rfl
      · exact ⟨p, hp, hlt⟩
      · -- The new batch is not older than the last one of this incarnation.
        rcases hbefore last hmem with hprec | hprec <;> simp only at hprec hlt <;> omega

end InOrder

/-! ## The cursor and its log -/

variable {cursor : StreamCursor}

lemma Follows.append_batch (hbefore : ∀ p ∈ batches log, Precedes p (b, m))
    (hclosed : ∀ (i : Nat) a n, log[i]? = some (delivered a n) → a.incarnation ≠ b.incarnation →
      ∃ k, i < k ∧ log[k]? = some fence) (hinc : cursor.incarnation = b.incarnation)
    (hseq : cursor.lastSeq = b.seq)
    (hmissing : cursor.missingBatches = numMissing log b.incarnation + m) :
    Follows (log ++ [delivered b m]) cursor where
  bound p hp := by
    rw [batches_append_batch, mem_append, mem_singleton] at hp
    rw [hinc, hseq]
    rcases hp with hp | rfl
    · exact (hbefore p hp).imp_right fun h => ⟨h.1, h.2.le⟩
    · exact .inr ⟨rfl, le_refl _⟩
  last := by rw [hinc, hseq, lastSeq?_append_batch]
  missing := by rw [hmissing, hinc, numMissing_append_batch]
  closed i a n hi hne := by
    rw [hinc] at hne
    rw [getElem?_append] at hi
    split at hi
    · obtain ⟨k, hik, hk⟩ := hclosed i a n hi hne
      exact ⟨k, hik, by rw [getElem?_append_left (List.getElem?_eq_some_iff.mp hk).1, hk]⟩
    · simp only [getElem?_singleton] at hi
      split at hi
      · cases hi
        exact absurd rfl hne
      · cases hi

variable (b) in
/-- The first batch of an emitter the gate was not tracking. -/
lemma follows_started : InOrder [delivered b 0] ∧
      Follows [delivered b 0] (advance (freshCursor b false) b false) := by
  have hnone : ∀ p ∈ batches ([] : List (Delivery Digest)), Precedes p (b, 0) := by simp [batches]
  constructor
  · refine InOrder.nil.append_batch hnone (by simp) ?_
    simp [Replaced, batches]
  · refine Follows.append_batch hnone (by simp) ?_ rfl ?_
    · simp [freshCursor]
    · simp [freshCursor, reported, numMissing, ofIncarnation, batches]

/-- A newer incarnation: what was there lies behind the fence. -/
lemma follows_restarted (hlog : InOrder log) (hfollows : Follows log cursor)
    (hnewer : cursor.incarnation < b.incarnation) :
    InOrder (log ++ [fence, delivered b (b.seq - 1)]) ∧
      Follows (log ++ [fence, delivered b (b.seq - 1)]) (advance (freshCursor b true) b true) := by
  have hsplit : log ++ [fence, delivered b (b.seq - 1)]
      = log ++ [fence] ++ [delivered b (b.seq - 1)] := by simp
  have hbefore : ∀ p ∈ batches (log ++ [fence]), p.1.incarnation < b.incarnation := by
    intro p hp
    rw [batches_append_fence] at hp
    have := hfollows.bound p hp
    omega
  have hnew : ofIncarnation (log ++ [fence]) b.incarnation = [] := by
    rw [ofIncarnation, filter_eq_nil_iff]
    intro p hp
    simpa using (hbefore p hp).ne
  have hclosed : ∀ (i : Nat) a n, (log ++ [fence])[i]? = some (delivered a n) →
      a.incarnation ≠ b.incarnation → ∃ k, i < k ∧ (log ++ [fence])[k]? = some fence := by
    intro i a n hi _
    refine ⟨log.length, ?_, by simp⟩
    by_contra hge
    rw [getElem?_append_right (by omega), getElem?_singleton] at hi
    split at hi <;> simp at hi
  have hseq := b.seq_pos
  rw [hsplit]
  constructor
  · refine hlog.append_fence.append_batch (fun p hp => .inl (hbefore p hp)) hclosed fun _ => ?_
    simp only [numAdmitted, numMissing, hnew, length_nil, map_nil, sum_nil]
    omega
  · refine Follows.append_batch (fun p hp => .inl (hbefore p hp)) hclosed ?_ rfl ?_
    · simp [freshCursor]
    · simp [freshCursor, reported, numMissing, hnew]

/-- The next batch of the incarnation the cursor follows. -/
lemma follows_continued (hlog : InOrder log) (hfollows : Follows log cursor)
    (hsame : b.incarnation = cursor.incarnation) (hseq : cursor.lastSeq < b.seq) :
    InOrder (log ++ [delivered b (b.seq - cursor.lastSeq - 1)]) ∧
      Follows (log ++ [delivered b (b.seq - cursor.lastSeq - 1)]) (advance cursor b true) := by
  have hbefore : ∀ p ∈ batches log, Precedes p (b, b.seq - cursor.lastSeq - 1) := by
    intro p hp
    rw [Precedes, hsame]
    exact (hfollows.bound p hp).imp_right fun h => ⟨h.1, lt_of_le_of_lt h.2 hseq⟩
  constructor
  · refine hlog.append_batch hbefore (fun i a n hi hne => hfollows.closed i a n hi (hsame ▸ hne))
      fun hreplaced => ?_
    have haccount := hlog.accounted _ _ hreplaced (hsame ▸ hfollows.last)
    omega
  · refine Follows.append_batch hbefore
      (fun i a n hi hne => hfollows.closed i a n hi (hsame ▸ hne)) ?_ rfl ?_
    · simp [hsame]
    · simp [reported, hfollows.missing, hsame]

end Delivery

/-! ## The fleet -/

/-- The gate, and for each emitter what the consumers got of it since it was
last dropped. -/
structure Feed (Digest : Type) where
  gate : EventGate
  log : String → List (Delivery Digest)

namespace Feed

open Delivery

def init : Feed Digest := ⟨.new, fun _ => []⟩

def step (feed : Feed Digest) (op : Op Digest) : Feed Digest where
  gate := feed.gate.step op
  log := match op with
    | .ingest batch =>
      Function.update feed.log batch.instanceId (feed.log batch.instanceId ++
        (feed.gate.ingest batch).2.1.map (Signal.delivery (feed.gate.newlyMissing batch)))
    | .dropInstance instanceId => Function.update feed.log instanceId []
    | .readmitInstance _ => feed.log

/-- An emitter without a cursor has sent nothing since its last drop. -/
def Tracked (feed : Feed Digest) (instanceId : String) : Prop :=
  match feed.gate.cursors.get? instanceId with
  | none => feed.log instanceId = []
  | some cursor => InOrder (feed.log instanceId) ∧ Follows (feed.log instanceId) cursor

/-- What one call does to the emitter it is about. -/
lemma tracked_ingest {feed : Feed Digest} {batch : CacheEventBatch Digest}
    (h : feed.Tracked batch.instanceId) : (feed.step (.ingest batch)).Tracked batch.instanceId := by
  have hdone := feed.gate.ingested batch
  simp only [Tracked, step, EventGate.step] at h ⊢
  generalize (feed.gate.ingest batch).2.2.cursors = cursors at hdone ⊢
  generalize (feed.gate.ingest batch).2.1 = signals at hdone ⊢
  generalize (feed.gate.ingest batch).1 = result at hdone
  generalize feed.gate.newlyMissing batch = missing at hdone ⊢
  cases hdone with
  | refused hresult => simpa using h
  | started hnone =>
    rw [hnone] at h
    simpa [h, Signal.delivery] using follows_started batch
  | restarted hsome hnewer =>
    rw [hsome] at h
    simpa [Signal.delivery] using follows_restarted h.1 h.2 hnewer
  | continued hsome hsame hseq =>
    rw [hsome] at h
    simpa [Signal.delivery] using follows_continued h.1 h.2 hsame hseq

lemma tracked_step {feed : Feed Digest} (op : Op Digest) (instanceId : String)
    (h : ∀ id, feed.Tracked id) : (feed.step op).Tracked instanceId := by
  cases op with
  | ingest batch =>
    by_cases hid : instanceId = batch.instanceId
    · subst hid
      exact tracked_ingest (h _)
    · have hother := (feed.gate.ingested batch).cursors_ne hid
      simpa [Tracked, step, EventGate.step, Function.update_of_ne hid, hother] using h instanceId
  | dropInstance dropped =>
    have hid := h instanceId
    simp only [Tracked, step, EventGate.step, dropInstance] at hid ⊢
    by_cases hd : instanceId = dropped
    · subst hd
      cases hcursor : feed.gate.cursors.get? instanceId <;> simp [hcursor]
    · cases hcursor : feed.gate.cursors.get? dropped <;>
        simpa [hd, Dict.get?_erase] using hid
  | readmitInstance readmitted => exact h instanceId

/-- A batch is answered as admitted iff the consumers get it. -/
lemma admitted_iff_broadcast (gate : EventGate) (batch : CacheEventBatch Digest) :
    (gate.ingest batch).1 = .admitted ↔ .broadcast batch ∈ (gate.ingest batch).2.1 := by
  have hdone := gate.ingested batch
  generalize (gate.ingest batch).2.2.cursors = cursors at hdone
  generalize (gate.ingest batch).2.1 = signals at hdone ⊢
  generalize (gate.ingest batch).1 = result at hdone ⊢
  generalize gate.newlyMissing batch = missing at hdone
  cases hdone with
  | refused hresult => simp [hresult]
  | _ => simp

/-- Whatever arrives, what the consumers get of an emitter between two drops is
in order, and the cursor reports where the stream is and what is missing. The
batches they get are those that are answered as admitted. -/
theorem streams_inOrder (ops : List (Op Digest)) (instanceId : String) :
    InOrder ((run step init ops).log instanceId) ∧
      (∀ cursor ∈ (run step init ops).gate.cursors.get? instanceId,
      lastSeq? ((run step init ops).log instanceId) cursor.incarnation = some cursor.lastSeq ∧
      cursor.missingBatches
      = numMissing ((run step init ops).log instanceId) cursor.incarnation) ∧
      ∀ batch : CacheEventBatch Digest, ((run step init ops).gate.ingest batch).1 = .admitted ↔
      .broadcast batch ∈ ((run step init ops).gate.ingest batch).2.1 := by
  have hinit : ∀ id, (init : Feed Digest).Tracked id := fun _ => rfl
  have htracked : ∀ id, (run step (init : Feed Digest) ops).Tracked id :=
    run_always (fun feed : Feed Digest => ∀ id, feed.Tracked id)
      (fun feed op h id => tracked_step op id h)
      hinit ops
  have hid := htracked instanceId
  rw [Tracked] at hid
  cases hcursor : (run step (init : Feed Digest) ops).gate.cursors.get? instanceId with
  | none =>
    rw [hcursor] at hid
    exact ⟨hid ▸ .nil, by simp, admitted_iff_broadcast _⟩
  | some cursor =>
    rw [hcursor] at hid
    exact ⟨hid.1, fun c hc => by cases hc; exact ⟨hid.2.last, hid.2.missing⟩,
      admitted_iff_broadcast _⟩

end Feed

end LMCache.Coordinator
