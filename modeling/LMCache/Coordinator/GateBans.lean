/-
LMCache.Coordinator.GateBans — instances that left.

Whether a batch is admitted depends on two things only: the ban of its
instance, and the position of its stream (`ingest_verdict`). A ban lasts until
the instance registers again or a newer incarnation of it arrives. Two calls
break that.

A drop overwrites the ban. L2 batches pass it, so an L2 batch of an older
incarnation can start a cursor below the ban, and the next drop lowers the ban
to that incarnation. `barred_iff_keepsBan`: L1 batches stay out for as long as
they should in exactly the runs whose drops never lower a ban.

A checkpoint holds the cursors and not the bans. `restored_iff_noneDeparted`:
a restored gate answers as the captured one exactly when no instance was
banned.
-/
import LMCache.Coordinator.EventGate

namespace LMCache.Coordinator

open Lib

variable {Digest : Type}

namespace EventGate

/-! ## What the admission depends on -/

/-- The position of a stream. -/
def cursorPosition (cursor : StreamCursor) : Nat × Nat := (cursor.incarnation, cursor.lastSeq)

/-- The answer to a batch and what it sends, from the position of its stream. -/
def positionVerdict (position : Option (Nat × Nat)) (batch : CacheEventBatch Digest) :
    IngestResult × List (Signal Digest) :=
  match position with
  | none => (.admitted, [.broadcast batch])
  | some (incarnation, lastSeq) =>
    if batch.incarnation < incarnation then (.staleIncarnation, [])
    else if incarnation < batch.incarnation then
      (.admitted, [.fenceInstance batch.instanceId, .broadcast batch])
    else if batch.seq ≤ lastSeq then (.duplicate, [])
    else (.admitted, [.broadcast batch])

/-- The same with the ban of the instance. -/
def verdict (ban : Option Nat) (position : Option (Nat × Nat)) (batch : CacheEventBatch Digest) :
    IngestResult × List (Signal Digest) :=
  if ban.any (batch.incarnation ≤ ·) ∧ batch.tier = .l1 then
    (.staleIncarnation, [])
  else positionVerdict position batch

variable (gate : EventGate) (batch : CacheEventBatch Digest)

section

variable (instanceId : String)

/-- The ban and the position of an instance. -/
def ban : Option Nat := gate.departed.get? instanceId

def position : Option (Nat × Nat) :=
  (gate.cursors.get? instanceId).map cursorPosition

lemma admitCursor_verdict : ((gate.admitCursor batch).1, (gate.admitCursor batch).2.1)
      = positionVerdict (gate.position batch.instanceId) batch := by
  simp only [admitCursor, position, positionVerdict]
  cases gate.cursors.get? batch.instanceId with
  | none => rfl
  | some cursor =>
    simp only [Option.map_some, cursorPosition]
    repeat' split
    all_goals rfl

lemma ingest_verdict : ((gate.ingest batch).1, (gate.ingest batch).2.1)
      = verdict (gate.ban batch.instanceId) (gate.position batch.instanceId) batch := by
  cases hban : gate.departed.get? batch.instanceId with
  | none => simpa [ingest, admitBatch, verdict, ban, hban] using gate.admitCursor_verdict batch
  | some departed =>
    simp only [ingest, admitBatch, verdict, ban, hban, Option.any_some, decide_eq_true_eq]
    by_cases hnew : departed < batch.incarnation
    · rw [if_pos hnew, if_neg (by omega)]
      exact admitCursor_verdict { gate with departed := gate.departed.erase batch.instanceId } batch
    · rw [if_neg hnew]
      by_cases htier : batch.tier = .l1
      · rw [if_pos htier, if_pos ⟨by omega, htier⟩]
      · rw [if_neg htier, if_neg (by simp [htier])]
        exact gate.admitCursor_verdict batch

lemma signals_verdict : (gate.ingest batch).2.1
    = (verdict (gate.ban batch.instanceId) (gate.position batch.instanceId) batch).2 :=
  congrArg Prod.snd (gate.ingest_verdict batch)

lemma position_ingest (id : String) : (gate.ingest batch).2.2.position id =
      if id = batch.instanceId ∧ (gate.ingest batch).1 = .admitted
      then some (batch.incarnation, batch.seq) else gate.position id := by
  by_cases hid : id = batch.instanceId
  · subst hid
    have hdone := gate.ingested batch
    simp only [position, true_and]
    generalize (gate.ingest batch).1 = result at hdone ⊢
    generalize (gate.ingest batch).2.1 = signals at hdone
    generalize gate.newlyMissing batch = missing at hdone
    generalize (gate.ingest batch).2.2.cursors = cursors at hdone ⊢
    cases hdone with
    | refused hresult => rw [if_neg hresult]
    | started hnone => simp [cursorPosition, freshCursor]
    | restarted hsome hnewer => simp [cursorPosition, freshCursor]
    | continued hsome hsame hseq => simp [cursorPosition, hsame]
  · simp [position, hid, (gate.ingested batch).cursors_ne hid]

lemma ban_ingest (id : String) : (gate.ingest batch).2.2.ban id =
      if id = batch.instanceId ∧ ∃ departed ∈ gate.ban id, departed < batch.incarnation
      then none else gate.ban id := by
  simp only [ban, departed_ingest, Option.mem_def]

lemma position_dropInstance (dropped id : String) :
    (gate.dropInstance dropped).position id = if id = dropped then none else gate.position id := by
  simp only [dropInstance, position]
  cases hcursor : gate.cursors.get? dropped with
  | none => by_cases hid : id = dropped <;> simp [hid, hcursor]
  | some cursor => by_cases hid : id = dropped <;> simp [hid, Dict.get?_erase]

/-- A drop bans the incarnation the cursor followed. -/
lemma ban_dropInstance (dropped id : String) : (gate.dropInstance dropped).ban id =
      if id = dropped then ((gate.position id).map Prod.fst).or (gate.ban id) else gate.ban id := by
  simp only [dropInstance, position, ban]
  cases hcursor : gate.cursors.get? dropped with
  | none => by_cases hid : id = dropped <;> simp [hid, hcursor]
  | some cursor =>
    by_cases hid : id = dropped <;> simp [hid, hcursor, Dict.get?_set, cursorPosition]

lemma ban_readmitInstance (readmitted id : String) :
    (gate.readmitInstance readmitted).ban id = if id = readmitted then none else gate.ban id := by
  simp [readmitInstance, ban, Dict.get?_erase]

/-! ## Bans that last -/

/-- Nothing ends a ban of the instance at the incarnation: it is not readmitted
and no newer batch of it arrives. -/
def Quiet (incarnation : Nat) (ops : List (Op Digest)) : Prop :=
  ∀ op ∈ ops, op ≠ .readmitInstance instanceId ∧
    ∀ batch, op = .ingest batch → batch.instanceId = instanceId → batch.incarnation ≤ incarnation

end

/-- After every drop in the stream: as long as nothing ends the ban, no L1
batch of the dropped incarnation or an older one is broadcast. -/
def Barred (ops : List (Op Digest)) : Prop :=
  ∀ before instanceId after rest incarnation lastSeq,
    ops = before ++ .dropInstance instanceId :: after ++ rest →
    (run step .new before).position instanceId = some (incarnation, lastSeq) →
    Quiet instanceId incarnation after →
    ∀ batch : CacheEventBatch Digest, batch.instanceId = instanceId → batch.tier = .l1 →
      batch.incarnation ≤ incarnation →
      .broadcast batch ∉
        ((run step .new (before ++ .dropInstance instanceId :: after)).ingest batch).2.1

/-- A drop does not lower the ban of its instance. -/
def KeepsBan (gate : EventGate) (op : Op Digest) : Prop :=
  ∀ instanceId, op = .dropInstance instanceId → ∀ p ∈ gate.position instanceId,
    ∀ departed ∈ gate.ban instanceId, departed ≤ p.1

variable {instanceId : String} {ops : List (Op Digest)} {incarnation : Nat}

lemma Quiet.append {rest : List (Op Digest)} (h : Quiet instanceId incarnation ops)
    (hrest : Quiet instanceId incarnation rest) : Quiet instanceId incarnation (ops ++ rest) := by
  intro op hop
  rcases List.mem_append.mp hop with hop | hop
  · exact h op hop
  · exact hrest op hop

lemma quiet_dropInstance (instanceId dropped : String) (incarnation : Nat) :
    Quiet instanceId incarnation [(.dropInstance dropped : Op Digest)] := by
  intro op hop
  rw [List.mem_singleton.mp hop]
  exact ⟨by simp, by simp⟩

variable {gate}

/-- A ban of the incarnation or a newer one. -/
def BannedFrom (gate : EventGate) (instanceId : String) (incarnation : Nat) : Prop :=
  ∃ departed ∈ gate.ban instanceId, incarnation ≤ departed

lemma bannedFrom_step {op : Op Digest} (h : gate.BannedFrom instanceId incarnation)
    (hkeeps : KeepsBan gate op) (hquiet : Quiet instanceId incarnation [op]) :
    (gate.step op).BannedFrom instanceId incarnation := by
  obtain ⟨departed, hban, hle⟩ := h
  obtain ⟨hstayed, hnewer⟩ := hquiet op (List.mem_singleton_self op)
  cases op with
  | ingest batch =>
    refine ⟨departed, ?_, hle⟩
    simp only [step, Option.mem_def, ban_ingest]
    rw [if_neg, hban]
    rintro ⟨rfl, d, hd, hlt⟩
    have := hnewer batch rfl rfl
    obtain rfl : d = departed := Option.mem_unique hd hban
    omega
  | dropInstance dropped =>
    simp only [BannedFrom, step, ban_dropInstance]
    by_cases hid : instanceId = dropped
    · subst hid
      rw [if_pos rfl]
      cases hposition : gate.position instanceId with
      | none => exact ⟨departed, hban, hle⟩
      | some p => exact ⟨p.1, rfl, hle.trans (hkeeps instanceId rfl p hposition departed hban)⟩
    · rw [if_neg hid]
      exact ⟨departed, hban, hle⟩
  | readmitInstance readmitted =>
    refine ⟨departed, ?_, hle⟩
    have hid : instanceId ≠ readmitted := by
      rintro rfl
      exact hstayed rfl
    simpa [step, ban_readmitInstance, hid] using hban

lemma bannedFrom_run (h : gate.BannedFrom instanceId incarnation)
    (hkeeps : Along step KeepsBan gate ops) (hquiet : Quiet instanceId incarnation ops) :
    (run step gate ops).BannedFrom instanceId incarnation := by
  induction ops generalizing gate with
  | nil => exact h
  | cons op ops ih =>
    refine ih (bannedFrom_step h hkeeps.1 ?_) hkeeps.2 ?_
    · exact fun o ho => hquiet o (by simp_all)
    · exact fun o ho => hquiet o (List.mem_cons_of_mem _ ho)

lemma not_broadcast_of_banned (hban : gate.BannedFrom batch.instanceId batch.incarnation)
    (htier : batch.tier = .l1) : (gate.ingest batch).2.1 = [] := by
  obtain ⟨departed, hdeparted, hle⟩ := hban
  rw [Option.mem_def] at hdeparted
  simp [signals_verdict, verdict, hdeparted, hle, htier]

/-! ## Where a ban comes from -/

/-- Every ban was set by a drop, and nothing has ended it since. -/
lemma exists_drop_of_ban {departed : Nat} (h : (run step new ops).ban instanceId = some departed) :
    ∃ before after lastSeq, ops = before ++ .dropInstance instanceId :: after ∧
      (run step new before).position instanceId = some (departed, lastSeq) ∧
      Quiet instanceId departed after := by
  induction ops using List.reverseRecOn with
  | nil => simp [new, ban] at h
  | append_singleton ops op ih =>
    -- The ban was there before and the call does not end it.
    have hextend : (run step new ops).ban instanceId = some departed →
        Quiet instanceId departed [op] → ∃ before after lastSeq,
          ops ++ [op] = before ++ .dropInstance instanceId :: after ∧
          (run step new before).position instanceId = some (departed, lastSeq) ∧
          Quiet instanceId departed after := by
      intro hbefore hquiet
      obtain ⟨before, after, lastSeq, rfl, hposition, hafter⟩ := ih hbefore
      exact ⟨before, after ++ [op], lastSeq, by simp, hposition, hafter.append hquiet⟩
    rw [run_append, run_cons, run_nil] at h
    cases op with
    | ingest batch =>
      simp only [step, ban_ingest] at h
      split at h
      · cases h
      · rename_i hstays
        refine hextend h fun o ho => ?_
        rw [List.mem_singleton.mp ho]
        refine ⟨by simp, fun b hb hid => ?_⟩
        cases hb
        by_contra hgt
        exact hstays ⟨hid.symm, departed, h, by omega⟩
    | dropInstance dropped =>
      simp only [step, ban_dropInstance] at h
      split_ifs at h with hid
      · subst hid
        cases hposition : (run step new ops).position instanceId with
        | none => exact hextend (by simpa [hposition] using h) (quiet_dropInstance _ _ _)
        | some p =>
          obtain rfl : p.1 = departed := by simpa [hposition] using h
          exact ⟨ops, [], p.2, rfl, hposition, by simp [Quiet]⟩
      · exact hextend h (quiet_dropInstance _ _ _)
    | readmitInstance readmitted =>
      simp only [step, ban_readmitInstance] at h
      split at h
      · cases h
      · rename_i hid
        refine hextend h fun o ho => ?_
        rw [List.mem_singleton.mp ho]
        refine ⟨?_, by simp⟩
        rintro heq
        cases heq
        exact hid rfl

lemma instanceId_ne_of_position (ops : List (Op Digest)) {p : Nat × Nat}
    (h : (run step new ops).position instanceId = some p) : instanceId ≠ "" := by
  have hnamed : ∀ id, (run step new ops).position id ≠ none → id ≠ "" := by
    refine run_always (fun gate : EventGate => ∀ id, gate.position id ≠ none → id ≠ "")
      (fun gate op ih id => ?_) (fun id hid => absurd rfl hid) ops
    cases op with
    | ingest batch =>
      simp only [step, position_ingest]
      split_ifs with hadmitted
      · rw [hadmitted.1]
        exact fun _ => batch.instanceId_ne
      · exact ih id
    | dropInstance dropped =>
      simp only [step, position_dropInstance]
      split
      · simp
      · exact ih id
    | readmitInstance readmitted => exact ih id
  exact hnamed instanceId (by simp [h])

/-- A batch that says nothing. -/
def probe {instanceId : String} (hid : instanceId ≠ "") (tier : Tier) (incarnation seq : Nat) :
    CacheEventBatch Digest where
  instanceId := instanceId
  incarnation := incarnation
  seq := seq + 1
  eventType := .access
  tier := tier
  backend := ""
  instanceId_ne := hid
  backend_ne h := absurd rfl h
  seq_pos := Nat.le_add_left 1 seq

/-- The bans do what they are for exactly as long as no drop lowers one. -/
theorem barred_iff_keepsBan (ops : List (Op Digest)) : Barred ops ↔ Along step KeepsBan new ops := by
  constructor
  · intro hbarred
    rw [along_iff_forall]
    rintro before _ rest rfl instanceId rfl ⟨incarnation, lastSeq⟩ hposition departed hban
    by_contra hlower
    -- The ban that is lowered here was set by an earlier drop.
    obtain ⟨first, between, seq, rfl, hfirst, hquiet⟩ := exists_drop_of_ban hban
    have hid := instanceId_ne_of_position _ hfirst
    refine hbarred first instanceId (between ++ [.dropInstance instanceId]) rest departed seq
      (by simp) hfirst (hquiet.append (quiet_dropInstance _ _ _)) (probe hid .l1 departed 0) rfl rfl
      (le_refl _) ?_
    have hsplit : first ++ .dropInstance instanceId :: (between ++ [.dropInstance instanceId])
        = first ++ .dropInstance instanceId :: between ++ [(.dropInstance instanceId : Op Digest)] := by
      simp
    rw [hsplit, run_append, run_cons, run_nil]
    generalize run step new (first ++ .dropInstance instanceId :: between) = gate
      at hposition hban ⊢
    have hnotBanned : ¬ departed ≤ incarnation := by simpa using hlower
    simp [step, signals_verdict, verdict, positionVerdict, ban_dropInstance, position_dropInstance,
      probe, Option.mem_def.mp hposition, hnotBanned]
  · rintro halong before instanceId after rest incarnation lastSeq rfl hposition hquiet batch rfl
      htier hle
    rw [List.append_assoc, along_append] at halong
    obtain ⟨-, hafter⟩ := halong
    rw [List.cons_append, Along, along_append] at hafter
    have hdropped : ((run step new before).step
        (.dropInstance batch.instanceId : Op Digest)).BannedFrom batch.instanceId incarnation :=
      ⟨incarnation, by simp [step, ban_dropInstance, hposition], le_refl _⟩
    obtain ⟨departed, hban, hdeparted⟩ := bannedFrom_run hdropped hafter.2.1 hquiet
    rw [run_append, run_cons]
    rw [not_broadcast_of_banned batch ⟨departed, hban, hle.trans hdeparted⟩ htier]
    simp

/-- An L2 batch of an older incarnation and a second drop: the first batch of
the dropped incarnation is broadcast. -/
theorem lowered_not_barred :
    ¬ Barred ([.ingest (probe (by decide : "a" ≠ "") .l1 5 0), .dropInstance "a",
      .ingest (probe (by decide : "a" ≠ "") .l2 3 0), .dropInstance "a"] : List (Op Nat)) := by
  intro hbarred
  have := hbarred [.ingest (probe (by decide : "a" ≠ "") .l1 5 0)] "a"
    [.ingest (probe (by decide : "a" ≠ "") .l2 3 0), .dropInstance "a"] [] 5 1 rfl (by decide)
    (by simp [Quiet, probe]) (probe (by decide : "a" ≠ "") .l1 5 0) rfl rfl (by decide)
  revert this
  decide

/-! ## Restored gates -/

/-- The answers of a gate to a stream of calls, with what it sends. -/
def replies : EventGate → List (Op Digest) → List (Option IngestResult × List (Signal Digest))
  | _, [] => []
  | gate, op :: ops => gate.reply op :: replies (gate.step op) ops

/-- The two gates ban the same instances and follow the same positions. -/
structure Alike (left right : EventGate) : Prop where
  bans : ∀ id, left.ban id = right.ban id
  positions : ∀ id, left.position id = right.position id

lemma reply_ingest (gate : EventGate) (batch : CacheEventBatch Digest) :
    gate.reply (.ingest batch) =
      ((verdict (gate.ban batch.instanceId) (gate.position batch.instanceId) batch).map some id) := by
  rw [← ingest_verdict]
  rfl

lemma Alike.reply {left right : EventGate} (h : Alike left right) (op : Op Digest) :
    left.reply op = right.reply op := by
  cases op with
  | ingest batch => rw [reply_ingest, reply_ingest, h.bans, h.positions]
  | dropInstance dropped => rfl
  | readmitInstance readmitted => rfl

lemma Alike.step {left right : EventGate} (h : Alike left right) (op : Op Digest) :
    Alike (left.step op) (right.step op) := by
  cases op with
  | ingest batch =>
    have hresult : (left.ingest batch).1 = (right.ingest batch).1 := by
      simpa [EventGate.reply] using congrArg Prod.fst (h.reply (.ingest batch))
    exact ⟨fun id => by simp only [EventGate.step, ban_ingest, h.bans],
      fun id => by simp only [EventGate.step, position_ingest, h.positions, hresult]⟩
  | dropInstance dropped =>
    exact ⟨fun id => by simp only [EventGate.step, ban_dropInstance, h.bans, h.positions],
      fun id => by simp only [EventGate.step, position_dropInstance, h.positions]⟩
  | readmitInstance readmitted =>
    exact ⟨fun id => by simp only [EventGate.step, ban_readmitInstance, h.bans], h.positions⟩

lemma Alike.replies {left right : EventGate} (h : Alike left right) (ops : List (Op Digest)) :
    left.replies ops = right.replies ops := by
  induction ops generalizing left right with
  | nil => rfl
  | cons op ops ih => simp only [EventGate.replies, h.reply op, ih (h.step op)]

lemma position_le_ban (ops : List (Op Digest)) {p : Nat × Nat} {departed : Nat}
    (hban : (run step new ops).ban instanceId = some departed)
    (hposition : (run step new ops).position instanceId = some p) : p.1 ≤ departed := by
  revert instanceId p departed
  refine run_always (fun gate : EventGate => ∀ {id : String} {p : Nat × Nat} {departed : Nat},
    gate.ban id = some departed → gate.position id = some p → p.1 ≤ departed)
    (fun gate op ih id p departed hban hposition => ?_) (fun hban => by simp [new, ban] at hban) ops
  cases op with
  | ingest batch =>
    simp only [step, ban_ingest, position_ingest] at hban hposition
    split at hban
    · cases hban
    · rename_i hstays
      split at hposition
      · rename_i hadmitted
        cases hposition
        by_contra hgt
        exact hstays ⟨hadmitted.1, departed, hban, by simpa using hgt⟩
      · exact ih hban hposition
  | dropInstance dropped =>
    simp only [step, ban_dropInstance, position_dropInstance] at hban hposition
    split at hposition
    · cases hposition
    · rename_i hid
      rw [if_neg hid] at hban
      exact ih hban hposition
  | readmitInstance readmitted =>
    simp only [step, ban_readmitInstance] at hban
    split at hban
    · cases hban
    · exact ih hban hposition

/-- A new gate with the captured cursors: the bans are gone. -/
lemma restore_capture (gate : EventGate) : ∃ restored, restore new gate.capture = .ok restored ∧
      (∀ id, restored.ban id = none) ∧ ∀ id, restored.position id = gate.position id := by
  refine ⟨_, rfl, fun id => rfl, fun id => ?_⟩
  simp only [position, capture, Dict.get?_mapValues, Option.map_map]
  rfl

/-- A restored gate answers every stream as the gate it was captured from,
exactly when that gate banned no instance. -/
theorem restored_iff_noneDeparted (ops : List (Op Digest)) :
    ∃ restored, restore new (run step new ops).capture = .ok restored ∧
      ((∀ later : List (Op Digest), restored.replies later = (run step new ops).replies later) ↔
      ∀ instanceId, (run step new ops).departed.get? instanceId = none) := by
  obtain ⟨restored, hrestored, hbans, hpositions⟩ := restore_capture (run step new ops)
  refine ⟨restored, hrestored, fun hsame instanceId => ?_, fun hnone later => ?_⟩
  · by_contra hban
    obtain ⟨departed, hdeparted⟩ := Option.ne_none_iff_exists'.mp hban
    obtain ⟨before, after, lastSeq, -, hposition, -⟩ := exists_drop_of_ban hdeparted
    have hid := instanceId_ne_of_position before hposition
    -- The next L1 batch of the dropped incarnation.
    have hprobe := hsame [.ingest (probe hid .l1 departed
      (((run step new ops).position instanceId).elim 0 Prod.snd))]
    simp only [EventGate.replies, reply_ingest, hbans, hpositions, List.cons.injEq, and_true] at hprobe
    change (run step new ops).ban instanceId = some departed at hdeparted
    cases hstream : (run step new ops).position instanceId with
    | none => simp [verdict, positionVerdict, probe, hdeparted, hstream] at hprobe
    | some p =>
      have hle := position_le_ban ops hdeparted hstream
      simp only [verdict, positionVerdict, probe, hdeparted, hstream, Option.elim_some] at hprobe
      rw [if_neg (by simp), if_neg (by omega)] at hprobe
      by_cases hnewer : p.1 < departed
      · simp [hnewer] at hprobe
      · rw [if_neg hnewer, if_neg (by omega)] at hprobe
        simp at hprobe
  · exact Alike.replies ⟨fun id => (hbans id).trans (hnone id).symm, hpositions⟩ later

/-- A batch of a dropped incarnation, after a restart of the coordinator. -/
theorem dropped_restored_differs :
    ∃ restored, restore new (run step new [(.ingest (probe (by decide : "a" ≠ "") .l1 5 0) : Op Nat),
      .dropInstance "a"]).capture = .ok restored ∧
      (restored.replies [(.ingest (probe (by decide : "a" ≠ "") .l1 5 1) : Op Nat)]).map Prod.fst
      = [some .admitted] ∧
      ((run step new [(.ingest (probe (by decide : "a" ≠ "") .l1 5 0) : Op Nat),
      .dropInstance "a"]).replies [(.ingest (probe (by decide : "a" ≠ "") .l1 5 1) : Op Nat)]).map
      Prod.fst = [some .staleIncarnation] :=
  ⟨_, rfl, by decide, by decide⟩

end EventGate

end LMCache.Coordinator
