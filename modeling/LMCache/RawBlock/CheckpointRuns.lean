/-
LMCache.RawBlock.CheckpointRuns — which checkpoint a restart selects.

After a write the target container reads back as what was written, and the
other container reads as before (`readContainer_writeCheckpoint`,
`readContainer_crashState_other`): the two facts about bytes. The rest is
about the numbers the containers carry.

`Latest` is what successive writes keep: the container written last has the
highest number. The first write establishes it unless the other container
holds a valid checkpoint with a higher number, which happens when the process
did not load one and counts from zero. The second write overwrites that
container, so from then on nothing of the past can be selected.

A crash in a write leaves the target torn. That a torn container does not
read as a third checkpoint is up to the checksum; it is the hypothesis
`TornDetected`.
-/
import LMCache.RawBlock.MetaContainers
import Mathlib.Tactic.IntervalCases

namespace LMCache.RawBlock

open List Lib MetaLayout

variable {lay : MetaLayout} {dev dev' : Device} {metaSeq idx k : Nat} {w : CheckpointWrite}

/-! ## Bytes -/

lemma length_packHeader {seq payloadLen crc : Nat} :
    (lay.packHeader seq payloadLen crc).length = metaHeaderSize := by
  simp [packHeader, lay.magic_length, metaHeaderSize]

/-- Unpacking a packed header gives its fields back. -/
lemma readMetaHeader_packed {offset seq payloadLen crc : Nat}
    (hread : dev.read offset metaHeaderSize = lay.packHeader seq payloadLen crc)
    (hversion : lay.metaVersion < 256 ^ 4) (hseq : seq < 256 ^ 8) (hlen : payloadLen < 256 ^ 8)
    (hcrc : crc < 256 ^ 4) (hpos : payloadLen ≠ 0) (hcap : payloadLen ≤ lay.payloadCapacity) :
    lay.readMetaHeader dev offset = some ⟨seq, payloadLen, crc, offset⟩ := by
  have h8 : (lay.packHeader seq payloadLen crc).take 8 = lay.metaMagic :=
    take_left' lay.magic_length
  have d8 : (lay.packHeader seq payloadLen crc).drop 8 =
      leBytes 4 lay.metaVersion ++ (leBytes 8 seq ++ (leBytes 8 payloadLen ++ leBytes 4 crc)) :=
    drop_left' lay.magic_length
  have d12 : (lay.packHeader seq payloadLen crc).drop 12 =
      leBytes 8 seq ++ (leBytes 8 payloadLen ++ leBytes 4 crc) := by
    rw [show 12 = 8 + 4 from rfl, ← drop_drop, d8, drop_left' (length_leBytes ..)]
  have d20 : (lay.packHeader seq payloadLen crc).drop 20 = leBytes 8 payloadLen ++ leBytes 4 crc := by
    rw [show 20 = 12 + 8 from rfl, ← drop_drop, d12, drop_left' (length_leBytes ..)]
  have d28 : (lay.packHeader seq payloadLen crc).drop 28 = leBytes 4 crc := by
    rw [show 28 = 20 + 8 from rfl, ← drop_drop, d20, drop_left' (length_leBytes ..)]
  have t28 : (leBytes 4 crc).take 4 = leBytes 4 crc := take_of_length_le (by simp)
  simp only [readMetaHeader, hread, h8, d8, d12, d20, d28, t28,
    take_left' (length_leBytes ..), leValue_leBytes hversion, leValue_leBytes hseq,
    leValue_leBytes hlen, leValue_leBytes hcrc]
  simp [hpos, hcap]

section

variable (h : lay.Writable metaSeq w)
include h

lemma length_headerBlock_le : (lay.headerBlock metaSeq w).length ≤ lay.blockAlign := by
  have halign := h.align_le
  simp only [headerBlock, length_append, length_packHeader, length_take]
  omega

lemma length_payloadBlock_le : (lay.payloadBlock w).length ≤ lay.payloadCapacity := by
  have hround : roundUp w.payload.length lay.blockAlign ≤ lay.payloadCapacity := by
    obtain ⟨m, hm⟩ := lay.align_dvd
    have hcap : lay.payloadCapacity = (m - 1) * lay.blockAlign := by
      rw [payloadCapacity, hm, Nat.sub_mul, Nat.one_mul, mul_comm]
    have hlen := h.fits
    rw [hcap] at hlen ⊢
    refine Nat.mul_le_mul_right _ (Nat.lt_succ_iff.mp ?_)
    rw [Nat.div_lt_iff_lt_mul lay.align_pos, Nat.succ_mul]
    have hpos := lay.align_pos
    omega
  have hlen := h.fits
  simp only [payloadBlock, length_append, length_take]
  omega

omit h in
lemma readMetaHeader_spec {offset : Nat} {header : MetaHeader}
    (h : lay.readMetaHeader dev offset = some header) :
    header.containerOffset = offset ∧ header.payloadLen ≤ lay.payloadCapacity := by
  simp only [readMetaHeader] at h
  split at h
  · cases h
  · split at h
    · cases h
    · rename_i hlen
      obtain rfl := Option.some.inj h
      exact ⟨rfl, not_lt.mp fun hgt => hlen (.inr hgt)⟩

omit h in
/-- A container is read from its own bytes only. -/
lemma readContainer_congr (halign : metaHeaderSize ≤ lay.blockAlign)
    (h : ∀ p, lay.containerOffset idx ≤ p → p < lay.containerOffset idx + lay.containerBytes →
      dev p = dev' p) : lay.readContainer dev idx = lay.readContainer dev' idx := by
  have hlt := lay.align_lt
  have hheader : lay.readMetaHeader dev (lay.containerOffset idx) =
      lay.readMetaHeader dev' (lay.containerOffset idx) := by
    have hread : dev.read (lay.containerOffset idx) metaHeaderSize =
        dev'.read (lay.containerOffset idx) metaHeaderSize :=
      Device.read_congr fun p hp hp' => h p hp (by omega)
    simp only [readMetaHeader, hread]
  simp only [readContainer, hheader]
  cases hfound : lay.readMetaHeader dev' (lay.containerOffset idx) with
  | none => rfl
  | some header =>
    have hin := readMetaHeader_spec hfound
    have hpayload : lay.loadMetaPayload dev header = lay.loadMetaPayload dev' header := by
      have hread : dev.read (header.containerOffset + lay.blockAlign) header.payloadLen =
          dev'.read (header.containerOffset + lay.blockAlign) header.payloadLen := by
        refine Device.read_congr fun p hp hp' => h p (by omega) ?_
        have hcap := hin.2
        rw [payloadCapacity] at hcap
        omega
      simp only [loadMetaPayload, hread]
    simp only [bind, Option.bind, hpayload]

omit h in
lemma targetIdx_lt (metaSeq : Nat) : targetIdx metaSeq < 2 := Nat.mod_lt _ (by decide)

/-- Bytes of the other container are not written. -/
lemma crashState_apply_of_not_target {p : Nat} (hp : p < lay.containerOffset (targetIdx metaSeq) ∨
      lay.containerOffset (targetIdx metaSeq) + lay.containerBytes ≤ p) :
    lay.crashState metaSeq w dev k p = dev p := by
  have hheader := length_headerBlock_le h
  have hpayload := length_payloadBlock_le h
  have hlt := lay.align_lt
  rw [payloadCapacity] at hpayload
  rw [crashState, Device.write_apply_of_not_mem, Device.write_apply_of_not_mem]
  · rw [length_take]
    omega
  · rw [length_take]
    omega

omit h in
lemma containerOffset_other (hne : idx ≠ targetIdx metaSeq) (hidx : idx < 2) {p : Nat}
    (hp : lay.containerOffset idx ≤ p) (hlt : p < lay.containerOffset idx + lay.containerBytes) :
    p < lay.containerOffset (targetIdx metaSeq) ∨
      lay.containerOffset (targetIdx metaSeq) + lay.containerBytes ≤ p := by
  have htarget := targetIdx_lt metaSeq
  generalize targetIdx metaSeq = target at *
  simp only [containerOffset] at *
  interval_cases idx <;> interval_cases target <;> omega

/-- Whatever part of the write got through, the other container reads as before. -/
lemma readContainer_crashState_other (hne : idx ≠ targetIdx metaSeq) (hidx : idx < 2) :
    lay.readContainer (lay.crashState metaSeq w dev k) idx = lay.readContainer dev idx :=
  readContainer_congr h.align_le fun _ hp hlt =>
    crashState_apply_of_not_target h (containerOffset_other hne hidx hp hlt)

omit h in
lemma writeCheckpoint_eq_crashState (lay : MetaLayout) (metaSeq : Nat) (w : CheckpointWrite)
    (dev : Device) : lay.writeCheckpoint metaSeq w dev = lay.crashState metaSeq w dev
      ((lay.payloadBlock w).length + (lay.headerBlock metaSeq w).length) := by
  simp only [writeCheckpoint, crashState, Nat.add_sub_cancel_left, take_length]
  rw [take_of_length_le (Nat.le_add_right ..)]

/-- The target container reads back as what was written. -/
lemma readContainer_writeCheckpoint :
    lay.readContainer (lay.writeCheckpoint metaSeq w dev) (targetIdx metaSeq) =
      some (lay.written metaSeq w) := by
  have hheaderLen := length_headerBlock_le h
  have hread : (lay.writeCheckpoint metaSeq w dev).read (lay.containerOffset (targetIdx metaSeq))
      metaHeaderSize = lay.packHeader (metaSeq + 1) w.payload.length (crc32 w.payload) := by
    rw [writeCheckpoint, Device.read_write]
    · exact take_left' length_packHeader
    · simp [headerBlock, length_packHeader]
  have hheader := readMetaHeader_packed hread h.version_lt h.seq_lt h.length_lt (crc32_lt _)
    (fun hzero => h.nonempty (length_eq_zero_iff.mp hzero)) h.fits
  have hpayload : (lay.writeCheckpoint metaSeq w dev).read
      (lay.containerOffset (targetIdx metaSeq) + lay.blockAlign) w.payload.length = w.payload := by
    rw [writeCheckpoint, Device.read_write_of_disjoint (by omega), Device.read_write]
    · exact take_left' rfl
    · simp [payloadBlock]
  simp only [readContainer, hheader, bind, Option.bind, loadMetaPayload, hpayload]
  simp [written]

lemma readContainer_writeCheckpoint_other (hne : idx ≠ targetIdx metaSeq) (hidx : idx < 2) :
    lay.readContainer (lay.writeCheckpoint metaSeq w dev) idx = lay.readContainer dev idx := by
  rw [writeCheckpoint_eq_crashState]
  exact readContainer_crashState_other h hne hidx

end

/-! ## Selection -/

variable (lay dev) in
lemma selectLatestCheckpoint_eq :
    lay.selectLatestCheckpoint dev = better (lay.readContainer dev 0) (lay.readContainer dev 1) := by
  show better (better none _) _ = _
  cases lay.readContainer dev 0 <;> rfl

lemma targetIdx_cases (metaSeq : Nat) : (targetIdx metaSeq = 0 ∧ targetIdx (metaSeq + 1) = 1) ∨
      (targetIdx metaSeq = 1 ∧ targetIdx (metaSeq + 1) = 0) := by
  unfold targetIdx
  omega

lemma targetIdx_succ_ne (metaSeq : Nat) : targetIdx (metaSeq + 1) ≠ targetIdx metaSeq := by
  rcases targetIdx_cases metaSeq with h | h <;> omega

lemma targetIdx_add_two (metaSeq : Nat) : targetIdx (metaSeq + 2) = targetIdx metaSeq := by
  unfold targetIdx
  omega

variable {found : MetaHeader × Bytes}

variable (lay dev metaSeq) in
/-- The selection, seen from the container that is written next. -/
lemma select_eq : lay.selectLatestCheckpoint dev = if targetIdx metaSeq = 0 then
      better (lay.readContainer dev (targetIdx metaSeq))
      (lay.readContainer dev (targetIdx (metaSeq + 1)))
      else better (lay.readContainer dev (targetIdx (metaSeq + 1)))
      (lay.readContainer dev (targetIdx metaSeq)) := by
  rw [selectLatestCheckpoint_eq]
  rcases targetIdx_cases metaSeq with ⟨h, h'⟩ | ⟨h, h'⟩ <;> simp [h, h']

/-- The valid container with the higher number, when the two can be told apart
or the first one is meant. -/
lemma select_of_newer (hhere : lay.readContainer dev (targetIdx metaSeq) = some found)
    (hother : ∀ f, lay.readContainer dev (targetIdx (metaSeq + 1)) = some f →
      f.1.seq < found.1.seq ∨ (f.1.seq = found.1.seq ∧ targetIdx metaSeq = 0)) :
    lay.selectLatestCheckpoint dev = some found := by
  rw [select_eq lay dev metaSeq, hhere]
  cases hread : lay.readContainer dev (targetIdx (metaSeq + 1)) with
  | none => split <;> rfl
  | some f =>
    have hnewer := hother f hread
    split
    · exact if_neg (by omega)
    · exact if_pos (by omega)

lemma select_of_none (hnone : lay.readContainer dev (targetIdx metaSeq) = none) :
    lay.selectLatestCheckpoint dev = lay.readContainer dev (targetIdx (metaSeq + 1)) := by
  rw [select_eq lay dev metaSeq, hnone]
  cases lay.readContainer dev (targetIdx (metaSeq + 1)) <;> split <;> rfl

lemma select_congr
    (hhere : lay.readContainer dev (targetIdx metaSeq) = lay.readContainer dev' (targetIdx metaSeq))
    (hother : lay.readContainer dev (targetIdx (metaSeq + 1)) =
      lay.readContainer dev' (targetIdx (metaSeq + 1))) :
    lay.selectLatestCheckpoint dev = lay.selectLatestCheckpoint dev' := by
  rw [select_eq lay dev metaSeq, select_eq lay dev' metaSeq, hhere, hother]

/-! ## Successive writes -/

/-- The checkpoint written under `metaSeq + 1` has the highest number. -/
structure Latest (lay : MetaLayout) (dev : Device) (metaSeq : Nat)
    (found : MetaHeader × Bytes) : Prop where
  here : lay.readContainer dev (targetIdx metaSeq) = some found
  seq_eq : found.1.seq = metaSeq + 1
  other : ∀ f, lay.readContainer dev (targetIdx (metaSeq + 1)) = some f →
    f.1.seq < metaSeq + 1 ∨ (f.1.seq = metaSeq + 1 ∧ targetIdx metaSeq = 0)

lemma Latest.select (h : Latest lay dev metaSeq found) :
    lay.selectLatestCheckpoint dev = some found :=
  select_of_newer h.here fun f hf => by
    rw [h.seq_eq]
    exact h.other f hf

/-- A write makes the container written before it the older one. -/
lemma latest_of_read (hread : lay.readContainer dev (targetIdx metaSeq) = some found)
    (hseq : found.1.seq = metaSeq + 1) (hw : lay.Writable (metaSeq + 1) w) :
    Latest lay (lay.writeCheckpoint (metaSeq + 1) w dev) (metaSeq + 1)
      (lay.written (metaSeq + 1) w) where
  here := readContainer_writeCheckpoint hw
  seq_eq := rfl
  other f hf := by
    have hne : targetIdx metaSeq ≠ targetIdx (metaSeq + 1) := (targetIdx_succ_ne metaSeq).symm
    rw [targetIdx_add_two, readContainer_writeCheckpoint_other hw hne (targetIdx_lt _), hread] at hf
    obtain rfl := Option.some.inj hf
    rw [hseq]
    exact .inl (Nat.lt_succ_self _)

variable (lay dev metaSeq) in
/-- The container that is not written first has no valid checkpoint with a
higher number than the first write gets. -/
def OtherNotNewer : Prop :=
  ∀ f, lay.readContainer dev (targetIdx (metaSeq + 1)) = some f → f.1.seq ≤ metaSeq + 1

variable (lay dev metaSeq) in
/-- A restart before the first write would not have selected its target. -/
def TargetNotSelected : Prop :=
  lay.selectLatestCheckpoint dev = lay.readContainer dev (targetIdx (metaSeq + 1))

variable {f : MetaHeader × Bytes}

lemma le_seq_better {r r' : Option (MetaHeader × Bytes)} (h : r = some f ∨ r' = some f) :
    f.1.seq ≤ ((better r r').map fun found => found.1.seq).getD 0 := by
  rcases h with rfl | rfl
  · cases r' with
    | none => exact le_rfl
    | some b' =>
      simp only [better]
      split
      · exact Nat.le_of_lt ‹_›
      · exact le_rfl
  · cases r with
    | none => exact le_rfl
    | some b =>
      simp only [better]
      split
      · exact le_rfl
      · exact not_lt.mp ‹_›

/-- The number a loaded checkpoint sets is the highest there is. -/
lemma le_startSeq_loaded (hidx : idx < 2) (hread : lay.readContainer dev idx = some f) :
    f.1.seq ≤ startSeq lay dev .loaded := by
  simp only [startSeq, selectLatestCheckpoint_eq]
  apply le_seq_better
  interval_cases idx
  · exact .inl hread
  · exact .inr hread

variable {mode : LoadAtStart}

lemma latest_first (hseq : metaSeq = startSeq lay dev mode) (hw : lay.Writable metaSeq w)
    (hother : OtherNotNewer lay dev metaSeq) :
    Latest lay (lay.writeCheckpoint metaSeq w dev) metaSeq (lay.written metaSeq w) where
  here := readContainer_writeCheckpoint hw
  seq_eq := rfl
  other f hf := by
    rw [readContainer_writeCheckpoint_other hw (targetIdx_succ_ne metaSeq) (targetIdx_lt _)] at hf
    rcases Nat.lt_or_eq_of_le (hother f hf) with hlt | heq
    · exact .inl hlt
    · -- an equal number is possible only when counting from zero
      cases mode with
      | loaded =>
        have hle := le_startSeq_loaded (targetIdx_lt _) hf
        omega
      | skipped =>
        rw [show metaSeq = 0 from hseq] at heq ⊢
        exact .inr ⟨heq, rfl⟩
      | rejected =>
        rw [show metaSeq = 0 from hseq] at heq ⊢
        exact .inr ⟨heq, rfl⟩

/-- The last of the checkpoints written. -/
def lastWritten (lay : MetaLayout) : Nat → List CheckpointWrite → Option (MetaHeader × Bytes)
  | _, [] => none
  | metaSeq, [w] => some (lay.written metaSeq w)
  | metaSeq, _ :: w :: ws => lastWritten lay (metaSeq + 1) (w :: ws)

variable {ws : List CheckpointWrite}

/-- Once the number is the highest it stays so. -/
lemma Latest.writeCheckpoints (h : Latest lay dev metaSeq (lay.written metaSeq w))
    (hws : AllWritable lay (metaSeq + 1) ws) :
    ∃ last, lastWritten lay metaSeq (w :: ws) = some last ∧
      Latest lay (writeCheckpoints lay dev (metaSeq + 1) ws) (metaSeq + ws.length) last := by
  induction ws generalizing dev metaSeq w with
  | nil => exact ⟨_, rfl, h⟩
  | cons w' ws ih =>
    obtain ⟨last, hlast, hlatest⟩ := ih (latest_of_read h.here h.seq_eq hws.1) hws.2
    refine ⟨last, hlast, ?_⟩
    rw [length_cons, add_comm ws.length 1, ← add_assoc]
    exact hlatest

lemma latest_run (hseq : metaSeq = startSeq lay dev mode)
    (hws : AllWritable lay metaSeq (w :: ws)) (h : ws ≠ [] ∨ OtherNotNewer lay dev metaSeq) :
    ∃ last, lastWritten lay metaSeq (w :: ws) = some last ∧
      Latest lay (writeCheckpoints lay dev metaSeq (w :: ws)) (metaSeq + ws.length) last := by
  rcases h with hne | hother
  · cases ws with
    | nil => exact absurd rfl hne
    | cons w' ws =>
      -- the second write overwrites the other container
      have hfirst : lay.readContainer (lay.writeCheckpoint metaSeq w dev) (targetIdx metaSeq)
          = some (lay.written metaSeq w) := readContainer_writeCheckpoint hws.1
      obtain ⟨last, hlast, hlatest⟩ :=
        (latest_of_read hfirst rfl hws.2.1).writeCheckpoints hws.2.2
      refine ⟨last, hlast, ?_⟩
      rw [length_cons, add_comm ws.length 1, ← add_assoc]
      exact hlatest
  · exact (latest_first hseq hws.1 hother).writeCheckpoints hws.2

/-- One write is selected exactly if the other container is not newer. -/
lemma select_first_iff (hseq : metaSeq = startSeq lay dev mode) (hw : lay.Writable metaSeq w) :
    lay.selectLatestCheckpoint (lay.writeCheckpoint metaSeq w dev) =
      some (lay.written metaSeq w) ↔ OtherNotNewer lay dev metaSeq := by
  constructor
  · intro hsel f hf
    rw [← readContainer_writeCheckpoint_other hw (targetIdx_succ_ne metaSeq) (targetIdx_lt _)] at hf
    by_contra hgt
    -- a higher number there would have been selected
    have hselOther := select_of_newer hf fun g hg => .inl (by
      rw [targetIdx_add_two, readContainer_writeCheckpoint hw] at hg
      obtain rfl := Option.some.inj hg
      exact not_le.mp hgt)
    obtain rfl := Option.mem_unique hselOther hsel
    exact hgt le_rfl
  · intro hother
    exact (latest_first hseq hw hother).select

/-! ## Crashes -/

/-- After `k` bytes of the write the target container is invalid, or reads as
before, or as the new checkpoint. -/
def TornDetected (lay : MetaLayout) (metaSeq : Nat) (w : CheckpointWrite) (dev : Device)
    (k : Nat) : Prop :=
  lay.readContainer (lay.crashState metaSeq w dev k) (targetIdx metaSeq) = none ∨
    lay.readContainer (lay.crashState metaSeq w dev k) (targetIdx metaSeq) =
      lay.readContainer dev (targetIdx metaSeq) ∨
    lay.readContainer (lay.crashState metaSeq w dev k) (targetIdx metaSeq) =
      some (lay.written metaSeq w)

lemma Latest.crash {last : MetaHeader × Bytes} (h : Latest lay dev metaSeq last)
    (hw : lay.Writable (metaSeq + 1) w) (htorn : TornDetected lay (metaSeq + 1) w dev k) :
    lay.selectLatestCheckpoint (lay.crashState (metaSeq + 1) w dev k) = some last ∨
      lay.selectLatestCheckpoint (lay.crashState (metaSeq + 1) w dev k) =
      some (lay.written (metaSeq + 1) w) := by
  have hother : lay.readContainer (lay.crashState (metaSeq + 1) w dev k)
      (targetIdx (metaSeq + 1 + 1)) = lay.readContainer dev (targetIdx (metaSeq + 1 + 1)) :=
    readContainer_crashState_other hw (targetIdx_succ_ne _) (targetIdx_lt _)
  have hlast : lay.readContainer dev (targetIdx (metaSeq + 1 + 1)) = some last := by
    rw [targetIdx_add_two]
    exact h.here
  rcases htorn with hnone | hsame | hnew
  · rw [select_of_none hnone, hother, hlast]
    exact .inl rfl
  · rw [select_congr hsame hother, h.select]
    exact .inl rfl
  · refine .inr (select_of_newer hnew fun f hf => .inl ?_)
    rw [hother, hlast] at hf
    obtain rfl := Option.some.inj hf
    rw [h.seq_eq]
    exact Nat.lt_succ_self _

variable (lay dev metaSeq) in
lemma select_mem : lay.selectLatestCheckpoint dev = lay.readContainer dev (targetIdx metaSeq) ∨
      lay.selectLatestCheckpoint dev = lay.readContainer dev (targetIdx (metaSeq + 1)) := by
  have hbetter : ∀ r r', better r r' = r ∨ better r r' = r' := by
    intro r r'
    cases r with
    | none => cases r' <;> exact .inr rfl
    | some b =>
      cases r' with
      | none => exact .inl rfl
      | some b' => exact (ite_eq_or_eq ..).symm
  rw [select_eq lay dev metaSeq]
  split
  · exact hbetter _ _
  · exact (hbetter _ _).symm

/-- The first write, into a container a restart would not have selected. -/
lemma crash_first (hsel : TargetNotSelected lay dev metaSeq) (hw : lay.Writable metaSeq w)
    (htorn : TornDetected lay metaSeq w dev k) :
    lay.selectLatestCheckpoint (lay.crashState metaSeq w dev k) = lay.selectLatestCheckpoint dev ∨
      lay.selectLatestCheckpoint (lay.crashState metaSeq w dev k) =
      some (lay.written metaSeq w) := by
  have hother : lay.readContainer (lay.crashState metaSeq w dev k) (targetIdx (metaSeq + 1)) =
      lay.readContainer dev (targetIdx (metaSeq + 1)) :=
    readContainer_crashState_other hw (targetIdx_succ_ne _) (targetIdx_lt _)
  rcases htorn with hnone | hsame | hnew
  · rw [select_of_none hnone, hother, hsel]
    exact .inl rfl
  · exact .inl (select_congr hsame hother)
  · rcases select_mem lay (lay.crashState metaSeq w dev k) metaSeq with h | h
    · exact .inr (h.trans hnew)
    · exact .inl (h.trans (hother.trans hsel.symm))

lemma allWritable_append : AllWritable lay metaSeq (ws ++ [w]) ↔
      AllWritable lay metaSeq ws ∧ lay.Writable (metaSeq + ws.length) w := by
  induction ws generalizing metaSeq with
  | nil => simp [AllWritable]
  | cons v ws ih =>
    simp only [cons_append, AllWritable, ih, length_cons, and_assoc]
    rw [add_comm ws.length 1, ← add_assoc]

variable (lay dev metaSeq ws) in
/-- What a restart selects before the next checkpoint is written. -/
def previous : Option (MetaHeader × Bytes) :=
  if ws = [] then lay.selectLatestCheckpoint dev else lastWritten lay metaSeq ws

/-- For every content of the containers and every way to start: the last of
the checkpoints written is selected iff there are two of them or the container
not written first holds no newer one; and no crash in a write makes a restart
select a third checkpoint, provided the first write does not go to the
container selected before, and the checksum tells a torn container. -/
theorem checkpoint_selected (lay : MetaLayout) (dev : Device) (mode : LoadAtStart) :
    (∀ ws, ws ≠ [] → AllWritable lay (startSeq lay dev mode) ws →
      (lay.selectLatestCheckpoint (writeCheckpoints lay dev (startSeq lay dev mode) ws) =
      lastWritten lay (startSeq lay dev mode) ws ↔
      2 ≤ ws.length ∨ OtherNotNewer lay dev (startSeq lay dev mode))) ∧
    ∀ ws w k, AllWritable lay (startSeq lay dev mode) (ws ++ [w]) →
      (ws = [] → TargetNotSelected lay dev (startSeq lay dev mode)) →
      (ws.length = 1 → OtherNotNewer lay dev (startSeq lay dev mode)) →
      TornDetected lay (startSeq lay dev mode + ws.length) w
      (writeCheckpoints lay dev (startSeq lay dev mode) ws) k →
      lay.selectLatestCheckpoint (lay.crashState (startSeq lay dev mode + ws.length) w
      (writeCheckpoints lay dev (startSeq lay dev mode) ws) k) =
      previous lay dev (startSeq lay dev mode) ws ∨
      lay.selectLatestCheckpoint (lay.crashState (startSeq lay dev mode + ws.length) w
      (writeCheckpoints lay dev (startSeq lay dev mode) ws) k) =
      some (lay.written (startSeq lay dev mode + ws.length) w) := by
  constructor
  · intro ws hne hws
    cases ws with
    | nil => exact absurd rfl hne
    | cons w ws =>
      cases ws with
      | nil =>
        rw [or_iff_right (by simp)]
        exact select_first_iff rfl hws.1
      | cons w' ws =>
        refine iff_of_true ?_ (.inl (by simp))
        obtain ⟨last, hlast, hlatest⟩ := latest_run rfl hws (.inl (by simp))
        rw [hlatest.select, hlast]
  · intro ws w k hall hfirst hone htorn
    obtain ⟨hws, hw⟩ := allWritable_append.mp hall
    cases ws with
    | nil => exact crash_first (hfirst rfl) hw htorn
    | cons v vs =>
      have hsafe : vs ≠ [] ∨ OtherNotNewer lay dev (startSeq lay dev mode) := by
        cases vs with
        | nil => exact .inr (hone rfl)
        | cons => exact .inl (by simp)
      obtain ⟨last, hlast, hlatest⟩ := latest_run rfl hws hsafe
      rw [previous, hlast]
      exact hlatest.crash hw htorn

/-! ## A small region -/

/-- Two containers of 64 bytes. -/
def smallMeta : MetaLayout where
  blockAlign := 32
  containerBytes := 64
  metaMagic := [76, 77, 67, 73, 68, 88, 48, 49]
  metaVersion := 1
  align_pos := by decide
  align_dvd := by decide
  align_lt := by decide
  magic_length := rfl

def blank : Device := fun _ => 0

def payloadOf (b : UInt8) : CheckpointWrite := ⟨[b], [], []⟩

lemma writable_payloadOf {b : UInt8} (h : metaSeq + 1 < 256 ^ 8) :
    smallMeta.Writable metaSeq (payloadOf b) :=
  ⟨by simp [payloadOf], by simp [payloadOf, payloadCapacity, smallMeta], by decide, by decide, h,
    by simp [payloadOf]⟩

/-- On a blank device the first checkpoint is selected, and a crash after one
byte of the second leaves it selected. -/
theorem blank_checkpoint_selected :
    smallMeta.selectLatestCheckpoint (smallMeta.writeCheckpoint 0 (payloadOf 1) blank) =
      some (smallMeta.written 0 (payloadOf 1)) ∧
    (smallMeta.selectLatestCheckpoint (smallMeta.crashState 1 (payloadOf 2)
      (smallMeta.writeCheckpoint 0 (payloadOf 1) blank) 1) =
      some (smallMeta.written 0 (payloadOf 1)) ∨
      smallMeta.selectLatestCheckpoint (smallMeta.crashState 1 (payloadOf 2)
      (smallMeta.writeCheckpoint 0 (payloadOf 1) blank) 1) =
      some (smallMeta.written 1 (payloadOf 2))) := by
  have hnone : smallMeta.readContainer blank 1 = none := by decide
  have hother : OtherNotNewer smallMeta blank (startSeq smallMeta blank .skipped) := by
    intro f hf
    cases hnone.symm.trans hf
  have hfirst : smallMeta.Writable 0 (payloadOf 1) := writable_payloadOf (by decide)
  have hsecond : smallMeta.Writable 1 (payloadOf 2) := writable_payloadOf (by decide)
  constructor
  · exact ((checkpoint_selected smallMeta blank .skipped).1 [payloadOf 1] (by simp)
      ⟨hfirst, trivial⟩).mpr (.inr hother)
  · exact (checkpoint_selected smallMeta blank .skipped).2 [payloadOf 1] (payloadOf 2) 1
      ⟨hfirst, hsecond, trivial⟩ (fun h => by cases h) (fun _ => hother) (.inl (by decide))

/-- The second container holds checkpoint 6. -/
def staleSecond : Device := smallMeta.writeCheckpoint 5 (payloadOf 7) blank

/-- Checkpoint 5 in the first container, checkpoint 4 in the second. -/
def staleBoth : Device :=
  smallMeta.writeCheckpoint 4 (payloadOf 5) (smallMeta.writeCheckpoint 3 (payloadOf 4) blank)

/-- Started without loading, the store writes checkpoint 1 and a restart
selects checkpoint 6. A crash in the first write destroys checkpoint 5, and
checkpoint 4 is selected. -/
theorem staleSecond_wins : smallMeta.selectLatestCheckpoint (smallMeta.writeCheckpoint
      (startSeq smallMeta staleSecond .skipped) (payloadOf 1) staleSecond) =
      some (smallMeta.written 5 (payloadOf 7)) ∧
    smallMeta.selectLatestCheckpoint staleBoth = some (smallMeta.written 4 (payloadOf 5)) ∧
    smallMeta.selectLatestCheckpoint (smallMeta.crashState
      (startSeq smallMeta staleBoth .skipped) (payloadOf 1) staleBoth 1) =
      some (smallMeta.written 3 (payloadOf 4)) := by
  decide

end LMCache.RawBlock
