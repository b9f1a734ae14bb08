/-
LMCache.L1Manager.Reservations — one writer's reservations, and the answers
of the calls that use them.

A writer is its tag. A reservation of a key under a tag is made by
`reserve_write`, taken by the three finishing calls, and otherwise only lost
by expiring or by force: every other call leaves a live reservation as it is
(`step_getStaging`). The answers of `reserve_write` say exactly which
reservations were made (`reserveWrite_answer`), those of `reserve_read` which
keys are resident (`reserveRead_answer`).
-/
import LMCache.L1Manager.PerKey

namespace LMCache.L1Manager

open List Lib Native L1State
open Dict hiding keys

variable {Key Obj : Type} [DecidableEq Key] [DecidableEq Obj]

/-- The call reserves or finishes writes of `key` under `tag`. -/
def L1Op.Names (key : Key) (tag : String) : L1Op Key Obj → Prop
  | .reserveWrite keys _ t _ => t = tag ∧ key ∈ keys
  | .finishWrite keys t => t = tag ∧ key ∈ keys
  | .finishWriteAndReserveRead keys _ t => t = tag ∧ key ∈ keys
  | .finishWriteAndDelete keys t => t = tag ∧ key ∈ keys
  | _ => False

/-- The keys whose writes the call finishes, and under which tag. -/
def L1Op.finishes : L1Op Key Obj → List Key × String
  | .finishWrite keys t => (keys, t)
  | .finishWriteAndReserveRead keys _ t => (keys, t)
  | .finishWriteAndDelete keys t => (keys, t)
  | _ => ([], "")

/-- A forced delete or clear. -/
def L1Op.forces : L1Op Key Obj → Bool
  | .delete _ force => force
  | .clear force => force
  | _ => false

/-! ## What leaves a reservation alone -/

section Untouched

variable {s : L1State Key Obj} {c : L1Call Key Obj} {key : Key} {tag : String}

/-- A call that neither finishes the reservation nor forces leaves it unless
it has expired; where there is none, it makes none unless it asks for it. -/
lemma step_getStaging (hok : c.op.AllocatorHonest s) (hforce : c.op.forces = false)
    (hlive : ∀ e, s.getStaging key tag = some e → e.writeLock.isLocked c.now)
    (hname : c.op.Names key tag →
      s.getStaging key tag ≠ none ∧ ¬ (key ∈ c.op.finishes.1 ∧ c.op.finishes.2 = tag)) :
    (s.step c).getStaging key tag = s.getStaging key tag := by
  refine step_inv (fun m => m.st.getStaging key tag = s.getStaging key tag) hok ?_ rfl
  intro a m m' hallow hd hm
  generalize c.op = op at hallow hname hforce
  obtain hsame | ⟨e, _, rfl, _, he, hx, _⟩ | ⟨_, _, _, rfl | rfl, _⟩ | ⟨e, hpop, he, hnone⟩ :=
    hd.get?_staging key tag
  · exact hsame.trans hm
  · exact absurd (hlive e (hm.symm.trans he)) (Bool.eq_false_iff.mp hx)
  · cases hallow with
    | reserveWrite_stage hk =>
      cases hd with
      | stage _ _ _ hn _ => exact absurd (hm.symm.trans hn) (hname ⟨rfl, hk⟩).1
  · cases hallow with
    | reserveWrite_restage hk _ hn => exact absurd hn (hname ⟨rfl, hk⟩).1
  · rw [he] at hm
    have hl := hlive e hm.symm
    obtain rfl | ⟨why, rfl, hw⟩ := hpop
    · cases hallow with
      | finishWrite_promote hk => exact absurd ⟨hk, rfl⟩ (hname ⟨rfl, hk⟩).2
      | finishWriteAndReserveRead_promote hk => exact absurd ⟨hk, rfl⟩ (hname ⟨rfl, hk⟩).2
    · cases hallow with
      | finishWrite_discard hk => exact absurd ⟨hk, rfl⟩ (hname ⟨rfl, hk⟩).2
      | finishWriteAndReserveRead_discard hk => exact absurd ⟨hk, rfl⟩ (hname ⟨rfl, hk⟩).2
      | finishWriteAndDelete_discard hk => exact absurd ⟨hk, rfl⟩ (hname ⟨rfl, hk⟩).2
      | delete_reclaim hk => exact absurd (hw.symm.trans hl) Bool.false_ne_true
      | clear_reclaim => exact absurd (hw.symm.trans hl) Bool.false_ne_true
      | delete_discard hk => cases hforce
      | clear_discard => cases hforce

end Untouched

/-! ## Finishing -/

section Finishing

variable {now : Int} {tag : String} (keys : List Key)

lemma finishWriteAndReserveRead_getStaging (n : Int) (s : L1State Key Obj) (key : Key) :
    (s.step ⟨now, .finishWriteAndReserveRead keys n tag⟩).getStaging key tag
      = if key ∈ keys then (s.getStaging key tag).filter (fun e => !e.writeLock.isLocked now)
      else s.getStaging key tag := by
  refine Eq.trans ?_ (foldl_filter (f := finishWriteAndReserveReadKey now (validateReadLocks n) tag)
    (g := fun acc => acc.st.getStaging key tag)
    (fun acc k => finishWriteAndReserveReadKey_getStaging acc k key) keys ⟨s, ∅, [], [], []⟩)
  simp only [step, finishWriteAndReserveRead]
  split <;> rfl

lemma finishWriteAndDelete_getStaging (s : L1State Key Obj) (key : Key) :
    (s.step ⟨now, .finishWriteAndDelete keys tag⟩).getStaging key tag
      = if key ∈ keys then (s.getStaging key tag).filter (fun e => !e.writeLock.isLocked now)
      else s.getStaging key tag := by
  refine Eq.trans ?_ (foldl_filter (f := finishWriteAndDeleteKey now tag)
    (g := fun acc => acc.st.getStaging key tag)
    (fun acc k => ?_) keys ⟨s, ∅, [], []⟩)
  · simp only [step, finishWriteAndDelete, reportStagingGone]
    split <;> rfl
  · rw [← takeStaging_getStaging]
    unfold finishWriteAndDeleteKey
    dsimp only
    split <;> rfl

end Finishing

/-! ## Reserving -/

section Reserving

variable {now : Int} {tag : String} {key : Key}

/-- `key` was answered with an object, which is staged under `tag`. -/
def Staged (tag : String) (key : Key) (acc : ReserveWriteAcc Key Obj) : Prop :=
  ∃ e, acc.ret.get? key = some (.success, some e.memoryObj) ∧
    acc.st.getStaging key tag = some e ∧ 0 < e.writeLock.counter

/-- `key` was refused, and nothing is staged for it under `tag`. -/
def Refused (tag : String) (key : Key) (acc : ReserveWriteAcc Key Obj) : Prop :=
  (∃ err, err ≠ .success ∧ acc.ret.get? key = some (err, none)) ∧ acc.st.getStaging key tag = none

variable (acc : ReserveWriteAcc Key Obj)

section

omit [DecidableEq Obj]

lemma stageAllocated_staged (item : (Key × Bool) × (Obj × Nat)) (h : item.1.1 = key) :
    Staged tag key (stageAllocated now tag acc item) := by
  obtain ⟨⟨k, isTemp⟩, o, size⟩ := item
  obtain rfl : k = key := h
  simp only [Staged, stageAllocated, putStaging, getStaging, NestedDict.get?_put, get?_set]
  refine ⟨{ freshEntry acc.st.config now o isTemp with stagingCharge := size }, if_pos trivial,
    if_pos (by simp), ?_⟩
  simp only [freshEntry, TTLLock.lock_counter]
  split <;> simp [TTLLock.new]

lemma stageAllocated_other (item : (Key × Bool) × (Obj × Nat)) (h : item.1.1 ≠ key) :
    (stageAllocated now tag acc item).ret.get? key = acc.ret.get? key ∧
      (stageAllocated now tag acc item).st.getStaging key tag = acc.st.getStaging key tag := by
  simp only [stageAllocated, putStaging, getStaging, NestedDict.get?_put]
  exact ⟨get?_set_ne _ _ (Ne.symm h), if_neg (fun hk => h hk.1.symm)⟩

variable (now tag key) in
/-- The staging loop stages the keys it is given and no other. -/
lemma stage_loop_answer (items : List ((Key × Bool) × (Obj × Nat))) (acc : ReserveWriteAcc Key Obj) :
    if key ∈ items.map (fun i => i.1.1) then
      Staged tag key (items.foldl (stageAllocated now tag) acc)
    else (items.foldl (stageAllocated now tag) acc).ret.get? key = acc.ret.get? key ∧
      (items.foldl (stageAllocated now tag) acc).st.getStaging key tag
      = acc.st.getStaging key tag := by
  induction items using reverseRecOn with
  | nil => simp
  | append_singleton items item ih =>
    rw [foldl_append, foldl_cons, foldl_nil]
    by_cases hk : item.1.1 = key
    · rw [if_pos (by simp [hk])]
      exact stageAllocated_staged _ item hk
    · have hother : (stageAllocated now tag (items.foldl (stageAllocated now tag) acc) item).ret.get? key
          = _ ∧ _ := stageAllocated_other _ item hk
      have hmem : key ∈ (items ++ [item]).map (fun i => i.1.1) ↔ key ∈ items.map (fun i => i.1.1) := by
        simp [Ne.symm hk]
      simp only [hmem, Staged, hother.1, hother.2]
      exact ih

/-- The first loop refuses a resident key. -/
lemma reserveWrite_loop_answer (now : Int) (tag : String) (items : List (Key × Bool))
    (acc : ReserveWriteAcc Key Obj) (hres : key ∈ acc.st.objects)
    (hkey : key ∈ items.map Prod.fst) :
    (items.foldl (reserveWriteKey now tag) acc).ret.get? key = some (.keyNotWritable, none) := by
  induction items using reverseRecOn with
  | nil => cases hkey
  | append_singleton items item ih =>
    rw [foldl_append, foldl_cons]
    have hobj := (reserveWrite_loop now tag items acc).1
    generalize items.foldl (reserveWriteKey now tag) acc = prev at hobj ih ⊢
    unfold reserveWriteKey
    dsimp only
    by_cases hk : item.1 = key
    · rw [if_pos (by rwa [hk, hobj]), hk]
      exact get?_set_self _ _ _
    · have hprev := ih (by simpa [Ne.symm hk] using hkey)
      split
      · exact (get?_set_ne _ _ (Ne.symm hk)).trans hprev
      split
      · exact hprev
      split
      · exact (get?_set_ne _ _ (Ne.symm hk)).trans hprev
      · exact (get?_set_ne _ _ (Ne.symm hk)).trans hprev

lemma foldl_set_outOfMemory (items : List (Key × Bool)) (ret : Dict Key (L1OperationResult Obj)) :
    (items.foldl (fun ret p => ret.set p.1 (.outOfMemory, none)) ret).get? key
      = if key ∈ items.map Prod.fst then some (.outOfMemory, none) else ret.get? key := by
  induction items generalizing ret with
  | nil => simp
  | cons p items ih =>
    rw [foldl_cons, ih, get?_set]
    by_cases hk : key = p.1 <;> by_cases hm : key ∈ items.map Prod.fst <;> simp_all

end

variable {keys : List Key}

/-- The answer of `reserve_write` for a key without a reservation under the
tag says whether there is one afterwards. -/
lemma reserveWrite_answer {temps : List Bool} {alloc : AllocOutcome Obj} {s : L1State Key Obj}
    (hlen : keys.length = temps.length)
    (hok : (L1Op.reserveWrite keys temps tag alloc).AllocatorHonest s)
    (hnone : s.getStaging key tag = none) (hkey : key ∈ keys) : ∃ acc : ReserveWriteAcc Key Obj,
      reserveWrite now keys temps tag alloc s
      = .ok (acc.ret, s.step ⟨now, .reserveWrite keys temps tag alloc⟩) ∧
      (s.step ⟨now, .reserveWrite keys temps tag alloc⟩).getStaging key tag
      = acc.st.getStaging key tag ∧ (Staged tag key acc ∨ Refused tag key acc) := by
  have hmem : key ∈ (keys.zip temps).map Prod.fst := by
    rwa [map_fst_zip (Nat.le_of_eq hlen)]
  obtain ⟨-, -, hstaging, -, hneed⟩ :=
    reserveWrite_loop now tag (keys.zip temps) (⟨s, ∅, [], []⟩ : ReserveWriteAcc Key Obj)
  have hanswer := fun hres => reserveWrite_loop_answer now tag (keys.zip temps)
    (⟨s, ∅, [], []⟩ : ReserveWriteAcc Key Obj) hres hmem
  simp only [step, reserveWrite, hlen]
  generalize hacc : (keys.zip temps).foldl (reserveWriteKey now tag) ⟨s, ∅, [], []⟩ = acc
    at hstaging hneed hanswer ⊢
  have hnone' : acc.st.getStaging key tag = none := by
    simpa [hnone] using hstaging key tag
  have hrefuse : key ∈ s.objects → Refused tag key acc := fun hres =>
    ⟨⟨.keyNotWritable, by decide, hanswer hres⟩, hnone'⟩
  have hfresh : key ∈ acc.needToAllocate.map Prod.fst ↔ key ∉ s.objects := by
    rw [hneed]
    constructor
    · intro hm hres
      obtain ⟨p, hp, rfl⟩ := mem_map.mp hm
      simp [isFresh, hres] at hp
    · intro hres
      obtain ⟨p, hp, rfl⟩ := mem_map.mp hmem
      exact mem_map.mpr ⟨p, mem_filter.mpr ⟨hp, by simp [isFresh, hres, hnone]⟩, rfl⟩
  by_cases hempty : acc.needToAllocate.length = 0
  · have hres : key ∈ s.objects := by simpa [length_eq_zero_iff.mp hempty] using hfresh
    exact ⟨acc, by simp [hempty], by simp [hempty], .inr (hrefuse hres)⟩
  · refine ⟨allocateAndStage now tag alloc acc, by simp [hempty], by simp [hempty]; rfl, ?_⟩
    unfold allocateAndStage
    split_ifs with herr
    · right
      refine ⟨?_, hnone'⟩
      simp only [foldl_set_outOfMemory, hfresh]
      split_ifs with hres
      · exact (hrefuse hres).1
      · exact ⟨.outOfMemory, by decide, rfl⟩
    · have herr : alloc.err = .success := by simpa using herr
      have hitems : (acc.needToAllocate.zip alloc.objs).map (fun i => i.1.1)
          = acc.needToAllocate.map Prod.fst := by
        have hne : freshItems s keys temps tag ≠ [] := by
          intro h
          exact hempty (by rw [hneed]; exact congrArg length h)
        have hlength : alloc.objs.length = acc.needToAllocate.length := by
          rw [hneed]
          exact (hok hne).length herr
        have hfst := map_fst_zip (Nat.le_of_eq hlength.symm)
        conv_rhs => rw [← hfst, map_map]
        rfl
      have hstage := stage_loop_answer now tag key (acc.needToAllocate.zip alloc.objs)
        { acc with st := { acc.st with
            memoryManager := acc.st.memoryManager.handOut (alloc.objs.map Prod.fst) } }
      simp only [hitems, hfresh] at hstage
      split_ifs at hstage with hres
      · right
        rw [Refused, hstage.1, hstage.2]
        exact hrefuse hres
      · exact .inl hstage

/-- The answer of `reserve_read` for a key with this entry. -/
def readAnswer : Option (L1ObjectState Obj) → L1OperationResult Obj
  | none => (.keyNotExist, none)
  | some e => (.success, some e.memoryObj)

omit [DecidableEq Obj] in
/-- `reserve_read` answers every key it is given by its entry, and no other. -/
lemma reserveRead_answer (n : Int) (s : L1State Key Obj) : (reserveRead now keys n s).1.get? key
      = if key ∈ keys then some (readAnswer (s.objects.get? key)) else none := by
  suffices hloop : ∀ (ks : List Key) (acc : ReserveReadAcc Key Obj),
      (ks.foldl (reserveReadKey now (validateReadLocks n)) acc).ret.get? key
        = if key ∈ ks then some (readAnswer (acc.st.objects.get? key)) else acc.ret.get? key from
    hloop keys ⟨s, ∅, []⟩
  intro ks
  induction ks with
  | nil => simp
  | cons k ks ih =>
    intro acc
    -- the locks taken on the way change no answer
    have hsame : readAnswer ((reserveReadKey now (validateReadLocks n) acc k).st.objects.get? key)
        = readAnswer (acc.st.objects.get? key) := by
      have hget := reserveRead_loop_get? now (validateReadLocks n) [k] acc key
      rw [foldl_cons, foldl_nil] at hget
      rw [hget]
      cases acc.st.objects.get? key <;> rfl
    have hret : (reserveReadKey now (validateReadLocks n) acc k).ret
        = acc.ret.set k (readAnswer (acc.st.objects.get? k)) := by
      unfold reserveReadKey
      cases acc.st.objects.get? k <;> rfl
    rw [foldl_cons, ih, hsame, hret, get?_set]
    by_cases hk : key = k
    · simp [hk]
    · simp [hk]

end Reserving

end LMCache.L1Manager
