/-
LMCache.L1Manager.Ownership — who references a memory object.

`Accounts m leaked` balances the allocator's books in the middle of a call:
what is handed out is exactly what the two tables reference, what is in
limbo, and what has leaked. Every action keeps the balance. Only `restage`
adds to the leak: it overwrites a staging entry, so the entry's object is
referenced by nothing any more and its charge stays in the byte counter.

A run restages exactly when one of its `reserve_write` calls repeats a key
it allocates for, and it is exactly these runs in which some live object
has no owner (`ownedExactly_iff_no_repeated_fresh_key`).
-/
import LMCache.L1Manager.ActionsTheorems

namespace LMCache.L1Manager

open List Lib Native L1ObjectState L1State NestedDict

variable {Key Obj : Type} [DecidableEq Key] [DecidableEq Obj]

/-! ## References and charges -/

section

variable (s : L1State Key Obj)

/-- The entries of the resident map and of the staging table. -/
def L1State.allEntries : List (L1ObjectState Obj) :=
  s.objects.values ++ s.staging.values

/-- The memory objects the two tables reference, one occurrence per entry. -/
def L1State.refs : List Obj :=
  s.allEntries.map memoryObj

/-- The charges of the staging entries present. -/
def L1State.charges : Nat :=
  (s.staging.values.map stagingCharge).sum

/-- The ownership discipline of the manager. -/
structure OwnedExactly : Prop where
  one_owner : ∀ o ∈ s.memoryManager.live, s.refs.count o = 1
  no_double_free : s.memoryManager.doubleFreed = []
  bytes : s.stagingBytes = s.charges

end

/-- The allocator's books in the middle of a call; `leaked` lists the
objects and charges of overwritten staging entries. -/
structure Accounts (m : Mid Key Obj) (leaked : List (Obj × Nat)) : Prop where
  live_nodup : m.st.memoryManager.live.Nodup
  balance : m.st.memoryManager.live.Perm (m.st.refs ++ m.limbo ++ leaked.map Prod.fst)
  no_double_free : m.st.memoryManager.doubleFreed = []
  bytes : m.st.stagingBytes = m.st.charges + (leaked.map Prod.snd).sum

variable {s : L1State Key Obj}

section Tables

variable {key : Key} {tag : String} {e e' : L1ObjectState Obj}

section

omit [DecidableEq Obj]

variable (s) in
lemma refs_def : s.refs = s.objects.values.map memoryObj ++ s.staging.values.map memoryObj := by
  simp [refs, allEntries]

lemma refs_setReadLock (he : s.objects.get? key = some e) (l : TTLLock) :
    s.refs.Perm (s.setObject key { e with readLock := l }).refs := by
  simp only [refs_def]
  refine Perm.append_right _ ?_
  have hset := (Dict.values_set s.objects key { e with readLock := l }).map memoryObj
  have herase := (Dict.values_erase he).map memoryObj
  exact herase.trans hset.symm

lemma refs_setObject_new (e' : L1ObjectState Obj) (he : s.objects.get? key = none) :
    (s.setObject key e').refs.Perm (e'.memoryObj :: s.refs) := by
  simp only [refs_def]
  have hset := (Dict.values_set_new e' he).map memoryObj
  exact hset.append_right _

lemma refs_eraseObject (he : s.objects.get? key = some e) :
    s.refs.Perm (e.memoryObj :: (s.eraseObject key).refs) := by
  simp only [refs_def]
  exact ((Dict.values_erase he).map memoryObj).append_right _

section

variable (he : s.getStaging key tag = some e)
include he

lemma refs_popped : s.refs.Perm (e.memoryObj :: (s.popped key tag e).refs) := by
  simp only [refs_def]
  have hpop := (values_pop he).map memoryObj
  exact (hpop.append_left _).trans perm_middle

lemma charges_popped : s.charges = e.stagingCharge + (s.popped key tag e).charges := by
  have hpop := (values_pop he).map stagingCharge
  simpa [charges, popped] using hpop.sum_nat

omit he in
lemma refs_putStaging_new (e : L1ObjectState Obj) (size : Nat) (hn : s.getStaging key tag = none) :
    (s.putStaging key tag e size).refs.Perm (e.memoryObj :: s.refs) ∧
      (s.putStaging key tag e size).charges = size + s.charges := by
  have hput := values_put_new { e with stagingCharge := size } hn
  constructor
  · simp only [refs_def]
    exact ((hput.map memoryObj).append_left _).trans perm_middle
  · simpa [charges, putStaging] using (hput.map stagingCharge).sum_nat

/-- Writing over the staging entry `e`: what `e` referenced and was charged
leaves the table. -/
lemma refs_put_old (s' : L1State Key Obj) (hobjects : s'.objects = s.objects)
    (hstaging : s'.staging = s.staging.put key tag e') :
    (e.memoryObj :: s'.refs).Perm (e'.memoryObj :: s.refs) ∧
      e.stagingCharge + s'.charges = e'.stagingCharge + s.charges := by
  have hput := values_put_old e' he
  constructor
  · have hobj := (hput.map memoryObj).append_left (s.objects.values.map memoryObj)
    simp only [refs_def, hobjects, hstaging]
    exact (perm_middle.symm.trans hobj).trans perm_middle
  · simpa [charges, hstaging] using (hput.map stagingCharge).sum_nat

end

end

end Tables

/-! ## The allocator -/

/-- Freeing part of what is handed out gives it back and reports nothing. -/
lemma free_of_perm {m : MemoryManager Obj} {objs rest : List Obj} (h : m.live.Perm (rest ++ objs)) :
    (m.free objs).live.Perm rest ∧ (m.free objs).doubleFreed = m.doubleFreed := by
  induction objs generalizing m with
  | nil => exact ⟨(append_nil rest) ▸ h, rfl⟩
  | cons o objs ih =>
    have hmem : o ∈ m.live := h.symm.subset (by simp)
    have hone : m.freeOne o = { m with live := m.live.erase o } := by
      simp [MemoryManager.freeOne, hmem]
    have hrest : (m.freeOne o).live.Perm (rest ++ objs) := by
      rw [hone]
      have := (h.trans perm_middle).erase o
      rwa [erase_cons_head] at this
    obtain ⟨hlive, hdouble⟩ := ih hrest
    refine ⟨hlive, hdouble.trans ?_⟩
    rw [hone]

/-! ## Every action keeps the books -/

variable {leaked : List (Obj × Nat)}

section Balance

variable {now : Int} {m m' : Mid Key Obj}

section

variable (h : Accounts m leaked)
include h

omit [DecidableEq Obj] in
/-- An action that only moves references keeps the books as they are. -/
lemma Accounts.move (hmm : m'.st.memoryManager = m.st.memoryManager)
    (hrefs : (m.st.refs ++ m.limbo).Perm (m'.st.refs ++ m'.limbo))
    (hbytes : m'.st.stagingBytes - m'.st.charges = m.st.stagingBytes - m.st.charges) :
    Accounts m' leaked where
  live_nodup := hmm ▸ h.live_nodup
  balance := hmm ▸ h.balance.trans (hrefs.append_right _)
  no_double_free := hmm ▸ h.no_double_free
  bytes := by have := h.bytes; omega

omit [DecidableEq Obj] in
lemma Accounts.alloc {objs : List Obj} (hnd : objs.Nodup)
    (hfresh : ∀ o ∈ objs, o ∉ m.st.memoryManager.live) :
    Accounts ⟨{ m.st with memoryManager := m.st.memoryManager.handOut objs }, m.limbo ++ objs⟩
      leaked where
  live_nodup := hnd.append h.live_nodup hfresh
  balance := by
    have hcomm : (objs ++ (m.st.refs ++ m.limbo ++ leaked.map Prod.fst)).Perm
        ((m.st.refs ++ m.limbo ++ objs) ++ leaked.map Prod.fst) := by
      rw [← append_assoc]
      exact perm_append_comm.append_right _
    rw [← append_assoc]
    exact (h.balance.append_left objs).trans hcomm
  no_double_free := h.no_double_free
  bytes := h.bytes

lemma Accounts.free {objs rest : List Obj} (hl : m.limbo = rest ++ objs) :
    Accounts ⟨m.st.free objs, rest⟩ leaked := by
  have hlive : m.st.memoryManager.live.Perm
      ((m.st.refs ++ rest ++ leaked.map Prod.fst) ++ objs) := by
    refine h.balance.trans ?_
    rw [hl, ← append_assoc _ rest objs, append_assoc _ objs, append_assoc]
    exact (perm_append_comm.append_left _).append_left _ |>.trans (by simp)
  obtain ⟨hrest, hdouble⟩ := free_of_perm hlive
  refine ⟨?_, hrest, hdouble.trans h.no_double_free, h.bytes⟩
  have hnd := hlive.nodup_iff.mp h.live_nodup
  exact hrest.nodup_iff.mpr (nodup_append.mp hnd).1

omit [DecidableEq Obj] in
/-- Overwriting a staging entry leaks its object and its charge. -/
lemma Accounts.restage {key : Key} {tag : String} {o : Obj} {rest : List Obj}
    {old : L1ObjectState Obj} (isTemp : Bool) (size : Nat) (ho : m.st.getStaging key tag = some old)
    (hl : m.limbo = o :: rest) :
    Accounts ⟨m.st.putStaging key tag (freshEntry m.st.config now o isTemp) size, rest⟩
      ((old.memoryObj, old.stagingCharge) :: leaked) := by
  obtain ⟨hrefs, hcharges⟩ := refs_put_old ho
    (m.st.putStaging key tag (freshEntry m.st.config now o isTemp) size) rfl rfl
  refine ⟨h.live_nodup, h.balance.trans ?_, h.no_double_free, ?_⟩
  · have hperm : (m.st.refs ++ m.limbo).Perm
        ((m.st.putStaging key tag (freshEntry m.st.config now o isTemp) size).refs ++ rest ++
          [old.memoryObj]) := by
      rw [hl]
      refine (perm_middle.trans (hrefs.symm.append_right rest)).trans ?_
      exact (perm_append_singleton _ _).symm
    simpa using hperm.append_right (leaked.map Prod.fst)
  · have hbytes := h.bytes
    simp only [putStaging, map_cons, sum_cons] at hcharges ⊢
    omega

end

/-- Every action keeps the books; only overwriting a staging entry adds to
the leak. -/
lemma Accounts.does {a : Action Key Obj} (hd : Does now a m m') (h : Accounts m leaked) :
    ∃ leaked', Accounts m' leaked' ∧ ((∀ key tag, a ≠ .restage key tag) → leaked' = leaked) := by
  cases hd with
  | lockRead count he =>
    exact ⟨leaked, h.move rfl ((refs_setReadLock he _).append_right _) rfl, fun _ => rfl⟩
  | unlockRead count he hl hkeep =>
    exact ⟨leaked, h.move rfl ((refs_setReadLock he _).append_right _) rfl, fun _ => rfl⟩
  | @drop _ key e why he hw =>
    have hrefs : (m.st.refs ++ m.limbo).Perm
        ((m.st.eraseObject key).refs ++ (m.limbo ++ [e.memoryObj])) := by
      rw [← append_assoc]
      exact ((refs_eraseObject he).append_right _).trans (perm_append_singleton _ _).symm
    exact ⟨leaked, h.move rfl hrefs rfl, fun _ => rfl⟩
  | @handOver _ key tag e isTemp hr he hx =>
    obtain ⟨hrefs, hcharges⟩ := refs_put_old he { m.st with
      staging := m.st.staging.put key tag
        { e with writeLock := e.writeLock.lock now, isTemporary := isTemp } } rfl rfl
    refine ⟨leaked, h.move rfl (hrefs.cons_inv.symm.append_right _) ?_, fun _ => rfl⟩
    simp only at hcharges ⊢
    omega
  | @stage _ key tag o rest isTemp size hr hn hl =>
    obtain ⟨hrefs, hcharges⟩ :=
      refs_putStaging_new (freshEntry m.st.config now o isTemp) size hn
    refine ⟨leaked, h.move rfl ?_ ?_, fun _ => rfl⟩
    · rw [hl]
      exact perm_middle.trans (hrefs.symm.append_right rest)
    · rw [hcharges]
      simp only [putStaging]
      omega
  | @restage _ key tag o rest old isTemp size hr ho hl =>
    exact ⟨_, h.restage isTemp size ho hl, fun hne => absurd rfl (hne key tag)⟩
  | @promote _ key tag e hr he hl =>
    have hrefs :=
      (refs_popped he).trans (refs_setObject_new (s := m.st.popped key tag e) e.taken hr).symm
    refine ⟨leaked, h.move rfl (hrefs.append_right _) ?_, fun _ => rfl⟩
    have hcharges := charges_popped he
    simp only [charges, popped, setObject] at hcharges ⊢
    omega
  | @unstage _ key tag e why he hw =>
    have hrefs : (m.st.refs ++ m.limbo).Perm
        ((m.st.popped key tag e).refs ++ (m.limbo ++ [e.memoryObj])) := by
      rw [← append_assoc]
      exact ((refs_popped he).append_right _).trans (perm_append_singleton _ _).symm
    refine ⟨leaked, h.move rfl hrefs ?_, fun _ => rfl⟩
    have hcharges := charges_popped he
    simp only [popped] at hcharges ⊢
    omega
  | alloc objs hnd hf => exact ⟨leaked, h.alloc hnd hf, fun _ => rfl⟩
  | free objs hl => exact ⟨leaked, h.free hl, fun _ => rfl⟩
  | report rs => exact ⟨leaked, ⟨h.live_nodup, h.balance, h.no_double_free, h.bytes⟩, fun _ => rfl⟩

end Balance

/-! ## Whole calls and runs -/

omit [DecidableEq Obj] in
lemma accounts_init (config : L1ManagerConfig) :
    Accounts ⟨(init config : L1State Key Obj), []⟩ [] where
  live_nodup := .nil
  balance := .nil
  no_double_free := rfl
  bytes := rfl

lemma step_accounts {c : L1Call Key Obj} (hok : c.op.AllocatorHonest s)
    (h : Accounts ⟨s, []⟩ leaked) : ∃ leaked', Accounts ⟨s.step c, []⟩ leaked' ∧
      (¬ c.op.RepeatsFreshKey s → leaked' = leaked) := by
  refine step_inv (fun m => ∃ leaked', Accounts m leaked' ∧
    (¬ c.op.RepeatsFreshKey s → leaked' = leaked)) hok ?_ ⟨leaked, h, fun _ => rfl⟩
  rintro a m m' hallow hd ⟨l, hl, hsame⟩
  obtain ⟨l', hl', hsame'⟩ := hl.does hd
  refine ⟨l', hl', fun hnr => (hsame' ?_).trans (hsame hnr)⟩
  rintro key tag rfl
  generalize c.op = op at hallow hnr
  cases hallow with
  | reserveWrite_restage _ hr _ => exact hnr hr

lemma Accounts.ownedExactly (h : Accounts ⟨s, []⟩ []) : OwnedExactly s where
  one_owner o ho := by
    have hcount : s.memoryManager.live.count o = s.refs.count o := by
      simpa using h.balance.count_eq o
    rw [count_eq_one_of_mem h.live_nodup ho] at hcount
    exact hcount.symm
  no_double_free := h.no_double_free
  bytes := by simpa using h.bytes

/-! ## Repeating a fresh key leaks -/

section Leak

variable {now : Int} {tag : String} (acc : ReserveWriteAcc Key Obj)

section

omit [DecidableEq Obj]

lemma stageAllocated_length_le (i : (Key × Bool) × (Obj × Nat)) :
    (stageAllocated now tag acc i).st.staging.values.length
      ≤ acc.st.staging.values.length + (if acc.st.getStaging i.1.1 tag = none then 1 else 0) := by
  obtain ⟨⟨key, isTemp⟩, o, size⟩ := i
  simp only [stageAllocated, putStaging]
  split
  · rename_i hn
    have := (values_put_new
      { freshEntry acc.st.config now o isTemp with stagingCharge := size } hn).length_eq
    simp only [freshEntry, length_cons] at this
    omega
  · rename_i hsome
    obtain ⟨old, hold⟩ := Option.ne_none_iff_exists'.mp hsome
    have := (values_put_old
      { freshEntry acc.st.config now o isTemp with stagingCharge := size } hold).length_eq
    simp only [freshEntry, length_cons] at this
    omega

lemma stageAllocated_getStaging (i : (Key × Bool) × (Obj × Nat)) (key : Key) :
    (stageAllocated now tag acc i).st.getStaging key tag = none ↔
      key ≠ i.1.1 ∧ acc.st.getStaging key tag = none := by
  obtain ⟨⟨key', isTemp⟩, o, size⟩ := i
  simp only [stageAllocated, putStaging, getStaging, get?_put]
  by_cases hk : key = key' <;> simp [hk]

/-- The staging loop adds at most one entry per object, and fewer when a key
is repeated or already staged. -/
lemma stage_loop_length (items : List ((Key × Bool) × (Obj × Nat)))
    (acc : ReserveWriteAcc Key Obj) :
    (items.foldl (stageAllocated now tag) acc).st.staging.values.length
      ≤ acc.st.staging.values.length + items.length ∧ ((¬ (items.map (fun i => i.1.1)).Nodup ∨
      ∃ i ∈ items, acc.st.getStaging i.1.1 tag ≠ none) →
      (items.foldl (stageAllocated now tag) acc).st.staging.values.length
      < acc.st.staging.values.length + items.length) := by
  induction items generalizing acc with
  | nil => simp
  | cons i items ih =>
    obtain ⟨hle, hlt⟩ := ih (stageAllocated now tag acc i)
    have hone : (stageAllocated now tag acc i).st.staging.values.length ≤ _ :=
      stageAllocated_length_le acc i
    rw [foldl_cons, length_cons]
    refine ⟨by split at hone <;> omega, fun hclash => ?_⟩
    by_cases hn : acc.st.getStaging i.1.1 tag = none
    · -- the head gets a slot of its own: the clash is in the tail
      rw [if_pos hn] at hone
      have htail : ¬ (items.map (fun i => i.1.1)).Nodup ∨
          ∃ j ∈ items, (stageAllocated now tag acc i).st.getStaging j.1.1 tag ≠ none := by
        obtain hdup | ⟨j, hj, hjs⟩ := hclash
        · rw [map_cons, nodup_cons, not_and_or, not_not] at hdup
          obtain hmem | hdup := hdup
          · obtain ⟨j, hj, hji⟩ := mem_map.mp hmem
            exact .inr ⟨j, hj, fun h => ((stageAllocated_getStaging acc i _).mp h).1 hji⟩
          · exact .inl hdup
        · rcases mem_cons.mp hj with rfl | hj
          · exact absurd hn hjs
          · exact .inr ⟨j, hj, fun h => hjs ((stageAllocated_getStaging acc i _).mp h).2⟩
      have := hlt htail
      omega
    · rw [if_neg hn] at hone
      omega

end

variable {alloc : AllocOutcome Obj}

/-- Staging a list that repeats a key takes fewer new entries than objects. -/
lemma allocateAndStage_repeats {acc : ReserveWriteAcc Key Obj} (herr : alloc.err = .success)
    (hlen : alloc.objs.length = acc.needToAllocate.length)
    (hdup : ¬ (acc.needToAllocate.map Prod.fst).Nodup) :
    (allocateAndStage now tag alloc acc).st.objects = acc.st.objects ∧
    (allocateAndStage now tag alloc acc).st.memoryManager.live
      = alloc.objs.map Prod.fst ++ acc.st.memoryManager.live ∧
    (allocateAndStage now tag alloc acc).st.staging.values.length
      < acc.st.staging.values.length + alloc.objs.length := by
  have hkeys : (acc.needToAllocate.zip alloc.objs).map (fun i => i.1.1)
      = acc.needToAllocate.map Prod.fst := by
    have hfst := map_fst_zip (Nat.le_of_eq hlen.symm)
    conv_rhs => rw [← hfst, map_map]
    rfl
  have hcount : (acc.needToAllocate.zip alloc.objs).length = alloc.objs.length := by
    rw [length_zip, hlen, Nat.min_self]
  simp only [allocateAndStage, herr]
  generalize hhanded : ({ acc with st := { acc.st with
    memoryManager := acc.st.memoryManager.handOut (alloc.objs.map Prod.fst) } } :
      ReserveWriteAcc Key Obj) = handed
  have hobjects := foldl_frame (f := stageAllocated now tag) (·.st.objects) (fun _ _ => rfl)
    (acc.needToAllocate.zip alloc.objs) handed
  have hmm := foldl_frame (f := stageAllocated now tag) (·.st.memoryManager) (fun _ _ => rfl)
    (acc.needToAllocate.zip alloc.objs) handed
  have hlt : (foldl (stageAllocated now tag) handed _).st.staging.values.length < _ :=
    (stage_loop_length (acc.needToAllocate.zip alloc.objs) handed).2 (.inl (hkeys ▸ hdup))
  rw [hcount] at hlt
  subst hhanded
  exact ⟨hobjects, congrArg MemoryManager.live hmm, hlt⟩

/-- The tables after a `reserve_write` that repeats a fresh key. -/
lemma reserveWrite_repeats (now : Int) {keys : List Key} {temps : List Bool}
    (hok : (L1Op.reserveWrite keys temps tag alloc).AllocatorHonest s)
    (hr : (L1Op.reserveWrite keys temps tag alloc).RepeatsFreshKey s) :
    (s.step ⟨now, .reserveWrite keys temps tag alloc⟩).objects = s.objects ∧
    (s.step ⟨now, .reserveWrite keys temps tag alloc⟩).memoryManager.live
      = alloc.objs.map Prod.fst ++ s.memoryManager.live ∧
    (s.step ⟨now, .reserveWrite keys temps tag alloc⟩).staging.values.length
      < s.staging.values.length + alloc.objs.length := by
  obtain ⟨hlengths, herr, hdup⟩ := hr
  have hne : freshItems s keys temps tag ≠ [] := fun h => hdup (by rw [h]; exact .nil)
  have hlen := (hok hne).length herr
  obtain ⟨hobjects, hmm, -, hcount, hneed⟩ :=
    reserveWrite_loop now tag (keys.zip temps) (⟨s, ∅, [], []⟩ : ReserveWriteAcc Key Obj)
  change _ = freshItems s keys temps tag at hneed
  simp only [step, reserveWrite, hlengths, ne_eq, hneed, length_eq_zero_iff, hne]
  rw [← hneed] at hlen hdup
  obtain ⟨hobjects', hlive, hlt⟩ : _ ∧ _ ∧
      (allocateAndStage now tag alloc _).st.staging.values.length < _ :=
    allocateAndStage_repeats herr hlen hdup
  rw [hcount] at hlt
  rw [hmm] at hlive
  exact ⟨hobjects'.trans hobjects, hlive, hlt⟩

lemma not_ownedExactly_of_repeats {c : L1Call Key Obj} (hacc : Accounts ⟨s, []⟩ [])
    (hok : c.op.AllocatorHonest s) (hr : c.op.RepeatsFreshKey s) : ¬ OwnedExactly (s.step c) := by
  intro howned
  obtain ⟨leaked, hacc', -⟩ := step_accounts hok hacc
  -- one owner each: as many references as live objects
  have hsub : (s.step c).memoryManager.live.Subperm (s.step c).refs :=
    subperm_of_subset hacc'.live_nodup fun o ho =>
      count_pos_iff.mp (by rw [howned.one_owner o ho]; exact Nat.one_pos)
  have hle := hsub.length_le
  have hbefore := hacc.balance.length_eq
  obtain ⟨now, op⟩ := c
  cases op with
  | reserveWrite keys temps tag alloc =>
    obtain ⟨hobjects, hlive, hlt⟩ := reserveWrite_repeats now hok hr
    simp only [refs, allEntries, hobjects, hlive, length_map, length_append] at hle hbefore
    omega
  | _ => exact hr

end Leak

/-- If the allocator hands out only free objects, then a run keeps to the
ownership discipline (each live object referenced by exactly one entry,
nothing freed twice, the byte counter the sum of the charges) in every state
it passes through exactly when no `reserve_write` of the run names twice a
key it allocates for. -/
theorem ownedExactly_iff_no_repeated_fresh_key (config : L1ManagerConfig)
    (calls : List (L1Call Key Obj))
    (hok : Along step (fun s c => c.op.AllocatorHonest s) (.init config) calls) :
    (∀ n, OwnedExactly (run step (.init config) (calls.take n))) ↔
      Along step (fun s c => ¬ c.op.RepeatsFreshKey s) (.init config) calls := by
  refine good_iff_along (fun s => Accounts ⟨s, []⟩ []) ?_ ?_ ?_ (accounts_init config) hok
  · intro s hs
    exact hs.ownedExactly
  · intro s c hs hc hnr
    obtain ⟨leaked, hl, hsame⟩ := step_accounts hc hs
    rwa [hsame hnr] at hl
  · intro s c hs hc howned hr
    exact not_ownedExactly_of_repeats hs hc hr howned

/-- A writer that names key `7` in one `reserve_write`, `count` times. -/
def reserveSeven (count : Nat) : List (L1Call Nat Nat) :=
  [⟨0, .reserveWrite (replicate count 7) (replicate count false) "w"
    ⟨.success, (range count).map (fun i => (100 + i, 4096))⟩⟩]

/-- Key `7` is staged under two tags. One of the reservations expires, is made
again and finished; the other key is reclaimed. -/
def writeSeven : List (L1Call Nat Nat) :=
  reserveSeven 1 ++ [⟨1, .reserveWrite [7, 8] [true, false] "v" ⟨.success, [(200, 8), (201, 8)]⟩⟩,
    ⟨600001, .reserveWrite [7] [false] "w" ⟨.success, []⟩⟩, ⟨600002, .finishWrite [7] "w"⟩,
    ⟨600003, .delete [8] false⟩, ⟨600004, .reserveRead [7] 2⟩]

theorem ownedExactly_writeSeven :
    OwnedExactly (run step (.init ⟨600, 300⟩) (writeSeven.take 6)) := by
  have hok : Along step (fun s c => c.op.AllocatorHonest s)
      (.init ⟨600, 300⟩ : L1State Nat Nat) writeSeven :=
    ⟨fun _ => ⟨by decide, by decide, by decide⟩, fun _ => ⟨by decide, by decide, by decide⟩,
      fun h => absurd (by decide) h, trivial, trivial, trivial, trivial⟩
  refine (ownedExactly_iff_no_repeated_fresh_key ⟨600, 300⟩ _ hok).mpr
    ⟨?_, ?_, ?_, id, id, id, trivial⟩ 6
  all_goals
    rintro ⟨-, -, hdup⟩
    exact hdup (by decide)

theorem not_ownedExactly_reserveSeven_twice : Along step (fun s c => c.op.AllocatorHonest s)
      (.init ⟨600, 300⟩ : L1State Nat Nat) (reserveSeven 2) ∧
    ¬ OwnedExactly (run step (.init ⟨600, 300⟩) (reserveSeven 2)) := by
  refine ⟨⟨fun _ => ⟨by decide, by decide, by decide⟩, trivial⟩, fun h => ?_⟩
  exact absurd (h.one_owner 100 (by decide)) (by decide)

end LMCache.L1Manager
