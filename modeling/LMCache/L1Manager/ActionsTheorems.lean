/-
LMCache.L1Manager.ActionsTheorems — every call is a chain of actions.

One lemma per method: its loop body takes allowed actions, so its loop
does (`foldl_chain`), and the free at its end empties the local list. The
two loops that look at a snapshot or at a list made earlier in the call
(`_reclaim_staging` and the staging half of `reserve_write`) carry the fact
that what they have not reached yet is still as it was.

`step_reaches` is what the later modules use.
-/
import LMCache.L1Manager.Actions

namespace LMCache.L1Manager

open List Lib Native Relation L1State Reaches Dict
open NestedDict (get?_put get?_pop)

variable {Key Obj : Type} [DecidableEq Key]

/-! ## Helpers -/

variable {s : L1State Key Obj}

section Helpers

variable {now : Int} {key : Key} {tag : String} {e : L1ObjectState Obj}

lemma popStaging_of_some (h : s.getStaging key tag = some e) :
    s.popStaging key tag = some ({ e with stagingCharge := 0 }, s.popped key tag e) := by
  simp only [popStaging, getStaging] at *
  simp only [h, popped]

lemma takeStaging_of_live (h : s.getStaging key tag = some e)
    (hl : e.writeLock.isLocked now) :
    s.takeStaging now key tag = ((.success, some e.taken), s.popped key tag e) := by
  simp only [takeStaging, h, hl, popStaging_of_some h, L1ObjectState.taken,
    Bool.not_true, Bool.false_eq_true, if_false]

variable (s) in
/-- `_take_staging` either takes a live entry off the table or reports an
error and changes nothing. -/
lemma takeStaging_cases (now : Int) (key : Key) (tag : String) :
    (∃ e, s.getStaging key tag = some e ∧ e.writeLock.isLocked now ∧
      s.takeStaging now key tag = ((.success, some e.taken), s.popped key tag e)) ∨
    (∃ err, err ≠ .success ∧ s.takeStaging now key tag = ((err, none), s) ∧
      ∀ e, s.getStaging key tag = some e → e.writeLock.isLocked now = false) := by
  cases h : s.getStaging key tag with
  | none => exact .inr ⟨.keyNotExist, by decide, by simp [takeStaging, h], by simp⟩
  | some e =>
    cases hl : e.writeLock.isLocked now with
    | true => exact .inl ⟨e, rfl, hl, takeStaging_of_live h hl⟩
    | false =>
      refine .inr ⟨.keyInWrongState, by decide, by simp [takeStaging, h, hl], ?_⟩
      rintro e' ⟨⟩
      exact hl

end Helpers

variable [DecidableEq Obj]

/-! ## `_reclaim_staging` -/

variable {P : Action Key Obj → Prop}

section Reclaim

variable {now : Int}

omit [DecidableEq Obj] in
/-- One round of the reclaim loop on an entry that is still staged. -/
lemma reclaimTag_eq {key : Key} {force : Bool} {acc : L1State Key Obj × List Obj} {tag : String}
    {e : L1ObjectState Obj} (he : acc.1.getStaging key tag = some e) :
    reclaimTag now key force acc (tag, e) = if e.writeLock.isLocked now && !force then acc
      else (acc.1.popped key tag e, acc.2 ++ [e.memoryObj]) := by
  simp only [reclaimTag, popStaging_of_some he]

/-- The loop of `_reclaim_staging` runs over a snapshot of the inner
dictionary; each pop leaves the tags still to come in place. -/
lemma reclaim_loop (key : Key) (force : Bool) (limbo : List Obj)
    (hexp : ∀ tag, P (.unstage key tag .expired))
    (hforce : force → ∀ tag, P (.unstage key tag .forced))
    (items : List (String × L1ObjectState Obj)) (hnd : (items.map Prod.fst).Nodup)
    (acc : L1State Key Obj × List Obj) (hitems : ∀ p ∈ items, acc.1.getStaging key p.1 = some p.2) :
    Reaches now P ⟨acc.1, limbo ++ acc.2⟩ ⟨(items.foldl (reclaimTag now key force) acc).1,
       limbo ++ (items.foldl (reclaimTag now key force) acc).2⟩ := by
  induction items generalizing acc with
  | nil => exact .refl _
  | cons p items ih =>
    obtain ⟨tag, e⟩ := p
    have he : acc.1.getStaging key tag = some e := hitems (tag, e) mem_cons_self
    rw [map_cons, nodup_cons] at hnd
    rw [foldl_cons, reclaimTag_eq he]
    by_cases hskip : (e.writeLock.isLocked now && !force)
    · rw [if_pos hskip]
      exact ih hnd.2 acc fun q hq => hitems q (mem_cons_of_mem _ hq)
    · rw [if_neg hskip]
      have hpop : Reaches now P ⟨acc.1, limbo ++ acc.2⟩
          ⟨acc.1.popped key tag e, (limbo ++ acc.2) ++ [e.memoryObj]⟩ := by
        cases hl : e.writeLock.isLocked now with
        | false => exact .one (hexp tag) (.unstage he hl)
        | true =>
          have hf : force := by simpa [hl] using hskip
          exact .one (hforce hf tag) (.unstage he (show UnstageReason.forced.Applies now e from trivial))
      rw [append_assoc] at hpop
      refine hpop.trans (ih hnd.2 (acc.1.popped key tag e, acc.2 ++ [e.memoryObj]) fun q hq => ?_)
      have hne : q.1 ≠ tag := fun h => hnd.1 (h ▸ mem_map.mpr ⟨q, hq, rfl⟩)
      have hq' := hitems q (mem_cons_of_mem _ hq)
      simp only [getStaging, popped] at hq' ⊢
      rw [get?_pop, if_neg (by simp [hne]), hq']

lemma reclaimStaging_reaches (now : Int) (key : Key) (force : Bool) (limbo : List Obj)
    (s : L1State Key Obj) (hexp : ∀ tag, P (.unstage key tag .expired))
    (hforce : force → ∀ tag, P (.unstage key tag .forced)) (hfree : ∀ objs, P (.free objs)) :
    Reaches now P ⟨s, limbo⟩ ⟨(s.reclaimStaging now key force).2, limbo⟩ := by
  have hloop : Reaches now P ⟨s, limbo ++ []⟩ _ :=
    reclaim_loop key force limbo hexp hforce (s.staging.inner key).entries
      (s.staging.inner key).nodup (s, []) (fun p hp => mem_entries.mp hp)
  rw [append_nil] at hloop
  exact hloop.then (hfree _) (.free _ rfl)

variable (s) in
/-- What reclaiming leaves alone; one that frees nothing changes nothing. -/
lemma reclaimStaging_frame (key : Key) (force : Bool) :
    (s.reclaimStaging now key force).2.objects = s.objects ∧
      (s.reclaimStaging now key force).2.log = s.log ∧ ((s.reclaimStaging now key force).1 = 0 →
      (s.reclaimStaging now key force).2.staging = s.staging) := by
  have hunstage : ∀ m, Reaches now (fun a => ∃ k t why, a = .unstage k t why) ⟨s, []⟩ m →
      m.st.objects = s.objects ∧ m.st.log = s.log ∧
        (m.limbo.length = 0 → m.st.staging = s.staging) := by
    intro m hm
    induction hm with
    | refl => simp
    | tail _ hstep ih =>
      obtain ⟨_, ⟨k, t, why, rfl⟩, hdoes⟩ := hstep
      cases hdoes
      exact ⟨ih.1, ih.2.1, by simp⟩
  exact hunstage _ (reclaim_loop key force [] (fun _ => ⟨_, _, _, rfl⟩) (fun _ _ => ⟨_, _, _, rfl⟩)
    _ (s.staging.inner key).nodup (s, []) fun p hp => mem_entries.mp hp)

variable (s) in
@[simp] lemma reclaimStaging_objects (key : Key) (force : Bool) :
    (s.reclaimStaging now key force).2.objects = s.objects :=
  (reclaimStaging_frame s key force).1

variable (s) in
@[simp] lemma reclaimStaging_log (key : Key) (force : Bool) :
    (s.reclaimStaging now key force).2.log = s.log :=
  (reclaimStaging_frame s key force).2.1

end Reclaim

/-! ## Reading -/

section Reading

variable {now : Int} (keys : List Key) (n : Int)

lemma reserveRead_reaches : Reaches now ((L1Op.reserveRead keys n : L1Op Key Obj).Allows s) ⟨s, []⟩
      ⟨(reserveRead now keys n s).2, []⟩ := by
  refine (foldl (fun acc : ReserveReadAcc Key Obj => (⟨acc.st, []⟩ : Mid Key Obj))
    (l := keys) (f := reserveReadKey now (validateReadLocks n)) ?_ ⟨s, ∅, []⟩).report _
  intro acc key hkey
  unfold reserveReadKey
  split
  · exact .refl _
  · rename_i e he
    exact .one (.reserveRead_lock hkey) (.lockRead _ he)

lemma finishRead_reaches : Reaches now ((L1Op.finishRead keys n : L1Op Key Obj).Allows s) ⟨s, []⟩
      ⟨(finishRead now keys n s).2, []⟩ := by
  refine (foldl (fun acc : FinishReadAcc Key Obj => (⟨acc.st, acc.needToFree⟩ : Mid Key Obj))
    (l := keys) (f := finishReadKey now (validateReadLocks n)) ?_
    ⟨s, ∅, [], [], []⟩).free_limbo.report _
  intro acc key hkey
  unfold finishReadKey
  split
  · exact .refl _
  rename_i e he
  split
  · exact .refl _
  rename_i hl
  have hl : e.readLock.isLocked now := by simpa using hl
  dsimp only
  split
  · rename_i hdrop
    simp only [Bool.and_eq_true, Bool.not_eq_true'] at hdrop
    exact .one (.finishRead_drop hkey) (.drop he ⟨hdrop.1, hl, hdrop.2⟩)
  · rename_i hkeep
    refine .one (.finishRead_unlock hkey) (.unlockRead _ he hl fun ht => ?_)
    simpa [ht] using hkeep

end Reading

/-! ## Finishing a write -/

section FinishingWrites

variable {now : Int}

lemma finishWriteKey_reaches {keys : List Key} {tag : String} {key : Key} (hkey : key ∈ keys)
    (acc : FinishWriteAcc Key Obj) :
    Reaches now ((L1Op.finishWrite keys tag : L1Op Key Obj).Allows s) ⟨acc.st, acc.discarded⟩
      ⟨(finishWriteKey now tag acc key).st, (finishWriteKey now tag acc key).discarded⟩ := by
  unfold finishWriteKey
  obtain ⟨e, he, hl, htake⟩ | ⟨err, -, htake, -⟩ := takeStaging_cases acc.st now key tag
  · simp only [htake]
    split
    · exact .one (.finishWrite_discard hkey) (.unstage he hl)
    · rename_i hr
      exact .one (.finishWrite_promote hkey) (.promote (not_mem_iff_get?.mp hr) he hl)
  · simp only [htake]
    exact .refl _

variable (keys : List Key)

lemma finishWrite_reaches (tag : String) :
    Reaches now ((L1Op.finishWrite keys tag : L1Op Key Obj).Allows s) ⟨s, []⟩
      ⟨(finishWrite now keys tag s).2, []⟩ := by
  have hloop : Reaches now ((L1Op.finishWrite keys tag : L1Op Key Obj).Allows s) ⟨s, []⟩ _ :=
    (foldl (fun acc : FinishWriteAcc Key Obj => (⟨acc.st, acc.discarded⟩ : Mid Key Obj))
      (fun acc key hkey => finishWriteKey_reaches hkey acc) ⟨s, ∅, [], []⟩).free_limbo
  simp only [finishWrite]
  split
  · exact hloop
  · exact hloop.report _

lemma finishWriteAndReserveReadKey_reaches {keys : List Key} {n : Int} {tag : String}
    {key : Key} (hkey : key ∈ keys) (acc : FinishWriteReserveReadAcc Key Obj) :
    Reaches now ((L1Op.finishWriteAndReserveRead keys n tag : L1Op Key Obj).Allows s)
      ⟨acc.st, acc.discarded⟩
      ⟨(finishWriteAndReserveReadKey now (validateReadLocks n) tag acc key).st,
       (finishWriteAndReserveReadKey now (validateReadLocks n) tag acc key).discarded⟩ := by
  unfold finishWriteAndReserveReadKey
  obtain ⟨e, he, hl, htake⟩ | ⟨err, -, htake, -⟩ := takeStaging_cases acc.st now key tag
  · simp only [htake]
    split
    · -- admitted, then locked: setting the entry twice is setting it once
      rename_i hr
      refine Reaches.trans (.one (.finishWriteAndReserveRead_promote hkey) (.promote hr he hl))
        (.one (.finishWriteAndReserveRead_lock hkey) ?_)
      have hlock : Does now (.lockRead key (validateReadLocks n)) _ _ :=
        Does.lockRead (m := ⟨(acc.st.popped key tag e).setObject key e.taken, acc.discarded⟩)
          (validateReadLocks n) (get?_set_self _ _ _)
      simpa only [setObject, Dict.set_set] using hlock
    · rename_i resident hr
      exact Reaches.trans (.one (.finishWriteAndReserveRead_discard hkey) (.unstage he hl))
        (.one (.finishWriteAndReserveRead_lock hkey) (.lockRead (validateReadLocks n) hr))
  · simp only [htake]
    exact .refl _

lemma finishWriteAndReserveRead_reaches (n : Int) (tag : String) :
    Reaches now ((L1Op.finishWriteAndReserveRead keys n tag : L1Op Key Obj).Allows s) ⟨s, []⟩
      ⟨(finishWriteAndReserveRead now keys n tag s).2, []⟩ := by
  have hloop : Reaches now ((L1Op.finishWriteAndReserveRead keys n tag : L1Op Key Obj).Allows s)
      ⟨s, []⟩ _ :=
    (foldl (fun acc : FinishWriteReserveReadAcc Key Obj => (⟨acc.st, acc.discarded⟩ : Mid Key Obj))
      (fun acc key hkey => finishWriteAndReserveReadKey_reaches hkey acc)
      ⟨s, ∅, [], [], []⟩).free_limbo
  simp only [finishWriteAndReserveRead]
  split
  · exact hloop.report _
  · exact (hloop.report _).report _

lemma finishWriteAndDelete_reaches (tag : String) :
    Reaches now ((L1Op.finishWriteAndDelete keys tag : L1Op Key Obj).Allows s) ⟨s, []⟩
      ⟨(finishWriteAndDelete now keys tag s).2, []⟩ := by
  refine (foldl (fun acc : FinishWriteDeleteAcc Key Obj => (⟨acc.st, acc.discarded⟩ : Mid Key Obj))
    (l := keys) (f := finishWriteAndDeleteKey now tag) ?_
    ⟨s, ∅, [], []⟩).free_limbo.reportStagingGone _
  intro acc key hkey
  unfold finishWriteAndDeleteKey
  obtain ⟨e, he, hl, htake⟩ | ⟨err, -, htake, -⟩ := takeStaging_cases acc.st now key tag
  · simp only [htake]
    exact .one (.finishWriteAndDelete_discard hkey) (.unstage he hl)
  · simp only [htake]
    exact .refl _

end FinishingWrites

/-! ## Deleting -/

section Deleting

variable {now : Int}

lemma delete_reaches (keys : List Key) (force : Bool) :
    Reaches now ((L1Op.delete keys force : L1Op Key Obj).Allows s) ⟨s, []⟩
      ⟨(delete now keys force s).2, []⟩ := by
  refine ((foldl (fun acc : DeleteAcc Key Obj => (⟨acc.st, acc.needToFree⟩ : Mid Key Obj))
    (l := keys) (f := deleteKey now force) ?_
    ⟨s, ∅, [], [], []⟩).free_limbo.report _).reportStagingGone _
  intro acc key hkey
  unfold deleteKey
  dsimp only
  split
  · exact .refl _
  have hreclaim := reclaimStaging_reaches now key force acc.needToFree acc.st
    (fun tag => .delete_reclaim hkey) (fun hf tag => hf ▸ .delete_discard hkey)
    (fun objs => L1Op.Allows.free (s := s) (L1Op.delete keys force) objs)
  split
  · exact hreclaim
  split
  · exact hreclaim
  rename_i e he
  have he' : (acc.st.reclaimStaging now key force).2.objects.get? key = some e := by
    rw [reclaimStaging_objects, he]
  split
  · exact hreclaim
  rename_i hl
  cases hlock : e.readLock.isLocked now with
  | false => exact hreclaim.then (.delete_drop hkey) (.drop he' hlock)
  | true =>
    have hf : force := by simpa [hlock] using hl
    subst hf
    exact hreclaim.then (.delete_dropForced hkey) (.drop he' trivial)

lemma drop_entries (now : Int) {why : DropReason} (items : List (Key × L1ObjectState Obj))
    (hnd : (items.map Prod.fst).Nodup) (hP : ∀ key, P (.drop key why)) (m : Mid Key Obj)
    (hitems : ∀ p ∈ items, m.st.objects.get? p.1 = some p.2 ∧ why.Applies now p.2) : Reaches now P m
      ⟨{ m.st with objects := (items.map Prod.fst).foldl erase m.st.objects },
       m.limbo ++ items.map (fun p => p.2.memoryObj)⟩ := by
  induction items generalizing m with
  | nil => simpa using refl m
  | cons p items ih =>
    rw [map_cons, nodup_cons] at hnd
    obtain ⟨hp, happ⟩ := hitems p mem_cons_self
    have hdrop : Reaches now P m ⟨m.st.eraseObject p.1, m.limbo ++ [p.2.memoryObj]⟩ :=
      .one (hP p.1) (.drop hp happ)
    have hrest := ih hnd.2 ⟨m.st.eraseObject p.1, m.limbo ++ [p.2.memoryObj]⟩ fun q hq => by
      have hne : q.1 ≠ p.1 := fun h => hnd.1 (h ▸ mem_map.mpr ⟨q, hq, rfl⟩)
      have hq' := hitems q (mem_cons_of_mem _ hq)
      exact ⟨(get?_erase_ne _ hne).trans hq'.1, hq'.2⟩
    simpa [eraseObject] using hdrop.trans hrest

variable (force : Bool)

lemma clearStaging_reaches (gone : Nat → L1State Key Obj → Key → Bool) (st : L1State Key Obj) :
    Reaches now ((L1Op.clear force : L1Op Key Obj).Allows s) ⟨st, []⟩
      ⟨(clearStaging now force gone st).1, []⟩ := by
  refine foldl (fun acc : L1State Key Obj × List Key => (⟨acc.1, []⟩ : Mid Key Obj))
    (l := st.staging.keys) ?_ (st, [])
  intro acc key _
  exact reclaimStaging_reaches now key force [] acc.1 (fun tag => .clear_reclaim force key tag)
    (fun hf tag => hf ▸ .clear_discard key tag) (fun objs => .free _ objs)

lemma clearForced_reaches :
    Reaches now ((L1Op.clear true : L1Op Key Obj).Allows s) ⟨s, []⟩ ⟨clearForced now s, []⟩ := by
  have hdrop := drop_entries now s.objects.entries s.objects.nodup
    (L1Op.Allows.clear_dropForced (s := s)) ⟨s, []⟩
    (fun p hp => ⟨mem_entries.mp hp, trivial⟩)
  have hkeys := foldl_erase_keys s.objects
  have hobjs : s.objects.entries.map (fun p => p.2.memoryObj)
      = s.objects.values.map L1ObjectState.memoryObj := by simp [values]
  rw [hkeys, hobjs] at hdrop
  exact ((hdrop.free_limbo.report _).trans (clearStaging_reaches true _ _)).reportStagingGone _

lemma clearUnlocked_reaches : Reaches now ((L1Op.clear false : L1Op Key Obj).Allows s) ⟨s, []⟩
      ⟨clearUnlocked now s, []⟩ := by
  have hdrop := drop_entries now (s.objects.entries.filter (fun p => !p.2.readLock.isLocked now))
    (s.objects.nodup.sublist (filter_sublist.map _))
    (L1Op.Allows.clear_drop (s := s)) ⟨s, []⟩ (fun p hp => by
      rw [mem_filter, Bool.not_eq_true'] at hp
      exact ⟨mem_entries.mp hp.1, hp.2⟩)
  refine (Reaches.trans ?_ (clearStaging_reaches false _ _)).reportStagingGone _
  split_ifs with hempty
  · rw [List.isEmpty_iff, List.map_eq_nil_iff] at hempty
    simpa [hempty] using hdrop
  · exact hdrop.free_limbo.report _

end Deleting

/-! ## Reserving a write -/

section ReservingWrites

variable {now : Int}

omit [DecidableEq Obj] in
/-- The first loop of `reserve_write` leaves the resident map, the allocator
and the set of staged `(key, tag)` pairs alone, so which keys are fresh does
not change while it runs. -/
lemma reserveWriteKey_spec (now : Int) (tag : String) (acc : ReserveWriteAcc Key Obj) (item : Key × Bool) :
    (reserveWriteKey now tag acc item).st.objects = acc.st.objects ∧
    (reserveWriteKey now tag acc item).st.memoryManager = acc.st.memoryManager ∧
    (∀ k t, ((reserveWriteKey now tag acc item).st.getStaging k t).isNone
      = (acc.st.getStaging k t).isNone) ∧
    (reserveWriteKey now tag acc item).st.staging.values.length = acc.st.staging.values.length ∧
    (reserveWriteKey now tag acc item).needToAllocate
      = acc.needToAllocate ++ if acc.st.isFresh tag item.1 then [item] else [] := by
  obtain ⟨key, isTemp⟩ := item
  unfold reserveWriteKey isFresh
  dsimp only
  split
  · rename_i hr
    simp [hr]
  rename_i hr
  split
  · rename_i hn
    simp [hr, hn]
  rename_i staged hs
  split
  · simp [hs]
  · refine ⟨rfl, rfl, fun k t => ?_, ?_, by simp [hs]⟩
    · simp only [getStaging, get?_put] at hs ⊢
      split_ifs with hkt
      · rw [hkt.1, hkt.2, hs]
        rfl
      · rfl
    · have hput := (NestedDict.values_put_old
        { staged with writeLock := staged.writeLock.lock now, isTemporary := isTemp } hs).length_eq
      simpa using hput

omit [DecidableEq Obj] in
lemma reserveWrite_loop (now : Int) (tag : String) (items : List (Key × Bool))
    (acc : ReserveWriteAcc Key Obj) :
    (items.foldl (reserveWriteKey now tag) acc).st.objects = acc.st.objects ∧
    (items.foldl (reserveWriteKey now tag) acc).st.memoryManager = acc.st.memoryManager ∧
    (∀ k t, ((items.foldl (reserveWriteKey now tag) acc).st.getStaging k t).isNone
      = (acc.st.getStaging k t).isNone) ∧
    (items.foldl (reserveWriteKey now tag) acc).st.staging.values.length
      = acc.st.staging.values.length ∧ (items.foldl (reserveWriteKey now tag) acc).needToAllocate
      = acc.needToAllocate ++ items.filter (fun p => acc.st.isFresh tag p.1) := by
  induction items generalizing acc with
  | nil => simp
  | cons item items ih =>
    obtain ⟨ho, hm, hs, hlen, hneed⟩ := reserveWriteKey_spec now tag acc item
    obtain ⟨ho', hm', hs', hlen', hneed'⟩ := ih (reserveWriteKey now tag acc item)
    have hfresh : (reserveWriteKey now tag acc item).st.isFresh tag = acc.st.isFresh tag := by
      funext k
      simp only [isFresh, ho, hs]
    rw [foldl_cons]
    refine ⟨ho'.trans ho, hm'.trans hm, fun k t => (hs' k t).trans (hs k t), hlen'.trans hlen, ?_⟩
    rw [hneed', hneed, hfresh, append_assoc, filter_cons]
    split <;> rfl

variable {alloc : AllocOutcome Obj} {temps : List Bool} {keys : List Key}

lemma reserveWriteKey_reaches {tag : String} {item : Key × Bool} (hitem : item ∈ keys.zip temps)
    (acc : ReserveWriteAcc Key Obj) :
    Reaches now ((L1Op.reserveWrite keys temps tag alloc).Allows s) ⟨acc.st, []⟩
      ⟨(reserveWriteKey now tag acc item).st, []⟩ := by
  obtain ⟨key, isTemp⟩ := item
  have hkey : key ∈ keys := (of_mem_zip hitem).1
  unfold reserveWriteKey
  dsimp only
  split
  · exact .refl _
  rename_i hr
  split
  · exact .refl _
  rename_i staged hs
  split
  · exact .refl _
  rename_i hx
  exact .one (.reserveWrite_handOver hkey) (.handOver isTemp hr hs (by simpa using hx))

/-- The staging loop of `reserve_write`. A key that comes twice overwrites
its first staging entry; distinct fresh keys each find their slot empty. -/
lemma stage_loop (now : Int) {tag : String} (items : List ((Key × Bool) × (Obj × Nat)))
    (rest : List Obj) (acc : ReserveWriteAcc Key Obj) (hr : ∀ i ∈ items, i.1.1 ∉ acc.st.objects)
    (hstage : ∀ i ∈ items, P (.stage i.1.1 tag))
    (hdistinct : (∀ i ∈ items, P (.restage i.1.1 tag)) ∨ (items.map (fun i => i.1.1)).Nodup ∧
      ∀ i ∈ items, acc.st.getStaging i.1.1 tag = none) :
    Reaches now P ⟨acc.st, items.map (fun i => i.2.1) ++ rest⟩
      ⟨(items.foldl (stageAllocated now tag) acc).st, rest⟩ := by
  induction items generalizing acc with
  | nil => exact .refl _
  | cons i items ih =>
    obtain ⟨⟨key, isTemp⟩, o, size⟩ := i
    have hhead : Reaches now P ⟨acc.st, o :: (items.map (fun i => i.2.1) ++ rest)⟩
        ⟨(stageAllocated now tag acc ((key, isTemp), (o, size))).st,
         items.map (fun i => i.2.1) ++ rest⟩ := by
      have hkey := hr _ mem_cons_self
      cases hs : acc.st.getStaging key tag with
      | none => exact .one (hstage _ mem_cons_self) (.stage isTemp size hkey hs rfl)
      | some old =>
        obtain hre | ⟨-, habs⟩ := hdistinct
        · exact .one (hre _ mem_cons_self) (.restage isTemp size hkey hs rfl)
        · have := habs _ mem_cons_self
          simp only [hs, reduceCtorEq] at this
    refine hhead.trans (ih _ (fun i hi => hr i (mem_cons_of_mem _ hi))
      (fun i hi => hstage i (mem_cons_of_mem _ hi)) ?_)
    obtain hre | ⟨hnd, habs⟩ := hdistinct
    · exact .inl fun i hi => hre i (mem_cons_of_mem _ hi)
    · rw [map_cons, nodup_cons] at hnd
      refine .inr ⟨hnd.2, fun i hi => ?_⟩
      have hne : i.1.1 ≠ key := fun h => hnd.1 (h ▸ mem_map.mpr ⟨i, hi, rfl⟩)
      have hi' := habs i (mem_cons_of_mem _ hi)
      simp only [stageAllocated, putStaging, getStaging] at hi' ⊢
      rw [get?_put, if_neg (by simp [hne]), hi']

/-- The `reserve_write` that allocates: its first loop, the allocation, and
the staging of what was allocated. -/
lemma allocateAndStage_reaches {tag : String} (hlengths : keys.length = temps.length)
    (hok : alloc.Honest s.memoryManager (freshItems s keys temps tag).length)
    {acc : ReserveWriteAcc Key Obj} (hobjects : acc.st.objects = s.objects)
    (hmm : acc.st.memoryManager = s.memoryManager)
    (hstaging : ∀ k t, (acc.st.getStaging k t).isNone = (s.getStaging k t).isNone)
    (hneed : acc.needToAllocate = freshItems s keys temps tag) :
    Reaches now ((L1Op.reserveWrite keys temps tag alloc).Allows s) ⟨acc.st, []⟩
      ⟨(allocateAndStage now tag alloc acc).st, []⟩ := by
  have halloc : Reaches now ((L1Op.reserveWrite keys temps tag alloc).Allows s) ⟨acc.st, []⟩
      ⟨{ acc.st with memoryManager := acc.st.memoryManager.handOut (alloc.objs.map Prod.fst) },
       [] ++ alloc.objs.map Prod.fst⟩ :=
    .one (.reserveWrite_alloc keys temps tag alloc)
      (.alloc (alloc.objs.map Prod.fst) hok.nodup (by rw [hmm]; exact hok.fresh))
  unfold allocateAndStage
  split
  · exact halloc.free_limbo
  rename_i herr
  have herr : alloc.err = .success := by simpa using herr
  -- the strict zip: one object for each item
  have hlen : alloc.objs.length = acc.needToAllocate.length := by rw [hneed, hok.length herr]
  have hobjs : (acc.needToAllocate.zip alloc.objs).map (fun i => i.2.1)
      = alloc.objs.map Prod.fst := by
    have hsnd := map_snd_zip (Nat.le_of_eq hlen)
    conv_rhs => rw [← hsnd, List.map_map]
    rfl
  have hkeys : (acc.needToAllocate.zip alloc.objs).map (fun i => i.1.1)
      = (freshItems s keys temps tag).map Prod.fst := by
    have hfst := map_fst_zip (Nat.le_of_eq hlen.symm)
    rw [← hneed]
    conv_rhs => rw [← hfst, List.map_map]
    rfl
  have hfresh : ∀ i ∈ acc.needToAllocate.zip alloc.objs,
      i.1.1 ∈ keys ∧ i.1.1 ∉ s.objects ∧ s.getStaging i.1.1 tag = none := by
    intro i hi
    have hmem : i.1 ∈ freshItems s keys temps tag := hneed ▸ (of_mem_zip hi).1
    simp only [freshItems, isFresh, mem_filter, Bool.and_eq_true,
      decide_eq_true_eq, Option.isNone_iff_eq_none] at hmem
    exact ⟨(of_mem_zip hmem.1).1, hmem.2⟩
  have hdistinct : (∀ i ∈ acc.needToAllocate.zip alloc.objs,
        (L1Op.reserveWrite keys temps tag alloc).Allows s (.restage i.1.1 tag)) ∨
      ((acc.needToAllocate.zip alloc.objs).map (fun i => i.1.1)).Nodup ∧
        ∀ i ∈ acc.needToAllocate.zip alloc.objs, acc.st.getStaging i.1.1 tag = none := by
    by_cases hnd : ((freshItems s keys temps tag).map Prod.fst).Nodup
    · refine .inr ⟨hkeys ▸ hnd, fun i hi => ?_⟩
      have := hstaging i.1.1 tag
      rwa [(hfresh i hi).2.2, Option.isNone_none, Option.isNone_iff_eq_none] at this
    · exact .inl fun i hi =>
        .reserveWrite_restage (hfresh i hi).1 ⟨hlengths, herr, hnd⟩ (hfresh i hi).2.2
  have hstage := stage_loop now (acc.needToAllocate.zip alloc.objs) []
    { acc with st := { acc.st with
        memoryManager := acc.st.memoryManager.handOut (alloc.objs.map Prod.fst) } }
    (fun i hi => hobjects ▸ (hfresh i hi).2.1)
    (fun i hi => L1Op.Allows.reserveWrite_stage (hfresh i hi).1) hdistinct
  rw [hobjs, append_nil] at hstage
  exact halloc.trans hstage

lemma reserveWrite_reaches {tag : String} {ret : Dict Key (L1OperationResult Obj)}
    {s' : L1State Key Obj} (hok : (L1Op.reserveWrite keys temps tag alloc).AllocatorHonest s)
    (h : reserveWrite now keys temps tag alloc s = .ok (ret, s')) :
    Reaches now ((L1Op.reserveWrite keys temps tag alloc).Allows s) ⟨s, []⟩ ⟨s', []⟩ := by
  unfold reserveWrite at h
  split at h
  · simp only [reduceCtorEq] at h
  rename_i hlengths
  have hloop : Reaches now ((L1Op.reserveWrite keys temps tag alloc).Allows s) ⟨s, []⟩ _ :=
    foldl (fun acc : ReserveWriteAcc Key Obj => (⟨acc.st, []⟩ : Mid Key Obj))
      (fun acc item hitem => reserveWriteKey_reaches hitem acc) ⟨s, ∅, [], []⟩
  obtain ⟨hobjects, hmm, hstaging, -, hneed⟩ :=
    reserveWrite_loop now tag (keys.zip temps) (⟨s, ∅, [], []⟩ : ReserveWriteAcc Key Obj)
  dsimp only at h
  split_ifs at h with hne
  · simp only [Except.ok.injEq, Prod.mk.injEq] at h
    rw [← h.2]
    exact hloop
  · simp only [Except.ok.injEq, Prod.mk.injEq] at h
    rw [← h.2]
    have hnonempty : freshItems s keys temps tag ≠ [] := by
      intro hnil
      exact hne (by rw [hneed]; exact congrArg length hnil)
    exact (hloop.trans
      (allocateAndStage_reaches (by simpa using hlengths) (hok hnonempty) hobjects hmm hstaging
        hneed)).report _

end ReservingWrites

/-! ## Every call -/

variable {c : L1Call Key Obj}

/-- A call takes only the actions its row of `Allows` lists, and ends with
nothing in limbo. -/
lemma step_reaches (hok : c.op.AllocatorHonest s) :
    Reaches c.now (c.op.Allows s) ⟨s, []⟩ ⟨s.step c, []⟩ := by
  obtain ⟨now, op⟩ := c
  cases op with
  | reserveRead keys n => exact reserveRead_reaches keys n
  | unsafeRead keys => exact .refl _
  | finishRead keys n => exact finishRead_reaches keys n
  | reserveWrite keys temps tag alloc =>
    simp only [step]
    split
    · rename_i hres
      exact reserveWrite_reaches hok hres
    · exact .refl _
  | finishWrite keys tag => exact finishWrite_reaches keys tag
  | finishWriteAndReserveRead keys n tag => exact finishWriteAndReserveRead_reaches keys n tag
  | finishWriteAndDelete keys tag => exact finishWriteAndDelete_reaches keys tag
  | delete keys force => exact delete_reaches keys force
  | clear force =>
    cases force with
    | true => exact clearForced_reaches
    | false => exact clearUnlocked_reaches
  | touchKeys keys hasSubscribers => exact (Reaches.refl _).report _

/-- The rule the invariants of whole calls come from. -/
lemma step_inv (Inv : Mid Key Obj → Prop) (hok : c.op.AllocatorHonest s)
    (hact : ∀ a m m', c.op.Allows s a → Does c.now a m m' → Inv m → Inv m') (hs : Inv ⟨s, []⟩) :
    Inv ⟨s.step c, []⟩ :=
  (step_reaches hok).inv hact hs

/-! ## What an action does to one key -/

section OneKey

variable {now : Int} {m m' : Mid Key Obj} {a : Action Key Obj}

lemma Does.get?_objects (hd : Does now a m m') (key : Key) :
    m'.st.objects.get? key = m.st.objects.get? key ∨
    (∃ e count, a = .lockRead key count ∧ m.st.objects.get? key = some e ∧
      m'.st.objects.get? key = some { e with readLock := e.readLock.lockTimes now count }) ∨
    (∃ e count, a = .unlockRead key count ∧ m.st.objects.get? key = some e ∧
      e.readLock.isLocked now ∧
      (e.isTemporary → (e.readLock.unlockTimes count).isLocked now) ∧
      m'.st.objects.get? key = some { e with readLock := e.readLock.unlockTimes count }) ∨
    (∃ e why, a = .drop key why ∧ m.st.objects.get? key = some e ∧ why.Applies now e ∧
      m'.st.objects.get? key = none) ∨
    (∃ e tag, a = .promote key tag ∧ m.st.objects.get? key = none ∧
      m.st.getStaging key tag = some e ∧ e.writeLock.isLocked now ∧
      m'.st.objects.get? key = some e.taken) := by
  cases hd with
  | @lockRead _ k e count he =>
    by_cases hk : key = k
    · subst hk
      exact .inr (.inl ⟨e, count, rfl, he, get?_set_self _ _ _⟩)
    · exact .inl (get?_set_ne _ _ hk)
  | @unlockRead _ k e count he hl hkeep =>
    by_cases hk : key = k
    · subst hk
      exact .inr (.inr (.inl ⟨e, count, rfl, he, hl, hkeep, get?_set_self _ _ _⟩))
    · exact .inl (get?_set_ne _ _ hk)
  | @drop _ k e why he hw =>
    by_cases hk : key = k
    · subst hk
      exact .inr (.inr (.inr (.inl ⟨e, why, rfl, he, hw, get?_erase_self _ _⟩)))
    · exact .inl (get?_erase_ne _ hk)
  | @promote _ k tag e hr he hl =>
    by_cases hk : key = k
    · subst hk
      exact .inr (.inr (.inr (.inr ⟨e, tag, rfl, hr, he, hl, get?_set_self _ _ _⟩)))
    · exact .inl (get?_set_ne _ _ hk)
  | _ => exact .inl rfl

lemma Does.get?_staging (hd : Does now a m m') (key : Key) (tag : String) :
    m'.st.getStaging key tag = m.st.getStaging key tag ∨
    (∃ e isTemp, a = .handOver key tag ∧ key ∉ m.st.objects ∧
      m.st.getStaging key tag = some e ∧ e.writeLock.isLocked now = false ∧ m'.st.getStaging key tag
      = some { e with writeLock := e.writeLock.lock now, isTemporary := isTemp }) ∨
    (∃ o isTemp size, (a = .stage key tag ∨ a = .restage key tag) ∧ key ∉ m.st.objects ∧
      m'.st.getStaging key tag
      = some { freshEntry m.st.config now o isTemp with stagingCharge := size }) ∨
    (∃ e, (a = .promote key tag ∨ ∃ why, a = .unstage key tag why ∧ why.Applies now e) ∧
      m.st.getStaging key tag = some e ∧ m'.st.getStaging key tag = none) := by
  cases hd with
  | @handOver _ k t e isTemp hr he hx =>
    by_cases hk : key = k ∧ tag = t
    · obtain ⟨rfl, rfl⟩ := hk
      exact .inr (.inl ⟨e, isTemp, rfl, hr, he, hx, (get?_put ..).trans (if_pos ⟨rfl, rfl⟩)⟩)
    · exact .inl ((get?_put ..).trans (if_neg hk))
  | @stage _ k t o rest isTemp size hr hn hl =>
    by_cases hk : key = k ∧ tag = t
    · obtain ⟨rfl, rfl⟩ := hk
      exact .inr (.inr (.inl ⟨o, isTemp, size, .inl rfl, hr, (get?_put ..).trans (if_pos ⟨rfl, rfl⟩)⟩))
    · exact .inl ((get?_put ..).trans (if_neg hk))
  | @restage _ k t o rest old isTemp size hr ho hl =>
    by_cases hk : key = k ∧ tag = t
    · obtain ⟨rfl, rfl⟩ := hk
      exact .inr (.inr (.inl ⟨o, isTemp, size, .inr rfl, hr, (get?_put ..).trans (if_pos ⟨rfl, rfl⟩)⟩))
    · exact .inl ((get?_put ..).trans (if_neg hk))
  | @promote _ k t e hr he hl =>
    by_cases hk : key = k ∧ tag = t
    · obtain ⟨rfl, rfl⟩ := hk
      exact .inr (.inr (.inr ⟨e, .inl rfl, he, (get?_pop ..).trans (if_pos ⟨rfl, rfl⟩)⟩))
    · exact .inl ((get?_pop ..).trans (if_neg hk))
  | @unstage _ k t e why he hw =>
    by_cases hk : key = k ∧ tag = t
    · obtain ⟨rfl, rfl⟩ := hk
      exact .inr (.inr (.inr ⟨e, .inr ⟨why, rfl, hw⟩, he, (get?_pop ..).trans (if_pos ⟨rfl, rfl⟩)⟩))
    · exact .inl ((get?_pop ..).trans (if_neg hk))
  | _ => exact .inl rfl

lemma Does.config (hd : Does now a m m') : m'.st.config = m.st.config := by
  cases hd <;> rfl

end OneKey

/-! ## What holds of every entry -/

/-- The read lock of a staging entry has never been taken; the read lock of
a resident entry keeps the configured time-to-live and never counts below
zero. -/
structure EntriesOk (s : L1State Key Obj) : Prop where
  staged : ∀ k t e, s.getStaging k t = some e → e.readLock = TTLLock.new s.config.readTtlSeconds
  resident : ∀ k e, s.objects.get? k = some e →
    e.readLock.ttlMs = s.config.readTtlSeconds * 1000 ∧ 0 ≤ e.readLock.counter

omit [DecidableEq Obj] in
lemma entriesOk_init (config : L1ManagerConfig) : EntriesOk (init config : L1State Key Obj) where
  staged := by intro k t e h; cases h
  resident := by intro k e h; cases h

lemma Does.entriesOk {now : Int} {a : Action Key Obj} {m m' : Mid Key Obj}
    (hd : Does now a m m') (h : EntriesOk m.st) : EntriesOk m'.st := by
  constructor
  · intro k t e he
    rw [hd.config]
    obtain hsame | ⟨e₀, _, _, _, he₀, _, he'⟩ | ⟨o, _, _, _, _, he'⟩ | ⟨_, _, _, hnone⟩ :=
      hd.get?_staging k t
    · exact h.staged k t e (hsame ▸ he)
    · rw [he'] at he
      cases he
      exact h.staged k t e₀ he₀
    · rw [he'] at he
      cases he
      rfl
    · rw [hnone] at he
      cases he
  · intro k e he
    rw [hd.config]
    obtain hsame | ⟨e₀, n, _, he₀, he'⟩ | ⟨e₀, n, _, he₀, _, _, he'⟩ | ⟨_, _, _, _, _, hnone⟩ |
      ⟨e₀, t, _, _, he₀, _, he'⟩ := hd.get?_objects k
    · exact h.resident k e (hsame ▸ he)
    · rw [he'] at he
      cases he
      obtain ⟨httl, hpos⟩ := h.resident k e₀ he₀
      exact ⟨by simpa using httl, TTLLock.lockTimes_counter_nonneg _ _ _ hpos⟩
    · rw [he'] at he
      cases he
      obtain ⟨httl, hpos⟩ := h.resident k e₀ he₀
      refine ⟨by simpa using httl, ?_⟩
      rw [TTLLock.unlockTimes_counter _ _ hpos]
      omega
    · rw [hnone] at he
      cases he
    · rw [he'] at he
      cases he
      simp only [L1ObjectState.taken, h.staged k t e₀ he₀, TTLLock.new]
      exact ⟨trivial, Int.le_refl 0⟩

lemma step_entriesOk (hok : c.op.AllocatorHonest s) (h : EntriesOk s) : EntriesOk (s.step c) :=
  step_inv (fun m => EntriesOk m.st) hok (fun _ _ _ _ hd hm => hd.entriesOk hm) h

lemma step_config (hok : c.op.AllocatorHonest s) : (s.step c).config = s.config :=
  step_inv (fun m => m.st.config = s.config) hok (fun _ _ _ _ hd hm => hd.config.trans hm) rfl

lemma run_entriesOk (config : L1ManagerConfig) {calls : List (L1Call Key Obj)}
    (hok : Along step (fun s c => c.op.AllocatorHonest s) (.init config) calls) :
    EntriesOk (run step (.init config) calls) ∧ (run step (.init config) calls).config = config :=
  run_inv (fun s => EntriesOk s ∧ s.config = config)
    (fun _ _ hs hc => ⟨step_entriesOk hc hs.1, (step_config hc).trans hs.2⟩)
    ⟨entriesOk_init config, rfl⟩ hok

end LMCache.L1Manager
