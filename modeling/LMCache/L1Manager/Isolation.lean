/-
LMCache.L1Manager.Isolation — readers against writers, and writers against
each other.

The manager knows a writer by its tag only, and all stores share one tag.
This module keeps the missing book: a `WriteBook` is the manager together
with, for each key and tag, the reservations that were made and by whom.

Three facts keep an unfinished buffer away from readers and from other
writers: only `finish_write` and `finish_write_and_reserve_read` bind a key
to an object, and only to the object the tag holds a live reservation on
(`step_boundTo`); a bound key keeps its object until it is dropped; and no
object is referenced by two entries (`noSharing_of_accounts`), even in a run
that leaks. The tag's reservation need not be the caller's. It is if every
writer finishes within the time-to-live of its own reservation
(`LiveGrants.step`); one that comes later, when the buffer was handed to a
second writer of the tag, publishes the second writer's unfinished object.
-/
import LMCache.L1Manager.Ownership
import LMCache.L1Manager.Reservations

namespace LMCache.L1Manager

open Lib Native L1State L1ObjectState NestedDict

variable {Writer Key Obj : Type} [DecidableEq Writer] [DecidableEq Key] [DecidableEq Obj]

section

variable (s : L1State Key Obj)

/-- The memory object a resident key is bound to. -/
def L1State.boundTo (key : Key) : Option Obj :=
  (s.objects.get? key).map memoryObj

/-- `tag` holds a live write reservation for `key` on the object `o`. -/
def L1State.StagesLive (now : Int) (key : Key) (tag : String) (o : Obj) : Prop :=
  ∃ e, s.getStaging key tag = some e ∧ e.writeLock.isLocked now ∧ e.memoryObj = o

variable (c : L1Call Key Obj) (key : Key) (tag : String) (o : Obj)

/-- The call finishes the write of `key` under `tag` into the object `o`. -/
def L1Call.Finishes : Prop :=
  match c.op with
  | .finishWrite keys t => t = tag ∧ key ∈ keys ∧ s.StagesLive c.now key tag o
  | .finishWriteAndReserveRead keys _ t => t = tag ∧ key ∈ keys ∧ s.StagesLive c.now key tag o
  | _ => False

/-- The staging entry of `key` under `tag` that the call reserves. -/
def L1Call.reserved : Option (L1ObjectState Obj) :=
  if s.stagesLive c.now key tag then none
  else ((s.step c).getStaging key tag).filter fun e => e.writeLock.isLocked c.now

/-- The call hands the object `o` to its caller for reading `key`. -/
def L1Call.Receives : Prop :=
  match c.op with
  | .reserveRead keys n => (reserveRead c.now keys n s).1.get? key = some (.success, some o)
  | .unsafeRead keys => (unsafeRead c.now keys s).get? key = some (.success, some o)
  | .finishWriteAndReserveRead keys n tag =>
    (finishWriteAndReserveRead c.now keys n tag s).1.get? key = some (.success, some o)
  | _ => False

end

/-- A call and the writer that makes it. -/
structure WriterCall (Writer Key Obj : Type) where
  writer : Writer
  call : L1Call Key Obj

/-- The manager, the time of its last call, and the reservations of each key
and tag, newest first: the writer and the staging entry it was given. A
writer's reservations are struck off when it finishes. -/
structure WriteBook (Writer Key Obj : Type) [DecidableEq Key] where
  st : L1State Key Obj
  clock : Int
  grants : Key → String → List (Writer × L1ObjectState Obj)

namespace WriteBook

def init (config : L1ManagerConfig) (start : Int) : WriteBook Writer Key Obj :=
  ⟨.init config, start, fun _ _ => []⟩

section

variable (b : WriteBook Writer Key Obj) (c : WriterCall Writer Key Obj)

def step : WriteBook Writer Key Obj where
  st := b.st.step c.call
  clock := c.call.now
  grants key tag :=
    ((c.call.reserved b.st key tag).map (c.writer, ·)).toList ++
      if key ∈ c.call.op.finishes.1 ∧ c.call.op.finishes.2 = tag then
        (b.grants key tag).filter (·.1 ≠ c.writer)
      else b.grants key tag

def Honest : Prop := c.call.op.AllocatorHonest b.st

/-- The clock does not run backwards, the call does not force, and it
finishes only writes its caller has reserved, before they expire. -/
structure Timely : Prop where
  ordered : b.clock ≤ c.call.now
  unforced : c.call.op.forces = false
  own : ∀ key ∈ c.call.op.finishes.1, ∃ g ∈ b.grants key c.call.op.finishes.2,
    g.1 = c.writer ∧ g.2.writeLock.isLocked c.call.now

end

/-- The key was bound to the object by the writer that reserved it last, when
that writer finished, and has been bound to it since. -/
def FinishedByOwner (b : WriteBook Writer Key Obj) (calls : List (WriterCall Writer Key Obj))
    (key : Key) (o : Obj) : Prop :=
  ∃ before d after tag e, calls = before ++ d :: after ∧
    d.call.Finishes (run step b before).st key tag o ∧
    ((run step b before).grants key tag).head? = some (d.writer, e) ∧ e.memoryObj = o ∧
    ∀ n, (run step b (before ++ d :: after.take n)).st.boundTo key = some o

/-- A reservation that has not expired is the newest, and still staged. -/
def LiveGrants (b : WriteBook Writer Key Obj) : Prop :=
  ∀ key tag g, g ∈ b.grants key tag → g.2.writeLock.isLocked b.clock →
    (b.grants key tag).head? = some g ∧ b.st.getStaging key tag = some g.2

end WriteBook

/-- No object is referenced by two staging entries, or by a staging entry
and a resident one. -/
structure NoSharing (s : L1State Key Obj) : Prop where
  staging : ∀ k t e k' t' e', s.getStaging k t = some e → s.getStaging k' t' = some e' →
    e.memoryObj = e'.memoryObj → k = k' ∧ t = t'
  resident : ∀ k t e k' e', s.getStaging k t = some e → s.objects.get? k' = some e' →
    e.memoryObj ≠ e'.memoryObj

/-! ## No sharing -/

section Sharing

variable {s : L1State Key Obj} {leaked : List (Obj × Nat)}

omit [DecidableEq Obj] in
lemma refs_nodup (h : Accounts ⟨s, []⟩ leaked) : s.refs.Nodup := by
  have hnd := h.balance.nodup_iff.mp h.live_nodup
  rw [List.append_nil] at hnd
  exact (List.nodup_append.mp hnd).1

omit [DecidableEq Obj] in
lemma noSharing_of_accounts (h : Accounts ⟨s, []⟩ leaked) : NoSharing s := by
  have hnd := refs_nodup h
  rw [refs_def, List.nodup_append] at hnd
  obtain ⟨-, hstaging, hdisjoint⟩ := hnd
  constructor
  · intro k t e k' t' e' he he' heq
    by_contra hne
    -- the second entry survives the removal of the first
    have hpop := (values_pop he).map memoryObj
    have hnd' := hpop.nodup_iff.mp hstaging
    rw [List.map_cons, List.nodup_cons] at hnd'
    have hget : (s.staging.pop k t).get? k' t' = some e' := by
      rw [get?_pop, if_neg (fun h => hne ⟨h.1.symm, h.2.symm⟩)]
      exact he'
    refine hnd'.1 (heq ▸ List.mem_map_of_mem ?_)
    exact mem_values.mpr ⟨k', t', hget⟩
  · intro k t e k' e' he he' heq
    have hres : e'.memoryObj ∈ s.objects.values.map memoryObj :=
      List.mem_map_of_mem (Dict.mem_values.mpr ⟨k', he'⟩)
    have hstg : e.memoryObj ∈ s.staging.values.map memoryObj :=
      List.mem_map_of_mem (mem_values.mpr ⟨k, t, he⟩)
    exact hdisjoint _ hres _ hstg heq.symm

end Sharing

/-! ## What binds a key -/

section Binding

variable {s : L1State Key Obj} {c : L1Call Key Obj} {key : Key} {o : Obj}

omit [DecidableEq Obj] in
/-- A call that may admit neither drops resident objects nor stages. -/
lemma allows_of_promote {op : L1Op Key Obj} {k : Key} {t : String}
    (hpromote : op.Allows s (.promote k t)) {a : Action Key Obj} (ha : op.Allows s a) :
    (∀ k why, a ≠ .drop k why) ∧ (∀ k t, a ≠ .handOver k t) ∧ (∀ k t, a ≠ .stage k t) ∧
      (∀ k t, a ≠ .restage k t) := by
  cases hpromote <;> cases ha <;> simp

/-- A key is bound after a call to the object it was bound to before, or to
the object of a write the call finishes. -/
lemma step_boundTo (hok : c.op.AllocatorHonest s) (h : (s.step c).boundTo key = some o) :
    s.boundTo key = some o ∨ s.boundTo key = none ∧ ∃ tag, c.Finishes s key tag o := by
  -- while a call that admits is under way, the staging table only shrinks
  -- and no resident key is lost
  have hinv := step_inv (fun m =>
    ((∃ t, c.op.Allows s (.promote key t)) →
      (∀ t e, m.st.getStaging key t = some e → s.getStaging key t = some e) ∧
      (∀ o, s.boundTo key = some o → m.st.boundTo key = some o)) ∧
    (∀ o, m.st.boundTo key = some o →
      s.boundTo key = some o ∨ s.boundTo key = none ∧ ∃ tag, c.Finishes s key tag o)) hok ?_
      ⟨fun _ => ⟨fun _ _ h => h, fun _ h => h⟩, fun _ h => .inl h⟩
  · exact hinv.2 o h
  rintro a m m' hallow hd ⟨hkeep, hbound⟩
  have hobj := hd.get?_objects key
  refine ⟨fun hprom => ?_, ?_⟩
  · obtain ⟨hstg, hres⟩ := hkeep hprom
    obtain ⟨t₀, hprom⟩ := hprom
    obtain ⟨hnodrop, hnohand, hnostage, hnorestage⟩ := allows_of_promote hprom hallow
    constructor
    · intro t e he
      obtain hsame | ⟨_, _, rfl, _⟩ | ⟨_, _, _, rfl | rfl, _⟩ | ⟨_, _, _, hnone⟩ :=
        hd.get?_staging key t
      · exact hstg t e (hsame ▸ he)
      · exact absurd rfl (hnohand key t)
      · exact absurd rfl (hnostage key t)
      · exact absurd rfl (hnorestage key t)
      · rw [hnone] at he
        cases he
    · intro o' ho'
      have hm := hres o' ho'
      simp only [boundTo] at hm ⊢
      obtain hsame | ⟨e, n, -, he, he'⟩ | ⟨e, n, -, he, -, -, he'⟩ | ⟨_, _, rfl, _⟩ |
        ⟨_, _, -, hnone, _⟩ := hobj
      · rw [hsame, hm]
      · rw [he] at hm
        rw [he', ← hm]
        rfl
      · rw [he] at hm
        rw [he', ← hm]
        rfl
      · exact absurd rfl (hnodrop key _)
      · rw [hnone] at hm
        cases hm
  · intro o' ho'
    simp only [boundTo] at ho'
    obtain hsame | ⟨e, n, -, he, he'⟩ | ⟨e, n, -, he, -, -, he'⟩ | ⟨_, _, -, -, -, hnone⟩ |
      ⟨e, t, rfl, hnone, hst, hl, he'⟩ := hobj
    · exact hbound o' (by rw [boundTo, ← hsame, ho'])
    · refine hbound o' ?_
      rw [he'] at ho'
      rw [boundTo, he]
      exact ho'
    · refine hbound o' ?_
      rw [he'] at ho'
      rw [boundTo, he]
      exact ho'
    · rw [hnone] at ho'
      cases ho'
    · obtain ⟨hstg, hres⟩ := hkeep ⟨t, hallow⟩
      rw [he'] at ho'
      have hlive : s.StagesLive c.now key t o' := ⟨e, hstg t e hst, hl, Option.some.inj ho'⟩
      have hfree : s.boundTo key = none := by
        cases hb : s.boundTo key with
        | none => rfl
        | some o₀ =>
          have := hres o₀ hb
          rw [boundTo, hnone] at this
          cases this
      refine .inr ⟨hfree, t, ?_⟩
      unfold L1Call.Finishes
      generalize c.op = op at hallow
      cases hallow with
      | finishWrite_promote hk => exact ⟨rfl, hk, hlive⟩
      | finishWriteAndReserveRead_promote hk => exact ⟨rfl, hk, hlive⟩

end Binding

/-! ## What a reader receives -/

section Receiving

variable {s : L1State Key Obj} {c : L1Call Key Obj} {key : Key} {o : Obj}

/-- Every object the result dictionary grants is the one its key is bound to. -/
def GrantsBound (ret : Dict Key (L1OperationResult Obj)) (s : L1State Key Obj) : Prop :=
  ∀ key o, ret.get? key = some (.success, some o) → s.boundTo key = some o

omit [DecidableEq Obj] in
lemma grantsBound_empty (s : L1State Key Obj) : GrantsBound ∅ s := by
  intro key o h
  cases h

variable {ret : Dict Key (L1OperationResult Obj)}

section

omit [DecidableEq Obj]

lemma GrantsBound.refuse (h : GrantsBound ret s) (k : Key) (err : L1Error) :
    GrantsBound (ret.set k (err, none)) s := by
  intro key o hget
  rw [Dict.get?_set] at hget
  split at hget
  · cases hget
  · exact h key o hget

lemma GrantsBound.grant (h : GrantsBound ret s) (k : Key) (e : L1ObjectState Obj) :
    GrantsBound (ret.set k (.success, some e.memoryObj)) (s.setObject k e) := by
  intro key o hget
  rw [Dict.get?_set] at hget
  simp only [boundTo, setObject, Dict.get?_set]
  split_ifs at hget with hk
  · cases hget
    rw [if_pos hk]
    rfl
  · rw [if_neg hk]
    exact h key o hget

variable {now : Int} {total : Nat}

lemma reserveReadKey_grantsBound {acc : ReserveReadAcc Key Obj} (k : Key)
    (h : GrantsBound acc.ret acc.st) :
    GrantsBound (reserveReadKey now total acc k).ret (reserveReadKey now total acc k).st := by
  unfold reserveReadKey
  split
  · exact h.refuse k _
  · rename_i e he
    exact h.grant k { e with readLock := e.readLock.lockTimes now total }

lemma finishWriteAndReserveReadKey_grantsBound {tag : String}
    {acc : FinishWriteReserveReadAcc Key Obj} (k : Key) (h : GrantsBound acc.ret acc.st) :
    GrantsBound (finishWriteAndReserveReadKey now total tag acc k).ret
      (finishWriteAndReserveReadKey now total tag acc k).st := by
  unfold finishWriteAndReserveReadKey
  obtain ⟨e, he, hl, htake⟩ | ⟨err, herr, htake, -⟩ := takeStaging_cases acc.st now k tag
  · have hpopped : GrantsBound acc.ret (acc.st.popped k tag e) := h
    simp only [htake]
    split
    · exact hpopped.grant k { e.taken with readLock := e.taken.readLock.lockTimes now total }
    · rename_i resident hr
      exact hpopped.grant k { resident with readLock := resident.readLock.lockTimes now total }
  · simp only [htake]
    exact h.refuse k err

lemma unsafeReadKey_grantsBound (k : Key) (h : GrantsBound ret s) :
    GrantsBound (unsafeReadKey now s ret k) s := by
  unfold unsafeReadKey
  split
  · exact h.refuse k _
  rename_i e he
  split
  · exact h.refuse k _
  · -- the entry is left as it is
    intro key o hget
    obtain ⟨hk, ⟨⟩⟩ | ⟨-, hget⟩ := Dict.get?_set_cases hget
    · rw [boundTo, hk, he]
      rfl
    · exact h key o hget

end

/-- Whatever a reader receives for a key is what the key is bound to when
the call returns. -/
lemma receives_bound (h : c.Receives s key o) : (s.step c).boundTo key = some o := by
  obtain ⟨now, op⟩ := c
  cases op with
  | reserveRead keys n =>
    exact List.foldlRecOn (motive := fun acc : ReserveReadAcc Key Obj => GrantsBound acc.ret acc.st)
      keys _ (grantsBound_empty s) (fun acc hacc k _ => reserveReadKey_grantsBound k hacc) key o h
  | unsafeRead keys =>
    exact List.foldlRecOn (motive := fun ret => GrantsBound ret s)
      keys _ (grantsBound_empty s) (fun acc hacc k _ => unsafeReadKey_grantsBound k hacc) key o h
  | finishWriteAndReserveRead keys n tag =>
    have hloop := List.foldlRecOn
      (motive := fun acc : FinishWriteReserveReadAcc Key Obj => GrantsBound acc.ret acc.st)
      keys (finishWriteAndReserveReadKey now (validateReadLocks n) tag)
      (b := ⟨s, ∅, [], [], []⟩) (grantsBound_empty s)
      (fun acc hacc k _ => finishWriteAndReserveReadKey_grantsBound k hacc) key o h
    simp only [step, finishWriteAndReserveRead]
    split <;> exact hloop
  | _ => exact h.elim

lemma allocatorHonest_of_receives (h : c.Receives s key o) : c.op.AllocatorHonest s := by
  obtain ⟨now, op⟩ := c
  cases op with
  | reserveWrite keys temps tag alloc => exact h.elim
  | _ => trivial

end Receiving

/-! ## Whose reservation it is -/

section Owners

variable {b : WriteBook Writer Key Obj} {c : WriterCall Writer Key Obj} {key : Key} {tag : String}

omit [DecidableEq Obj] in
lemma L1Call.Finishes.mem_finishes {s : L1State Key Obj} {c : L1Call Key Obj} {o : Obj}
    (h : c.Finishes s key tag o) :
    (key ∈ c.op.finishes.1 ∧ c.op.finishes.2 = tag) ∧ s.StagesLive c.now key tag o := by
  unfold Finishes at h
  split at h
  · rename_i hop
    exact ⟨by simp [hop, L1Op.finishes, h.1, h.2.1], h.2.2⟩
  · rename_i hop
    exact ⟨by simp [hop, L1Op.finishes, h.1, h.2.1], h.2.2⟩
  · exact h.elim

omit [DecidableEq Writer] [DecidableEq Obj] in
/-- A timely finish finds the caller's reservation. -/
lemma WriteBook.LiveGrants.own (h : b.LiveGrants) (ht : b.Timely c)
    (hend : key ∈ c.call.op.finishes.1 ∧ c.call.op.finishes.2 = tag) :
    ∃ e, (b.grants key tag).head? = some (c.writer, e) ∧ b.st.getStaging key tag = some e := by
  obtain ⟨hkey, rfl⟩ := hend
  obtain ⟨⟨w, e⟩, hg, rfl, hl⟩ := ht.own key hkey
  exact ⟨e, h key _ _ hg (TTLLock.isLocked_of_le ht.ordered hl)⟩

lemma WriteBook.LiveGrants.step (h : b.LiveGrants) (hok : b.Honest c) (ht : b.Timely c) :
    (b.step c).LiveGrants := by
  intro key tag g hg hl
  have hold : ∀ g ∈ b.grants key tag, g.2.writeLock.isLocked c.call.now →
      (b.grants key tag).head? = some g ∧ b.st.getStaging key tag = some g.2 :=
    fun g hg hl => h key tag g hg (TTLLock.isLocked_of_le ht.ordered hl)
  have hkept : ∀ g, g ∈ (if key ∈ c.call.op.finishes.1 ∧ c.call.op.finishes.2 = tag then
      (b.grants key tag).filter (·.1 ≠ c.writer) else b.grants key tag) → g ∈ b.grants key tag := by
    intro g hg
    split at hg
    · exact List.mem_of_mem_filter hg
    · exact hg
  simp only [WriteBook.step] at hg hl ⊢
  cases hres : c.call.reserved b.st key tag with
  | some e =>
    rw [hres] at hg
    unfold L1Call.reserved at hres
    split at hres
    · cases hres
    rename_i hfree
    obtain ⟨he, -⟩ := Option.filter_eq_some_iff.mp hres
    obtain rfl | hg := List.mem_cons.mp hg
    · exact ⟨rfl, he⟩
    · -- an older reservation that is still good would have stopped this one
      exact absurd (by simp [stagesLive, (hold g (hkept g hg) hl).2, hl]) hfree
  | none =>
    rw [hres] at hg
    obtain ⟨hhead, hstaged⟩ := hold g (hkept g hg) hl
    by_cases hend : key ∈ c.call.op.finishes.1 ∧ c.call.op.finishes.2 = tag
    · rw [if_pos hend] at hg
      obtain ⟨e, hown, -⟩ := h.own ht hend
      cases hhead.symm.trans hown
      simp at hg
    · rw [if_neg hend]
      refine ⟨hhead, (step_getStaging hok ht.unforced ?_ fun _ => ⟨?_, hend⟩).trans hstaged⟩
      · intro e he
        cases hstaged.symm.trans he
        exact hl
      · rw [hstaged]
        nofun

end Owners

/-! ## Runs -/

section Runs

variable {b : WriteBook Writer Key Obj} {calls : List (WriterCall Writer Key Obj)} {key : Key}
  {o : Obj}

open WriteBook

/-- In a run with an honest allocator a bound key was bound by a finished
write, and has stayed bound to that object since. -/
lemma bound_of_finished_write (hok : Along WriteBook.step Honest b calls)
    (hnone : b.st.boundTo key = none) (h : (run WriteBook.step b calls).st.boundTo key = some o) :
    ∃ before d after, calls = before ++ d :: after ∧
      (∃ tag, d.call.Finishes (run WriteBook.step b before).st key tag o) ∧
      ∀ n, (run WriteBook.step b (before ++ d :: after.take n)).st.boundTo key = some o := by
  induction calls using List.reverseRecOn with
  | nil => cases hnone.symm.trans h
  | append_singleton calls c ih =>
    obtain ⟨hok, hokc⟩ := along_append.mp hok
    have hlast := h
    rw [run_append] at h
    obtain hbefore | ⟨-, hfin⟩ := step_boundTo hokc.1 h
    · obtain ⟨before, d, after, rfl, hd, hall⟩ := ih hok hbefore
      refine ⟨before, d, after ++ [c], by simp, hd, fun n => ?_⟩
      by_cases hn : n ≤ after.length
      · rw [List.take_append_of_le_length hn]
        exact hall n
      · rw [List.take_of_length_le (by simp; omega)]
        simpa using hlast
    · exact ⟨calls, c, [], rfl, hfin, fun n => by simpa using hlast⟩

/-- A key that stays resident stays bound to the same object. -/
lemma bound_stable (hok : Along WriteBook.step Honest b calls) (hb : b.st.boundTo key = some o)
    (hres : ∀ n, key ∈ (run WriteBook.step b (calls.take n)).st.objects) :
    (run WriteBook.step b calls).st.boundTo key = some o := by
  induction calls generalizing b with
  | nil => exact hb
  | cons c calls ih =>
    have hnext : key ∈ (b.step c).st.objects := by simpa using hres 1
    obtain ⟨e, he⟩ := Dict.mem_iff_get?.mp hnext
    have hbound : (b.step c).st.boundTo key = some e.memoryObj := by rw [boundTo, he]; rfl
    have hsame : (b.step c).st.boundTo key = some o := by
      obtain hbefore | ⟨hnone, -⟩ := step_boundTo hok.1 hbound
      · rw [hbound, ← hbefore, hb]
      · rw [hb] at hnone
        cases hnone
    exact ih hok.2 hsame fun n => by simpa using hres (n + 1)

/-- Under timely calls the write was finished by the writer that had reserved it. -/
lemma finishedByOwner_of_bound (hok : Along WriteBook.step Honest b calls)
    (htimely : Along WriteBook.step Timely b calls) (hlive : b.LiveGrants)
    (hnone : b.st.boundTo key = none) (h : (run WriteBook.step b calls).st.boundTo key = some o) :
    b.FinishedByOwner calls key o := by
  obtain ⟨before, d, after, rfl, ⟨tag, hfin⟩, hall⟩ := bound_of_finished_write hok hnone h
  obtain ⟨hok, -⟩ := along_append.mp hok
  obtain ⟨htimely, htd, -⟩ := along_append.mp htimely
  have hlive : (run WriteBook.step b before).LiveGrants :=
    run_inv LiveGrants (fun _ _ h hc => h.step hc.1 hc.2) hlive (hok.and htimely)
  obtain ⟨hend, e, he, -, hobj⟩ := hfin.mem_finishes
  obtain ⟨e', hhead, he'⟩ := hlive.own htd hend
  cases he.symm.trans he'
  exact ⟨before, d, after, tag, e, rfl, hfin, hhead, hobj, hall⟩

lemma step_exists_accounts {s : L1State Key Obj} {c : L1Call Key Obj}
    (hok : c.op.AllocatorHonest s) (h : ∃ leaked, Accounts ⟨s, []⟩ leaked) :
    ∃ leaked, Accounts ⟨s.step c, []⟩ leaked := by
  obtain ⟨leaked, hs⟩ := h
  obtain ⟨leaked', hl, -⟩ := step_accounts hok hs
  exact ⟨leaked', hl⟩

/-- Isolation, after any run with an honest allocator. If every call is
timely, the object a reader receives for a key is one whose write was
finished, by the writer it had been reserved for. A key keeps its object for
as long as it stays resident, whatever calls follow. No two staging entries,
and no staging and resident entry, share an object. -/
theorem readers_isolated_from_writers (config : L1ManagerConfig) (start : Int)
    (calls : List (WriterCall Writer Key Obj))
    (hok : Along WriteBook.step Honest (.init config start) calls) :
    (∀ c key o, Along WriteBook.step Timely (.init config start) (calls ++ [c]) →
      c.call.Receives (run WriteBook.step (.init config start) calls).st key o →
      (WriteBook.init config start).FinishedByOwner (calls ++ [c]) key o) ∧
    (∀ more key o,
      Along WriteBook.step Honest (run WriteBook.step (.init config start) calls) more →
      (run WriteBook.step (.init config start) calls).st.boundTo key = some o →
      (∀ n, key ∈ (run WriteBook.step (.init config start) (calls ++ more.take n)).st.objects) →
      (run WriteBook.step (.init config start) (calls ++ more)).st.boundTo key = some o) ∧
    NoSharing (run WriteBook.step (.init config start) calls).st := by
  refine ⟨fun c key o htimely hrec => ?_, fun more key o hmore hb hres => ?_, ?_⟩
  · refine finishedByOwner_of_bound ?_ htimely nofun rfl ?_
    · exact along_append.mpr ⟨hok, allocatorHonest_of_receives hrec, trivial⟩
    · rw [run_append]
      exact receives_bound hrec
  · rw [run_append]
    refine bound_stable hmore hb fun n => ?_
    rw [← run_append]
    exact hres n
  · obtain ⟨leaked, hacc⟩ := run_inv
      (fun b : WriteBook Writer Key Obj => ∃ leaked, Accounts ⟨b.st, []⟩ leaked)
      (fun _ _ hb hc => step_exists_accounts hc hb) ⟨[], accounts_init config⟩ hok
    exact noSharing_of_accounts hacc

/-- Under the tag of all stores a first writer reserves key `7`; 700 s later,
its 600 s over, a second one is handed the same buffer. -/
def handedOver : List (WriterCall String Nat Nat) :=
  [⟨"first", 0, .reserveWrite [7] [false] "storage_manager" ⟨.success, [(100, 8)]⟩⟩,
   ⟨"prefetch", 1, .reserveWrite [7] [false] "prefetch:0" ⟨.success, [(101, 8)]⟩⟩,
   ⟨"second", 700000, .reserveWrite [7] [false] "storage_manager" ⟨.success, []⟩⟩]

def finishSeven (writer : String) : WriterCall String Nat Nat :=
  ⟨writer, 700001, .finishWrite [7] "storage_manager"⟩

def readSeven : WriterCall String Nat Nat := ⟨"reader", 700002, .reserveRead [7] 1⟩

lemma handedOver_honest (writer : String) :
    Along WriteBook.step Honest (.init ⟨600, 300⟩ 0) (handedOver ++ [finishSeven writer]) :=
  ⟨fun _ => ⟨by decide, by decide, by decide⟩, fun _ => ⟨by decide, by decide, by decide⟩,
    fun h => absurd (by decide) h, trivial, trivial⟩

theorem handedOver_isolated :
    readSeven.call.Receives (run WriteBook.step (.init ⟨600, 300⟩ 0)
      (handedOver ++ [finishSeven "second"])).st 7 100 ∧
    (WriteBook.init ⟨600, 300⟩ 0).FinishedByOwner
      ((handedOver ++ [finishSeven "second"]) ++ [readSeven]) 7 100 ∧
    NoSharing (run WriteBook.step (.init ⟨600, 300⟩ 0)
      (handedOver ++ [finishSeven "second"])).st := by
  have htimely : Along WriteBook.step Timely (.init ⟨600, 300⟩ 0)
      ((handedOver ++ [finishSeven "second"]) ++ [readSeven]) :=
    ⟨⟨by decide, rfl, nofun⟩, ⟨by decide, rfl, nofun⟩, ⟨by decide, rfl, nofun⟩,
      ⟨by decide, rfl, by decide⟩, ⟨by decide, rfl, nofun⟩, trivial⟩
  have hrec : readSeven.call.Receives (run WriteBook.step (.init ⟨600, 300⟩ 0)
      (handedOver ++ [finishSeven "second"])).st 7 100 := by
    simp only [L1Call.Receives, readSeven]
    decide
  obtain ⟨hread, -, hsharing⟩ := readers_isolated_from_writers ⟨600, 300⟩ 0 _ (handedOver_honest "second")
  exact ⟨hrec, hread _ 7 100 htimely hrec, hsharing⟩

/-- The first writer, coming back late, finishes the second one's write. -/
theorem handedOver_exposed :
    Along WriteBook.step Honest (.init ⟨600, 300⟩ 0) (handedOver ++ [finishSeven "first"]) ∧
    (finishWrite 700001 [7] "storage_manager"
      (run WriteBook.step (.init ⟨600, 300⟩ 0) handedOver).st).1.get? 7 = some .success ∧
    readSeven.call.Receives (run WriteBook.step (.init ⟨600, 300⟩ 0)
      (handedOver ++ [finishSeven "first"])).st 7 100 ∧
    ¬ (WriteBook.init ⟨600, 300⟩ 0).FinishedByOwner
      ((handedOver ++ [finishSeven "first"]) ++ [readSeven]) 7 100 := by
  refine ⟨handedOver_honest "first", by decide, by simp only [L1Call.Receives, readSeven]; decide, ?_⟩
  rintro ⟨before, d, after, tag, e, hsplit, hfin, hhead, -, -⟩
  match before with
  | [] | [_] | [_, _] | [_, _, _, _] =>
    cases hsplit
    exact hfin
  | [_, _, _] =>
    cases hsplit
    obtain ⟨rfl, -⟩ := hfin
    have hwriter : Option.map Prod.fst _ = some "first" := congrArg (Option.map Prod.fst) hhead
    revert hwriter
    decide
  | _ :: _ :: _ :: _ :: _ :: _ => simp [handedOver] at hsplit

end Runs

end LMCache.L1Manager
