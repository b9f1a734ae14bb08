/-
LMCache.StorageControllers.StoreAccounts — the read locks of the store
controller are those of its in-flight tasks.

What the controller has taken is the net amount over its calls: what
`reserve_read` granted it less what it gave back with `finish_read`. `Sound`
says that this amount is what the tasks of its table list, plus the locks just
taken and not recorded yet, and that the books of the L1 manager agree with it.
Every function of the loop keeps it; the tables of adapters change only where
the loop says so.
-/
import LMCache.StorageControllers.StoreController
import LMCache.L1Manager.LockAccounts
import Mathlib.Algebra.Order.BigOperators.Group.List

namespace LMCache.StorageControllers

open List Lib Native L1Manager Dict StoreWorld

variable {Key Obj Shape : Type} [DecidableEq Key] [DecidableEq Obj] [DecidableEq Shape]

/-! ## What the controller holds -/

lemma validateReadLocks_one : validateReadLocks 1 = 1 := by decide

/-- The call, if it is one on the L1 manager. -/
def StoreAct.seen : StoreAct Key Obj → Option (SeenCall Key Obj)
  | .l1 own found call => some ⟨found, own, call⟩
  | _ => none

variable {env : StoreEnvironment Key Obj} {w w' : StoreWorld Key Obj} {gain : Key → Int}

namespace StoreWorld

variable (w) in
/-- The calls on the L1 manager. -/
def calls : List (SeenCall Key Obj) := w.trace.filterMap StoreAct.seen

variable (w) in
/-- The holders of the read locks: `true` for the controller, once per lock. -/
def holders : Key → List Bool := lockHolders w.calls

variable (w) in
/-- While all calls are secure, the manager's books agree with the controller's
account. -/
def Booked : Prop := Secure w.calls → Books w.l1 w.calls

/-- The controller has taken `gain` more locks. -/
structure Trade (w w' : StoreWorld Key Obj) (gain : Key → Int) : Prop where
  longer : w.trace.length ≤ w'.trace.length
  net : ∀ key, netLocks w'.calls key = netLocks w.calls key + gain key
  booked : (∀ key, 0 ≤ netLocks w'.calls key) → Booked w → Booked w'

lemma Trade.refl (w : StoreWorld Key Obj) : Trade w w 0 := ⟨le_rfl, by simp, fun _ h => h⟩

omit [DecidableEq Obj] in
lemma calls_record {a : StoreAct Key Obj} (ha : a.seen = none) : (w.record a).calls = w.calls := by
  simp [calls, record, ha]

lemma trade_record {a : StoreAct Key Obj} (ha : a.seen = none) : Trade w (w.record a) 0 where
  longer := by simp [record]
  net key := by simp [calls_record ha]
  booked _ h := by
    rw [Booked, calls_record ha]
    exact h

lemma calls_onL1 (own : Bool) (call : L1Call Key Obj) :
    (w.onL1 own call).calls = w.calls ++ [⟨w.l1, own, call⟩] := by
  simp [calls, onL1, StoreAct.seen]

lemma trade_onL1 (own : Bool) (call : L1Call Key Obj) : Trade w (w.onL1 own call) fun key =>
    if own then (call.granted w.l1 key : Int) - givenBack key call.op else 0 where
  longer := by simp [onL1]
  net key := by simp [calls_onL1, netLocks]
  booked hnet h := by
    simp only [Booked, calls_onL1, Secure, along_append] at hnet h ⊢
    exact fun hsecure => (h hsecure.1).call hsecure.2.1 fun _ => hnet

variable (env w) in
/-- The calls of other threads take nothing for the controller. -/
lemma trade_interleave : Trade w (w.interleave env) 0 ∧ (Booked w → Booked (w.interleave env)) := by
  unfold interleave
  generalize env.others w.trace.length = calls
  induction calls generalizing w with
  | nil => exact ⟨.refl w, id⟩
  | cons call calls ih =>
    obtain ⟨hrest, hbooked⟩ := ih (w.onL1 false call)
    have hcall : Trade w (w.onL1 false call) _ := trade_onL1 false call
    have hthis : Booked w → Booked (w.onL1 false call) := by
      simp only [Booked, calls_onL1, Secure, along_append]
      exact fun h hsecure => (h hsecure.1).call hsecure.2.1 fun hown => absurd hown Bool.false_ne_true
    exact ⟨⟨hcall.longer.trans hrest.longer, fun key => (hrest.net key).trans (by
      simpa using hcall.net key), fun _ => hbooked ∘ hthis⟩, hbooked ∘ hthis⟩

lemma trade_callL1 (op : L1Op Key Obj) : Trade w (w.callL1 env op) fun key =>
    (L1Call.granted (w.interleave env).l1 ⟨w.time env, op⟩ key : Int) - givenBack key op := by
  obtain ⟨hothers, hbooked⟩ := trade_interleave env w
  have hcall : Trade (w.interleave env) (w.callL1 env op) _ := trade_onL1 true _
  refine ⟨hothers.longer.trans hcall.longer, fun key => ?_, fun hnet h => hcall.booked hnet (hbooked h)⟩
  simpa [hothers.net] using hcall.net key

lemma trade_finishRead (keys : List Key) :
    Trade w (w.callL1 env (.finishRead keys 1)) fun key => -(keys.count key : Int) := by
  have hcall : Trade w (w.callL1 env (.finishRead keys 1)) _ := trade_callL1 _
  simpa [L1Call.granted, givenBack, validateReadLocks_one] using hcall

lemma trade_reserveRead (keys : List Key) : Trade w (w.callL1 env (.reserveRead keys 1)) fun key =>
    if key ∈ (w.interleave env).l1.objects then (keys.count key : Int) else 0 := by
  have hcall : Trade w (w.callL1 env (.reserveRead keys 1)) _ := trade_callL1 _
  simpa [L1Call.granted, givenBack, validateReadLocks_one] using hcall

end StoreWorld

omit [DecidableEq Obj] in
/-- A key is submitted exactly if it is resident. -/
lemma successfulRead_spec (now : Int) (s : L1State Key Obj) {keys : List Key} {k : Key}
    (hk : k ∈ keys) :
    if k ∈ s.objects then ∃ o, successfulRead (reserveRead now keys 1 s).1 k = some (k, o)
    else successfulRead (reserveRead now keys 1 s).1 k = none := by
  unfold successfulRead
  rw [reserveRead_answer, if_pos hk]
  cases hget : s.objects.get? k with
  | none => simp [readAnswer, not_mem_iff_get?.mpr hget]
  | some e => simp [readAnswer, mem_iff_get?.mpr ⟨e, hget⟩]

omit [DecidableEq Obj] in
/-- The keys submitted are the occurrences of the target keys that are
resident. -/
lemma count_successfulReads (now : Int) (keys : List Key) (s : L1State Key Obj) (key : Key) :
    ((successfulReads (reserveRead now keys 1 s).1 keys).map Prod.fst).count key
      = if key ∈ s.objects then keys.count key else 0 := by
  suffices hloop : ∀ ks : List Key, (∀ k ∈ ks, k ∈ keys) →
      ((successfulReads (reserveRead now keys 1 s).1 ks).map Prod.fst).count key
        = if key ∈ s.objects then ks.count key else 0 from hloop keys fun _ h => h
  intro ks hks
  induction ks with
  | nil => simp [successfulReads]
  | cons k ks ih =>
    have hrest := ih fun j hj => hks j (mem_cons_of_mem _ hj)
    have hread := successfulRead_spec now s (hks k mem_cons_self)
    simp only [successfulReads, filterMap_cons] at hrest ⊢
    by_cases hres : k ∈ s.objects
    · rw [if_pos hres] at hread
      obtain ⟨o, ho⟩ := hread
      simp only [ho, map_cons, count_cons, hrest]
      by_cases hk : k = key
      · subst hk
        simp [hres]
      · simp [hk]
    · rw [if_neg hres] at hread
      simp only [hread, hrest]
      by_cases hk : k = key
      · subst hk
        simp [hres]
      · simp [hk]

/-! ## The invariant -/

variable {task : InFlightStoreTask Key}

namespace StoreController

/-- The read locks on the key that the tasks list. -/
def locksOf (tasks : List (InFlightStoreTask Key)) (key : Key) : Int :=
  (tasks.map fun task => (task.readLockedKeys.count key : Int)).sum

omit [DecidableEq Obj] in
lemma locksOf_nonneg (tasks : List (InFlightStoreTask Key)) (key : Key) : 0 ≤ locksOf tasks key := by
  refine sum_nonneg fun n hn => ?_
  obtain ⟨task, -, rfl⟩ := mem_map.mp hn
  exact Int.natCast_nonneg _

omit [DecidableEq Obj] in
lemma locksOf_perm {tasks tasks' : List (InFlightStoreTask Key)} (h : tasks.Perm tasks')
    (key : Key) : locksOf tasks key = locksOf tasks' key :=
  (h.map _).sum_eq

/-- What the table says of a task: it locked its keys, and was submitted to an
adapter of the table. -/
structure Recorded (env : StoreEnvironment Key Obj) (t : AdapterTable) (len : Nat)
    (taskKey : Nat × Nat) (task : InFlightStoreTask Key) : Prop where
  locked : task.readLockedKeys = task.keys
  issued : ∃ n < len, taskKey.2 = env.taskId taskKey.1 n
  attached : taskKey.1 ∈ t.l2Adapters

/-- The state inside the loop, with the table of adapters and the keys whose
locks were just taken and belong to no task yet. -/
structure Sound (env : StoreEnvironment Key Obj) (t : AdapterTable) (taken : List Key)
    (c : StoreController Key Obj) : Prop where
  adapters : c.adapters = t
  balance : ∀ key, netLocks c.world.calls key
    = locksOf c.inFlightTasks.values key + taken.count key
  booked : Booked c.world
  tasks : ∀ taskKey task, c.inFlightTasks.get? taskKey = some task →
    Recorded env t c.world.trace.length taskKey task

variable {shape : Key → Shape} {t t' : AdapterTable} {taken taken' : List Key}
  {c c' : StoreController Key Obj}

section

variable (h : Sound env t taken c)
include h

/-- The controller trades locks and records the tasks that have them. -/
lemma Sound.retask (hadapters : c'.adapters = t') (htrade : Trade c.world c'.world gain)
    (hgain : ∀ key, locksOf c'.inFlightTasks.values key + taken'.count key
      = locksOf c.inFlightTasks.values key + taken.count key + gain key)
    (htasks : ∀ taskKey task, c'.inFlightTasks.get? taskKey = some task →
      Recorded env t' c'.world.trace.length taskKey task) : Sound env t' taken' c' := by
  have hbalance : ∀ key, netLocks c'.world.calls key
      = locksOf c'.inFlightTasks.values key + taken'.count key := by
    intro key
    rw [htrade.net, h.balance, hgain]
  refine ⟨hadapters, hbalance, htrade.booked (fun key => ?_) h.booked, htasks⟩
  have hnonneg := locksOf_nonneg c'.inFlightTasks.values key
  rw [hbalance]
  omega

lemma Sound.recorded {len : Nat} (hlen : c.world.trace.length ≤ len) {taskKey : Nat × Nat}
    (hget : c.inFlightTasks.get? taskKey = some task) : Recorded env t len taskKey task := by
  obtain ⟨hlocked, ⟨n, hn, htask⟩, hattached⟩ := h.tasks taskKey task hget
  exact ⟨hlocked, ⟨n, Nat.lt_of_lt_of_le hn hlen, htask⟩, hattached⟩

lemma Sound.mono (htasks : c'.inFlightTasks = c.inFlightTasks) (hadapters : c'.adapters = t')
    (hattached : ∀ id, c.adapterInUse id → id ∈ t.l2Adapters → id ∈ t'.l2Adapters)
    (htrade : Trade c.world c'.world gain)
    (hgain : ∀ key, (taken'.count key : Int) = taken.count key + gain key) :
    Sound env t' taken' c' := by
  refine h.retask hadapters htrade (fun key => ?_) fun taskKey task hget => ?_
  · rw [htasks, hgain, add_assoc]
  · rw [htasks] at hget
    have htask := h.recorded htrade.longer hget
    refine ⟨htask.locked, htask.issued, hattached _ ?_ htask.attached⟩
    exact any_eq_true.mpr ⟨taskKey, mem_iff_get?.mpr ⟨task, hget⟩, decide_eq_true rfl⟩

/-- A call on the L1 manager or on an adapter. -/
lemma Sound.call (htasks : c'.inFlightTasks = c.inFlightTasks)
    (hadapters : c'.adapters = c.adapters) (htrade : Trade c.world c'.world gain)
    (hgain : ∀ key, (taken'.count key : Int) = taken.count key + gain key) :
    Sound env t taken' c' :=
  h.mono htasks (hadapters.trans h.adapters) (fun _ _ hid => hid) htrade hgain

/-- A change to fields that say nothing of locks. -/
lemma Sound.same (htasks : c'.inFlightTasks = c.inFlightTasks)
    (hadapters : c'.adapters = c.adapters) (hworld : c'.world = c.world) : Sound env t taken c' := by
  have htrade : Trade c.world c'.world 0 := by
    rw [hworld]
    exact .refl _
  exact h.call htasks hadapters htrade (by simp)

/-- A task takes over the locks just taken. -/
lemma Sound.add {adapter n : Nat} (hadapter : adapter ∈ t.l2Adapters)
    (hn : c.world.trace.length ≤ n) (hlen : n < w.trace.length) (htrade : Trade c.world w 0) :
    Sound env t [] { c with
      world := w
      inFlightTasks := c.inFlightTasks.set (adapter, env.taskId adapter n)
        ⟨adapter, taken, taken, none⟩ } := by
  have hnew : c.inFlightTasks.get? (adapter, env.taskId adapter n) = none := by
    refine Option.eq_none_iff_forall_ne_some.mpr fun task hget => ?_
    obtain ⟨k, hk, htask⟩ := (h.tasks _ _ hget).issued
    exact absurd (env.taskId_inj adapter htask) (by omega)
  refine h.retask h.adapters htrade (fun key => ?_) fun taskKey task hget => ?_
  · have hperm := locksOf_perm (values_set_new ⟨adapter, taken, taken, none⟩ hnew) key
    simp only [locksOf, map_cons, sum_cons, count_nil, Pi.zero_apply] at hperm ⊢
    omega
  · obtain ⟨rfl, rfl⟩ | ⟨-, hget⟩ := get?_set_cases hget
    · exact ⟨rfl, ⟨n, hlen, rfl⟩, hadapter⟩
    · exact h.recorded htrade.longer hget

end

lemma sound_submitStoreTask {adapter : Nat} {reads : List (Key × Obj)}
    (h : Sound env t (reads.map Prod.fst) c) (hadapter : adapter ∈ t.l2Adapters) :
    Sound env t [] (c.submitStoreTask env adapter reads) := by
  unfold submitStoreTask
  dsimp only
  split
  · exact h.add hadapter le_rfl (by simp [record]) (trade_record rfl)
  · have hrefused : Sound env t (reads.map Prod.fst) { c with
        world := c.world.record (.submitStore adapter none (reads.map Prod.fst) (reads.map Prod.snd)) } :=
      h.call rfl rfl (trade_record rfl) (by simp)
    exact hrefused.call rfl rfl (trade_finishRead _) (by simp)

section

variable (h : Sound env t [] c)
include h

lemma Sound.finish {taskKey : Nat × Nat}
    (hget : c.inFlightTasks.get? taskKey = some task)
    (htrade : Trade c.world w fun key => -(task.readLockedKeys.count key : Int)) :
    Sound env t [] { c with world := w, inFlightTasks := c.inFlightTasks.erase taskKey } := by
  refine h.retask h.adapters htrade (fun key => ?_) fun k other hother => ?_
  · have hperm := locksOf_perm (values_erase hget) key
    simp only [locksOf, map_cons, sum_cons] at hperm ⊢
    omega
  · exact h.recorded htrade.longer (get?_of_erase hother).2

lemma Sound.deposit {taskKey : Nat × Nat}
    (hget : c.inFlightTasks.get? taskKey = some task) (result : Option Bool) :
    Sound env t [] { c with
      inFlightTasks := c.inFlightTasks.set taskKey { task with l2StoreResult := result } } := by
  refine h.retask h.adapters (.refl _) (fun key => ?_) fun k other hother => ?_
  · have hold := locksOf_perm (values_erase hget) key
    have hnew := locksOf_perm
      (values_set c.inFlightTasks taskKey { task with l2StoreResult := result }) key
    simp only [locksOf, map_cons, sum_cons, Pi.zero_apply] at hold hnew ⊢
    omega
  · obtain ⟨rfl, rfl⟩ | ⟨-, hother⟩ := get?_set_cases hother
    · exact { h.tasks k task hget with }
    · exact h.tasks k other hother

/-! ## New keys -/

lemma sound_storeToAdapter (item : Nat × List Key) :
    Sound env t [] (c.storeToAdapter env item) := by
  obtain ⟨adapter, keys⟩ := item
  simp only [storeToAdapter]
  split
  · exact h
  · rename_i hgo
    have hadapter : adapter ∈ t.l2Adapters := by
      rw [h.adapters] at hgo
      simp only [Bool.or_eq_true, decide_eq_true_eq, not_or, not_not] at hgo
      exact hgo.2
    have htaken : Sound env t ((successfulReads (reserveRead (c.world.time env) keys 1
        (c.world.interleave env).l1).1 keys).map Prod.fst)
        { c with world := c.world.callL1 env (.reserveRead keys 1) } := by
      refine h.call rfl rfl (trade_reserveRead keys) fun key => ?_
      rw [count_successfulReads]
      split <;> simp
    split
    · rename_i hempty
      rw [isEmpty_iff.mp hempty] at htaken
      exact htaken
    · exact sound_submitStoreTask htaken hadapter

lemma sound_submitStores (groups : List (List Key)) :
    Sound env t [] (submitStores env groups c) := by
  induction groups generalizing c with
  | nil => exact h
  | cons group groups ih =>
    have hgroup : Sound env t [] (c.submitStoreForSingleShape env group).1 := by
      unfold submitStoreForSingleShape
      dsimp only
      split
      · exact h
      · rename_i plan _
        exact foldlRecOn plan.entries (storeToAdapter env) h fun _ hc item _ =>
          sound_storeToAdapter hc item
    unfold submitStores
    dsimp only
    split
    · exact hgroup
    · exact ih hgroup

lemma sound_processPendingKeys :
    Sound env t [] (c.processPendingKeys env shape) := by
  unfold processPendingKeys
  split
  · exact h
  · refine sound_submitStores ?_ _
    exact h.same rfl rfl rfl

/-! ## Completions -/

lemma sound_drainL2StoreCompletions (signaled : List Nat) :
    Sound env t [] (drainL2StoreCompletions env signaled c) := by
  induction signaled generalizing c with
  | nil => exact h
  | cons adapter rest ih =>
    have hpopped : Sound env t [] { c with world := c.world.record (.popCompleted adapter) } :=
      h.call rfl rfl (trade_record rfl) (by simp)
    unfold drainL2StoreCompletions
    dsimp only
    split
    · exact hpopped
    · rename_i results _
      refine ih (foldlRecOn results (depositResult adapter) hpopped fun c hc result _ => ?_)
      unfold depositResult
      split
      · exact hc
      · rename_i task hget
        exact hc.deposit hget _

lemma sound_deleteFromL1 (keys : List Key) :
    Sound env t [] (c.deleteFromL1 env keys) :=
  h.call rfl rfl (trade_callL1 _) (by simp [L1Call.granted, givenBack])

lemma sound_advanceRequest (taskKey : Nat × Nat) :
    Sound env t [] (c.advanceRequest env taskKey) := by
  unfold advanceRequest
  split
  · exact h
  · rename_i task hget
    split
    · exact h
    · have hfinished : Sound env t [] { c with
          world := c.world.callL1 env (.finishRead task.readLockedKeys 1)
          inFlightTasks := c.inFlightTasks.erase taskKey } :=
        h.finish hget (trade_finishRead _)
      unfold finalizeStore
      dsimp only
      split
      · split
        · exact hfinished
        · split
          · exact hfinished
          · exact sound_deleteFromL1 hfinished _
      · exact hfinished

lemma sound_handleCompletions (signaled : List Nat) :
    Sound env t [] (c.handleCompletions env signaled) := by
  unfold handleCompletions
  dsimp only
  split
  · exact h
  · have hdrained := sound_drainL2StoreCompletions h
      (signaled.filter fun id => decide (id ∈ c.adapters.l2Adapters))
    exact foldlRecOn _ (advanceRequest env) hdrained fun _ hc taskKey _ =>
      sound_advanceRequest hc taskKey

lemma sound_retryDeferredL1Deletions :
    Sound env t [] (c.retryDeferredL1Deletions env) := by
  unfold retryDeferredL1Deletions
  split
  · exact h
  · dsimp only
    split
    · exact h
    · refine sound_deleteFromL1 ?_ _
      exact h.same rfl rfl rfl

end

/-! ## Runs -/

variable (shape) in
/-- The top of an iteration, up to the new keys. -/
lemma sound_takeKeys (keysReady : Bool) (h : Sound env c.adapters [] c) :
    Sound env c.adapters.applyPendingAdapterOps []
      (if keysReady then ({ c with adapters := c.adapters.applyPendingAdapterOps } :
        StoreController Key Obj).processPendingKeys env shape
      else { c with adapters := c.adapters.applyPendingAdapterOps }) := by
  have happlied : Sound env c.adapters.applyPendingAdapterOps []
      { c with adapters := c.adapters.applyPendingAdapterOps } :=
    h.mono rfl rfl (fun _ _ hid => AdapterTable.mem_applyPendingAdapterOps hid) (.refl _) (by simp)
  split
  · exact sound_processPendingKeys happlied
  · exact happlied

lemma sound_iterate (keysReady : Bool) (signaled : List Nat) (h : Sound env c.adapters [] c) :
    Sound env (c.iterate env shape keysReady signaled).adapters []
      (c.iterate env shape keysReady signaled) := by
  unfold iterate
  split
  · exact h
  dsimp only
  have hcompleted := sound_handleCompletions (sound_takeKeys shape keysReady h) signaled
  generalize handleCompletions env _ signaled = c at hcompleted
  have hfinal : Sound env (c.adapters.finalizeDrainedAdapters c.adapterInUse) []
      c.finalizeDrained :=
    hcompleted.mono rfl rfl (fun id hused hid => by
      rw [hcompleted.adapters]
      exact AdapterTable.mem_finalizeDrainedAdapters hid hused) (.refl _) (by simp)
  have hretried := sound_retryDeferredL1Deletions hfinal
  rw [hretried.adapters]
  exact hretried

lemma sound_stop (h : Sound env c.adapters [] c) :
    Sound env (c.stop env).adapters [] (c.stop env) := by
  -- the locks of the tasks still to release are what the controller has
  suffices hloop : ∀ (tasks : List (InFlightStoreTask Key)) (w : StoreWorld Key Obj),
      (∀ key, netLocks w.calls key = locksOf tasks key) → Booked w →
      (∀ key, netLocks (tasks.foldl (fun w task => w.callL1 env (.finishRead task.readLockedKeys 1))
        w).calls key = 0) ∧
      Booked (tasks.foldl (fun w task => w.callL1 env (.finishRead task.readLockedKeys 1)) w) by
    obtain ⟨hnone, hbooked⟩ := hloop c.inFlightTasks.values c.world
      (fun key => by simpa using h.balance key) h.booked
    exact ⟨rfl, fun key => by simpa [stop, locksOf] using hnone key, hbooked, by simp [stop]⟩
  intro tasks
  induction tasks with
  | nil => exact fun w hnet hbooked => ⟨hnet, hbooked⟩
  | cons task tasks ih =>
    intro w hnet hbooked
    have htrade : Trade w (w.callL1 env (.finishRead task.readLockedKeys 1)) _ := trade_finishRead _
    have hrest : ∀ key, netLocks (w.callL1 env (.finishRead task.readLockedKeys 1)).calls key
        = locksOf tasks key := by
      intro key
      rw [htrade.net, hnet, locksOf, map_cons, sum_cons, ← locksOf]
      omega
    exact ih _ hrest (htrade.booked (fun key => hrest key ▸ locksOf_nonneg tasks key) hbooked)

lemma sound_step (h : Sound env c.adapters [] c) (e : Event Key) :
    Sound env (c.step env shape e).adapters [] (c.step env shape e) := by
  cases e with
  | writeFinished keys => exact h.same rfl rfl rfl
  | adapterOp op => exact h.mono rfl rfl (fun _ _ hid => hid) (.refl _) (by simp)
  | iterate keysReady signaled => exact sound_iterate keysReady signaled h
  | stop => exact sound_stop h

variable (env) in
lemma sound_run (shape : Key → Shape) (l2Adapters : List Nat) (hnodup : l2Adapters.Nodup)
    (config : L1ManagerConfig) (events : List (Event Key)) :
    Sound env (run (step env shape) (init l2Adapters hnodup config) events).adapters []
      (run (step env shape) (init l2Adapters hnodup config) events) := by
  refine run_always (fun c : StoreController Key Obj => Sound env c.adapters [] c)
    (fun c e h => sound_step h e) ⟨rfl, fun key => rfl, fun _ => books_nil config, ?_⟩ events
  simp [init]

variable (env shape) in
/-- A stopped controller has no task, whatever happens next. -/
lemma inFlightTasks_of_stop (start : StoreController Key Obj) {events : List (Event Key)}
    (h : .stop ∈ events) : (run (step env shape) start events).inFlightTasks = ∅ := by
  obtain ⟨before, after, rfl⟩ := append_of_mem h
  have hstep : ∀ (c : StoreController Key Obj) (e : Event Key),
      c.stopped ∧ c.inFlightTasks = ∅ →
      (c.step env shape e).stopped ∧ (c.step env shape e).inFlightTasks = ∅ := by
    intro c e hc
    cases e with
    | writeFinished keys => exact hc
    | adapterOp op => exact hc
    | iterate keysReady signaled =>
      show (c.iterate env shape keysReady signaled).stopped ∧
        (c.iterate env shape keysReady signaled).inFlightTasks = ∅
      rw [iterate, if_pos hc.1]
      exact hc
    | stop => exact ⟨rfl, rfl⟩
  rw [run_append]
  exact (run_always _ hstep ⟨rfl, rfl⟩ after).2

omit [DecidableEq Obj] in
lemma sum_count_of_nodup {tasks : List (InFlightStoreTask Key)} {key : Key}
    (h : ∀ task ∈ tasks, task.keys.Nodup) : (tasks.map fun task => task.keys.count key).sum
      = tasks.countP fun task => decide (key ∈ task.keys) := by
  induction tasks with
  | nil => rfl
  | cons task tasks ih =>
    have hrest := ih fun other hother => h other (mem_cons_of_mem _ hother)
    rw [map_cons, sum_cons, hrest, countP_cons, (h task mem_cons_self).count]
    simp only [decide_eq_true_eq]
    omega

/-- The L1 manager counts the holders of its locks, and the controller holds
the lock of the key once per occurrence in its in-flight tasks, hence once per
task that contains it if no task lists a key twice. -/
structure Balanced (c : StoreController Key Obj) (key : Key) : Prop where
  ledger : LedgerOk ⟨c.world.l1, c.world.holders⟩
  occurrences : (c.world.holders key).count true
    = (c.inFlightTasks.values.map fun task => task.keys.count key).sum
  tasks : (∀ task ∈ c.inFlightTasks.values, task.keys.Nodup) → (c.world.holders key).count true
    = c.inFlightTasks.values.countP fun task => decide (key ∈ task.keys)

/-- In every state of a run in which all calls were secure the controller's read
locks are those of its in-flight tasks; after a stop there are none. -/
theorem holds_eq_occurrences (env : StoreEnvironment Key Obj) (shape : Key → Shape)
    (l2Adapters : List Nat) (hnodup : l2Adapters.Nodup) (config : L1ManagerConfig)
    (events : List (Event Key)) (key : Key)
    (hsecure : Secure (run (step env shape) (init l2Adapters hnodup config) events).world.calls) :
    Balanced (run (step env shape) (init l2Adapters hnodup config) events) key ∧
      (.stop ∈ events → ((run (step env shape) (init l2Adapters hnodup config :
        StoreController Key Obj) events).world.holders key).count true = 0) := by
  have hsound := sound_run env shape l2Adapters hnodup config events
  have hstopped : .stop ∈ events → (run (step env shape) (init l2Adapters hnodup config :
      StoreController Key Obj) events).inFlightTasks = ∅ := inFlightTasks_of_stop env shape _
  generalize run (step env shape) (init l2Adapters hnodup config) events = c
    at hsound hstopped hsecure
  have hbooks := hsound.booked hsecure
  have hoccurrences : (c.world.holders key).count true
      = (c.inFlightTasks.values.map fun task => task.keys.count key).sum := by
    have hlocked : c.inFlightTasks.values.map (fun task => (task.readLockedKeys.count key : Int))
        = (c.inFlightTasks.values.map fun task => task.keys.count key).map Nat.cast := by
      rw [map_map]
      refine map_congr_left fun task htask => ?_
      obtain ⟨taskKey, hget⟩ := mem_values.mp htask
      rw [(hsound.tasks taskKey task hget).locked]
      rfl
    have hbalance := (hbooks.own key).trans (hsound.balance key)
    rw [locksOf, hlocked, ← Nat.cast_list_sum] at hbalance
    simpa [holders] using Int.natCast_inj.mp hbalance
  refine ⟨⟨hbooks.ledger, hoccurrences, fun hdistinct => ?_⟩, fun hstop => ?_⟩
  · rw [hoccurrences, sum_count_of_nodup hdistinct]
  · rw [hoccurrences, hstopped hstop]
    rfl

/-- `DefaultStorePolicy.select_store_targets`: every key to every adapter. -/
def defaultTargets (keys : List Key) (routing : List Nat) : Dict Nat (List Key) :=
  routing.foldl (fun plan id => plan.set id keys) ∅

/-- Key `7` is written before the first call; every submission succeeds. -/
def sevenWritten : StoreEnvironment Nat Nat where
  others n := if n = 0 then
    [⟨0, .reserveWrite [7] [false] "w" ⟨.success, [(100, 8)]⟩⟩, ⟨0, .finishWrite [7] "w"⟩] else []
  clock n := n
  submits _ := true
  taskId _ n := n
  taskId_inj _ _ _ h := h
  popCompleted _ := some []
  monotonic _ := 0
  selectStoreTargets _ keys routing := some (defaultTargets keys routing)
  selectL1Deletions _ _ := some []

lemma nodup_five_six : [5, 6].Nodup := by decide

/-- Other threads make the calls `late` after the first submission. -/
def sevenShared (late : List (L1Call Nat Nat)) : StoreEnvironment Nat Nat :=
  { sevenWritten with others := fun n => if n = 4 then late else sevenWritten.others n }

/-- The controller with adapters `5` and `6` after one iteration. -/
def storeSeven (late : List (L1Call Nat Nat)) (writes : List (Event Nat)) : StoreController Nat Nat :=
  run (step (sevenShared late) fun _ => ()) (init [5, 6] nodup_five_six ⟨600, 300⟩)
    (writes ++ [.iterate true []])

/-- One write, two adapters and another reader: the lock is held twice for the
controller's two tasks and once for the reader. -/
theorem storeSeven_once :
    Balanced (storeSeven [⟨4, .reserveRead [7] 1⟩] [.writeFinished [7]]) 7 ∧
    (storeSeven [⟨4, .reserveRead [7] 1⟩] [.writeFinished [7]]).world.holders 7 =
      [true, false, true] := by
  have h := holds_eq_occurrences (sevenShared [⟨4, .reserveRead [7] 1⟩]) (fun _ => ()) [5, 6]
    nodup_five_six ⟨600, 300⟩ ([.writeFinished [7]] ++ [.iterate true []]) 7
    (secure_of_calm (by decide))
  exact ⟨h.1, by decide⟩

/-- The number of in-flight tasks with key `7`, and the counter of its lock. -/
def tasksAndCounter (c : StoreController Nat Nat) : Nat × Option Int :=
  (c.inFlightTasks.values.countP fun task => decide (7 ∈ task.keys),
    (c.world.l1.objects.get? 7).map fun e => e.readLock.counter)

/-- A key written twice before the loop runs is twice in each task. And where
another thread releases a lock that is not its own, or forces the key out, tasks
are in flight without a lock. -/
theorem storeSeven_twice :
    Secure (storeSeven [] [.writeFinished [7], .writeFinished [7]]).world.calls ∧
    tasksAndCounter (storeSeven [] [.writeFinished [7], .writeFinished [7]]) = (2, some 4) ∧
    tasksAndCounter (storeSeven [⟨4, .finishRead [7] 1⟩] [.writeFinished [7]]) = (2, some 1) ∧
    tasksAndCounter (storeSeven [⟨4, .delete [7] true⟩] [.writeFinished [7]]) = (1, none) :=
  ⟨secure_of_calm (by decide), by decide, by decide, by decide⟩

end StoreController

end LMCache.StorageControllers
