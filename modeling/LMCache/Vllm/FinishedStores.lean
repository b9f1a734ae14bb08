/-
LMCache.Vllm.FinishedStores — which requests have finished sending.

The engine frees the blocks of a finished request once the worker adapter
reports it as sent. The adapter keeps one future per request id and three
sets of ids: stores that ended, requests the engine finished before their
store ended, and requests already reported. The server is healthy and the
offload is not lazy; a store that failed has ended.

An id is reported at most once, only after the engine finished it, and at the
latest by the call that finds all its stores ended (`Tracked`). That none of
its stores is still running when it is reported rests on a discipline of the
submitter: a second store of a request overwrites the future of the first,
and an end that was collected stays in the set of ended stores while the next
store runs.
-/
import LMCache.Lib.Dict
import LMCache.Lib.Run

namespace LMCache.Vllm

open Lib Dict

variable {ρ : Type} [DecidableEq ρ]

/-! ## The adapter -/

/-- The worker adapter's record of its stores. A future is named by the number
of its store. -/
structure WorkerAdapter (ρ : Type) where
  isKvWriter : Bool
  storeFutures : Dict ρ Nat
  finishedStores : Finset ρ
  previouslyFinished : Finset ρ
  returnedFinished : Finset ρ

def WorkerAdapter.new (isKvWriter : Bool) : WorkerAdapter ρ := ⟨isKvWriter, ∅, ∅, ∅, ∅⟩

/-- `submit_store_request`: the adapter, and whether a store was sent to the
server. -/
def submitStoreRequest (future : Nat) (request : ρ) (a : WorkerAdapter ρ) : WorkerAdapter ρ × Bool :=
  if a.isKvWriter then ({ a with storeFutures := a.storeFutures.set request future }, true)
  else (a, false)

/-- `_update_and_get_finished_store`. -/
def updateAndGetFinishedStore (a : WorkerAdapter ρ) : WorkerAdapter ρ × Finset ρ :=
  let safe := a.finishedStores ∩ a.previouslyFinished
  ({ a with
      finishedStores := a.finishedStores \ a.previouslyFinished
      previouslyFinished := a.previouslyFinished \ safe }, safe)

/-- `_process_finished_stores`. -/
def processFinishedStores (fromLmcache fromEngine : Finset ρ) (a : WorkerAdapter ρ) :
    WorkerAdapter ρ × Finset ρ :=
  let a := { a with finishedStores := a.finishedStores ∪ fromLmcache }
  let fresh := fromEngine \ a.returnedFinished
  let known := fun request => decide (request ∈ a.finishedStores ∨ request ∈ a.storeFutures)
  let (a, safe) := updateAndGetFinishedStore
    { a with previouslyFinished := a.previouslyFinished ∪ fresh.filter (known ·) }
  let retStores := fresh.filter (fun request => !known request) ∪ safe
  ({ a with returnedFinished := a.returnedFinished ∪ retStores }, retStores)

/-- The requests whose future is done. -/
def endedStores (done : Nat → Bool) (a : WorkerAdapter ρ) : List ρ :=
  (a.storeFutures.entries.filter fun entry => done entry.2).map Prod.fst

/-- `get_finished`, when `done` tells the futures that are done: the finished
store requests. -/
def getFinished (done : Nat → Bool) (fromEngine : Finset ρ) (a : WorkerAdapter ρ) :
    WorkerAdapter ρ × Finset ρ :=
  let finishedStores := endedStores done a
  processFinishedStores finishedStores.toFinset fromEngine
    { a with storeFutures := finishedStores.foldl erase a.storeFutures }

/-! ## Histories -/

/-- The adapter with its server and its engine: the request of every store in
the order they were submitted, the stores that have ended, the requests the
engine has finished, and the reports so far. -/
structure Worker (ρ : Type) where
  adapter : WorkerAdapter ρ
  stores : List ρ
  ended : Finset Nat
  engineFinished : Finset ρ
  reports : List (Finset ρ)

def Worker.new (isKvWriter : Bool) : Worker ρ := ⟨.new isKvWriter, [], ∅, ∅, []⟩

inductive StoreEvent (ρ : Type) where
  | submit (request : ρ)
  | complete (store : Nat)
  | getFinished (fromEngine : Finset ρ)

section

variable (w : Worker ρ) (fromEngine : Finset ρ)

/-- The finished ids a call returns. -/
def Worker.finished : Finset ρ :=
  (getFinished (fun store => decide (store ∈ w.ended)) fromEngine w.adapter).2

def Worker.step : StoreEvent ρ → Worker ρ
  | .submit request =>
    match submitStoreRequest w.stores.length request w.adapter with
    | (adapter, true) => { w with adapter, stores := w.stores ++ [request] }
    | (adapter, false) => { w with adapter }
  | .complete store =>
    if store < w.stores.length then { w with ended := insert store w.ended } else w
  | .getFinished fromEngine =>
    { w with
      adapter := (getFinished (fun store => decide (store ∈ w.ended)) fromEngine w.adapter).1
      engineFinished := w.engineFinished ∪ fromEngine
      reports := w.reports ++ [w.finished fromEngine] }

/-- A store of the request has not ended. -/
def Worker.InFlight (request : ρ) : Prop :=
  ∃ store, w.stores[store]? = some request ∧ store ∉ w.ended

/-- What a call must do: report an id only once, only if the engine has
finished it and none of its stores is in flight, and report every finished id
that has no store in flight. -/
structure Worker.Honest : Prop where
  once : ∀ report ∈ w.reports, Disjoint report (w.finished fromEngine)
  engineFirst : w.finished fromEngine ⊆ w.engineFinished ∪ fromEngine
  notInFlight : ∀ request ∈ w.finished fromEngine, ¬ w.InFlight request
  complete : ∀ request ∈ w.engineFinished ∪ fromEngine, ¬ w.InFlight request →
    request ∈ w.finished fromEngine ∨ ∃ report ∈ w.reports, request ∈ report

/-- Every call of the history does what it must. -/
def Worker.HonestStep : StoreEvent ρ → Prop
  | .getFinished fromEngine => w.Honest fromEngine
  | _ => True

/-- A store is submitted only for a request that was reported already, or has
no store in flight and no end waiting to be reported. -/
def Worker.OneStore : StoreEvent ρ → Prop
  | .submit request => w.adapter.isKvWriter → (∃ report ∈ w.reports, request ∈ report) ∨
      ¬ w.InFlight request ∧ request ∉ w.adapter.finishedStores
  | _ => True

end

/-! ## One call -/

section Call

variable {done : Nat → Bool} {fromEngine : Finset ρ} {a : WorkerAdapter ρ} {request : ρ}

lemma mem_endedStores :
    request ∈ endedStores done a ↔ ∃ store, a.storeFutures.get? request = some store ∧ done store := by
  simp [endedStores, mem_entries]

lemma getFinished_storeFutures : (getFinished done fromEngine a).1.storeFutures
      = (endedStores done a).foldl erase a.storeFutures := by rfl

lemma getFinished_returnedFinished : (getFinished done fromEngine a).1.returnedFinished
      = a.returnedFinished ∪ (getFinished done fromEngine a).2 := by rfl

/-- A request waits for its store: it was not reported and its store has not
been collected. -/
def Waiting (a : WorkerAdapter ρ) : Prop :=
  ∀ request ∈ a.previouslyFinished, request ∉ a.returnedFinished ∧ request ∈ a.storeFutures

/-- A call reports what the engine finished and the store of which, if any,
has ended. The other engine-finished requests wait. -/
lemma mem_getFinished (hwait : Waiting a) : (request ∈ (getFinished done fromEngine a).2 ↔
      request ∉ a.returnedFinished ∧ (request ∈ fromEngine ∨ request ∈ a.previouslyFinished) ∧
      (request ∈ a.finishedStores ∨ request ∈ endedStores done a ∨ request ∉ a.storeFutures)) ∧
    (request ∈ (getFinished done fromEngine a).1.previouslyFinished ↔
      request ∉ a.returnedFinished ∧ (request ∈ fromEngine ∨ request ∈ a.previouslyFinished) ∧
      ¬ (request ∈ a.finishedStores ∨ request ∈ endedStores done a ∨ request ∉ a.storeFutures)) := by
  have hprev := hwait request
  simp only [getFinished, processFinishedStores, updateAndGetFinishedStore, Finset.mem_union,
    Finset.mem_inter, Finset.mem_sdiff, List.mem_toFinset, mem_foldl_erase]
  grind

/-- An end that was collected waits for the engine. -/
lemma mem_finishedStores (h : request ∈ (getFinished done fromEngine a).1.finishedStores) :
    request ∈ a.finishedStores ∨ request ∈ endedStores done a := by
  simp only [getFinished, processFinishedStores, updateAndGetFinishedStore, Finset.mem_union,
    Finset.mem_sdiff, List.mem_toFinset] at h
  exact h.1

end Call

/-! ## The invariant -/

namespace Worker

/-- What holds in every history. A request the engine finished was reported or
waits for its store. -/
structure Tracked (w : Worker ρ) : Prop where
  futures : ∀ request store, w.adapter.storeFutures.get? request = some store →
    w.stores[store]? = some request
  ended : ∀ store ∈ w.ended, store < w.stores.length
  waiting : Waiting w.adapter
  engine : ∀ request, request ∈ w.engineFinished ↔
    request ∈ w.adapter.returnedFinished ∨ request ∈ w.adapter.previouslyFinished
  returned : ∀ request, request ∈ w.adapter.returnedFinished ↔
    ∃ report ∈ w.reports, request ∈ report

/-- What the submitter's discipline adds: a store in flight is the one the
adapter knows of, and no earlier end is kept for its request. -/
def Single (w : Worker ρ) : Prop :=
  ∀ request store, request ∉ w.adapter.returnedFinished → w.stores[store]? = some request →
    store ∉ w.ended → w.adapter.storeFutures.get? request = some store ∧
      request ∉ w.adapter.finishedStores

lemma tracked_new (isKvWriter : Bool) : (Worker.new isKvWriter : Worker ρ).Tracked := by
  constructor <;> simp [Worker.new, WorkerAdapter.new, Waiting]

variable {w : Worker ρ} {fromEngine : Finset ρ} {request : ρ}

section

variable (h : w.Tracked)
include h

lemma mem_finished : request ∈ w.finished fromEngine ↔
      request ∉ w.adapter.returnedFinished ∧ request ∈ w.engineFinished ∪ fromEngine ∧
      (request ∈ w.adapter.finishedStores ∨
      request ∈ endedStores (fun store => decide (store ∈ w.ended)) w.adapter ∨
      request ∉ w.adapter.storeFutures) := by
  rw [finished, (mem_getFinished h.waiting).1, Finset.mem_union, h.engine]
  grind

/-- The future of a request with no store in flight is done. -/
lemma Tracked.settled (hidle : ¬ w.InFlight request) :
    request ∈ endedStores (fun store => decide (store ∈ w.ended)) w.adapter ∨
      request ∉ w.adapter.storeFutures := by
  rw [mem_endedStores, not_mem_iff_get?]
  cases hfuture : w.adapter.storeFutures.get? request with
  | none => exact .inr rfl
  | some store =>
    have hended : store ∈ w.ended := by
      by_contra hrunning
      exact hidle ⟨store, h.futures request store hfuture, hrunning⟩
    exact .inl ⟨store, rfl, by simpa using hended⟩

omit h in
/-- A request that is reported has no store in flight, under the
discipline. -/
lemma Single.notInFlight (hsingle : w.Single) (h : w.Tracked)
    (hmem : request ∈ w.finished fromEngine) : ¬ w.InFlight request := by
  obtain ⟨hnew, -, hends⟩ := (mem_finished h).mp hmem
  rintro ⟨store, hstore, hrunning⟩
  obtain ⟨hfuture, hfinished⟩ := hsingle request store hnew hstore hrunning
  rcases hends with hends | hends | hends
  · exact hfinished hends
  · obtain ⟨store', hfuture', hdone⟩ := mem_endedStores.mp hends
    rw [hfuture, Option.some.injEq] at hfuture'
    exact hrunning (by simpa [hfuture'] using hdone)
  · exact hends (mem_iff_get?.mpr ⟨store, hfuture⟩)

/-- What a call must do, it does under the discipline. -/
lemma Tracked.honest (hsingle : w.Single) : w.Honest fromEngine where
  once := by
    intro report hreport
    rw [Finset.disjoint_left]
    intro request hmem hagain
    exact ((mem_finished h).mp hagain).1 ((h.returned request).mpr ⟨report, hreport, hmem⟩)
  engineFirst := fun request hmem => ((mem_finished h).mp hmem).2.1
  notInFlight := fun request hmem => hsingle.notInFlight h hmem
  complete := by
    intro request hengine hidle
    by_cases hold : request ∈ w.adapter.returnedFinished
    · exact .inr ((h.returned request).mp hold)
    · exact .inl ((mem_finished h).mpr ⟨hold, hengine, .inr (h.settled hidle)⟩)

/-! ## Steps -/

lemma Tracked.step_submit : (w.step (.submit request)).Tracked := by
  cases hwriter : w.adapter.isKvWriter with
  | false => simpa [step, submitStoreRequest, hwriter] using h
  | true =>
    simp only [step, submitStoreRequest, hwriter, if_true]
    constructor
    · intro other store hfuture
      simp only [get?_set] at hfuture
      split_ifs at hfuture with hother
      · obtain rfl := Option.some.inj hfuture
        simp [hother]
      · have hstore := h.futures other store hfuture
        have hlt := (List.getElem?_eq_some_iff.mp hstore).1
        simpa [List.getElem?_append_left hlt] using hstore
    · intro store hstore
      simpa using Nat.lt_succ_of_lt (h.ended store hstore)
    · intro other hother
      obtain ⟨hnew, hmem⟩ := h.waiting other hother
      exact ⟨hnew, mem_set.mpr (.inr hmem)⟩
    · exact h.engine
    · exact h.returned

lemma Tracked.step_complete {store : Nat} : (w.step (.complete store)).Tracked := by
  simp only [step]
  split_ifs with hlt
  · constructor
    · exact h.futures
    · intro other hother
      rcases Finset.mem_insert.mp hother with rfl | hother
      · exact hlt
      · exact h.ended other hother
    · exact h.waiting
    · exact h.engine
    · exact h.returned
  · exact h

lemma Tracked.step_getFinished : (w.step (.getFinished fromEngine)).Tracked := by
  constructor
  · intro request store hfuture
    refine h.futures request store ?_
    rw [← mem_entries] at hfuture ⊢
    simp only [step, getFinished_storeFutures, entries_foldl_erase] at hfuture
    exact List.mem_of_mem_filter hfuture
  · exact h.ended
  · intro request hmem
    have hprev := (mem_getFinished h.waiting).2.mp hmem
    simp only [step, getFinished_returnedFinished, getFinished_storeFutures, Finset.mem_union,
      mem_foldl_erase, (mem_getFinished h.waiting).1]
    grind
  · intro request
    have hengine := h.engine request
    simp only [step, getFinished_returnedFinished, Finset.mem_union, (mem_getFinished h.waiting).1,
      (mem_getFinished h.waiting).2]
    grind
  · intro request
    simp only [step, getFinished_returnedFinished, Finset.mem_union, h.returned, List.mem_append,
      List.mem_singleton, or_and_right, exists_or, exists_eq_left, finished]

lemma Tracked.step (event : StoreEvent ρ) : (w.step event).Tracked := by
  cases event with
  | submit request => exact h.step_submit
  | complete store => exact h.step_complete
  | getFinished fromEngine => exact h.step_getFinished

end

section

variable (hsingle : w.Single)
include hsingle

/-- A submission keeps to the discipline. -/
lemma Single.step_submit (h : w.Tracked) (hone : w.OneStore (.submit request)) :
    (w.step (.submit request)).Single := by
  cases hwriter : w.adapter.isKvWriter with
  | false => simpa [Worker.step, submitStoreRequest, hwriter] using hsingle
  | true =>
    simp only [Worker.step, submitStoreRequest, hwriter, if_true]
    intro other store hnew hstore hrunning
    simp only [get?_set]
    rw [List.getElem?_append] at hstore
    split at hstore
    · -- an earlier store in flight belongs to another request
      obtain ⟨hfuture, hfinished⟩ := hsingle other store hnew hstore hrunning
      have hother : other ≠ request := by
        rintro rfl
        rcases hone hwriter with hreported | ⟨hidle, -⟩
        · exact hnew ((h.returned other).mpr hreported)
        · exact hidle ⟨store, hstore, hrunning⟩
      exact ⟨by rw [if_neg hother, hfuture], hfinished⟩
    · obtain ⟨hzero, rfl⟩ : store - w.stores.length = 0 ∧ other = request := by
        obtain ⟨hlt, heq⟩ := List.getElem?_eq_some_iff.mp hstore
        have hzero : store - w.stores.length = 0 := by simpa using hlt
        simp only [hzero] at heq
        exact ⟨hzero, heq.symm⟩
      refine ⟨by rw [if_pos rfl, show store = w.stores.length by omega], ?_⟩
      rcases hone hwriter with hreported | ⟨-, hfinished⟩
      · exact absurd ((h.returned other).mpr hreported) hnew
      · exact hfinished

lemma Single.step_complete {store : Nat} : (w.step (.complete store)).Single := by
  simp only [Worker.step]
  split
  · intro request other hnew hother hrunning
    exact hsingle request other hnew hother fun hended => hrunning (Finset.mem_insert_of_mem hended)
  · exact hsingle

lemma Single.step_getFinished : (w.step (.getFinished fromEngine)).Single := by
  intro request store hnew hstore hrunning
  simp only [Worker.step, getFinished_returnedFinished, Finset.mem_union, not_or] at hnew
  obtain ⟨hfuture, hfinished⟩ := hsingle request store hnew.1 hstore hrunning
  have hkept : request ∉ endedStores (fun store => decide (store ∈ w.ended)) w.adapter := by
    rw [mem_endedStores]
    rintro ⟨store', hfuture', hdone⟩
    obtain rfl := Option.mem_unique hfuture hfuture'
    exact hrunning (show store ∈ w.ended by simpa using hdone)
  constructor
  · rw [← mem_entries] at hfuture ⊢
    simp only [Worker.step, getFinished_storeFutures, entries_foldl_erase, List.mem_filter]
    exact ⟨hfuture, by simpa using hkept⟩
  · intro hmem
    rcases mem_finishedStores hmem with hold | hended
    · exact hfinished hold
    · exact hkept hended

lemma Single.step (h : w.Tracked) {event : StoreEvent ρ} (hone : w.OneStore event) :
    (w.step event).Single := by
  cases event with
  | submit request => exact hsingle.step_submit h hone
  | complete store => exact hsingle.step_complete
  | getFinished fromEngine => exact hsingle.step_getFinished

end

/-! ## Histories -/

/-- A call that finds the end of one store collects it and reports the request,
whatever other store of it is in flight. -/
lemma not_honest (h : w.Tracked) (hnew : request ∉ w.adapter.returnedFinished)
    (hinflight : w.InFlight request) (hends : request ∈ w.adapter.finishedStores ∨
      request ∈ endedStores (fun store => decide (store ∈ w.ended)) w.adapter) :
    ¬ w.Honest {request} := by
  intro hhonest
  refine hhonest.notInFlight request ((mem_finished h).mpr ⟨hnew, by simp, ?_⟩) hinflight
  exact hends.elim .inl fun hends => .inr (.inl hends)

/-- A submission against the discipline can end in a report that comes too
early. -/
lemma exists_not_honest (h : w.Tracked) (hnot : ¬ w.OneStore (.submit request)) :
    ∃ more, (∀ other, StoreEvent.submit other ∉ more) ∧
      ¬ Along Worker.step HonestStep (w.step (.submit request)) more := by
  simp only [OneStore, ← h.returned, Classical.not_imp, not_or, not_and_or, not_not] at hnot
  obtain ⟨hwriter, hnew, hcase⟩ := hnot
  have hstep : w.step (.submit request) = { w with
          adapter := { w.adapter with
            storeFutures := w.adapter.storeFutures.set request w.stores.length }
          stores := w.stores ++ [request] } := by
    simp [Worker.step, submitStoreRequest, hwriter]
  have hfresh : w.stores.length ∉ w.ended := fun hmem => lt_irrefl _ (h.ended _ hmem)
  have htracked := h.step (.submit request)
  rw [hstep] at htracked ⊢
  rcases hcase with ⟨store, hstore, hrunning⟩ | hfinished
  · -- the second store ends first
    refine ⟨[.complete w.stores.length, .getFinished {request}], by simp, fun hall => ?_⟩
    have hlt : store < w.stores.length := (List.getElem?_eq_some_iff.mp hstore).1
    refine not_honest (htracked.step (.complete w.stores.length)) ?_ ?_ (.inr ?_) hall.2.1
    · simpa [Worker.step] using hnew
    · refine ⟨store, ?_, ?_⟩
      · simpa [Worker.step, List.getElem?_append_left hlt] using hstore
      · simpa [Worker.step, hrunning] using Nat.ne_of_lt hlt
    · rw [mem_endedStores]
      exact ⟨w.stores.length, by simp [Worker.step], by simp [Worker.step]⟩
  · -- the end of the first store was collected before
    refine ⟨[.getFinished {request}], by simp, fun hall => ?_⟩
    refine not_honest htracked ?_ ⟨w.stores.length, ?_, ?_⟩ (.inl ?_) hall.1
    · exact hnew
    · simp
    · exact hfresh
    · exact hfinished

variable {events : List (StoreEvent ρ)}

lemma oneStore_of_no_submit (hnone : ∀ request, StoreEvent.submit request ∉ events) :
    Along Worker.step OneStore w events := by
  induction events generalizing w with
  | nil => trivial
  | cons event events ih =>
    refine ⟨?_, ih fun request hmem => hnone request (List.mem_cons_of_mem _ hmem)⟩
    cases event with
    | submit request => exact absurd (List.mem_cons_self) (hnone request)
    | complete store => trivial
    | getFinished fromEngine => trivial

/-- In a history that keeps to the discipline every call does what it must. -/
lemma honest_of_oneStore {isKvWriter : Bool}
    (hone : Along Worker.step OneStore (.new isKvWriter) events) :
    Along Worker.step HonestStep (.new isKvWriter) events := by
  refine along_of_inv (fun w => w.Tracked ∧ w.Single) ?_
    ⟨tracked_new isKvWriter, by simp [Single, Worker.new]⟩ hone
  intro w event ⟨htracked, hsingle⟩ hone
  refine ⟨?_, htracked.step event, hsingle.step htracked hone⟩
  cases event with
  | submit request => trivial
  | complete store => trivial
  | getFinished fromEngine => exact htracked.honest hsingle

lemma oneStore_of_honest {w : Worker ρ} (h : w.Tracked)
    (hall : ∀ n more, (∀ request, StoreEvent.submit request ∉ more) →
      Along Worker.step HonestStep w (events.take n ++ more)) :
    Along Worker.step OneStore w events := by
  induction events generalizing w with
  | nil => trivial
  | cons event events ih =>
    refine ⟨?_, ih (h.step event) fun n more hmore => (hall (n + 1) more hmore).2⟩
    cases event with
    | submit request =>
      by_contra hnot
      obtain ⟨more, hmore, hbad⟩ := exists_not_honest h hnot
      exact hbad (hall 1 more hmore).2
    | complete store => trivial
    | getFinished fromEngine => trivial

/-- Every call reports each finished request once, after the engine and with no
store of it in flight, and leaves none out, in every history that follows from
a beginning of this one without further submissions, iff every submission of
this one kept to the discipline. -/
theorem honest_iff_oneStore (isKvWriter : Bool) (events : List (StoreEvent ρ)) :
    (∀ n more, (∀ request, StoreEvent.submit request ∉ more) →
      Along Worker.step HonestStep (.new isKvWriter) (events.take n ++ more)) ↔
      Along Worker.step OneStore (.new isKvWriter) events := by
  constructor
  · exact oneStore_of_honest (tracked_new isKvWriter)
  · intro hone n more hmore
    apply honest_of_oneStore
    rw [← List.take_append_drop n events, along_append] at hone
    exact along_append.mpr ⟨hone.1, oneStore_of_no_submit hmore⟩

/-- One store runs after the end of the first was collected; the engine
finishes the request and it is reported at once. -/
theorem collected_reports_early : ¬ Along Worker.step HonestStep (.new true)
      ([.submit 0, .complete 0, .getFinished ∅, .submit 0, .getFinished {0}] :
      List (StoreEvent Nat)) := by
  intro h
  have hlast := h.2.2.2.2.1
  exact hlast.notInFlight 0 (by decide) ⟨1, by decide, by decide⟩

end Worker

end LMCache.Vllm
