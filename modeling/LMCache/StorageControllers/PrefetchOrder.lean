/-
LMCache.StorageControllers.PrefetchOrder — which request acts when, and how
each of them ends.

A request the loop starts acts before every later one (`Ordered`); its acts
end with the publication of one result and its retirement (`Lawful`); and
between two iterations it waits for a task of an adapter (`Busy`), so a loop
without tasks has nothing in flight, and then nothing is pending either:
with nothing in flight the head of the queue is always admitted.

A request that may use no L2 adapter never enters the loop. It is served by
the thread that submits it, before the submission returns, and may so
overtake those that wait (`servedDirectly`).
-/
import LMCache.StorageControllers.PrefetchRuns

namespace LMCache.StorageControllers

open List Lib Native L1Manager Dict

variable {Key Obj : Type} [DecidableEq Key] {m n : Nat}

/-! ## The acts of one request -/

/-- The acts made in the name of the request, in order. -/
def own (request : Nat) (acts : List (Act Key Obj)) : List (Act Key Obj) :=
  acts.filter fun a => decide (a.requester = some request)

/-- How the acts of a request end: with its result, and its retirement when it
was in flight. -/
inductive Ending (request : Nat) : List (Act Key Obj) → Prop where
  | published (found : Nat → L1State Key Obj) (spec : PrefetchTaskSpec Key)
      (result : spec.Result) :
      Ending request [.publish request found spec result]
  | retired (found : Nat → L1State Key Obj) (spec : PrefetchTaskSpec Key)
      (result : spec.Result) (left : Nat → L1State Key Obj)
      (how : Retirement) :
      Ending request [.publish request found spec result, .retire request left how]

/-- The request came to its end. -/
def Over (request : Nat) (acts : List (Act Key Obj)) : Prop :=
  ∃ before tail, acts = before ++ tail ∧ (∀ a ∈ before, a.reports = false) ∧ Ending request tail

/-- The request has not ended, or it ended once. -/
def Lawful (request : Nat) (acts : List (Act Key Obj)) : Prop :=
  (∀ a ∈ acts, a.reports = false) ∨ Over request acts

variable {acts : List (Act Key Obj)}

section Own

variable {request k k' : Nat} {before tail l r : List (Act Key Obj)} {a b : Act Key Obj}
  {w w' : World Key Obj}

@[simp] lemma mem_own : a ∈ own request acts ↔ a ∈ acts ∧ a.requester = some request := by
  simp [own]

variable (acts) in
lemma own_append (acts' : List (Act Key Obj)) :
    own request (acts ++ acts') = own request acts ++ own request acts' :=
  filter_append ..

/-- A report is not among the acts before the ending. -/
lemma tail_of_report (hbefore : ∀ b ∈ before, b.reports = false) (ha : a.reports)
    (h : before ++ tail = l ++ a :: r) : ∃ l', tail = l' ++ a :: r := by
  induction before generalizing l with
  | nil => exact ⟨l, h⟩
  | cons b before ih =>
    cases l with
    | nil =>
      obtain ⟨rfl, -⟩ := cons.inj h
      rw [hbefore b mem_cons_self] at ha
      cases ha
    | cons c l =>
      exact ih (fun b hb => hbefore b (mem_cons_of_mem _ hb)) (cons.inj h).2

/-- After its result a request is at most retired, after its retirement it
does nothing. -/
lemma Lawful.after_report (h : Lawful request (l ++ a :: r)) (ha : a.reports) :
    (∃ found spec result, a = .publish request found spec result ∧
      ∀ b ∈ r, ∃ left how, b = .retire request left how) ∨
    (∃ left how, a = .retire request left how) ∧ r = [] := by
  obtain hopen | ⟨before, tail, hacts, hbefore, hending⟩ := h
  · rw [hopen a (by simp)] at ha
    cases ha
  obtain ⟨l', htail⟩ := tail_of_report hbefore ha hacts.symm
  cases hending with
  | published found spec result =>
    cases l' with
    | nil =>
      obtain ⟨rfl, rfl⟩ := cons.inj htail
      exact .inl ⟨found, spec, result, rfl, by simp⟩
    | cons c l' => simp at htail
  | retired found spec result left how =>
    cases l' with
    | nil =>
      obtain ⟨rfl, rfl⟩ := cons.inj htail
      refine .inl ⟨found, spec, result, rfl, fun b hb => ⟨left, how, mem_singleton.mp hb⟩⟩
    | cons c l' =>
      cases l' with
      | nil =>
        obtain ⟨rfl, rfl⟩ := cons.inj (cons.inj htail).2
        exact .inr ⟨⟨left, how, rfl⟩, rfl⟩
      | cons d l' => simp at htail

lemma Over.acted (h : Over request acts) : ∃ a ∈ acts, ∃ found spec result,
    a = .publish request found spec result := by
  obtain ⟨before, tail, rfl, -, hending⟩ := h
  cases hending with
  | published found spec result => exact ⟨_, by simp, found, spec, result, rfl⟩
  | retired found spec result left how => exact ⟨_, by simp, found, spec, result, rfl⟩

lemma own_split (hk : acts[k]? = some a) (ha : a.requester = some request) :
    own request acts = own request (acts.take k) ++ a :: own request (acts.drop (k + 1)) := by
  obtain ⟨hlt, hget⟩ := List.getElem?_eq_some_iff.mp hk
  have hsplit : acts = acts.take k ++ a :: acts.drop (k + 1) := by
    rw [← hget, getElem_cons_drop, take_append_drop]
  nth_rewrite 1 [hsplit]
  simp [own, ha]

lemma mem_own_drop (hk : acts[k']? = some b) (hlt : k < k') (hb : b.requester = some request) :
    b ∈ own request (acts.drop (k + 1)) := by
  rw [mem_own]
  refine ⟨mem_of_getElem? (i := k' - (k + 1)) ?_, hb⟩
  rw [getElem?_drop, show k + 1 + (k' - (k + 1)) = k' by omega]
  exact hk

/-- No result is published twice: the acts after a result are at most a
retirement. -/
lemma Lawful.publish_last {found found' : Nat → L1State Key Obj} {spec spec' : PrefetchTaskSpec Key}
    {result : spec.Result}
    {result' : PrefetchResult Key spec'.numRows spec'.groupSize} (h : Lawful request (own request acts))
    (hk : acts[k]? = some (.publish request found spec result))
    (hk' : acts[k']? = some (.publish request found' spec' result')) : ¬ k < k' := by
  intro hlt
  rw [own_split hk rfl] at h
  obtain ⟨_, _, _, _, hafter⟩ | ⟨⟨_, _, hnot⟩, -⟩ := h.after_report rfl
  · obtain ⟨_, _, hretire⟩ := hafter _ (mem_own_drop hk' hlt rfl)
    cases hretire
  · cases hnot

variable [DecidableEq Obj]

lemma Frame.own_eq (h : Frame request w w') : own request w'.trace = own request w.trace := by
  obtain ⟨acts, hw, hacts⟩ := h.trace
  have hnone : own request acts = [] := by
    simpa [StorageControllers.own] using hacts
  rw [hw, own_append, hnone, append_nil]

/-- What a move adds to the trace is the request's, or other threads'. -/
lemma Moves.adds (h : Moves request w w') : ∃ acts, w'.trace = w.trace ++ acts ∧
    (∀ a ∈ acts, ∀ id, a.requester = some id → id = request) ∧
    ∀ a ∈ own request acts, a.reports = false := by
  obtain ⟨acts, hw, hacts⟩ := h.trace
  refine ⟨acts, hw, fun a ha id hid => ?_, fun a ha => hacts a (mem_own.mp ha).1 (mem_own.mp ha).2⟩
  by_contra hne
  obtain ⟨acts', hw', hacts'⟩ := (h.others id hne).trace
  have hsame : acts = acts' := append_cancel_left (hw.symm.trans hw')
  exact hacts' a (hsame ▸ ha) hid

end Own

/-! ## One step of a request -/

/-- The request waits for an adapter. -/
def Busy (r : RequestState m n) : Prop :=
  ∃ adapter, adapter ∈ r.inflightLookupTasks ∨ adapter ∈ r.inflightLoadTasks

variable [DecidableEq Obj]

/-- The request acted, published its result and was retired. -/
def Closes (request : Nat) (w w' : World Key Obj) : Prop :=
  ∃ mid found spec result left how, Moves request w mid ∧
    w' = (mid.record (.publish request found spec result)).record (.retire request left how)

/-- A step leaves the request waiting for an adapter, or closes it. -/
def Turn (request : Nat) (w : World Key Obj)
    (outcome : World Key Obj × Option (RequestState m n)) : Prop :=
  match outcome.2 with
  | some r => Moves request w outcome.1 ∧ Busy r
  | none => Closes request w outcome.1

section Turns

variable {env : Environment Key Obj} {cfg : PrefetchConfig} {request : Nat}
  {spec : PrefetchTaskSpec Key} {w w' w'' : World Key Obj}

section

lemma Moves.closes (h : Moves request w w') (h' : Closes request w' w'') :
    Closes request w w'' := by
  obtain ⟨mid, found, spec, result, left, how, hmoves, hw⟩ := h'
  exact ⟨mid, found, spec, result, left, how, h.trans hmoves, hw⟩

lemma Closes.adds (h : Closes request w w') : ∃ acts, w'.trace = w.trace ++ acts ∧
    ∀ a ∈ acts, ∀ other, a.requester = some other → other = request := by
  obtain ⟨mid, found, spec, result, left, how, hmoves, rfl⟩ := h
  obtain ⟨acts, hw, hacts, -⟩ := hmoves.adds
  refine ⟨acts ++ [.publish request found spec result, .retire request left how], ?_, ?_⟩
  · simp [World.record, hw]
  · intro a ha other hreq
    simp only [mem_append, mem_cons, not_mem_nil, or_false] at ha
    rcases ha with ha | rfl | rfl
    · exact hacts a ha other hreq
    · exact (Option.some.inj hreq).symm
    · exact (Option.some.inj hreq).symm

lemma Closes.others (h : Closes request w w') {other : Nat} (hne : other ≠ request) :
    Frame other w w' := by
  obtain ⟨mid, found, spec, result, left, how, hmoves, rfl⟩ := h
  have hreq : ∀ a : Act Key Obj, a.requester = some request → a.requester ≠ some other :=
    fun a ha hother => hne (Option.mem_unique hother ha)
  exact ((hmoves.others other hne).trans (frame_record (hreq _ rfl) fun _ => rfl)).trans
    (frame_record (hreq _ rfl) fun _ => rfl)

lemma Closes.ended (h : Closes request w w')
    (hopen : ∀ a ∈ w.trace, a.requester = some request → a.reports = false) :
    Over request (own request w'.trace) := by
  obtain ⟨mid, found, spec, result, left, how, hmoves, rfl⟩ := h
  obtain ⟨acts, hw, -, hacts⟩ := hmoves.adds
  refine ⟨own request (w.trace ++ acts), _, ?_, fun a ha => ?_, .retired found spec result left how⟩
  · simp [World.record, hw, own, Act.requester]
  · rw [own_append, mem_append] at ha
    obtain ha | ha := ha
    · exact hopen a (mem_own.mp ha).1 (mem_own.mp ha).2
    · exact hacts a ha

end

variable {outcome : World Key Obj × Option (RequestState m n)}

lemma Turn.others (h : Turn request w outcome) {other : Nat} (hne : other ≠ request) :
    Frame other w outcome.1 := by
  unfold Turn at h
  split at h
  · exact h.1.others other hne
  · exact h.others hne

lemma Turn.adds (h : Turn request w outcome) : ∃ acts, outcome.1.trace = w.trace ++ acts ∧
      ∀ a ∈ acts, ∀ other, a.requester = some other → other = request := by
  unfold Turn at h
  split at h
  · obtain ⟨acts, hw, hacts, -⟩ := h.1.adds
    exact ⟨acts, hw, hacts⟩
  · exact h.adds

lemma closes_finishAndRetire (s : spec.Session Obj) :
    Closes request s.world (finishAndRetire env request spec s) :=
  ⟨_, _, spec, _, _, .finished,
    (keeps_settleL1 env request s (finishedResult spec s.request).hitCells).moves, rfl⟩

section

variable (l2Adapters : List Nat) (s : spec.Session Obj)

lemma moves_releaseAllLocks :
    Moves request s.world (releaseAllLocks env request spec.keyGroups l2Adapters s) := by
  have hunlock : ∀ (items : List (Nat × spec.Grid)) (w : World Key Obj),
      Moves request w (items.foldl (fun w item =>
        if item.1 ∈ l2Adapters then unlockCells request spec.keyGroups item.1 item.2 w else w) w) := by
    intro items
    induction items with
    | nil => exact .refl
    | cons item items ih =>
      intro w
      refine Moves.trans ?_ (ih _)
      dsimp only
      split
      · exact (effect_unlockCells spec.rows item.1 item.2 w).toMoves
      · exact .refl w
  exact ((hunlock _ _).trans (effect_deleteMap s.request.keyStates.l1ReservedKeys _).toMoves).trans
    (effect_finishReadMap spec.rows s.request.keyStates.l1LockedKeys _).toMoves

lemma closes_abortRequest : Closes request s.world (abortRequest env request spec l2Adapters s) :=
  ⟨_, _, spec, _, _, .aborted, moves_releaseAllLocks l2Adapters s, rfl⟩

end

/-- `_advance_request`, with the handler of the loop. -/
lemma turn_advanceRequest {adapters : AdapterTable}
    {r : spec.State} (signaledLookups signaledLoads : List Nat)
    (hshape : InPhase cfg r) (hbusy : Busy r) : Turn request w
      (advanceRequest env cfg request spec adapters signaledLookups signaledLoads ⟨w, r⟩) := by
  have hadv := (pollRequest_spec env request adapters signaledLookups signaledLoads
    (s := ⟨w, r⟩) hshape).1
  unfold advanceRequest
  dsimp only
  split
  · exact ⟨.refl w, hbusy⟩
  generalize pollRequest env cfg request spec adapters signaledLookups signaledLoads ⟨w, r⟩
    = polled at hadv
  split
  · exact hadv.moves.closes (closes_abortRequest _ _)
  split
  · exact hadv.moves.closes (closes_finishAndRetire _)
  rename_i hgoes
  refine ⟨hadv.moves, ?_⟩
  by_cases hphase : polled.1.request.phase = .lookup
  · obtain ⟨adapter, hmem⟩ := RequestState.phase_eq_lookup.mp hphase
    exact ⟨adapter, .inl hmem⟩
  · -- in the load phase a request without loads would have been finished
    have hload : polled.1.request.phase = .planAndLoad := by
      cases hp : polled.1.request.phase with
      | lookup => exact absurd hp hphase
      | planAndLoad => rfl
    have hsome : ¬ ∀ adapter, adapter ∉ polled.1.request.inflightLoadTasks := fun hnone =>
      hgoes ⟨hload, isEmpty_iff.mpr hnone⟩
    obtain ⟨adapter, hmem⟩ := not_forall.mp hsome
    exact ⟨adapter, .inr (not_not.mp hmem)⟩

/-- `_start_lookup_phase`, with the handler of `_start_pending_requests`. -/
lemma turn_startLookupPhase (adapters : AdapterTable) (w : World Key Obj) :
    Turn request w (startLookupPhase env cfg request spec adapters w) := by
  have hstart := lockedOnly_lockL1Keys env request cfg spec w
  unfold startLookupPhase
  dsimp only
  generalize lockL1Keys env cfg request spec ⟨w, .init⟩ = s at hstart
  obtain ⟨hlock, locked, hreq⟩ := hstart
  split
  · exact (hlock.moves.trans (advances_planLoadRequest env request cfg [] s).moves).closes
      (closes_finishAndRetire _)
  rename_i hneeded
  have hsubmit := keeps_submitLookups env request
    (adapters.l2Adapters.filter (isL2Eligible cfg spec adapters)) s (adapters.nodup.filter _)
    (by simp [hreq, RequestState.init])
  have hmoves := hlock.moves.trans hsubmit.moves
  split_ifs with hok
  · exact hmoves.closes (closes_abortRequest _ _)
  · obtain ⟨tasks, htasks, -, -, hall⟩ := submitLookups_request env request
      (adapters.l2Adapters.filter (isL2Eligible cfg spec adapters)) s
    have hne : adapters.l2Adapters.filter (isL2Eligible cfg spec adapters) ≠ [] := fun hnil =>
      hneeded (by rw [hnil]; rfl)
    obtain ⟨adapter, hmem⟩ := exists_mem_of_ne_nil _ hne
    refine ⟨hmoves, adapter, .inl ?_⟩
    rw [htasks]
    exact hall (by simpa using hok) adapter hmem

variable (env cfg request spec) in
/-- A request served on the submitting thread publishes its result there. -/
lemma serveFromL1_publishes (w : World Key Obj) : ∃ mid found result, Moves request w mid ∧
    serveFromL1 env cfg request spec w = mid.record (.publish request found spec result) := by
  have hlock := (lockedOnly_lockL1Keys env request cfg spec w).1
  have hplan := advances_planLoadRequest env request cfg []
    (lockL1Keys env cfg request spec ⟨w, .init⟩)
  exact ⟨_, _, _, (hlock.moves.trans hplan.moves).trans (keeps_settleL1 env request _ _).moves, rfl⟩

end Turns

/-! ## The order of the acts -/

/-- Whenever a request that is not served directly acts, every request
submitted before it has acted already. -/
def Ordered (direct : List Nat) (acts : List (Act Key Obj)) : Prop :=
  ∀ k a id, acts[k]? = some a → a.requester = some id → id ∉ direct →
    ∀ earlier < id, ∃ b ∈ acts.take k, b.requester = some earlier

section Order

variable {direct : List Nat} {acts' : List (Act Key Obj)}

omit [DecidableEq Obj] in
lemma Ordered.append (h : Ordered direct acts)
    (hmore : ∀ a ∈ acts', ∀ id, a.requester = some id → id ∉ direct →
      ∀ earlier < id, ∃ b ∈ acts, b.requester = some earlier) : Ordered direct (acts ++ acts') := by
  intro k a id hk hid hdirect earlier hlt
  by_cases hold : k < acts.length
  · rw [getElem?_append_left hold] at hk
    obtain ⟨b, hb, hreq⟩ := h k a id hk hid hdirect earlier hlt
    rw [take_append_of_le_length hold.le]
    exact ⟨b, hb, hreq⟩
  · rw [getElem?_append_right (not_lt.mp hold)] at hk
    obtain ⟨b, hb, hreq⟩ := hmore a (mem_of_getElem? hk) id hid hdirect earlier hlt
    refine ⟨b, ?_, hreq⟩
    rw [take_append]
    exact mem_append_left _ (by rwa [take_of_length_le (not_lt.mp hold)])

omit [DecidableEq Obj] in
lemma Ordered.mono {direct' : List Nat} (h : Ordered direct acts)
    (hsub : ∀ id ∈ direct, id ∈ direct') : Ordered direct' acts :=
  fun k a id hk hid hdirect => h k a id hk hid fun hmem => hdirect (hsub id hmem)

end Order

variable {c : PrefetchController Key Obj}

namespace PrefetchController

variable {env : Environment Key Obj} {cfg : PrefetchConfig}

variable (c) in
/-- Whether `submit_prefetch_request` serves the request itself. -/
def servesDirectly (spec : PrefetchTaskSpec Key) : Bool :=
  decide (spec.allowedL2MemoryTags = some [] ∨ c.adapters.l2Adapters = [])

variable (env cfg) in
/-- The requests of a run that are served on the submitting thread. -/
def servedDirectly : PrefetchController Key Obj → List (Event Key) → List Nat
  | _, [] => []
  | c, .submit spec :: events =>
    (if c.servesDirectly spec then [c.nextRequestId] else []) ++
      servedDirectly (c.step env cfg (.submit spec)) events
  | c, e :: events => servedDirectly (c.step env cfg e) events

/-- What holds between two steps of the loop, besides `Orderly`. -/
structure Sequenced (direct : List Nat) (queued : List (Nat × PrefetchTaskSpec Key))
    (c : PrefetchController Key Obj) : Prop where
  busy : ∀ id request, c.inFlightRequests.get? id = some request → Busy request.state
  ended : ∀ id < c.nextRequestId, id ∉ queued.map Prod.fst → id ∉ c.inFlightRequests →
    Over id (own id c.world.trace)
  sorted : (queued.map Prod.fst).Pairwise (· < ·)
  behind : ∀ id ∈ c.inFlightRequests, ∀ later ∈ queued.map Prod.fst, id < later
  ordered : Ordered direct c.world.trace

section Invariant

variable {direct : List Nat} {queued : List (Nat × PrefetchTaskSpec Key)}
  {c' : PrefetchController Key Obj} {id : Nat}

section

section

variable {spec : PrefetchTaskSpec Key} {l2Adapters : List Nat} {w : World Key Obj} {r : spec.State}
  (h : Flying id cfg spec l2Adapters w r) (hbusy : Busy r)
include h hbusy

lemma outstanding_of_flying : ¬ NoTaskOutstanding id w := by
  intro hnone
  obtain ⟨adapter, hlookup | hload⟩ := hbusy
  · have hholds := h.owns.lookups adapter
    rw [(hnone adapter).1, if_pos hlookup] at hholds
    cases hholds
  · have hholds := h.owns.loads adapter
    rw [(hnone adapter).2, if_pos hload] at hholds
    cases hholds

lemma acted_of_flying : ∃ a ∈ w.trace, a.requester = some id := by
  by_contra hnone
  have hzero : ∀ x, w.holds id x = 0 := fun x =>
    World.total_eq_zero fun a ha hreq => absurd ⟨a, ha, hreq⟩ hnone
  exact outstanding_of_flying h hbusy fun adapter => ⟨hzero _, hzero _⟩

end
section

variable (hs : Sequenced direct queued c)
include hs

/-- Every request submitted and no longer queued has acted. -/
lemma Sequenced.acted (h : Orderly cfg config queued c) (hlt : id < c.nextRequestId)
    (hqueued : id ∉ queued.map Prod.fst) : ∃ a ∈ c.world.trace, a.requester = some id := by
  by_cases hmem : id ∈ c.inFlightRequests
  · obtain ⟨request, hget⟩ := mem_iff_get?.mp hmem
    exact acted_of_flying (h.flying id request hget) (hs.busy id request hget)
  · obtain ⟨a, ha, -⟩ := (hs.ended id hlt hqueued hmem).acted
    exact ⟨a, mem_own.mp ha⟩

/-- The acts of a step on a request that is not behind a queued one. -/
lemma Sequenced.ordered_append (h : Orderly cfg config queued c) (hlt : id < c.nextRequestId)
    (hahead : ∀ later ∈ queued.map Prod.fst, id ≤ later)
    (hacts : ∀ a ∈ acts, ∀ other, a.requester = some other → other = id) :
    Ordered direct (c.world.trace ++ acts) := by
  refine hs.ordered.append fun a ha other hreq _ earlier hearlier => ?_
  obtain rfl := hacts a ha other hreq
  exact hs.acted h (hearlier.trans hlt) fun hqueued =>
    absurd hearlier (not_lt.mpr (hahead earlier hqueued))

lemma Sequenced.mono (hrequests : c'.inFlightRequests = c.inFlightRequests)
    (hnext : c'.nextRequestId = c.nextRequestId) (hworld : ∀ id, Frame id c.world c'.world)
    (hordered : Ordered direct c'.world.trace) : Sequenced direct queued c' where
  busy id request hget := hs.busy id request (hrequests ▸ hget)
  ended id hlt hqueued hflight := by
    rw [(hworld id).own_eq]
    exact hs.ended id (hnext ▸ hlt) hqueued (hrequests ▸ hflight)
  sorted := hs.sorted
  behind id hmem := hs.behind id (hrequests ▸ hmem)
  ordered := hordered

end

end

end Invariant

/-! ## The steps of the loop -/

section Steps

variable {direct : List Nat} {queued : List (Nat × PrefetchTaskSpec Key)} {id : Nat}

/-- One step on one request, which may have been the head of the queue. -/
lemma Sequenced.settle (hs : Sequenced direct queued c) (h : Orderly cfg config queued c)
    {rest : List (Nat × PrefetchTaskSpec Key)} {spec : PrefetchTaskSpec Key}
    {outcome : World Key Obj × Option (spec.State)}
    (hlt : id < c.nextRequestId) (hahead : ∀ later ∈ rest.map Prod.fst, id < later)
    (hrest : ∀ other, other ∈ queued.map Prod.fst → other = id ∨ other ∈ rest.map Prod.fst)
    (hsorted : (rest.map Prod.fst).Pairwise (· < ·))
    (hqueue : ∀ other ∈ rest.map Prod.fst, other ∈ queued.map Prod.fst)
    (hopen : ∀ a ∈ c.world.trace, a.requester = some id → a.reports = false)
    (hturn : Turn id c.world outcome) : Sequenced direct rest (c.settle id spec outcome) := by
  constructor
  · intro other request hget
    by_cases heq : other = id
    · subst heq
      rw [get?_settle_self] at hget
      obtain ⟨r, hout, rfl⟩ := Option.map_eq_some_iff.mp hget
      unfold Turn at hturn
      rw [hout] at hturn
      exact hturn.2
    · rw [get?_settle_ne heq] at hget
      exact hs.busy other request hget
  · intro other hother hqueued hflight
    by_cases heq : other = id
    · subst heq
      rw [not_mem_iff_get?, get?_settle_self, Option.map_eq_none_iff] at hflight
      unfold Turn at hturn
      rw [hflight] at hturn
      exact hturn.ended hopen
    · have hsame : own other (c.settle id spec outcome).world.trace = own other c.world.trace :=
        (hturn.others heq).own_eq
      rw [hsame]
      exact hs.ended other hother (fun hold => (hrest other hold).elim heq hqueued)
        fun hold => hflight ((mem_settle_ne heq).mpr hold)
  · exact hsorted
  · intro other hother later hlater
    by_cases heq : other = id
    · exact heq ▸ hahead later hlater
    · exact hs.behind other ((mem_settle_ne heq).mp hother) later (hqueue later hlater)
  · obtain ⟨acts, hw, hacts⟩ := hturn.adds
    have htrace : (c.settle id spec outcome).world.trace = c.world.trace ++ acts := hw
    rw [htrace]
    refine hs.ordered_append h hlt (fun later hlater => ?_) hacts
    exact (hrest later hlater).elim (fun heq => heq.ge) fun hmem => (hahead later hmem).le

lemma sequenced_advance (hs : Sequenced direct queued c) (h : Orderly cfg config queued c)
    (lookups loads : List Nat) (id : Nat) :
    Sequenced direct queued (advance env cfg lookups loads c id) := by
  unfold advance
  split
  · exact hs
  · rename_i request hget
    have hmem : id ∈ c.inFlightRequests := mem_iff_get?.mpr ⟨_, hget⟩
    have hflying := h.flying id request hget
    exact hs.settle h (h.known id hmem) (hs.behind id hmem) (fun _ => .inr) hs.sorted
      (fun _ hother => hother) hflying.owns.open_
      (turn_advanceRequest lookups loads hflying.shape (hs.busy id request hget))

/-- The request at the head of the queue is the oldest one waiting. -/
lemma sequenced_startHead {spec : PrefetchTaskSpec Key}
    (hs : Sequenced direct ((id, spec) :: queued) c)
    (h : Orderly cfg config ((id, spec) :: queued) c) : Sequenced direct queued
      (c.settle id spec (startLookupPhase env cfg id spec c.adapters c.world)) := by
  have hhead := h.apart id mem_cons_self
  obtain ⟨hahead, hsorted⟩ := pairwise_cons.mp hs.sorted
  have hfresh := silent_of_frame (h.fresh id (.inl mem_cons_self))
  exact hs.settle h hhead.2 hahead (fun _ => mem_cons.mp) hsorted
    (fun _ => mem_cons_of_mem _) (fun a ha hreq => absurd hreq (hfresh a ha))
    (turn_startLookupPhase c.adapters c.world)

variable (env) in
lemma kept_sequenced : Kept env cfg fun queued (c : PrefetchController Key Obj) =>
    Orderly cfg config queued c ∧ Sequenced direct queued c where
  queues queued c _ _ h :=
    ⟨(kept_orderly env).queues queued c _ _ h.1, h.2.mono rfl rfl (fun _ => .refl _) h.2.ordered⟩
  wakeUp queued c h := by
    refine ⟨(kept_orderly env).wakeUp queued c h.1, ?_⟩
    exact h.2.mono rfl rfl (fun _ => frame_record (by simp [Act.requester]) fun _ => rfl)
      (h.2.ordered.append (by simp [Act.requester]))
  advance _ _ lookups loads id h :=
    ⟨orderly_advance h.1 lookups loads id, sequenced_advance h.2 h.1 lookups loads id⟩
  startHead _ _ _ _ h := ⟨orderly_startHead h.1, sequenced_startHead h.2 h.1⟩
  finalizeDrained queued c h := ⟨(kept_orderly env).finalizeDrained queued c h.1,
    h.2.mono rfl rfl (fun _ => .refl _) h.2.ordered⟩

/-- A request served directly publishes at once; another one joins the queue. -/
lemma sequenced_submit (spec : PrefetchTaskSpec Key) (hs : Sequenced direct c.waiting c)
    (h : Orderly cfg config c.waiting c) :
    Sequenced (direct ++ if c.servesDirectly spec then [c.nextRequestId] else [])
      (c.submitPrefetchRequest env cfg spec).waiting (c.submitPrefetchRequest env cfg spec) := by
  have hacts := silent_of_frame (h.fresh c.nextRequestId (.inr le_rfl))
  unfold submitPrefetchRequest servesDirectly
  by_cases hdirect : spec.allowedL2MemoryTags = some [] ∨ c.adapters.l2Adapters = []
  · simp only [hdirect, decide_true, if_true]
    obtain ⟨mid, found, result, hmoves, hserved⟩ :=
      serveFromL1_publishes env cfg c.nextRequestId spec c.world
    obtain ⟨acts, hw, hadds, hquiet⟩ := hmoves.adds
    have htrace : (serveFromL1 env cfg c.nextRequestId spec c.world).trace
        = c.world.trace ++ (acts ++ [.publish c.nextRequestId found spec result]) := by
      simp [hserved, World.record, hw]
    refine ⟨hs.busy, fun id hlt hqueued hflight => ?_, hs.sorted, hs.behind, ?_⟩
    · by_cases heq : id = c.nextRequestId
      · subst heq
        have hnone : own c.nextRequestId c.world.trace = [] := by
          simpa [own, filter_eq_nil_iff] using hacts
        refine ⟨own c.nextRequestId acts, _, ?_, hquiet, .published found spec result⟩
        simp only [htrace, own_append, hnone, nil_append]
        simp [own, Act.requester]
      · have hother : Frame id c.world (serveFromL1 env cfg c.nextRequestId spec c.world) := by
          rw [hserved]
          exact (hmoves.others id heq).trans
            (frame_record (fun hreq => heq (Option.some.inj hreq).symm) fun _ => rfl)
        rw [hother.own_eq]
        exact hs.ended id (Nat.lt_of_le_of_ne (Nat.le_of_lt_succ hlt) heq) hqueued hflight
    · rw [htrace]
      refine (hs.ordered.mono fun id hid => mem_append_left _ hid).append ?_
      intro a ha id hreq hnot
      -- what it adds are its own acts, and it is served directly
      refine absurd (mem_append_right _ (mem_singleton.mpr ?_)) hnot
      obtain ha | ha := mem_append.mp ha
      · exact hadds a ha id hreq
      · rw [mem_singleton.mp ha] at hreq
        exact (Option.some.inj hreq).symm
  · simp only [hdirect, decide_false, if_false, Bool.false_eq_true, append_nil]
    have hwaiting := waiting_submit c spec
    unfold waiting
    refine ⟨hs.busy, fun id hlt hqueued hflight => ?_, ?_, fun id hid later hlater => ?_, hs.ordered⟩
    · rw [hwaiting, mem_append, mem_singleton, not_or] at hqueued
      exact hs.ended id (Nat.lt_of_le_of_ne (Nat.le_of_lt_succ hlt) hqueued.2) hqueued.1 hflight
    · rw [hwaiting]
      refine pairwise_append.mpr ⟨hs.sorted, pairwise_singleton .., fun id hid later hlater => ?_⟩
      rw [mem_singleton.mp hlater]
      exact (h.apart id hid).2
    · rw [hwaiting, mem_append, mem_singleton] at hlater
      obtain hlater | rfl := hlater
      · exact hs.behind id hid later hlater
      · exact h.known id hid

variable (c) in
/-- With nothing in flight nothing is pending. -/
def Idle : Prop :=
  (∀ id, id ∉ c.inFlightRequests) → c.pendingQueue = []

variable (env cfg) in
lemma idle_startPendingRequests :
    ∀ (queue : List (Nat × PrefetchTaskSpec Key)) (c : PrefetchController Key Obj),
    Idle (startPendingRequests env cfg queue c)
  | [], _ => fun _ => rfl
  | (id, spec) :: queue, c => by
    unfold startPendingRequests
    split_ifs with hrefused
    · exact idle_startPendingRequests queue _
    · -- with nothing in flight the request would have been admitted
      intro hnone
      exact absurd (by rw [canAdmitNewPrefetch, if_pos (isEmpty_iff.mpr hnone)]) hrefused

lemma idle_iterate (ready : Bool) (lookups loads : List Nat) (hidle : Idle c) :
    Idle (c.iterate env cfg ready lookups loads) := by
  unfold iterate
  split
  · exact hidle
  · exact idle_startPendingRequests env cfg _ _

end Steps

/-! ## Runs -/

section Runs

omit [DecidableEq Obj] in
lemma sequenced_init (l2Adapters : List Nat) (hnodup : l2Adapters.Nodup)
    (config : Nat → L1ManagerConfig) :
    Sequenced [] [] (init l2Adapters hnodup config : PrefetchController Key Obj) where
  busy id request hget := by simp [init] at hget
  ended id hlt := absurd hlt (Nat.not_lt_zero id)
  sorted := List.Pairwise.nil
  behind id hid := absurd hid (not_mem_empty id)
  ordered k a id hk := by simp [init] at hk

lemma sequenced_events (events : List (Event Key)) (hrun : ∀ e ∈ events, e ≠ .stop)
    {direct : List Nat} (h : Orderly cfg config c.waiting c) (hs : Sequenced direct c.waiting c)
    (hidle : Idle c) :
    Sequenced (direct ++ servedDirectly env cfg c events) (run (step env cfg) c events).waiting
        (run (step env cfg) c events) ∧ Idle (run (step env cfg) c events) := by
  induction events generalizing direct c with
  | nil => simpa [servedDirectly] using ⟨hs, hidle⟩
  | cons e events ih =>
    have hrest : ∀ e ∈ events, e ≠ .stop := fun e he => hrun e (mem_cons_of_mem _ he)
    cases e with
    | submit spec =>
      rw [servedDirectly, ← append_assoc]
      refine ih hrest (orderly_submit spec h) (sequenced_submit spec hs h) ?_
      unfold step submitPrefetchRequest
      dsimp only
      split <;> exact hidle
    | adapterOp op =>
      obtain ⟨adapters, hop, -⟩ := requestAdapterOp_eq cfg c op
      have hstep : c.step env cfg (.adapterOp op) = { c with adapters } := hop
      refine ih hrest (orderly_requestAdapterOp op h) ?_ ?_
      · rw [hstep]
        exact hs.mono rfl rfl (fun _ => .refl _) hs.ordered
      · rw [hstep]
        exact hidle
    | iterate ready lookups loads =>
      obtain ⟨h', hs'⟩ := (kept_sequenced env).iterate ready lookups loads ⟨h, hs⟩
      exact ih hrest h' hs' (idle_iterate ready lookups loads hidle)
    | stop => exact absurd rfl (hrun .stop mem_cons_self)

/-- What a subscriber to the results can rely on; `direct` are the requests
that do not enter the loop. -/
structure EndsOnce (direct : List Nat) (c : PrefetchController Key Obj) : Prop where
  /-- requests start in the order of submission -/
  started : ∀ (k : Nat) (a : Act Key Obj) (id : Nat), c.world.trace[k]? = some a →
    a.requester = some id → id ∉ direct →
    ∀ earlier < id, ∃ b ∈ c.world.trace.take k, b.requester = some earlier
  /-- a retired request is not in flight and does nothing any more -/
  retired : ∀ (k id : Nat) (left : Nat → L1State Key Obj) (how : Retirement),
    c.world.trace[k]? = some (.retire id left how) → id ∉ c.inFlightRequests ∧
      ∀ (k' : Nat) (a : Act Key Obj), k < k' → c.world.trace[k']? = some a → a.requester ≠ some id
  /-- there is at most one result -/
  published : ∀ (k k' id : Nat) (found found' : Nat → L1State Key Obj)
    (spec spec' : PrefetchTaskSpec Key) (result : spec.Result)
    (result' : PrefetchResult Key spec'.numRows spec'.groupSize),
    c.world.trace[k]? = some (.publish id found spec result) →
    c.world.trace[k']? = some (.publish id found' spec' result') → k = k'
  /-- when the loop has taken over every submission, and the tasks of the
  requests that are not retired are answered and polled, there is a result -/
  answered : c.submissionQueue = [] →
    (∀ id, (∀ left how, .retire id left how ∉ c.world.trace) → NoTaskOutstanding id c.world) →
    ∀ id < c.nextRequestId, ∃ found spec result, .publish id found spec result ∈ c.world.trace

lemma Sequenced.lawful {direct : List Nat} (hs : Sequenced direct c.waiting c)
    (h : Orderly cfg config c.waiting c) (id : Nat) : Lawful id (own id c.world.trace) := by
  by_cases hfresh : id ∈ c.waiting.map Prod.fst ∨ c.nextRequestId ≤ id
  · exact .inl fun a ha =>
      absurd (mem_own.mp ha).2 (silent_of_frame (h.fresh id hfresh) a (mem_own.mp ha).1)
  rw [not_or, Nat.not_le] at hfresh
  by_cases hflight : id ∈ c.inFlightRequests
  · obtain ⟨request, hget⟩ := mem_iff_get?.mp hflight
    exact .inl fun a ha => (h.flying id request hget).owns.open_ a (mem_own.mp ha).1 (mem_own.mp ha).2
  · exact .inr (hs.ended id hfresh.2 hfresh.1 hflight)

/-- In a run that is not stopped requests start in the order of submission and
end once. -/
theorem requests_end_once (env : Environment Key Obj) (cfg : PrefetchConfig)
    (l2Adapters : List Nat) (hnodup : l2Adapters.Nodup) (config : Nat → L1ManagerConfig)
    (events : List (Event Key)) (hrun : ∀ e ∈ events, e ≠ .stop) :
    EndsOnce (servedDirectly env cfg (init l2Adapters hnodup config) events)
      (run (step env cfg) (init l2Adapters hnodup config) events) := by
  have h := orderly_run env cfg l2Adapters hnodup config events
  obtain ⟨hs, hidle⟩ : Sequenced ([] ++ servedDirectly env cfg (init l2Adapters hnodup config) events)
      (run (step env cfg) (init l2Adapters hnodup config) events).waiting
      (run (step env cfg) (init l2Adapters hnodup config) events) ∧
      Idle (run (step env cfg) (init l2Adapters hnodup config) events) :=
    sequenced_events events hrun (orderly_init cfg l2Adapters hnodup config)
      (sequenced_init l2Adapters hnodup config) fun _ => rfl
  generalize run (step env cfg) (init l2Adapters hnodup config) events = c at *
  constructor
  · exact hs.ordered
  · intro k id left how hk
    have hlaw := hs.lawful h id
    rw [own_split hk rfl] at hlaw
    obtain ⟨_, _, _, hnot, -⟩ | ⟨-, hlast⟩ := hlaw.after_report rfl
    · cases hnot
    refine ⟨fun hflight => ?_, fun k' a hlt hk' hreq => ?_⟩
    · obtain ⟨request, hget⟩ := mem_iff_get?.mp hflight
      have hopen := (h.flying id request hget).owns.open_ _ (mem_of_getElem? hk) rfl
      cases hopen
    · have hmem := mem_own_drop hk' hlt hreq
      rw [hlast] at hmem
      exact absurd hmem not_mem_nil
  · intro k k' id found found' spec spec' result result' hk hk'
    have hlaw := hs.lawful h id
    exact Nat.le_antisymm (not_lt.mp (hlaw.publish_last hk' hk))
      (not_lt.mp (hlaw.publish_last hk hk'))
  · intro hdrained htasks id hlt
    -- a request in flight would wait for a task
    have hnone : ∀ other, other ∉ c.inFlightRequests := by
      intro other hflight
      obtain ⟨request, hget⟩ := mem_iff_get?.mp hflight
      have hflying := h.flying other request hget
      have hopen : ∀ left how, .retire other left how ∉ c.world.trace := fun left how hmem =>
        nomatch hflying.owns.open_ _ hmem rfl
      exact outstanding_of_flying hflying (hs.busy other request hget) (htasks other hopen)
    have hwaiting : c.waiting = [] := by
      rw [waiting, hidle hnone, hdrained]
      rfl
    have hqueued : id ∉ c.waiting.map Prod.fst := by simp [hwaiting]
    obtain ⟨a, ha, found, spec, result, rfl⟩ := (hs.ended id hlt hqueued (hnone id)).acted
    exact ⟨found, spec, result, (mem_own.mp ha).1⟩

/-- The acts are those of request `0`, or of no request. -/
def onlyFirst (acts : List (Act Nat Nat)) : Bool :=
  acts.all fun a => a.requester.all fun id => decide (id = 0)

lemma holds_of_onlyFirst {w : World Nat Nat} (h : onlyFirst w.trace) {id : Nat}
    (hid : id ≠ 0) (x : Item Nat) : w.holds id x = 0 := by
  refine World.total_eq_zero fun a ha hreq => absurd ?_ hid
  have hfirst := all_eq_true.mp h a ha
  simpa [hreq] using hfirst

/-- The request that is looked up and loaded has its result. -/
theorem loadSeven_answered : ∃ found spec result,
    Act.publish 0 found spec result ∈ (loadSeven 1 (by decide) 1).trace := by
  have hrun : ∀ e ∈ loadOnce (oneGroup [7] 1 (by decide)), e ≠ .stop := by simp [loadOnce]
  refine (requests_end_once (alone [100] 1) oneL1 [5] (by decide) (fun _ => ⟨600, 300⟩)
    (loadOnce (oneGroup [7] 1 (by decide))) hrun).answered (by rfl) (fun id hopen => ?_) 0 (by decide)
  by_cases hid : id = 0
  · obtain ⟨left, hretire, -⟩ :=
      exists_retirement 0 .finished [100] (loadSeven 1 (by decide) 1).trace 13 (by decide)
    exact absurd (mem_of_getElem? hretire) (hid ▸ hopen left .finished)
  · have hfirst : onlyFirst (loadSeven 1 (by decide) 1).trace := by decide
    exact fun adapter => ⟨holds_of_onlyFirst hfirst hid _, holds_of_onlyFirst hfirst hid _⟩

end Runs

end PrefetchController

end LMCache.StorageControllers
