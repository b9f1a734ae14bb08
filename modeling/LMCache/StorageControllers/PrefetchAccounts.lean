/-
LMCache.StorageControllers.PrefetchAccounts — a request's key states say what
it holds.

`Owns` is the invariant every phase of a request keeps: the read locks, the
pins and the outstanding tasks the trace adds up to are the ones recorded in
the request, and its staging entries are its reserved cells. It holds at
every point where an adapter call can raise, so giving up a request is
releasing what its key states record.

The read locks are counted for pairwise distinct keys, and as long as no load
was admitted without its staging entry; the staging entries as long as the
request is `Quiet`, which also excludes such an admission.
-/
import LMCache.StorageControllers.Acquire
import LMCache.StorageControllers.PrefetchPolicyTheorems

namespace LMCache.StorageControllers

open List Lib Native L1Manager MapState

variable {Key Obj : Type} [DecidableEq Key] [DecidableEq Obj] {m n : Nat}

/-! ## The invariant -/

/-- What a request's fields say it holds. -/
def recorded (groups : List (GroupedObjectKeys Key)) (r : RequestState m n) : Item Key → Int
  | .read l1Idx key => tally lockWeight groups key (r.keyStates.l1LockedKeys.grid l1Idx)
  | .pin adapter key => tally (fun _ => 1) groups key (r.keyStates.l2LockedKeys.grid adapter)
  | .lookup adapter => if adapter ∈ r.inflightLookupTasks then 1 else 0
  | .load adapter => if adapter ∈ r.inflightLoadTasks then 1 else 0

/-- The request holds what it records, and has not ended. -/
structure Owns (request : Nat) (groups : List (GroupedObjectKeys Key)) (w : World Key Obj)
    (r : RequestState m n) : Prop where
  reads : (flattenedKeys groups).Nodup → NeverMissed request w.trace → ∀ l1Idx key,
    w.holds request (.read l1Idx key) = recorded groups r (.read l1Idx key)
  rest : ∀ x, (∀ l1Idx key, x ≠ .read l1Idx key) → w.holds request x = recorded groups r x
  booked : (flattenedKeys groups).Nodup → NeverMissed request w.trace →
    SecureFor request w.trace → w.Booked request
  staged : (flattenedKeys groups).Nodup → Quiet request w.trace → ∀ l1Idx key,
    w.staged request l1Idx key
      = decide (key ∈ gatherKeys groups (r.keyStates.l1ReservedKeys.grid l1Idx))
  kept : (flattenedKeys groups).Nodup → Quiet request w.trace → NeverMissed request w.trace
  open_ : ∀ a ∈ w.trace, a.requester = some request → a.reports = false

variable {groups : List (GroupedObjectKeys Key)} {r : RequestState m n}

section Steps

variable {request : Nat} {w w' : World Key Obj} {r' : RequestState m n} {δ : Item Key → Int}
  {gone : Nat → Key → Bool}

section

variable (h : Owns request groups w r)
include h

lemma Owns.pins (adapter : Nat) (key : Key) : w.holds request (.pin adapter key)
      = tally (fun _ => 1) groups key (r.keyStates.l2LockedKeys.grid adapter) :=
  h.rest (.pin adapter key) fun _ _ hx => nomatch hx

lemma Owns.lookups (adapter : Nat) :
    w.holds request (.lookup adapter) = if adapter ∈ r.inflightLookupTasks then 1 else 0 :=
  h.rest (.lookup adapter) fun _ _ hx => nomatch hx

lemma Owns.loads (adapter : Nat) :
    w.holds request (.load adapter) = if adapter ∈ r.inflightLoadTasks then 1 else 0 :=
  h.rest (.load adapter) fun _ _ hx => nomatch hx

omit h in
lemma Moves.open_ (h : Moves request w w')
    (hopen : ∀ a ∈ w.trace, a.requester = some request → a.reports = false) :
    ∀ a ∈ w'.trace, a.requester = some request → a.reports = false := by
  intro a ha hreq
  by_contra hrep
  have hrep' : a.reports := by simpa using hrep
  rw [hopen a ((h.mem_trace hreq hrep').mp ha) hreq] at hrep'
  cases hrep'

section Recorded

variable (hreads : (flattenedKeys groups).Nodup → ∀ l1Idx key, recorded groups r' (.read l1Idx key)
    = recorded groups r (.read l1Idx key) + δ (.read l1Idx key))
  (hrest : ∀ x, (∀ l1Idx key, x ≠ .read l1Idx key) →
    recorded groups r' x = recorded groups r x + δ x)
include hreads hrest

lemma Owns.trades (ht : Trades request w w' δ)
    (hstaged : (flattenedKeys groups).Nodup → Quiet request w'.trace → ∀ l1Idx key,
      w'.staged request l1Idx key
      = decide (key ∈ gatherKeys groups (r'.keyStates.l1ReservedKeys.grid l1Idx))) :
    Owns request groups w' r' where
  reads hnodup hn l1Idx key := by
    rw [ht.holds, h.reads hnodup (ht.neverMissed hn), hreads hnodup]
  rest x hx := by rw [ht.holds, h.rest x hx, hrest x hx]
  booked hnodup hn hsecure := by
    refine ht.booked hsecure (fun l1Idx key => ?_) (h.booked hnodup (ht.neverMissed hn)
      (ht.secure hsecure))
    rw [ht.holds, h.reads hnodup (ht.neverMissed hn), ← hreads hnodup]
    exact tally_lockWeight_nonneg key _
  staged := hstaged
  kept hnodup hq := ht.missed (h.kept hnodup (ht.quiet hq))
  open_ := ht.toMoves.open_ h.open_

lemma Owns.effect (he : Effect request w w' δ gone)
    (hstaged : (flattenedKeys groups).Nodup → ∀ l1Idx key,
      (key ∈ gatherKeys groups (r'.keyStates.l1ReservedKeys.grid l1Idx) ↔
      key ∈ gatherKeys groups (r.keyStates.l1ReservedKeys.grid l1Idx) ∧ gone l1Idx key = false)) :
    Owns request groups w' r' := by
  refine h.trades hreads hrest he.toTrades fun hnodup hq l1Idx key => ?_
  rw [he.staged hq, h.staged hnodup (he.quiet hq)]
  simp [hstaged hnodup]

end Recorded

lemma Owns.frame (hf : Frame request w w') : Owns request groups w' r where
  reads hnodup hn l1Idx key :=
    (hf.total _).trans (h.reads hnodup (hf.neverMissed.mp hn) l1Idx key)
  rest x hx := (hf.total _).trans (h.rest x hx)
  booked hnodup hn hsecure := by
    obtain ⟨acts, hw, -⟩ := hf.trace
    exact hf.booked hsecure (h.booked hnodup (hf.neverMissed.mp hn) (hw ▸ hsecure).of_append)
  staged hnodup hq l1Idx key :=
    (hf.staged hq l1Idx key).trans (h.staged hnodup (hf.quiet hq) l1Idx key)
  kept hnodup hq := hf.neverMissed.mpr (h.kept hnodup (hf.quiet hq))
  open_ a ha hreq := h.open_ a ((hf.mem_trace hreq).mp ha) hreq

end

end Steps

/-- The request went from one session to the next and its account kept up. -/
structure Keeps (request : Nat) (groups : List (GroupedObjectKeys Key))
    (s s' : Session Key Obj m n) : Prop where
  moves : Moves request s.world s'.world
  owns : Owns request groups s.world s.request → Owns request groups s'.world s'.request

lemma Keeps.refl {request : Nat} (s : Session Key Obj m n) :
    Keeps request groups s s := ⟨.refl _, id⟩

lemma Keeps.trans {request : Nat} {s s' s'' : Session Key Obj m n} (h : Keeps request groups s s')
    (h' : Keeps request groups s' s'') : Keeps request groups s s'' :=
  ⟨h.moves.trans h'.moves, h'.owns ∘ h.owns⟩

lemma RequestState.refersTo_iff {adapter : Nat} :
    r.refersTo adapter ↔ adapter ∈ r.inflightLookupTasks ∨ adapter ∈ r.inflightLoadTasks ∨
      adapter ∈ r.keyStates.l2LockedKeys := by
  simp [RequestState.refersTo, or_assoc]

/-- The account kept up and no adapter came in. -/
structure Advances (request : Nat) (groups : List (GroupedObjectKeys Key))
    (s s' : Session Key Obj m n) : Prop extends Keeps request groups s s' where
  refs : ∀ adapter, s'.request.refersTo adapter → s.request.refersTo adapter

lemma Advances.refl {request : Nat} (s : Session Key Obj m n) :
    Advances request groups s s := ⟨.refl s, fun _ => id⟩

lemma Advances.trans {request : Nat} {s s' s'' : Session Key Obj m n}
    (h : Advances request groups s s') (h' : Advances request groups s' s'') :
    Advances request groups s s'' :=
  ⟨h.toKeeps.trans h'.toKeeps, fun adapter => h.refs adapter ∘ h'.refs adapter⟩

/-- Taking a map's part away takes its tally away. -/
lemma tally_grid_sub {weight : GroupedObjectKeys Key → Int} {key : Key}
    {whole part : MapState m n} (h : ∀ idx i j, part.has idx i j → whole.has idx i j)
    (idx : Nat) : tally weight groups key ((whole - part).grid idx)
      = tally weight groups key (whole.grid idx) - tally weight groups key (part.grid idx) := by
  rw [grid_sub, tally_sub]
  intro i j hij
  rw [grid_test] at hij ⊢
  exact h idx i j hij

/-! ## The lookup phase -/

section Lookup

variable {env : Environment Key Obj} {request : Nat} {cfg : PrefetchConfig}
  {spec : PrefetchTaskSpec Key} {s : spec.Session Obj}

lemma keeps_lockL1Manager {item : Nat × MemoryTags}
    (hnew : item.1 ∉ s.request.keyStates.l1LockedKeys) :
    Keeps request spec.keyGroups s (lockL1Manager env request spec s item) := by
  rcases lockL1Manager_spec env request s item with hsame | hlocked
  · rw [hsame]
    exact .refl s
  obtain ⟨cells, grant, hreq, heffect, hgrant⟩ := hlocked
  have hzero : ∀ key, tally lockWeight spec.keyGroups key
      (s.request.keyStates.l1LockedKeys.grid item.1) = 0 := fun key =>
    tally_eq_zero fun i j => by
      rw [grid_test]
      by_contra hij
      exact hnew (mem_of_has (by simpa using hij))
  refine ⟨heffect.toMoves, fun h => h.effect ?_ ?_ heffect ?_⟩
  · intro hnodup l1Idx key
    simp only [hreq, recorded, grid_set, readsOn]
    split_ifs with hidx
    · rw [hidx, hzero, hgrant hnodup, zero_add]
    · rw [add_zero]
  · refine Item.rest ?_ ?_ ?_ <;> simp [hreq, recorded, readsOn]
  · simp [hreq]

/-- `_lock_l1_keys` accounts for the locks it takes, and changes nothing else
of the request. -/
lemma keeps_lockL1Keys (hnew : ∀ idx, idx ∉ s.request.keyStates.l1LockedKeys) :
    Keeps request spec.keyGroups s (lockL1Keys env cfg request spec s) ∧
      ∃ locked, (lockL1Keys env cfg request spec s).request
      = { s.request with keyStates := { s.request.keyStates with l1LockedKeys := locked } } := by
  suffices hloop : ∀ (items : List (Nat × MemoryTags))
      (s : spec.Session Obj), (items.map Prod.fst).Nodup →
      (∀ item ∈ items, item.1 ∉ s.request.keyStates.l1LockedKeys) →
      Keeps request spec.keyGroups s (items.foldl (lockL1Manager env request spec) s) ∧
        ∃ locked, (items.foldl (lockL1Manager env request spec) s).request
          = { s.request with keyStates := { s.request.keyStates with l1LockedKeys := locked } } from
    hloop cfg.l1Managers.entries s cfg.l1Managers.nodup fun item _ => hnew item.1
  intro items
  induction items with
  | nil => exact fun s _ _ => ⟨.refl s, _, rfl⟩
  | cons item items ih =>
    intro s hnodup hnew
    obtain ⟨hhead, htail⟩ := nodup_cons.mp hnodup
    have hstep : ∃ locked, (lockL1Manager env request spec s item).request = { s.request with
        keyStates := { s.request.keyStates with l1LockedKeys := locked } } ∧
        ∀ idx ∈ locked, idx = item.1 ∨ idx ∈ s.request.keyStates.l1LockedKeys := by
      rcases lockL1Manager_spec env request s item with hsame | ⟨cells, _, hreq, _⟩
      · exact ⟨_, by rw [hsame], fun _ h => .inr h⟩
      · exact ⟨_, hreq, fun _ h => mem_set.mp h⟩
    obtain ⟨locked, hreq, hlocked⟩ := hstep
    obtain ⟨hkeeps, locked', hreq'⟩ := ih (lockL1Manager env request spec s item) htail (by
      intro other hother hmem
      rw [hreq] at hmem
      rcases hlocked other.1 hmem with heq | hold
      · exact hhead (heq ▸ mem_map_of_mem hother)
      · exact hnew other (mem_cons_of_mem _ hother) hold)
    refine ⟨(keeps_lockL1Manager (hnew item mem_cons_self)).trans hkeeps, locked', ?_⟩
    rw [foldl_cons, hreq', hreq]

omit [DecidableEq Key] in
variable (cfg spec) in
lemma planFor_sound (descs : List Nat) (states : PrefetchKeyState spec.numRows spec.groupSize) :
    PlanSound states.l1LockedKeys states.l2LockedKeys (planFor cfg spec descs states) :=
  planLoad_sound spec.keyGroups spec.fetchingPolicy

variable (env request cfg) in
/-- Planning gives back the locks of what it drops. -/
lemma advances_planLoadRequest (descs : List Nat) (s : spec.Session Obj) :
    Advances request spec.keyGroups s (planLoadRequest env cfg request spec descs s).1 := by
  have hsound := planFor_sound cfg spec descs s.request.keyStates
  have heffect : Effect request s.world (planLoadRequest env cfg request spec descs s).1.world
      _ _ := (effect_finishReadMap spec.rows _ _).trans (effect_unlockMap spec.rows _ _)
        (.inr (by simp [pinsOf]))
  refine ⟨⟨heffect.toMoves, fun h => h.effect ?_ ?_ heffect ?_⟩, fun adapter hrefs => ?_⟩
  · simp only [planLoadRequest, recorded, Pi.add_apply, Pi.neg_apply, readsOf, pinsOf,
      tally_grid_sub hsound.l1Held]
    omega
  · refine Item.rest (fun adapter key => ?_) (fun _ => (add_zero _).symm) fun _ => (add_zero _).symm
    simp only [planLoadRequest, recorded, Pi.add_apply, Pi.neg_apply, readsOf, pinsOf,
      tally_grid_sub hsound.l2Held]
    omega
  · simp [planLoadRequest]
  · rw [RequestState.refersTo_iff] at hrefs ⊢
    refine hrefs.imp_right (Or.imp_right fun hplanned => ?_)
    obtain ⟨-, i, j, hij⟩ := planLoad_l2 spec.keyGroups spec.fetchingPolicy hplanned
    exact mem_of_has (hsound.l2Held adapter i j hij)

/-- The lookup phase between two polls: nothing is reserved or loading, and an
adapter still to answer has locked nothing. -/
structure Looking (r : RequestState m n) : Prop where
  loads : ∀ adapter, adapter ∉ r.inflightLoadTasks
  reserved : r.keyStates.l1ReservedKeys = ∅
  unpinned : ∀ adapter ∈ r.inflightLookupTasks, ∀ i j,
    r.keyStates.l2LockedKeys.has adapter i j = false

/-- A call to an adapter is accounted for when the pins and tasks are. -/
lemma keeps_record {s : Session Key Obj m n} {a : Act Key Obj} (ha : a.requester = some request)
    (hrep : a.reports = false) (hseen : ∀ other l1Idx, a.seen other l1Idx = none)
    (hlocked : r.keyStates.l1LockedKeys = s.request.keyStates.l1LockedKeys)
    (hreserved : r.keyStates.l1ReservedKeys = s.request.keyStates.l1ReservedKeys)
    (hrest : ∀ x, (∀ l1Idx key, x ≠ .read l1Idx key) →
      recorded groups r x = recorded groups s.request x + a.amount x) :
    Keeps request groups s ⟨s.world.record a, r⟩ := by
  have heffect : Effect request s.world (s.world.record a) _ _ := effect_record ha hrep hseen
  refine ⟨heffect.toMoves, fun h => h.effect ?_ hrest heffect ?_⟩
  · intro _ l1Idx key
    simp only [recorded, hlocked, (Act.of_unseen (hseen request)).2, add_zero]
  · simp [hreserved]

lemma keeps_record_same {s : Session Key Obj m n} {a : Act Key Obj}
    (ha : a.requester = some request) (hrep : a.reports = false)
    (hseen : ∀ other l1Idx, a.seen other l1Idx = none) (hnone : ∀ x, a.amount x = 0) :
    Keeps request groups s { s with world := s.world.record a } :=
  keeps_record ha hrep hseen rfl rfl fun x _ => by rw [hnone, add_zero]

variable (env request) in
/-- `_start_lookup_phase` records every lookup it submitted, also when a
submission raises. -/
lemma keeps_submitLookups : ∀ (adapters : List Nat) (s : spec.Session Obj), adapters.Nodup →
    (∀ a ∈ adapters, a ∉ s.request.inflightLookupTasks) →
    Keeps request spec.keyGroups s (submitLookups env request spec adapters s).1
  | [], s, _, _ => .refl s
  | adapter :: rest, s, hnodup, hnew => by
    obtain ⟨hhead, htail⟩ := nodup_cons.mp hnodup
    unfold submitLookups
    cases htask : env.submit s.world.trace.length with
    | none => exact keeps_record_same rfl rfl (fun _ _ => rfl) fun x => by cases x <;> rfl
    | some taskId =>
      refine Keeps.trans ?_ (keeps_submitLookups rest _ htail ?_)
      · refine keeps_record rfl rfl (fun _ _ => rfl) rfl rfl (Item.rest
          (fun _ _ => (add_zero _).symm) (fun idx => ?_) fun _ => (add_zero _).symm)
        have hadapter := hnew adapter mem_cons_self
        simp only [recorded, Act.amount, Dict.mem_set]
        by_cases hidx : idx = adapter
        · simp [hidx, hadapter]
        · simp [hidx, Ne.symm hidx]
      · intro a ha hmem
        rcases Dict.mem_set.mp hmem with heq | hold
        · exact hhead (heq ▸ ha)
        · exact hnew a (mem_cons_of_mem _ ha) hold

omit [DecidableEq Obj] in
variable (env request) in
/-- What submitting the lookups leaves of the request. -/
lemma submitLookups_request : ∀ (adapters : List Nat) (s : spec.Session Obj), ∃ tasks,
    (submitLookups env request spec adapters s).1.request
      = { s.request with inflightLookupTasks := tasks } ∧
      (∀ a ∈ tasks, a ∈ adapters ∨ a ∈ s.request.inflightLookupTasks) ∧
      (∀ a ∈ s.request.inflightLookupTasks, a ∈ tasks) ∧
      ((submitLookups env request spec adapters s).2 = false → ∀ a ∈ adapters, a ∈ tasks)
  | [], s => ⟨_, rfl, fun _ h => .inr h, fun _ h => h, fun _ a ha => absurd ha not_mem_nil⟩
  | adapter :: rest, s => by
    unfold submitLookups
    cases env.submit s.world.trace.length with
    | none => exact ⟨_, rfl, fun _ h => .inr h, fun _ h => h, fun h => nomatch h⟩
    | some taskId =>
      obtain ⟨tasks, hreq, hsub, hold, hall⟩ := submitLookups_request rest
        ⟨s.world.record (.submitLookup request adapter (some taskId)), { s.request with
          inflightLookupTasks := s.request.inflightLookupTasks.set adapter taskId }⟩
      refine ⟨tasks, hreq, fun a ha => ?_, fun a ha => hold a (Dict.mem_set.mpr (.inr ha)),
        fun hok a ha => ?_⟩
      · rcases hsub a ha with hrest | hset
        · exact .inl (mem_cons_of_mem _ hrest)
        · rcases Dict.mem_set.mp hset with rfl | hmem
          · exact .inl mem_cons_self
          · exact .inr hmem
      · rcases mem_cons.mp ha with rfl | hrest
        · exact hold a (Dict.mem_set.mpr (.inl rfl))
        · exact hall hok a hrest

/-- A finished lookup is recorded as pins. -/
lemma keeps_recordLookup {adapter taskId : Nat} {result : Bitmap}
    {found : spec.Grid} (hlooking : Looking s.request)
    (hmem : adapter ∈ s.request.inflightLookupTasks)
    (hfound : scatterBitmapsFullGlobal result spec.numRows spec.groupSize = .ok found) :
    Keeps request spec.keyGroups s ⟨s.world.record (.lookupReply request adapter taskId
      (some (result.gather (flattenedKeys spec.keyGroups)))),
      recordLookup spec adapter found s.request⟩ := by
  refine keeps_record rfl rfl (fun _ _ => rfl) rfl rfl fun x hx => ?_
  cases x with
  | read l1Idx key => exact absurd rfl (hx l1Idx key)
  | pin idx key =>
    have hzero : tally (fun _ => 1) spec.keyGroups key
        (s.request.keyStates.l2LockedKeys.grid adapter) = 0 := tally_eq_zero fun i j => by
      rw [grid_test]
      exact hlooking.unpinned adapter hmem i j
    simp only [recorded, recordLookup, Act.amount, grid_set,
      count_gather_flattenedKeys spec.rows hfound]
    by_cases hidx : idx = adapter
    · simp [hidx, hzero]
    · simp [hidx, Ne.symm hidx]
  | lookup idx =>
    simp only [recorded, recordLookup, Act.amount, Dict.mem_erase]
    by_cases hidx : idx = adapter
    · simp [hidx, hmem]
    · simp [hidx, Ne.symm hidx]
  | load idx => exact (add_zero _).symm

omit [DecidableEq Key] in
lemma Looking.recordLookup {r : spec.State} (h : Looking r) (adapter : Nat) (found : spec.Grid) :
    Looking (recordLookup spec adapter found r) where
  loads := h.loads
  reserved := h.reserved
  unpinned a ha i j := by
    obtain ⟨hne, hmem⟩ := Dict.mem_erase.mp ha
    simp only [StorageControllers.recordLookup, has_set, if_neg hne]
    exact h.unpinned a hmem i j

variable (env request) in
/-- `_poll_lookup_results` records every lock a finished lookup took, also when
a query raises. -/
lemma pollLookupResults_spec (signaled : List Nat) : ∀ (adapters : List Nat)
    (s : spec.Session Obj), Looking s.request →
    Advances request spec.keyGroups s (pollLookupResults env request spec signaled adapters s).1 ∧
      Looking (pollLookupResults env request spec signaled adapters s).1.request
  | [], s, h => ⟨.refl s, h⟩
  | adapter :: rest, s, h => by
    have hnone : ∀ taskId, Advances request spec.keyGroups s
        { s with world := s.world.record (.lookupReply request adapter taskId none) } := fun _ =>
      ⟨keeps_record_same rfl rfl (fun _ _ => rfl) fun x => by cases x <;> rfl, fun _ => id⟩
    unfold pollLookupResults
    split
    · exact pollLookupResults_spec signaled rest s h
    split
    · exact pollLookupResults_spec signaled rest s h
    rename_i taskId htask
    have hmem : adapter ∈ s.request.inflightLookupTasks := Dict.mem_iff_get?.mpr ⟨_, htask⟩
    cases env.reply s.world.trace.length with
    | raises => exact ⟨hnone taskId, h⟩
    | pending =>
      obtain ⟨hadv, hlooking⟩ := pollLookupResults_spec signaled rest
        { s with world := s.world.record (.lookupReply request adapter taskId none) } h
      exact ⟨(hnone taskId).trans hadv, hlooking⟩
    | done bits =>
      dsimp only
      split
      · exact ⟨hnone taskId, h⟩
      rename_i found hfound
      obtain ⟨hadv, hlooking⟩ := pollLookupResults_spec signaled rest
        ⟨_, recordLookup spec adapter found s.request⟩ (h.recordLookup adapter found)
      refine ⟨Advances.trans ⟨keeps_recordLookup h hmem hfound, fun a ha => ?_⟩ hadv, hlooking⟩
      -- the adapter was waited for before it was recorded as a holder
      rw [RequestState.refersTo_iff] at ha ⊢
      simp only [recordLookup, Dict.mem_erase, MapState.mem_set] at ha
      rcases ha with ⟨-, hlookup⟩ | hload | rfl | hpin
      · exact .inl hlookup
      · exact .inr (.inl hload)
      · exact .inl hmem
      · exact .inr (.inr hpin)

end Lookup

end LMCache.StorageControllers
