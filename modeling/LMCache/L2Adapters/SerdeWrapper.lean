/-
LMCache.L2Adapters.SerdeWrapper — the temporary buffers of a wrapped task
(`l2_adapters/serde_wrapper.py`).

A wrapped store serializes every object into a temporary buffer and stores the
buffers. A wrapped load loads the buffers and deserializes them. All buffers of
a task get the serialized size of its first object: the callers are to send
objects of one layout. The store controller groups its keys by model name and
rank, which leaves the object groups mixed, and the prefetch controller sends an
adapter all groups of a request at once. So a task is served iff its objects
happen to have one serialized size (`wrapped_tasks_fit_iff`).
-/
import LMCache.StorageControllers.PrefetchRuns
import LMCache.StorageControllers.StoreController

namespace LMCache.L2Adapters

open Lib Native L1Manager StorageControllers List

variable {Key Obj : Type}

/-! ## The wrapper -/

/-- A temporary buffer: its position in the task, and its size. -/
structure TempBuffer where
  index : Nat
  size : Nat

/-- `_alloc_temp_buffers`, when every reservation succeeds; `estimate` is the
serialized size of the layout of an object. -/
def allocTempBuffers (estimate : Obj → Nat) (keys : List Key) (objects : List Obj) :
    List TempBuffer :=
  match objects with
  | [] => []
  | first :: _ => (range keys.length).map (⟨·, estimate first⟩)

/-- `submit_serialize` of `submit_store_task`. -/
def serializeEntries (keys : List Key) (objects : List Obj) (temps : List TempBuffer) :
    List (Key × Obj × TempBuffer) :=
  keys.zip (objects.zip temps)

/-- `submit_deserialize` of `_drain_inner_load`: the keys that were loaded. -/
def deserializeEntries (keys : List Key) (dstObjs : List Obj) (temps : List TempBuffer)
    (bitmap : Bitmap) : List (Key × Obj × TempBuffer) :=
  ((keys.zip (dstObjs.zip temps)).zipIdx.filter (bitmap.test ·.2)).map Prod.fst

/-! ## When a task is served -/

section Fits

variable (estimate : Obj → Nat) (own : Key → Option Obj) (keys : List Key) (objects : List Obj)

/-- A key with its own object and its own buffer, of the serialized size of the
object. -/
def Fits (entry : Key × Obj × TempBuffer) : Prop :=
  own entry.1 = some entry.2.1 ∧ keys[entry.2.2.index]? = some entry.1 ∧
    entry.2.2.size = estimate entry.2.1

/-- Every key of a store is served. -/
def StoreFits : Prop :=
  ∀ entry ∈ serializeEntries keys objects (allocTempBuffers estimate keys objects),
    Fits estimate own keys entry

/-- Every key of a load is served, whichever keys the inner adapter loads. -/
def LoadFits : Prop :=
  ∀ bitmap, ∀ entry ∈ deserializeEntries keys objects (allocTempBuffers estimate keys objects) bitmap,
    Fits estimate own keys entry

/-- The objects have one serialized size. -/
def Uniform : Prop := ∀ a ∈ objects, ∀ b ∈ objects, estimate a = estimate b

end Fits

variable {estimate : Obj → Nat} {own : Key → Option Obj} {keys : List Key} {objects : List Obj}

lemma mem_serializeEntries {first : Obj} {entry : Key × Obj × TempBuffer} :
    entry ∈ serializeEntries keys (first :: objects)
      (allocTempBuffers estimate keys (first :: objects)) ↔
      ∃ i, keys[i]? = some entry.1 ∧ (first :: objects)[i]? = some entry.2.1 ∧
      entry.2.2 = ⟨i, estimate first⟩ := by
  simp only [mem_iff_getElem?, serializeEntries, getElem?_zip_eq_some, allocTempBuffers]
  refine exists_congr fun i => and_congr_right fun hkey => and_congr_right fun _ => ?_
  have hlt := (List.getElem?_eq_some_iff.mp hkey).1
  simp [hlt, eq_comm]

/-- With every object the one of its key, only the sizes can be wrong. -/
lemma storeFits_iff (hown : keys.map own = objects.map some) :
    StoreFits estimate own keys objects ↔ Uniform estimate objects := by
  cases objects with
  | nil => simp [StoreFits, Uniform, serializeEntries]
  | cons first objects =>
    have hget : ∀ i : Nat, keys[i]?.map own = (first :: objects)[i]?.map some := by
      intro i
      rw [← getElem?_map, hown, getElem?_map]
    simp only [StoreFits, mem_serializeEntries]
    constructor
    · intro h
      have hfirst : ∀ a ∈ first :: objects, estimate first = estimate a := by
        intro a ha
        obtain ⟨i, hi⟩ := mem_iff_getElem?.mp ha
        obtain ⟨key, hkey, -⟩ := Option.map_eq_some_iff.mp ((hget i).trans (by rw [hi]; rfl))
        exact (h (key, a, ⟨i, estimate first⟩) ⟨i, hkey, hi, rfl⟩).2.2
      exact fun a ha b hb => (hfirst a ha).symm.trans (hfirst b hb)
    · rintro huniform ⟨key, object, -⟩ ⟨i, hkey, hobject, rfl⟩
      have hsame := hget i
      simp only [hkey, hobject, Option.map_some, Option.some.injEq] at hsame
      exact ⟨hsame, hkey, huniform _ mem_cons_self _ (mem_of_getElem? hobject)⟩

/-- A load serves its keys iff a store of them would. -/
lemma loadFits_iff : LoadFits estimate own keys objects ↔ StoreFits estimate own keys objects := by
  simp only [LoadFits, deserializeEntries, mem_map, mem_filter]
  constructor
  · intro h entry hentry
    obtain ⟨i, hi⟩ := mem_iff_getElem?.mp hentry
    exact h (.ones (i + 1)) entry ⟨(entry, i), ⟨mk_mem_zipIdx_iff_getElem?.mpr hi, by simp⟩, rfl⟩
  · rintro h bitmap _ ⟨⟨entry, i⟩, ⟨hmem, -⟩, rfl⟩
    exact h entry (mem_of_getElem? (mk_mem_zipIdx_iff_getElem?.mp hmem))

/-! ## The tasks of the controllers -/

variable [DecidableEq Key] {task : Option Nat}

section Store

variable [DecidableEq Obj] {env : StoreEnvironment Key Obj} {w : StoreWorld Key Obj} {adapter : Nat}

lemma mem_onL1 {byController : Bool} {call : L1Call Key Obj} :
    .submitStore adapter task keys objects ∈ (w.onL1 byController call).trace ↔
      .submitStore adapter task keys objects ∈ w.trace := by
  simp [StoreWorld.onL1]

lemma mem_callL1 {op : L1Op Key Obj} :
    .submitStore adapter task keys objects ∈ (w.callL1 env op).trace ↔
      .submitStore adapter task keys objects ∈ w.trace := by
  rw [StoreWorld.callL1, mem_onL1, StoreWorld.interleave]
  generalize env.others w.trace.length = calls
  induction calls generalizing w with
  | nil => rfl
  | cons call calls ih => rw [foldl_cons, ih, mem_onL1]

variable (env) in
/-- What `reserve_read` returned for a key of a store. -/
def readObject (c : StoreController Key Obj) (keys : List Key) (key : Key) : Option Obj :=
  ((reserveRead (c.world.time env) keys 1 (c.world.interleave env).l1).1.get? key).bind Prod.snd

lemma map_readObject {c : StoreController Key Obj} {item : Nat × List Key}
    (h : .submitStore adapter task keys objects ∈ (c.storeToAdapter env item).world.trace)
    (hnew : .submitStore adapter task keys objects ∉ c.world.trace) :
    keys.map (readObject env c item.2) = objects.map some := by
  simp only [StoreController.storeToAdapter] at h
  split at h
  · exact absurd h hnew
  split at h
  · exact absurd (mem_callL1.mp h) hnew
  have hreads : ∀ read ∈ successfulReads (reserveRead (c.world.time env) item.2 1
      (c.world.interleave env).l1).1 item.2, readObject env c item.2 read.1 = some read.2 := by
    intro read hread
    obtain ⟨key, -, hkey⟩ := mem_filterMap.mp hread
    unfold successfulRead at hkey
    split at hkey <;> cases hkey
    rename_i hget
    simp [readObject, hget]
  simp only [StoreController.submitStoreTask] at h
  split at h <;> simp only [StoreWorld.record, mem_callL1, mem_append, mem_singleton, hnew,
    false_or] at h <;>
    · obtain ⟨-, -, rfl, rfl⟩ := h
      simpa using hreads

end Store

lemma map_of_mapM {α β : Type} {f : α → Option β} {l : List α} {r : List β} (h : l.mapM f = some r) :
    l.map f = r.map some := by
  induction l generalizing r with
  | nil => simp_all
  | cons a l ih =>
    simp only [mapM_cons, Option.bind_eq_bind, Option.bind_eq_some_iff, Option.pure_def,
      Option.some.injEq] at h
    obtain ⟨b, hb, r, hr, rfl⟩ := h
    simp [hb, ih hr]

lemma map_reservedObjs {env : Environment Key Obj} {request l2Idx : Nat}
    {spec : PrefetchTaskSpec Key} {reservedObjs : Dict Key Obj}
    {items : List (Nat × Bitmap2D spec.numRows spec.groupSize)}
    {s : Session Key Obj spec.numRows spec.groupSize}
    (h : .submitLoad request l2Idx task keys objects ∈
      (submitLoadTasks env request spec reservedObjs items s).1.world.trace)
    (hnew : .submitLoad request l2Idx task keys objects ∉ s.world.trace) :
    keys.map reservedObjs.get? = objects.map some := by
  induction items generalizing s with
  | nil => exact absurd h hnew
  | cons item items ih =>
    simp only [submitLoadTasks] at h
    split at h
    · exact ih h hnew
    cases hobjects : (gatherKeys spec.keyGroups item.2).mapM reservedObjs.get? with
    | none => exact absurd (by simpa only [hobjects] using h) hnew
    | some loaded =>
      by_cases hthis : Act.submitLoad request l2Idx task keys objects = .submitLoad request item.1
          (env.submit s.world.trace.length) (gatherKeys spec.keyGroups item.2) loaded
      · obtain ⟨-, -, -, rfl, rfl⟩ := Act.submitLoad.inj hthis
        exact map_of_mapM hobjects
      · have hnew' : Act.submitLoad request l2Idx task keys objects ∉ (s.world.record (.submitLoad
            request item.1 (env.submit s.world.trace.length) (gatherKeys spec.keyGroups item.2)
            loaded)).trace := by
          simpa [World.record, hnew] using hthis
        simp only [hobjects] at h
        split at h
        · exact absurd h hnew'
        · exact ih h hnew'

/-- A task of either controller is served by the wrapper iff its objects have one
serialized size. -/
theorem wrapped_tasks_fit_iff [DecidableEq Obj] (estimate : Obj → Nat) :
    (∀ (env : StoreEnvironment Key Obj) (c : StoreController Key Obj) (item : Nat × List Key)
      (adapter : Nat) (task : Option Nat) (keys : List Key) (objects : List Obj),
      .submitStore adapter task keys objects ∈ (c.storeToAdapter env item).world.trace →
      .submitStore adapter task keys objects ∉ c.world.trace →
      (StoreFits estimate (readObject env c item.2) keys objects ↔ Uniform estimate objects)) ∧
    ∀ (env : Environment Key Obj) (request l2Idx : Nat) (spec : PrefetchTaskSpec Key)
      (reservedObjs : Dict Key Obj) (items : List (Nat × Bitmap2D spec.numRows spec.groupSize))
      (s : Session Key Obj spec.numRows spec.groupSize) (task : Option Nat) (keys : List Key)
      (objects : List Obj), .submitLoad request l2Idx task keys objects ∈
      (submitLoadTasks env request spec reservedObjs items s).1.world.trace →
      .submitLoad request l2Idx task keys objects ∉ s.world.trace →
      (LoadFits estimate reservedObjs.get? keys objects ↔ Uniform estimate objects) := by
  constructor
  · intro env c item adapter task keys objects h hnew
    exact storeFits_iff (map_readObject h hnew)
  · intro env request l2Idx spec reservedObjs items s task keys objects h hnew
    exact loadFits_iff.trans (storeFits_iff (map_reservedObjs h hnew))

/-- Objects below 200 serialize to 64 bytes, the others to 128. -/
def serializedSize (object : Nat) : Nat := if object < 200 then 64 else 128

/-- Keys 7 and 8 are written into the objects. -/
def written (objects : List (Nat × Nat)) : StoreEnvironment Nat Nat where
  others n := if n = 0 then [⟨0, .reserveWrite [7, 8] [false, false] "w" ⟨.success, objects⟩⟩,
    ⟨0, .finishWrite [7, 8] "w"⟩] else []
  clock n := n
  submits _ := true
  taskId _ n := n
  taskId_inj _ _ _ h := h
  popCompleted _ := some []
  monotonic _ := 0
  selectStoreTargets _ keys routing := some (routing.foldl (fun plan id => plan.set id keys) ∅)
  selectL1Deletions _ _ := some []

/-- A store controller with the adapter 5. -/
def oneAdapter : StoreController Nat Nat := .init [5] PrefetchController.nodup_five ⟨600, 300⟩

/-- The objects reserved for a load of the two keys. -/
def reservedTwo : Dict Nat Nat := ((∅ : Dict Nat Nat).set 7 100).set 8 150

/-- A store and a load of two keys with objects of one size. -/
theorem twoKeys_fit :
    StoreFits serializedSize (readObject (written [(100, 8), (150, 8)]) oneAdapter [7, 8]) [7, 8]
      [100, 150] ∧ LoadFits serializedSize reservedTwo.get? [7, 8] [100, 150] := by
  obtain ⟨hstore, hload⟩ := @wrapped_tasks_fit_iff Nat Nat _ _ serializedSize
  have huniform : Uniform serializedSize [100, 150] := by simp [Uniform, serializedSize]
  constructor
  · exact (hstore (written [(100, 8), (150, 8)]) oneAdapter (5, [7, 8]) 5 (some 3) [7, 8]
      [100, 150] (mem_of_getElem? (i := 3) rfl) not_mem_nil).mpr huniform
  · exact (hload (PrefetchController.alone [] 1) 0 5 (PrefetchController.oneGroup [7, 8] 1 le_rfl)
      reservedTwo [(5, setCells [0, 1])] ⟨⟨fun _ => .init ⟨600, 300⟩, []⟩, .init⟩ (some 0) [7, 8]
      [100, 150] (mem_of_getElem? (i := 0) rfl) not_mem_nil).mpr huniform

/-- Keys of two object groups with one model name and one rank go into one task,
where both get a buffer of the size for the first. -/
theorem mixedGroups_unfit :
    ((run (StoreController.step (written [(100, 8), (200, 8)]) fun _ => ()) oneAdapter
      [.writeFinished [7, 8], .iterate true []]).world.trace.filterMap fun
        | .submitStore _ _ keys objects => some (keys, objects)
        | _ => none) = [([7, 8], [100, 200])] ∧
      ∀ own : Nat → Option Nat, ¬ StoreFits serializedSize own [7, 8] [100, 200] := by
  refine ⟨by decide +kernel, fun own h => ?_⟩
  have hsize := (h (8, 200, ⟨1, 64⟩) (mem_serializeEntries.mpr ⟨1, rfl, rfl, rfl⟩)).2.2
  cases hsize

end LMCache.L2Adapters
