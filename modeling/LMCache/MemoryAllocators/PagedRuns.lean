/-
LMCache.MemoryAllocators.PagedRuns — what holds of the paged allocator in
every run.

`Tracks` relates a page object to the holds on its page: the pin count is the
number of pins, and while the page is held the reference count is the number
of references. A page that is not held keeps whatever reference count it went
back with; `allocate` overwrites it. It does not overwrite the pin count,
which is why the pin equation has to hold for free pages too.

With `Tracks`, a counter that reaches zero while the other is zero is the
last hold on the page, so `ref_count_down` and `unpin` bring a page back
exactly when nobody has it. `free` and `batched_free` look at no counter:
they are right only under `SharesHeld`.
-/
import LMCache.MemoryAllocators.PagedTensor

namespace LMCache.MemoryAllocators

open Lib List PagedTensorMemoryAllocator BatchedCall Custody.Exact

variable {Shapes Dtypes Owner : Type}

/-! ## Counting holds -/

def holdCount (holds : List (Owner × Share × Nat)) (k : Share) (p : Nat) : Nat :=
  holds.countP fun t => t.2 = (k, p)

section Counting

variable {holds : List (Owner × Share × Nat)} {o : Owner} {k j : Share} {p q : Nat}

lemma holdCount_cons :
    holdCount ((o, j, p) :: holds) k q = holdCount holds k q + if (j, p) = (k, q) then 1 else 0 := by
  simp [holdCount, countP_cons]

lemma holdCount_erase [DecidableEq Owner] (h : (o, j, p) ∈ holds) :
    holdCount (holds.erase (o, j, p)) k q = holdCount holds k q - if (j, p) = (k, q) then 1 else 0 := by
  rw [holdCount, countP_erase]
  simp [holdCount, h]

lemma mem_pages_iff : p ∈ Custody.pages holds ↔
    0 < holdCount holds .reference p + holdCount holds .pin p := by
  rw [Nat.add_pos_iff_pos_or_pos, holdCount, holdCount, countP_pos_iff, countP_pos_iff]
  simp only [Custody.pages, mem_map, decide_eq_true_eq]
  constructor
  · rintro ⟨⟨o, k, p⟩, hmem, rfl⟩
    cases k with
    | reference => exact .inl ⟨_, hmem, rfl⟩
    | pin => exact .inr ⟨_, hmem, rfl⟩
  · rintro (⟨t, hmem, heq⟩ | ⟨t, hmem, heq⟩)
    · exact ⟨t, hmem, congrArg Prod.snd heq⟩
    · exact ⟨t, hmem, congrArg Prod.snd heq⟩

end Counting

/-! ## Page objects against holds -/

/-- The object of page `p` says what the holds say. -/
structure Tracks (a : PagedTensorMemoryAllocator Shapes Dtypes)
    (holds : List (Owner × Share × Nat)) (p : Nat) : Prop where
  valid : (a.objs p).valid
  address : (a.objs p).address = p
  pins : (a.objs p).pinCount = holdCount holds .pin p
  refs : p ∈ Custody.pages holds → (a.objs p).refCount = holdCount holds .reference p
  view : (a.objs p).shapes = a.shapes ∨ p ∈ a.freeBlocks →
    (a.objs p).rawData = pagedBuffer a.alignBytes p

variable {f : TensorMemoryObj Shapes Dtypes → TensorMemoryObj Shapes Dtypes}
  {a : PagedTensorMemoryAllocator Shapes Dtypes} {sizeBytes : Shapes → Dtypes → Nat}

section Tracks

variable {a' : PagedTensorMemoryAllocator Shapes Dtypes} {holds holds' : List (Owner × Share × Nat)}
  {p q : Nat}

lemma Tracks.frame (h : Tracks a holds q) (hobj : a'.objs q = a.objs q)
    (hshapes : a'.shapes = a.shapes) (halign : a'.alignBytes = a.alignBytes)
    (hfree : q ∈ a'.freeBlocks → q ∈ a.freeBlocks)
    (hcount : ∀ k, holdCount holds' k q = holdCount holds k q) : Tracks a' holds' q where
  valid := hobj ▸ h.valid
  address := hobj ▸ h.address
  pins := by rw [hobj, hcount]; exact h.pins
  refs hmem := by
    rw [mem_pages_iff, hcount, hcount, ← mem_pages_iff] at hmem
    rw [hobj, hcount]
    exact h.refs hmem
  view hv := by
    rw [hobj, halign]
    rw [hobj, hshapes] at hv
    exact h.view (hv.imp_right hfree)

section

variable (h : ∀ q, Tracks a holds q)
include h

lemma Tracks.counters {r n : Int}
    (hf : f (a.objs p) = { a.objs p with refCount := r, pinCount := n })
    (hpins : n = holdCount holds' .pin p)
    (hrefs : p ∈ Custody.pages holds' → r = holdCount holds' .reference p)
    (hcount : ∀ k q, q ≠ p → holdCount holds' k q = holdCount holds k q) (q : Nat) :
    Tracks (a.modify p f) holds' q := by
  by_cases hq : q = p
  · subst hq
    have hobj : (a.modify q f).objs q = { a.objs q with refCount := r, pinCount := n } := by
      simp [hf]
    refine ⟨?_, ?_, ?_, fun hmem => ?_, fun hv => ?_⟩
    · rw [hobj]; exact (h q).valid
    · rw [hobj]; exact (h q).address
    · rw [hobj]; exact hpins
    · rw [hobj]; exact hrefs hmem
    · rw [hobj] at hv ⊢
      exact (h q).view hv
  · exact (h q).frame (by simp [hq]) rfl rfl id fun k => hcount k q hq

omit h in
lemma Tracks.unhold (h : Tracks a holds q) (hpin : holdCount holds .pin q = 0)
    (hzero : ∀ k, holdCount holds' k q = 0) : Tracks a holds' q where
  valid := h.valid
  address := h.address
  pins := by rw [h.pins, hpin, hzero]
  refs hmem := by
    rw [mem_pages_iff, hzero, hzero] at hmem
    exact absurd hmem (Nat.lt_irrefl 0)
  view := h.view

variable [DecidableEq Shapes]

lemma Tracks.giveBack (hpin : (a.objs p).pinCount = 0) (hzero : ∀ k, holdCount holds' k p = 0)
    (hcount : ∀ k q, q ≠ p → holdCount holds' k q = holdCount holds k q) (q : Nat) :
    Tracks (a.giveBack p) holds' q := by
  by_cases hq : q = p
  · subst hq
    have hnone : q ∉ Custody.pages holds' := by
      rw [mem_pages_iff, hzero, hzero]
      exact Nat.lt_irrefl 0
    have hobj : (a.giveBack q).objs q =
        if (a.objs q).shapes ≠ a.shapes then
          { a.objs q with rawData := pagedBuffer a.alignBytes (a.objs q).address }
        else a.objs q := by
      simp [giveBack]
    refine ⟨?_, ?_, ?_, fun hmem => absurd hmem hnone, fun _ => ?_⟩
    · rw [hobj]; split <;> exact (h q).valid
    · rw [hobj]; split <;> exact (h q).address
    · rw [hobj, hzero]; split <;> exact hpin
    · rw [hobj]
      split_ifs with hsame
      · rw [(h q).address]; rfl
      · exact (h q).view (.inl (not_not.mp hsame))
  · refine (h q).frame ?_ rfl rfl ?_ (fun k => hcount k q hq)
    · simp [PagedTensorMemoryAllocator.giveBack, hq]
    · simp [PagedTensorMemoryAllocator.giveBack, hq]

lemma Tracks.batchedFreeOne (hzero : ∀ k, holdCount holds k p = 0) (q : Nat) :
    Tracks (a.batchedFreeOne p) holds q := by
  rw [PagedTensorMemoryAllocator.batchedFreeOne, if_pos (h p).valid]
  refine Tracks.giveBack h ?_ hzero (fun _ _ _ => rfl) q
  rw [(h p).pins, hzero]
  rfl

lemma Tracks.free (hpin : (a.objs p).pinCount = 0) (hzero : ∀ k, holdCount holds' k p = 0)
    (hcount : ∀ k q, q ≠ p → holdCount holds' k q = holdCount holds k q) (q : Nat) :
    Tracks (a.free p) holds' q := by
  rw [PagedTensorMemoryAllocator.free, if_pos (h p).valid]
  exact (Tracks.giveBack h hpin hzero hcount q).frame rfl rfl rfl id fun _ => rfl

lemma Tracks.takeBlock {shapes : Shapes} {dtypes : Dtypes} {rest : List Nat}
    (hfree : a.freeBlocks = p :: rest) (hnodup : a.freeBlocks.Nodup)
    (hunheld : p ∉ Custody.pages holds) (q : Nat) :
    Tracks { a.modify p (a.reuse sizeBytes shapes dtypes) with freeBlocks := rest } holds q := by
  have hp : p ∉ rest := by
    rw [hfree] at hnodup
    exact (nodup_cons.mp hnodup).1
  by_cases hq : q = p
  · subst hq
    have hview := (h q).view (.inr (by rw [hfree]; exact mem_cons_self))
    refine ⟨?_, ?_, ?_, fun hmem => absurd hmem hunheld, fun hv => ?_⟩
    · simpa [reuse] using (h q).valid
    · simpa [reuse] using (h q).address
    · simpa [reuse] using (h q).pins
    · have hsame : shapes = a.shapes := by
        rcases hv with hv | hv
        · simpa [reuse] using hv
        · exact absurd hv hp
      simpa [reuse, hsame] using hview
  · refine (h q).frame ?_ rfl rfl (fun hmem => ?_) fun _ => rfl
    · simp [hq]
    · rw [hfree]
      exact mem_cons_of_mem _ hmem

end

end Tracks

/-! ## The invariant -/

def BatchedCall.granted : BatchedCall Shapes Dtypes → List Nat
  | .allocating _ _ _ _ got => got
  | .freeing _ _ _ => []

variable {c : BatchedCall Shapes Dtypes}

lemma BatchedCall.mem_pages_of_granted {p : Nat} (h : p ∈ c.granted) : p ∈ c.pages := by
  cases c with
  | allocating => exact h
  | freeing => exact absurd h not_mem_nil

namespace Pool

/-- Every page is in one place, its object says who has it, and the pages a
batched call has collected are ready to be handed out. -/
structure Inv (w : Pool Owner Shapes Dtypes) : Prop where
  exact : w.custody.Exact (· < w.allocator.numPages)
  tracks : ∀ p, Tracks w.allocator w.holds p
  granted : ∀ call ∈ w.calls, ∀ p ∈ call.2.granted, (w.allocator.objs p).refCount = 1

variable {w : Pool Owner Shapes Dtypes} {holds : List (Owner × Share × Nat)} {o : Owner}
  {p q i : Nat} {c' : BatchedCall Shapes Dtypes}

lemma inv_fresh {shapes : Shapes} {dtypes : Dtypes} {bufferSize : Nat}
    (h : init sizeBytes shapes dtypes bufferSize = some a) :
    Inv (fresh a : Pool Owner Shapes Dtypes) := by
  simp only [init] at h
  split at h
  · cases h
  · obtain rfl := Option.some.inj h
    refine ⟨?_, fun p => ⟨rfl, rfl, rfl, fun hmem => absurd hmem not_mem_nil, fun _ => rfl⟩,
      fun call hcall => absurd hcall not_mem_nil⟩
    show Once (· < bufferSize / sizeBytes shapes dtypes) (range _ ++ [])
    rw [append_nil]
    exact once_range _

lemma Inv.free_nodup (h : Inv w) : w.allocator.freeBlocks.Nodup :=
  (nodup_append.mp (Once.nodup h.exact)).1

lemma Inv.not_free (h : Inv w) (hp : p ∈ w.allocator.freeBlocks) :
    p ∉ w.transit ∧ p ∉ Custody.pages w.holds := by
  have hout := Once.not_mem h.exact hp
  exact ⟨fun ht => hout (mem_append_left _ ht),
    fun hh => hout (mem_append_right _ (mem_dedup.mpr hh))⟩

lemma Inv.transit_unheld (h : Inv w) (hp : p ∈ w.transit) : p ∉ Custody.pages w.holds :=
  transit_once h.exact |>.2 p hp

variable {call : Owner × BatchedCall Shapes Dtypes}

lemma mem_transit (hcall : call ∈ w.calls) (hp : p ∈ call.2.pages) : p ∈ w.transit :=
  mem_flatMap.mpr ⟨call, hcall, hp⟩

lemma Inv.update (h : Inv w)
    (hexact : Custody.Exact (· < w.allocator.numPages) ⟨a.freeBlocks, w.transit, holds⟩)
    (hpages : a.numPages = w.allocator.numPages) (htracks : ∀ q, Tracks a holds q)
    (hsame : ∀ q ∈ w.transit, (a.objs q).refCount = (w.allocator.objs q).refCount) :
    Inv { w with allocator := a, holds := holds } where
  exact := hpages ▸ hexact
  tracks := htracks
  granted call hcall q hq := by
    have hin := mem_transit hcall (mem_pages_of_granted hq)
    rw [hsame q hin]
    exact h.granted call hcall q hq

/-! ## One step -/

/-- The new holds differ from the old ones on page `p` only. -/
def OnlyAt (p : Nat) (old new : List (Owner × Share × Nat)) : Prop :=
  ∀ k q, q ≠ p → holdCount new k q = holdCount old k q

lemma OnlyAt.mem_pages {old new : List (Owner × Share × Nat)} (h : OnlyAt p old new)
    (hq : q ≠ p) : q ∈ Custody.pages new ↔ q ∈ Custody.pages old := by
  rw [mem_pages_iff, mem_pages_iff, h _ q hq, h _ q hq]

lemma onlyAt_cons {k : Share} : OnlyAt p holds ((o, k, p) :: holds) := by
  intro j q hq
  rw [holdCount_cons, if_neg fun heq => hq (congrArg Prod.snd heq).symm]
  rfl

lemma onlyAt_erase [DecidableEq Owner] {k : Share} (h : (o, k, p) ∈ holds) :
    OnlyAt p holds (holds.erase (o, k, p)) := by
  intro j q hq
  rw [holdCount_erase h, if_neg fun heq => hq (congrArg Prod.snd heq).symm]
  rfl

/-- A step on the holds and the counters of one page. It appends the page to
the free list if it takes the last hold off it. -/
lemma Inv.move (h : Inv w) (hheld : p ∈ Custody.pages w.holds) (honly : OnlyAt p w.holds holds)
    (hfree : a.freeBlocks = if p ∈ Custody.pages holds then w.allocator.freeBlocks
      else w.allocator.freeBlocks ++ [p]) (hpages : a.numPages = w.allocator.numPages)
    (hobjs : ∀ q, q ≠ p → a.objs q = w.allocator.objs q) (htracks : ∀ q, Tracks a holds q) :
    Inv { w with allocator := a, holds := holds } := by
  refine h.update ?_ hpages htracks fun q hq => ?_
  · rw [hfree]
    by_cases hstill : p ∈ Custody.pages holds
    · rw [if_pos hstill]
      refine rehold h.exact fun q => ?_
      by_cases hq : q = p
      · subst hq
        exact iff_of_true hstill hheld
      · exact honly.mem_pages hq
    · rw [if_neg hstill]
      refine put (retire h.exact (nodup_singleton p) ?_ fun q => ?_)
      · simpa using hheld
      · by_cases hq : q = p
        · simp [hq, hstill]
        · simp [hq, honly.mem_pages hq]
  · have hne : q ≠ p := fun heq => h.transit_unheld hq (heq ▸ hheld)
    rw [hobjs q hne]

lemma mem_pages_of_mem {k : Share} (h : (o, k, p) ∈ holds) : p ∈ Custody.pages holds :=
  mem_map.mpr ⟨_, h, rfl⟩

lemma holdCount_eq_zero (h : p ∉ Custody.pages holds) (k : Share) : holdCount holds k p = 0 := by
  rw [mem_pages_iff] at h
  cases k <;> omega

lemma Inv.takeUp {k : Share} (h : Inv w) (hheld : p ∈ Custody.pages w.holds)
    (hf : f (w.allocator.objs p) = { w.allocator.objs p with
      refCount := holdCount ((o, k, p) :: w.holds) .reference p
      pinCount := holdCount ((o, k, p) :: w.holds) .pin p }) :
    Inv { w with allocator := w.allocator.modify p f, holds := (o, k, p) :: w.holds } :=
  h.move hheld onlyAt_cons (if_pos (mem_pages_of_mem mem_cons_self)).symm rfl
    (fun q hq => by simp [hq]) (Tracks.counters h.tracks hf rfl (fun _ => rfl) onlyAt_cons)

lemma inv_clampPin (h : Inv w) :
    Inv { w with
      allocator := w.allocator.modify p fun obj => { obj with pinCount := max obj.pinCount 0 } } := by
  have hpins := (h.tracks p).pins
  refine h.update h.exact rfl (Tracks.counters h.tracks rfl ?_ (h.tracks p).refs fun _ _ _ => rfl)
    fun q _ => ?_
  · omega
  · rw [objs_modify]
    split_ifs with hq
    · rw [hq]
    · rfl

section Release

variable [DecidableEq Shapes]

lemma free_spec (h : (a.objs p).valid) :
    (a.free p).freeBlocks = a.freeBlocks ++ [p] ∧ (a.free p).numPages = a.numPages ∧
      ∀ q, q ≠ p → (a.free p).objs q = a.objs q := by
  rw [free, if_pos h]
  refine ⟨rfl, rfl, fun q hq => ?_⟩
  simp [giveBack, hq]

/-- The end of `ref_count_down` and `unpin`: the counters of the page already
say what the new holds say, and the page goes back if both are zero. -/
lemma Inv.release (h : Inv w) (hheld : p ∈ Custody.pages w.holds) (honly : OnlyAt p w.holds holds)
    (htracks : ∀ q, Tracks (w.allocator.modify p f) holds q) : Inv { w with
      allocator := if p ∈ Custody.pages holds then w.allocator.modify p f
        else (w.allocator.modify p f).free p
      holds := holds } := by
  have hother : ∀ q, q ≠ p → (w.allocator.modify p f).objs q = w.allocator.objs q := by
    intro q hq
    simp [hq]
  split
  · rename_i hstill
    exact h.move hheld honly (if_pos hstill).symm rfl hother htracks
  · rename_i hgone
    obtain ⟨hfree, hpages, hobjs⟩ := free_spec (htracks p).valid
    refine h.move hheld honly (hfree.trans (if_neg hgone).symm) hpages
      (fun q hq => (hobjs q hq).trans (hother q hq)) ?_
    have hpin : ((w.allocator.modify p f).objs p).pinCount = 0 := by
      rw [(htracks p).pins, holdCount_eq_zero hgone]
      rfl
    exact Tracks.free htracks hpin (holdCount_eq_zero hgone) fun _ _ _ => rfl

variable [DecidableEq Owner]

/-- An owner gives up a hold: the counters follow, and the page goes back when
both are zero, which is when no hold is left. -/
lemma Inv.giveUp {k : Share} {r n : Int} (h : Inv w) (hown : (o, k, p) ∈ w.holds)
    (hf : f (w.allocator.objs p) = { w.allocator.objs p with refCount := r, pinCount := n })
    (hrefs : r = holdCount (w.holds.erase (o, k, p)) .reference p)
    (hpins : n = holdCount (w.holds.erase (o, k, p)) .pin p) : Inv { w with
      allocator := if r ≤ 0 ∧ n ≤ 0 then (w.allocator.modify p f).free p
        else w.allocator.modify p f
      holds := w.holds.erase (o, k, p) } := by
  have hcond : (r ≤ 0 ∧ n ≤ 0) ↔ p ∉ Custody.pages (w.holds.erase (o, k, p)) := by
    rw [mem_pages_iff]
    omega
  simp only [hcond, ite_not]
  exact h.release (mem_pages_of_mem hown) (onlyAt_erase hown)
    (Tracks.counters h.tracks hf hpins (fun _ => hrefs) (onlyAt_erase hown))

lemma inv_refCountDown (h : Inv w) (hown : (o, .reference, p) ∈ w.holds) :
    Inv { w with
      allocator := w.allocator.refCountDown p
      holds := w.holds.erase (o, .reference, p) } := by
  have hrefs := (h.tracks p).refs (mem_pages_of_mem hown)
  have hpins := (h.tracks p).pins
  have hgive := h.giveUp hown (f := fun obj => { obj with refCount := max (obj.refCount - 1) 0 }) rfl
    (by rw [holdCount_erase hown, if_pos rfl]; omega) (by simp [hpins, holdCount_erase hown])
  have hzero : max ((w.allocator.objs p).refCount - 1) 0 = 0 ∧ (w.allocator.objs p).pinCount = 0 ↔
      max ((w.allocator.objs p).refCount - 1) 0 ≤ 0 ∧ (w.allocator.objs p).pinCount ≤ 0 := by
    omega
  simpa only [refCountDown, objs_modify, if_true, hzero] using hgive

lemma inv_unpin (h : Inv w) (hown : (o, .pin, p) ∈ w.holds) :
    Inv { w with allocator := w.allocator.unpin p, holds := w.holds.erase (o, .pin, p) } := by
  have hpos : 0 < holdCount w.holds .pin p := countP_pos_iff.mpr ⟨_, hown, by simp⟩
  have hrefs := (h.tracks p).refs (mem_pages_of_mem hown)
  have hpins := (h.tracks p).pins
  have hgive := h.giveUp hown (f := fun obj => { obj with pinCount := obj.pinCount - 1 }) rfl
    (by simp [hrefs, holdCount_erase hown]) (by rw [holdCount_erase hown, if_pos rfl]; omega)
  simpa only [unpin, objs_modify, if_true,
    and_comm] using inv_clampPin (p := p) hgive

variable {old : List (Owner × Share × Nat)} {ps : List Nat}

section

variable (halone : ∀ t ∈ old, t.2.2 ∈ ps → t.1 = o ∧ t.2.1 = .reference)
include halone

lemma holdCount_filter_reference {k : Share} :
    holdCount (old.filter fun t => ¬ (t.1 = o ∧ t.2.1 = .reference ∧ t.2.2 ∈ ps)) k q =
      if q ∈ ps then 0 else holdCount old k q := by
  rw [holdCount, countP_filter]
  split_ifs with hq
  · refine countP_eq_zero.mpr fun t ht => ?_
    simp only [Bool.and_eq_true, decide_eq_true_eq, not_and]
    intro heq hnot
    have hpage : t.2.2 = q := congrArg Prod.snd heq
    have hin : t.2.2 ∈ ps := hpage ▸ hq
    exact hnot (halone t ht hin).1 (halone t ht hin).2 hin
  · refine countP_congr fun t ht => ?_
    simp only [Bool.and_eq_true, decide_eq_true_eq, and_iff_left_iff_imp]
    intro heq hall
    have hpage : t.2.2 = q := congrArg Prod.snd heq
    exact hq (hpage ▸ hall.2.2)

omit [DecidableEq Owner] in
lemma holdCount_pin_eq_zero (hq : q ∈ ps) : holdCount old .pin q = 0 := by
  refine countP_eq_zero.mpr fun t ht heq => ?_
  have hpin : t.2 = (.pin, q) := by simpa using heq
  have hkind := (halone t ht (by rw [hpin]; exact hq)).2
  rw [hpin] at hkind
  cases hkind

end

lemma inv_free (h : Inv w) (hown : (o, .reference, p) ∈ w.holds)
    (halone : ∀ t ∈ w.holds, t.2.2 = p → t.1 = o ∧ t.2.1 = .reference) :
    Inv { w with
      allocator := w.allocator.free p
      holds := w.holds.filter (· ≠ (o, .reference, p)) } := by
  have hlist : ∀ t ∈ w.holds, t.2.2 ∈ [p] → t.1 = o ∧ t.2.1 = .reference := fun t ht hp =>
    halone t ht (mem_singleton.mp hp)
  have hfilter : w.holds.filter (· ≠ (o, Share.reference, p)) =
      w.holds.filter fun t => ¬ (t.1 = o ∧ t.2.1 = .reference ∧ t.2.2 ∈ [p]) := by
    simp [Prod.ext_iff]
  have hcount : ∀ k q, holdCount (w.holds.filter (· ≠ (o, Share.reference, p))) k q =
      if q ∈ [p] then 0 else holdCount w.holds k q := by
    intro k q
    rw [hfilter]
    exact holdCount_filter_reference hlist
  have hzero : ∀ k, holdCount (w.holds.filter (· ≠ (o, Share.reference, p))) k p = 0 := fun k => by
    rw [hcount, if_pos (mem_singleton.mpr rfl)]
  have honly : OnlyAt p w.holds (w.holds.filter (· ≠ (o, Share.reference, p))) := fun k q hq => by
    rw [hcount, if_neg (by simpa using hq)]
  have hnopin : (w.allocator.objs p).pinCount = 0 := by
    rw [(h.tracks p).pins, holdCount_pin_eq_zero hlist (mem_singleton.mpr rfl)]
    rfl
  have hgone : p ∉ Custody.pages (w.holds.filter (· ≠ (o, Share.reference, p))) := by
    rw [mem_pages_iff, hzero, hzero]
    exact Nat.lt_irrefl 0
  obtain ⟨hfree, hpages, hobjs⟩ := free_spec (h.tracks p).valid
  exact h.move (mem_pages_of_mem hown) honly (hfree.trans (if_neg hgone).symm) hpages hobjs
    (Tracks.free h.tracks hnopin hzero honly)

omit [DecidableEq Shapes] in
lemma inv_batchedFree {updateStats : Bool} (h : Inv w) (hnodup : ps.Nodup)
    (hown : ∀ p ∈ ps, (o, .reference, p) ∈ w.holds)
    (halone : ∀ t ∈ w.holds, t.2.2 ∈ ps → t.1 = o ∧ t.2.1 = .reference) :
    Inv { w with
      holds := w.holds.filter fun t => ¬ (t.1 = o ∧ t.2.1 = .reference ∧ t.2.2 ∈ ps)
      calls := w.calls ++ [(o, .freeing ps ps updateStats)] } where
  exact := by
    have hrest : ∀ q, q ∈ Custody.pages
        (w.holds.filter fun t => ¬ (t.1 = o ∧ t.2.1 = .reference ∧ t.2.2 ∈ ps)) ↔
          q ∉ ps ∧ q ∈ Custody.pages w.holds := by
      intro q
      rw [mem_pages_iff, mem_pages_iff, holdCount_filter_reference halone,
        holdCount_filter_reference halone]
      by_cases hq : q ∈ ps <;> simp [hq]
    have hretire := retire h.exact hnodup (fun p hp => mem_pages_of_mem (hown p hp)) hrest
    refine hretire.reorder ?_
    simpa [transit, pages] using perm_append_comm
  tracks q := by
    by_cases hq : q ∈ ps
    · exact (h.tracks q).unhold (holdCount_pin_eq_zero halone hq) fun k => by
        rw [holdCount_filter_reference halone, if_pos hq]
    · exact (h.tracks q).frame rfl rfl rfl id fun k => by
        rw [holdCount_filter_reference halone, if_neg hq]
  granted call hcall q hq := by
    rcases mem_append.mp hcall with hcall | hcall
    · exact h.granted call hcall q hq
    · rw [mem_singleton.mp hcall] at hq
      exact absurd hq not_mem_nil

end Release

/-! ## One iteration of a batched call -/

variable (w i) in
/-- The pages inside the calls other than the `i`-th. -/
def others : List Nat :=
  (w.calls.take i ++ w.calls.drop (i + 1)).flatMap (·.2.pages)

lemma calls_split (hi : w.calls[i]? = some call) :
    w.calls = w.calls.take i ++ call :: w.calls.drop (i + 1) := by
  obtain ⟨hlt, hget⟩ := List.getElem?_eq_some_iff.mp hi
  rw [← hget, getElem_cons_drop hlt, take_append_drop]

lemma perm_others (pre post : List (Owner × BatchedCall Shapes Dtypes)) :
    ((pre ++ (o, c) :: post).flatMap (·.2.pages)).Perm
      (c.pages ++ (pre ++ post).flatMap (·.2.pages)) := by
  rw [flatMap_append, flatMap_append]
  exact perm_append_comm_assoc ..

lemma Inv.exact_call (h : Inv w) (hi : w.calls[i]? = some (o, c)) :
    Custody.Exact (· < w.allocator.numPages)
      ⟨w.allocator.freeBlocks, c.pages ++ w.others i, w.holds⟩ := by
  refine reorder h.exact ?_
  show (w.calls.flatMap (·.2.pages)).Perm _
  rw [calls_split hi]
  have hperm := perm_others (o := o) (c := c) (w.calls.take i) (w.calls.drop (i + 1))
  simpa [others] using hperm

section

variable (h : Inv w)
  (hsame : ∀ q ∈ w.others i, (a.objs q).refCount = (w.allocator.objs q).refCount)
include h hsame

lemma Inv.granted_others
    (hcall : call ∈ w.calls.take i ++ w.calls.drop (i + 1)) (hq : q ∈ call.2.granted) :
    (a.objs q).refCount = 1 := by
  have hmem : call ∈ w.calls := by
    rcases mem_append.mp hcall with hcall | hcall
    · exact mem_of_mem_take hcall
    · exact mem_of_mem_drop hcall
  have hin : q ∈ w.others i :=
    mem_flatMap.mpr ⟨call, hcall, mem_pages_of_granted hq⟩
  rw [hsame q hin]
  exact h.granted call hmem q hq

variable (o : Owner) (hpages : a.numPages = w.allocator.numPages)
  (htracks : ∀ q, Tracks a w.holds q)
include hpages htracks

lemma Inv.running (c' : BatchedCall Shapes Dtypes)
    (hexact : Custody.Exact (· < w.allocator.numPages)
      ⟨a.freeBlocks, c'.pages ++ w.others i, w.holds⟩)
    (hnew : ∀ q ∈ c'.granted, (a.objs q).refCount = 1) :
    Inv { w with
      allocator := a, calls := w.calls.take i ++ (o, c') :: w.calls.drop (i + 1) } where
  exact := by
    rw [hpages]
    exact hexact.reorder (perm_others _ _).symm
  tracks := htracks
  granted call hcall q hq := by
    rcases mem_cons.mp (perm_middle.mem_iff.mp hcall) with rfl | hcall
    · exact hnew q hq
    · exact h.granted_others hsame hcall hq

lemma Inv.returned (ps : List Nat)
    (hexact : Custody.Exact (· < w.allocator.numPages) ⟨a.freeBlocks, ps ++ w.others i, w.holds⟩)
    (hnew : ∀ q ∈ ps, (a.objs q).refCount = 1) :
    Inv { allocator := a
          holds := ps.map (o, .reference, ·) ++ w.holds
          calls := w.calls.take i ++ w.calls.drop (i + 1) } where
  exact := by
    rw [hpages]
    exact hexact.grant o .reference
  tracks q := by
    have hnodup : ps.Nodup := (nodup_append.mp hexact.transit_once.1).1
    have hunheld : q ∈ ps → q ∉ Custody.pages w.holds := fun hq =>
      hexact.transit_once.2 q (mem_append_left _ hq)
    have hpins : holdCount (ps.map (o, Share.reference, ·) ++ w.holds) .pin q =
        holdCount w.holds .pin q := by
      simp [holdCount]
    have hrefs : holdCount (ps.map (o, Share.reference, ·) ++ w.holds) .reference q =
        ps.count q + holdCount w.holds .reference q := by
      simp [holdCount, Function.comp_def, count, beq_eq_decide _ q]
    by_cases hq : q ∈ ps
    · refine ⟨(htracks q).valid, (htracks q).address, ?_, fun _ => ?_, (htracks q).view⟩
      · rw [hpins]
        exact (htracks q).pins
      · rw [hrefs, hnew q hq, count_eq_one_of_mem hnodup hq, holdCount_eq_zero (hunheld hq)]
        rfl
    · refine (htracks q).frame rfl rfl rfl id fun k => ?_
      cases k with
      | reference => rw [hrefs, count_eq_zero_of_not_mem hq, Nat.zero_add]
      | pin => exact hpins
  granted call hcall q hq := h.granted_others hsame hcall hq

end

variable (w i) in
lemma others_subset : ∀ q ∈ w.others i, q ∈ w.transit := by
  intro q hq
  obtain ⟨call, hcall, hq⟩ := mem_flatMap.mp hq
  rcases mem_append.mp hcall with hcall | hcall
  · exact mem_transit (mem_of_mem_take hcall) hq
  · exact mem_transit (mem_of_mem_drop hcall) hq

variable [DecidableEq Shapes] {shapes : Shapes} {dtypes : Dtypes}

/-- A popped page: the first of the free list, with one reference to hand out. -/
structure Taken (w : Pool Owner Shapes Dtypes) (p : Nat)
    (a : PagedTensorMemoryAllocator Shapes Dtypes) : Prop where
  free : w.allocator.freeBlocks = p :: a.freeBlocks
  numPages : a.numPages = w.allocator.numPages
  tracks : ∀ q, Tracks a w.holds q
  one : (a.objs p).refCount = 1
  same : ∀ q ∈ w.transit, (a.objs q).refCount = (w.allocator.objs q).refCount

lemma Inv.taken (h : Inv w) (htake : w.allocator.takeBlock sizeBytes shapes dtypes = some (p, a)) :
    Taken w p a := by
  unfold takeBlock at htake
  split at htake
  · cases htake
  · rename_i p' rest hfree
    obtain ⟨rfl, rfl⟩ := Prod.mk.inj (Option.some.inj htake)
    have hmem : p' ∈ w.allocator.freeBlocks := by
      rw [hfree]
      exact mem_cons_self
    have hout := h.not_free hmem
    refine ⟨hfree, rfl, Tracks.takeBlock h.tracks hfree h.free_nodup hout.2, by simp [reuse],
      fun q hq => ?_⟩
    have hne : q ≠ p' := fun heq => hout.1 (heq ▸ hq)
    simp [hne]

variable (a) in
omit [DecidableEq Shapes] in
lemma batchedFreeStats_eq (k : Nat) (u : Bool) : ∃ n t, a.batchedFreeStats k u =
      { a with numActiveAllocations := n, totalAllocatedSize := t } := by
  cases u with
  | false => exact ⟨_, _, rfl⟩
  | true => exact ⟨_, _, rfl⟩

lemma refCount_giveBack : ((a.giveBack p).objs q).refCount = (a.objs q).refCount := by
  simp only [giveBack, objs_modify]
  by_cases hq : q = p
  · subst hq
    rw [if_pos rfl]
    split <;> rfl
  · rw [if_neg hq]

variable [DecidableEq Owner]

lemma inv_allocate (h : Inv w) : Inv (w.step sizeBytes (.allocate o shapes dtypes)) := by
  simp only [step, allocate]
  cases htake : w.allocator.takeBlock sizeBytes shapes dtypes with
  | none => exact h
  | some taken =>
    obtain ⟨p, a⟩ := taken
    have ht := h.taken htake
    -- a call of its own with one page, returned at once
    have hcalls : w.calls.take w.calls.length ++ w.calls.drop (w.calls.length + 1) = w.calls := by
      rw [take_length, drop_eq_nil_of_le (Nat.le_succ _), append_nil]
    have hothers : w.others w.calls.length = w.transit := by rw [others, hcalls, transit]
    have hexact : Custody.Exact (· < w.allocator.numPages)
        ⟨a.freeBlocks, [p] ++ w.others w.calls.length, w.holds⟩ := by
      have hall := h.exact
      simp only [custody, ht.free] at hall
      rw [hothers]
      exact hall.take
    have hret := h.returned (hothers ▸ ht.same) o ht.numPages ht.tracks [p] hexact
      fun q hq => mem_singleton.mp hq ▸ ht.one
    rw [hcalls] at hret
    exact ⟨hret.exact, fun q => (hret.tracks q).frame rfl rfl rfl id fun _ => rfl, hret.granted⟩

lemma inv_advance (h : Inv w) (i : Nat) : Inv (w.step sizeBytes (.advance i)) := by
  simp only [step]
  cases hi : w.calls[i]? with
  | none => exact h
  | some call =>
    obtain ⟨o, c⟩ := call
    have hexact := h.exact_call hi
    have hkeep : ∀ q ∈ w.others i, (w.allocator.objs q).refCount = (w.allocator.objs q).refCount :=
      fun _ _ => rfl
    cases c with
    | allocating shapes dtypes batchSize left got =>
      have hgot := h.granted _ (mem_of_getElem? hi)
      cases left with
      | zero =>
        exact h.returned (a := w.allocator.batchedAllocateStats batchSize) hkeep o rfl
          (fun q => (h.tracks q).frame rfl rfl rfl id fun _ => rfl) got hexact hgot
      | succ left =>
        simp only [advance]
        cases htake : w.allocator.takeBlock sizeBytes shapes dtypes with
        | none =>
          exact h.running hkeep o rfl h.tracks (.freeing got got false) hexact
            fun q hq => absurd hq not_mem_nil
        | some taken =>
          obtain ⟨p, a⟩ := taken
          have ht := h.taken htake
          rw [ht.free] at hexact
          refine h.running (fun q hq => ht.same q (others_subset w i q hq)) o ht.numPages ht.tracks
            (.allocating shapes dtypes batchSize left (got ++ [p])) (hexact.take.reorder ?_)
            fun q hq => ?_
          · show (p :: (got ++ w.others i)).Perm ((got ++ [p]) ++ w.others i)
            rw [append_assoc]
            exact perm_middle.symm
          · rcases mem_append.mp hq with hq | hq
            · rw [ht.same q (mem_transit (mem_of_getElem? hi) hq)]
              exact hgot q hq
            · rw [mem_singleton.mp hq]
              exact ht.one
    | freeing given left updateStats =>
      cases left with
      | nil =>
        obtain ⟨n, t, hstats⟩ := batchedFreeStats_eq w.allocator given.length updateStats
        simp only [advance, hstats]
        refine h.returned ?_ o ?_ ?_ [] hexact fun q hq => absurd hq not_mem_nil
        · exact hkeep
        · rfl
        · exact fun q => (h.tracks q).frame rfl rfl rfl id fun _ => rfl
      | cons p left =>
        have hunheld :=
          h.transit_unheld (mem_transit (mem_of_getElem? hi) mem_cons_self)
        have htracks := Tracks.batchedFreeOne h.tracks (holdCount_eq_zero hunheld)
        have hone : w.allocator.batchedFreeOne p = w.allocator.giveBack p := if_pos (h.tracks p).valid
        simp only [advance]
        rw [hone] at htracks ⊢
        exact h.running (fun q _ => refCount_giveBack) o rfl htracks (.freeing given left updateStats)
          hexact.put fun q hq => absurd hq not_mem_nil

omit [DecidableEq Shapes] [DecidableEq Owner] in
lemma inv_batchedAllocate {n : Nat} (h : Inv w) :
    Inv { w with calls := w.calls ++ [(o, .allocating shapes dtypes n n [])] } where
  exact := by
    have htransit : (w.calls ++ [(o, allocating shapes dtypes n n [])]).flatMap
        (·.2.pages) = w.transit := by
      simp [transit, pages]
    show Custody.Exact _ ⟨_, (w.calls ++ [_]).flatMap _, _⟩
    rw [htransit]
    exact h.exact
  tracks := h.tracks
  granted call hcall q hq := by
    rcases mem_append.mp hcall with hcall | hcall
    · exact h.granted call hcall q hq
    · rw [mem_singleton.mp hcall] at hq
      exact absurd hq not_mem_nil

lemma inv_step {e : Event Owner Shapes Dtypes} (h : Inv w) (hown : w.ReleasesOwn e)
    (hshare : w.SharesHeld e) : Inv (w.step sizeBytes e) := by
  cases e with
  | allocate o shapes dtypes => exact inv_allocate h
  | batchedAllocate o shapes dtypes n => exact inv_batchedAllocate h
  | refCountUp o p =>
    exact h.takeUp hshare (by simp [(h.tracks p).refs hshare, (h.tracks p).pins, holdCount_cons])
  | refCountDown o p => exact inv_refCountDown h hown
  | pin o p =>
    exact h.takeUp hshare (by simp [(h.tracks p).refs hshare, (h.tracks p).pins, holdCount_cons])
  | unpin o p => exact inv_unpin h hown
  | free o p => exact inv_free h hown hshare
  | batchedFree o ps updateStats => exact inv_batchedFree h hown.1 hown.2 hshare
  | advance i => exact inv_advance h i

/-! ## Whole runs -/

/-- No page is on the free list twice, and none that an owner or a call has. -/
structure Sound (w : Pool Owner Shapes Dtypes) : Prop where
  free_nodup : w.allocator.freeBlocks.Nodup
  free_unheld : ∀ p ∈ w.allocator.freeBlocks, p ∉ Custody.pages w.holds ∧ p ∉ w.transit

/-- The event hands every page out once, and none that an owner has. -/
def HandsOutOnce (sizeBytes : Shapes → Dtypes → Nat) (w : Pool Owner Shapes Dtypes)
    (e : Event Owner Shapes Dtypes) : Prop :=
  (w.handedOut sizeBytes e).Nodup ∧
    ∀ p ∈ w.handedOut sizeBytes e, p ∉ Custody.pages w.holds

omit [DecidableEq Shapes] [DecidableEq Owner] in
lemma Inv.sound (h : Inv w) : Sound w :=
  ⟨h.free_nodup, fun _ hp => ⟨(h.not_free hp).2, (h.not_free hp).1⟩⟩

omit [DecidableEq Owner] in
lemma Inv.handsOutOnce (h : Inv w) (e : Event Owner Shapes Dtypes) :
    HandsOutOnce sizeBytes w e := by
  have hnone : ([] : List Nat).Nodup ∧ ∀ p ∈ ([] : List Nat), p ∉ Custody.pages w.holds :=
    ⟨nodup_nil, fun _ hp => absurd hp not_mem_nil⟩
  cases e with
  | allocate o shapes dtypes =>
    simp only [HandsOutOnce, handedOut, allocate]
    cases htake : w.allocator.takeBlock sizeBytes shapes dtypes with
    | none => exact hnone
    | some taken =>
      obtain ⟨p, a⟩ := taken
      refine ⟨nodup_singleton p, fun q hq => ?_⟩
      rw [mem_singleton.mp hq]
      exact (h.not_free (by rw [(h.taken htake).free]; exact mem_cons_self)).2
  | advance i =>
    simp only [HandsOutOnce, handedOut]
    cases hi : w.calls[i]? with
    | none => exact hnone
    | some call =>
      obtain ⟨o, c⟩ := call
      cases c with
      | allocating shapes dtypes batchSize left got =>
        cases left with
        | zero =>
          refine ⟨(nodup_append.mp (h.exact_call hi).transit_once.1).1, fun q hq => ?_⟩
          exact h.transit_unheld (mem_transit (mem_of_getElem? hi) hq)
        | succ left =>
          simp only [advance]
          cases w.allocator.takeBlock sizeBytes shapes dtypes <;> exact hnone
      | freeing given left updateStats => cases left <;> exact hnone
  | _ => exact hnone

variable (sizeBytes) in
/-- In every run in which owners release what they took, share only pages
that somebody has, and call `free` only on pages they have alone. -/
theorem sound_of_disciplined {bufferSize : Nat} {es : List (Event Owner Shapes Dtypes)}
    (hinit : init sizeBytes shapes dtypes bufferSize = some a)
    (hes : Along (step sizeBytes) (fun w e => w.ReleasesOwn e ∧ w.SharesHeld e) (fresh a) es) :
    Sound (run (step sizeBytes) (fresh a) es) ∧
      ∀ e, HandsOutOnce sizeBytes (run (step sizeBytes) (fresh a) es) e := by
  have hinv : Inv (run (step sizeBytes) (fresh a) es) :=
    run_inv Inv (fun w e h hd => inv_step h hd.1 hd.2) (inv_fresh hinit) hes
  exact ⟨hinv.sound, hinv.handsOutOnce⟩

/-- Two pages of four bytes. -/
def twoPages : PagedTensorMemoryAllocator Unit Unit :=
  (init (fun _ _ => 4) () () 8).get rfl

/-- Owner 0 releases page 0 while owner 1 has it pinned; both counters of the
page reach zero. Owner 2 then takes both pages with one batched call. -/
def pinnedThenBatch : List (Event Nat Unit Unit) :=
  [.allocate 0 () (), .pin 1 0, .refCountDown 0 0, .unpin 1 0,
    .batchedAllocate 2 () () 2, .advance 0, .advance 0, .advance 0]

theorem pinnedThenBatch_sound : (run (step fun _ _ => 4) (fresh twoPages) pinnedThenBatch).holds =
      [(2, .reference, 1), (2, .reference, 0)] ∧
    Sound (run (step fun _ _ => 4) (fresh twoPages) pinnedThenBatch) :=
  ⟨by decide, (sound_of_disciplined (fun _ _ => 4) (show init _ () () 8 = _ from rfl) (by decide)).1⟩

variable (sizeBytes) in
/-- Under the same discipline no page is lost: one that nobody holds and no
batched call has collected is free. -/
theorem no_page_lost {bufferSize : Nat} {es : List (Event Owner Shapes Dtypes)}
    (hinit : init sizeBytes shapes dtypes bufferSize = some a)
    (hes : Along (step sizeBytes) (fun w e => w.ReleasesOwn e ∧ w.SharesHeld e) (fresh a) es)
    (p : Nat) : p ∈ (run (step sizeBytes) (fresh a) es).allocator.freeBlocks ↔
      p < (run (step sizeBytes) (fresh a) es).allocator.numPages ∧
      p ∉ Custody.pages (run (step sizeBytes) (fresh a) es).holds ∧
      p ∉ (run (step sizeBytes) (fresh a) es).transit := by
  have hinv : Inv (run (step sizeBytes) (fresh a) es) :=
    run_inv Inv (fun w e h hd => inv_step h hd.1 hd.2) (inv_fresh hinit) hes
  have hcount := Custody.exact_iff.mp hinv.exact p
  split at hcount <;> split at hcount <;> grind

/-- Owner 0 gives page 0 back. -/
theorem released_page_free : 0 ∈ (run (step fun _ _ => 4) (fresh twoPages)
    [.allocate 0 () (), .refCountDown 0 0]).allocator.freeBlocks :=
  (no_page_lost (fun _ _ => 4) (show init _ () () 8 = _ from rfl) (by decide) 0).mpr (by decide)

/-- Owner 0 calls `free` on its page while owner 1 has a reference to it; the
page is then handed to owner 3. -/
def freedWhileShared : List (Event Nat Unit Unit) :=
  [.allocate 0 () (), .refCountUp 1 0, .free 0 0, .allocate 2 () (), .allocate 3 () ()]

/-- Owner 1 pins a page that nobody has any more. -/
def pinnedAfterRelease : List (Event Nat Unit Unit) :=
  [.allocate 0 () (), .refCountDown 0 0, .pin 1 0]

/-- Releasing what one took is not enough: `free` does not look at the
counters, and a handle outlives the last hold. -/
theorem freedWhileShared_two_owners :
    (Along (step fun _ _ => 4) ReleasesOwn (fresh twoPages) freedWhileShared ∧
      (run (step fun _ _ => 4) (fresh twoPages) freedWhileShared).holds =
        [(3, .reference, 0), (2, .reference, 1), (1, .reference, 0)]) ∧
    Along (step fun _ _ => 4) ReleasesOwn (fresh twoPages) pinnedAfterRelease ∧
      (run (step fun _ _ => 4) (fresh twoPages) pinnedAfterRelease).holds = [(1, .pin, 0)] ∧
      0 ∈ (run (step fun _ _ => 4) (fresh twoPages) pinnedAfterRelease).allocator.freeBlocks := by
  decide

end Pool

end LMCache.MemoryAllocators
