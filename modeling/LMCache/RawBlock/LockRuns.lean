/-
LMCache.RawBlock.LockRuns — a locked key keeps its slot.

The locks of a key are a count without owners: `exists_many` adds one for each
hit, `unlock_many` takes one off, and a delete that is not forced spares a key
with a count. `Watched` keeps the lookups that locked one key and the unlocks of
it beside the store. The count is never less than their difference, because an
unlock at zero is ignored and the count is dropped at zero only (`Turn.refs`).
-/
import LMCache.RawBlock.SlotRuns

namespace LMCache.RawBlock

open Lib List
open Dict hiding keys

variable {Key Meta : Type} [DecidableEq Key]

namespace Section

/-- Not a forced delete. -/
def Plain : Section Key Meta → Prop
  | .deleteMany _ force => force = false
  | _ => True

/-- The keys a section looks up to lock. -/
def lookedUp (c : RawBlockCore Key Meta) : Section Key Meta → List Key
  | .existsMany false keys true => keys
  | .getMetadataPrefix keys true skipLocked =>
    (keys.takeWhile (· ∈ c.index)).filter (· ∉ skipLocked)
  | _ => []

/-- How many lookups of the section lock the key. -/
def locks (c : RawBlockCore Key Meta) (key : Key) (e : Section Key Meta) : Nat :=
  if key ∈ c.index then (e.lookedUp c).count key else 0

def unlocks (key : Key) : Section Key Meta → Nat
  | .unlockMany keys => keys.count key
  | _ => 0

end Section

namespace RawBlockCore

def refs (c : RawBlockCore Key Meta) (key : Key) : Nat := (c.lockRefcnt.get? key).getD 0

/-- What `gain` lookups and `loss` unlocks of the key may do to it. -/
structure Turn (key : Key) (gain loss : Nat) (c c' : RawBlockCore Key Meta) : Prop where
  refs : c.refs key + gain ≤ c'.refs key + loss
  same : 0 < c.refs key → c'.index.get? key = c.index.get? key
  locked : (0 < c.refs key → key ∈ c.index) → 0 < c'.refs key → key ∈ c'.index

variable {cfg : Config} {c c' c'' : RawBlockCore Key Meta} {key : Key}

lemma Turn.of_index {gain loss : Nat} (hindex : c'.index = c.index)
    (hrefs : c.refs key + gain ≤ c'.refs key + loss)
    (hmiss : key ∉ c.index → c'.refs key ≤ c.refs key) : Turn key gain loss c c' where
  refs := hrefs
  same _ := by rw [hindex]
  locked h hpos := by
    rw [hindex]
    by_contra hnot
    exact hnot (h (Nat.lt_of_lt_of_le hpos (hmiss hnot)))

lemma Turn.of_same (hindex : c'.index = c.index) (hlocks : c'.lockRefcnt = c.lockRefcnt) :
    Turn key 0 0 c c' :=
  .of_index hindex (by simp [RawBlockCore.refs, hlocks]) fun _ => by simp [RawBlockCore.refs, hlocks]

lemma Turn.trans (h : Turn key 0 0 c c') (h' : Turn key 0 0 c' c'') : Turn key 0 0 c c'' where
  refs := le_trans h.refs h'.refs
  same hpos := (h'.same (Nat.lt_of_lt_of_le hpos h.refs)).trans (h.same hpos)
  locked hc := h'.locked (h.locked hc)

/-! ## Puts and deletes -/

lemma turn_reserve (fit : Bool) (item : PutItem Key Meta) (h : SlotInv cfg c []) :
    Turn key 0 0 c (c.reserve cfg fit item) := by
  rcases reserve_cases h fit item with hsame | ⟨-, _, _, -, -, -, hindex, hlocks⟩
  · rw [hsame]
    exact .of_same rfl rfl
  · exact .of_same hindex hlocks

lemma turn_giveSlotBack (h : Turn key 0 0 c c') (offset : Nat) :
    Turn key 0 0 c (c'.giveSlotBack cfg offset) := by
  obtain ⟨free, pools, heq⟩ := appendFreeSlot_eq cfg c' (cfg.offsetToSlot offset)
  rw [giveSlotBack, heq]
  exact h.trans (.of_same rfl rfl)

lemma turn_abandon (k : Key) : Turn key 0 0 c (c.abandon cfg k) := by
  unfold abandon
  split
  · exact .of_same rfl rfl
  · refine turn_giveSlotBack ?_ _
    exact .of_same rfl rfl

variable (hlocked : 0 < c.refs key → key ∈ c.index)

include hlocked

/-- The key of a write in flight is not indexed, so it is not locked. -/
lemma turn_settle (success : Bool) (k : Key) (h : SlotInv cfg c []) :
    Turn key 0 0 c (c.settle cfg success k) := by
  unfold settle
  split
  · exact .of_same rfl rfl
  · rename_i write hwrite
    split
    · refine turn_giveSlotBack ?_ _
      exact .of_same rfl rfl
    · refine ⟨le_rfl, fun hpos => get?_set_ne _ _ ?_,
        fun _ hpos => mem_set.mpr (.inr (hlocked hpos))⟩
      rintro rfl
      exact h.apart key (hlocked hpos) (mem_iff_get?.mpr ⟨write, hwrite⟩)

/-- A delete that is not forced spares a locked key. -/
lemma turn_deleteOne (k : Key) : Turn key 0 0 c (c.deleteOne cfg false k).1 := by
  unfold deleteOne
  dsimp only
  split
  · exact .of_same rfl rfl
  rename_i hspared
  have hpop : ∀ inflight, Turn key 0 0 c
      { c with index := c.index.erase k, inflight, lockRefcnt := c.lockRefcnt.erase k } := by
    intro inflight
    by_cases hk : key = k
    · subst hk
      have hzero : c.refs key = 0 := by
        by_contra hpos
        have hpos := Nat.pos_of_ne_zero hpos
        obtain ⟨entry, hentry⟩ := mem_iff_get?.mp (hlocked hpos)
        exact hspared ⟨by simp [hentry], hpos, rfl⟩
      refine ⟨by simp [hzero], fun hpos => absurd hpos (by omega), fun _ hpos => ?_⟩
      simp [RawBlockCore.refs] at hpos
    · refine ⟨?_, fun _ => get?_erase_ne _ hk, fun _ hpos => mem_erase.mpr ⟨hk, hlocked ?_⟩⟩
      · simp [RawBlockCore.refs, get?_erase_ne _ hk]
      · simpa [RawBlockCore.refs, get?_erase_ne _ hk] using hpos
  cases c.index.get? k with
  | none => exact hpop _
  | some entry => exact turn_giveSlotBack (hpop _) _

omit hlocked

lemma turn_foldl {α : Type} {f : RawBlockCore Key Meta → α → RawBlockCore Key Meta}
    (hf : ∀ c x, SlotInv cfg c [] → (0 < c.refs key → key ∈ c.index) →
      SlotInv cfg (f c x) [] ∧ Turn key 0 0 c (f c x))
    (l : List α) (h : SlotInv cfg c []) (hlocked : 0 < c.refs key → key ∈ c.index) :
    Turn key 0 0 c (l.foldl f c) := by
  induction l generalizing c with
  | nil => exact .of_same rfl rfl
  | cons x l ih =>
    obtain ⟨hslots, hturn⟩ := hf c x h hlocked
    exact hturn.trans (ih hslots (hturn.locked hlocked))

/-! ## Locks -/

variable (c key) in
lemma foldl_lockOne (keys : List Key) : (keys.foldl lockOne c).index = c.index ∧
    (keys.foldl lockOne c).refs key = c.refs key + if key ∈ c.index then keys.count key else 0 := by
  induction keys generalizing c with
  | nil => simp
  | cons k keys ih =>
    have hone : (c.lockOne k).index = c.index ∧
        (c.lockOne k).refs key = c.refs key + if key ∈ c.index ∧ k = key then 1 else 0 := by
      unfold lockOne
      split
      · by_cases hk : k = key
        · simp_all [RawBlockCore.refs]
        · simp [RawBlockCore.refs, get?_set_ne _ _ (Ne.symm hk), hk]
      · by_cases hk : k = key <;> simp_all
    obtain ⟨hindex, hrefs⟩ := ih (c.lockOne k)
    rw [foldl_cons, hindex, hrefs, hone.1, hone.2]
    by_cases hkey : key ∈ c.index <;> by_cases hk : k = key <;> simp [hkey, hk, add_assoc, add_comm]

variable (c key) in
lemma foldl_unlockOne (keys : List Key) : (keys.foldl unlockOne c).index = c.index ∧
    c.refs key ≤ (keys.foldl unlockOne c).refs key + keys.count key ∧
    (keys.foldl unlockOne c).refs key ≤ c.refs key := by
  induction keys generalizing c with
  | nil => simp
  | cons k keys ih =>
    obtain ⟨hindex, hle, hge⟩ := ih (c.unlockOne k)
    have hone : c.refs key ≤ (c.unlockOne k).refs key + (if k = key then 1 else 0) ∧
        (c.unlockOne k).refs key ≤ c.refs key := by
      by_cases hk : k = key
      · subst hk
        simp only [RawBlockCore.refs, unlockOne]
        split <;> simp <;> omega
      · simp only [RawBlockCore.refs, unlockOne]
        split <;> simp [get?_set_ne _ _ (Ne.symm hk), get?_erase_ne _ (Ne.symm hk)]
    rw [foldl_cons, count_cons]
    simp only [beq_iff_eq]
    exact ⟨hindex, by omega, by omega⟩

/-- What a section that is not a forced delete may do to a key. -/
lemma turn_step {e : Section Key Meta} (hplain : e.Plain) (h : SlotInv cfg c [])
    (hlocked : 0 < c.refs key → key ∈ c.index) :
    Turn key (e.locks c key) (e.unlocks key) c (c.step cfg e) := by
  have hlock : ∀ keys : List Key, Turn key (if key ∈ c.index then keys.count key else 0) 0 c
      (keys.foldl lockOne c) := by
    intro keys
    obtain ⟨hindex, hrefs⟩ := foldl_lockOne c key keys
    refine .of_index hindex (Nat.le_of_eq hrefs.symm) fun hnot => ?_
    simp [hrefs, hnot]
  have hquiet : ∀ {c'}, Turn key 0 0 c c' →
      Turn key (if key ∈ c.index then [].count key else 0) 0 c c' := by
    intro c' hturn
    simpa using hturn
  cases e with
  | reserve item => exact hquiet (turn_reserve false item h)
  | reserveChunk items =>
    exact hquiet (turn_foldl (fun c item hc _ => ⟨slotInv_reserve hc, turn_reserve true item hc⟩)
      items h hlocked)
  | abandon k => exact hquiet (turn_abandon k)
  | settle k success => exact hquiet (turn_settle hlocked success k h)
  | settleChunk keys success =>
    exact hquiet (turn_foldl (fun c k hc hl => ⟨slotInv_settle hc, turn_settle hl success k hc⟩)
      keys h hlocked)
  | existsMany workerFailed keys lock =>
    cases workerFailed with
    | true => exact hquiet (.of_same rfl rfl)
    | false =>
      cases lock with
      | true => exact hlock keys
      | false => exact hquiet (.of_same rfl rfl)
  | getMetadataPrefix keys lock skipLocked =>
    cases lock with
    | true => exact hlock _
    | false => exact hquiet (.of_same rfl rfl)
  | unlockMany keys =>
    obtain ⟨hindex, hle, hge⟩ := foldl_unlockOne c key keys
    refine .of_index hindex ?_ fun _ => hge
    simpa [Section.locks, Section.lookedUp, Section.unlocks, step, unlockMany] using hle
  | deleteMany keys force =>
    obtain rfl : force = false := hplain
    refine hquiet (foldlRecOn (motive := fun state : RawBlockCore Key Meta × List Bool =>
      SlotInv cfg state.1 [] ∧ Turn key 0 0 c state.1) keys _ ⟨h, .of_same rfl rfl⟩
      fun state hstate k _ => ?_).2
    exact ⟨slotInv_deleteOne hstate.1, hstate.2.trans (turn_deleteOne (hstate.2.locked hlocked) k)⟩
  | close => exact hquiet (.of_same rfl rfl)

end RawBlockCore

/-! ## Whole runs -/

/-- The store, with the lookups that locked a key and the unlocks of it. -/
structure Watched (Key Meta : Type) where
  core : RawBlockCore Key Meta
  locks : Nat := 0
  unlocks : Nat := 0

namespace Watched

open RawBlockCore (turn_step)

variable (cfg : Config) (key : Key)

def step (w : Watched Key Meta) (e : Section Key Meta) : Watched Key Meta :=
  ⟨w.core.step cfg e, w.locks + e.locks w.core key, w.unlocks + e.unlocks key⟩

/-- The watch over a store that has been in use: what happened in `past` is
not counted. -/
def after (past es : List (Section Key Meta)) : Watched Key Meta :=
  run (step cfg key) ⟨(run (step cfg key) ⟨.empty, 0, 0⟩ past).core, 0, 0⟩ es

structure Inv (w : Watched Key Meta) : Prop where
  slots : w.core.SlotInv cfg []
  locked : 0 < w.core.refs key → key ∈ w.core.index
  counted : w.locks ≤ w.unlocks + w.core.refs key

variable {cfg key}

lemma Inv.step {w : Watched Key Meta} {e : Section Key Meta} (h : Inv cfg key w)
    (hplain : e.Plain) : Inv cfg key (w.step cfg key e) := by
  have hturn := turn_step hplain h.slots h.locked
  refine ⟨RawBlockCore.slotInv_step h.slots e, hturn.locked h.locked, ?_⟩
  have hrefs := hturn.refs
  have hcounted := h.counted
  simp only [Watched.step]
  omega

lemma inv_after {past es : List (Section Key Meta)} (hplain : ∀ e ∈ past ++ es, e.Plain) :
    Inv cfg key (after cfg key past es) := by
  have hrun : ∀ (w : Watched Key Meta) (es : List (Section Key Meta)), (∀ e ∈ es, e.Plain) →
      Inv cfg key w → Inv cfg key (run (step cfg key) w es) := fun w es hes hw =>
    foldlRecOn (motive := Inv cfg key) es _ hw fun w hw e he => hw.step (hes e he)
  obtain ⟨hpast, hes⟩ := forall_mem_append.mp hplain
  have hopened : Inv cfg key (⟨.empty, 0, 0⟩ : Watched Key Meta) :=
    ⟨RawBlockCore.slotInv_empty cfg, fun h => absurd h (Nat.lt_irrefl 0), Nat.le_refl 0⟩
  have hused := hrun _ past hpast hopened
  exact hrun _ es hes ⟨hused.slots, hused.locked, Nat.zero_le _⟩

/-- A key that, from some point on, is looked up and locked more often than it
is unlocked stays in the index with the same entry, so at the same offset,
whatever other sections run in between. -/
theorem locked_entry_stays (cfg : Config) (key : Key) (past es fs : List (Section Key Meta))
    (hplain : ∀ e ∈ past ++ (es ++ fs), e.Plain)
    (hheld : ∀ n, (after cfg key past (es ++ fs.take n)).unlocks
      < (after cfg key past (es ++ fs.take n)).locks) :
    ∃ entry, (after cfg key past es).core.index.get? key = some entry ∧
      (after cfg key past (es ++ fs)).core.index.get? key = some entry := by
  have hinv : Inv cfg key (after cfg key past es) :=
    inv_after fun e he => hplain e (by simp only [mem_append] at he ⊢; tauto)
  have hcounted := hinv.counted
  have hzero := hheld 0
  rw [take_zero, append_nil] at hzero
  induction fs generalizing es with
  | nil =>
    obtain ⟨entry, hentry⟩ := mem_iff_get?.mp (hinv.locked (by omega))
    exact ⟨entry, hentry, by rwa [append_nil]⟩
  | cons f fs ih =>
    have hassoc : ∀ l, es ++ f :: l = (es ++ [f]) ++ l := fun l => by simp
    have hnext : after cfg key past (es ++ [f]) = (after cfg key past es).step cfg key f :=
      run_append ..
    have hturn := turn_step (hplain f (by simp)) hinv.slots hinv.locked
    rw [hassoc] at hplain ⊢
    have hone := hinv.step (hplain f (by simp))
    rw [← hnext] at hone
    obtain ⟨entry, hentry, hlast⟩ := ih (es ++ [f]) hplain (fun n => by
      rw [← hassoc]
      exact hheld (n + 1)) hone hone.counted (by simpa using hheld 1)
    refine ⟨entry, ?_, hlast⟩
    rw [← hturn.same (by omega), ← hentry, hnext]
    rfl

/-- A key is stored, and unlocked although nobody has locked it; then it is
locked, and a delete does not take it out. -/
theorem locked_entry_stays_through_delete :
    let cfg : Config := ⟨1, 1, 4, 0, 1, false, false, by decide⟩
    let past : List (Section Nat Unit) :=
      [.reserve ⟨7, 2, (), none⟩, .settle 7 true, .unlockMany [7]]
    let es : List (Section Nat Unit) := [.existsMany false [7] true]
    let fs : List (Section Nat Unit) := [.deleteMany [7] false]
    ∃ entry, (after cfg 7 past es).core.index.get? 7 = some entry ∧
      (after cfg 7 past (es ++ fs)).core.index.get? 7 = some entry :=
  locked_entry_stays _ _ _ _ _ (by simp [Section.Plain]) fun
    | 0 => by decide
    | n + 1 => by
      rw [take_succ_cons, take_nil]
      decide

end Watched

end LMCache.RawBlock
