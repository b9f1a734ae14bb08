/-
LMCache.StorageControllers.Effects — what the loops of the prefetch
controller do to the world.

`Moves` says a request made some calls, published nothing and left every
other request alone. `Trades` adds what it holds afterwards, as a difference
per item, and `Effect` what became of its staging entries. All three compose,
so a loop has the sum of the differences of its rounds: releasing the cells
of a grid gives back the grid's tally.
-/
import LMCache.StorageControllers.Holdings
import LMCache.StorageControllers.PrefetchController
import Mathlib.Algebra.Order.BigOperators.Group.Finset
import Mathlib.Algebra.Order.BigOperators.Group.List

namespace LMCache.StorageControllers

open List Lib Native L1Manager Act

variable {Key Obj : Type} [DecidableEq Key] [DecidableEq Obj] {m n : Nat}

/-! ## Effects and their composition -/

/-- The acts that end a request. -/
def Act.reports : Act Key Obj → Bool
  | .publish _ _ _ _ => true
  | .retire _ _ _ => true
  | _ => false

/-- The request acted, without ending, and left the others alone. -/
structure Moves (request : Nat) (w w' : World Key Obj) : Prop where
  trace : ∃ acts, w'.trace = w.trace ++ acts ∧
    ∀ a ∈ acts, a.requester = some request → a.reports = false
  others : ∀ other, other ≠ request → Frame other w w'

/-- The request acted and holds `δ` more; it admitted nothing that was not
staged. -/
structure Trades (request : Nat) (w w' : World Key Obj) (δ : Item Key → Int) : Prop
    extends Moves request w w' where
  holds : ∀ x, w'.holds request x = w.holds request x + δ x
  missed : NeverMissed request w.trace → NeverMissed request w'.trace
  booked : SecureFor request w'.trace → w'.Solvent request → w.Booked request → w'.Booked request

/-- The request traded, and its staging entries in `gone` are gone. -/
structure Effect (request : Nat) (w w' : World Key Obj) (δ : Item Key → Int)
    (gone : Nat → Key → Bool) : Prop extends Trades request w w' δ where
  staged : Quiet request w'.trace → ∀ l1Idx key,
    w'.staged request l1Idx key = (w.staged request l1Idx key && !gone l1Idx key)

section Compose

variable {request : Nat} {w w' w'' : World Key Obj} {δ δ' : Item Key → Int}
  {gone gone' : Nat → Key → Bool}

lemma Moves.refl (w : World Key Obj) : Moves request w w :=
  ⟨⟨[], by simp⟩, fun _ _ => .refl w⟩

section

variable (h : Moves request w w')
include h

lemma Moves.trans (h' : Moves request w' w'') : Moves request w w'' where
  trace := extended_trans h.trace h'.trace
  others other hne := (h.others other hne).trans (h'.others other hne)

lemma Moves.quiet (hq : Quiet request w'.trace) : Quiet request w.trace := by
  obtain ⟨acts, hw, -⟩ := h.trace
  exact (hw ▸ hq).of_append

lemma Moves.neverMissed (hn : NeverMissed request w'.trace) : NeverMissed request w.trace := by
  obtain ⟨acts, hw, -⟩ := h.trace
  exact (hw ▸ hn).of_append

lemma Moves.secure (hs : SecureFor request w'.trace) : SecureFor request w.trace := by
  obtain ⟨acts, hw, -⟩ := h.trace
  exact (hw ▸ hs).of_append

/-- What was published or retired before is what is afterwards. -/
lemma Moves.mem_trace {a : Act Key Obj} (ha : a.requester = some request)
    (hrep : a.reports) : a ∈ w'.trace ↔ a ∈ w.trace := by
  obtain ⟨acts, hw, hacts⟩ := h.trace
  rw [hw, mem_append]
  refine ⟨fun h => h.resolve_right fun hmem => ?_, .inl⟩
  rw [hacts a hmem ha] at hrep
  cases hrep

end

lemma Trades.refl (w : World Key Obj) : Trades request w w 0 :=
  ⟨.refl w, by simp, id, fun _ _ => id⟩

/-- First read locks are taken, then given back. -/
def TakesFirst (δ δ' : Item Key → Int) : Prop :=
  (∀ l1Idx key, 0 ≤ δ (.read l1Idx key)) ∨ ∀ l1Idx key, δ' (.read l1Idx key) ≤ 0

lemma Trades.trans (h : Trades request w w' δ) (h' : Trades request w' w'' δ')
    (htakes : TakesFirst δ δ') : Trades request w w'' (δ + δ') where
  toMoves := h.toMoves.trans h'.toMoves
  holds x := by rw [h'.holds, h.holds, Pi.add_apply, add_assoc]
  missed hn := h'.missed (h.missed hn)
  booked hsecure hsolvent hbooked := by
    refine h'.booked hsecure hsolvent (h.booked (h'.secure hsecure) (fun l1Idx key => ?_) hbooked)
    -- between the two the request holds no less than before, or than afterwards
    have hbefore := hbooked.solvent l1Idx key
    have hafter := hsolvent l1Idx key
    rw [h'.holds] at hafter
    rcases htakes with htakes | htakes
    · have hmore := htakes l1Idx key
      rw [h.holds]
      omega
    · have hless := htakes l1Idx key
      omega

lemma Effect.refl (w : World Key Obj) : Effect request w w 0 (fun _ _ => false) :=
  ⟨.refl w, by simp⟩

lemma Effect.trans (h : Effect request w w' δ gone) (h' : Effect request w' w'' δ' gone')
    (htakes : TakesFirst δ δ') :
    Effect request w w'' (δ + δ') (fun l1Idx key => gone l1Idx key || gone' l1Idx key) where
  toTrades := h.toTrades.trans h'.toTrades htakes
  staged hq l1Idx key := by
    rw [h'.staged hq, h.staged (h'.quiet hq)]
    cases w.staged request l1Idx key <;> simp

lemma Effect.congr (h : Effect request w w' δ gone) (hδ : ∀ x, δ x = δ' x)
    (hgone : ∀ l1Idx key, gone l1Idx key = gone' l1Idx key) : Effect request w w' δ' gone' := by
  have h1 : δ = δ' := funext hδ
  have h2 : gone = gone' := funext fun l1Idx => funext (hgone l1Idx)
  rwa [← h1, ← h2]

end Compose

/-! ## Single calls -/

section Calls

variable {env : Environment Key Obj} {request : Nat} {w : World Key Obj}

omit [DecidableEq Obj] in
/-- What no L1 manager sees takes no read lock and admits nothing. -/
lemma Act.of_unseen {a : Act Key Obj} (h : ∀ l1Idx, a.seen request l1Idx = none) :
    a.misses = false ∧ ∀ l1Idx key, a.amount (.read l1Idx key) = 0 := by
  cases a with
  | l1 caller idx found call => exact absurd (h idx) (by simp [seen])
  | _ => exact ⟨rfl, fun _ _ => rfl⟩

/-- A step at an adapter adds what it says and touches no staging entry. -/
lemma effect_record {a : Act Key Obj} (ha : a.requester = some request) (hrep : a.reports = false)
    (hseen : ∀ other l1Idx, a.seen other l1Idx = none) :
    Effect request w (w.record a) (fun x => a.amount x) (fun _ _ => false) where
  trace := ⟨[a], rfl, fun _ hb _ => mem_singleton.mp hb ▸ hrep⟩
  others other hne :=
    frame_record (by rw [ha]; exact fun h => hne (Option.some.inj h).symm) (hseen other)
  booked _ _ h := h.record (hseen request)
  holds x := by rw [World.holds, World.holds, total_record, if_pos ha]
  missed hn b hb hreq := by
    rcases mem_append.mp hb with hb | hb
    · exact hn b hb hreq
    · exact mem_singleton.mp hb ▸ (of_unseen (hseen request)).1
  staged _ _ _ := by simp [World.staged, World.record]

variable {l1Idx : Nat} {op : L1Op Key Obj}

lemma moves_callL1 (hop : OwnCall request op) :
    Moves request w (w.callL1 env request l1Idx op) where
  trace := by
    have hframe : Frame request w (w.interleave env) := frame_interleave
    obtain ⟨acts, hw, hacts⟩ := hframe.trace
    refine ⟨acts ++ [.l1 (some request) l1Idx (w.met env l1Idx) ⟨w.time env, op⟩], ?_, ?_⟩
    · rw [← append_assoc, ← hw]
      rfl
    · intro a ha hreq
      rcases mem_append.mp ha with ha | ha
      · exact absurd hreq (hacts a ha)
      · rw [mem_singleton.mp ha]
        rfl
  others other hne := frame_callL1 hop (Ne.symm hne)

/-- A call that admits nothing trades what the act says. -/
lemma trades_callL1 (hop : OwnCall request op)
    (hmiss : ∀ s now, misses (.l1 (some request) l1Idx s ⟨now, op⟩) = false) :
    Trades request w (w.callL1 env request l1Idx op)
      (fun x => amount x (.l1 (some request) l1Idx (w.met env l1Idx) ⟨w.time env, op⟩)) where
  toMoves := moves_callL1 hop
  holds x := total_callL1 _ l1Idx op
  missed hn a ha hreq := by
    rcases mem_append.mp ha with ha | ha
    · exact frame_interleave.neverMissed.mpr hn a ha hreq
    · rw [mem_singleton.mp ha]
      exact hmiss _ _
  booked hsecure hsolvent h :=
    World.Booked.onL1 (frame_interleave.booked hsecure.of_append h) hsecure fun _ => hsolvent

/-- A call that names no staging entry leaves them as they are. -/
lemma effect_callL1 (hforce : op.forces = false) (hname : ∀ key tag, ¬ op.Names key tag)
    (hmiss : ∀ s now, misses (.l1 (some request) l1Idx s ⟨now, op⟩) = false) :
    Effect request w (w.callL1 env request l1Idx op)
      (fun x => amount x (.l1 (some request) l1Idx (w.met env l1Idx) ⟨w.time env, op⟩))
      (fun _ _ => false) where
  toTrades := trades_callL1 ⟨hforce, fun key tag h => absurd h (hname key tag)⟩ hmiss
  staged hq idx key := by
    rw [staged_callL1_other hforce hq fun _ => hname key _]
    simp

/-- The locks `f` gives each key, on one L1 manager. -/
def readsOn (l1Idx : Nat) (f : Key → Int) : Item Key → Int
  | .read idx key => if idx = l1Idx then f key else 0
  | _ => 0

/-- The pins `f` gives each key, on one adapter. -/
def pinsOn (adapter : Nat) (f : Key → Int) : Item Key → Int
  | .pin idx key => if idx = adapter then f key else 0
  | _ => 0

variable {keys : List Key}

lemma effect_finishRead {readLocks : Int} :
    Effect request w (w.callL1 env request l1Idx (.finishRead keys readLocks))
      (-readsOn l1Idx fun key => keys.count key * validateReadLocks readLocks)
      (fun _ _ => false) := by
  refine (effect_callL1 rfl (fun key tag => ?_) fun _ _ => rfl).congr (fun x => ?_) fun _ _ => rfl
  · exact not_false
  cases x with
  | read idx key =>
    by_cases h : l1Idx = idx
    · simp [amount, readsOn, L1Call.granted, givenBack, h]
    · simp [amount, readsOn, h, Ne.symm h]
  | _ => simp [amount, readsOn]

lemma effect_touchKeys {hasSubscribers : Bool} :
    Effect request w (w.callL1 env request l1Idx (.touchKeys keys hasSubscribers)) 0
      (fun _ _ => false) := by
  refine (effect_callL1 rfl (fun key tag => ?_) fun _ _ => rfl).congr (fun x => ?_) fun _ _ => rfl
  · exact not_false
  cases x with
  | read idx key => simp [amount, L1Call.granted, givenBack]
  | _ => simp [amount]

lemma effect_finishWriteAndDelete : Effect request w (w.callL1 env request l1Idx
      (.finishWriteAndDelete keys (getPrefetchWriteTag request))) 0
      (fun idx key => decide (idx = l1Idx) && decide (key ∈ keys)) where
  toTrades := by
    have hown : OwnCall request
        (.finishWriteAndDelete keys (getPrefetchWriteTag request) : L1Op Key Obj) :=
      ⟨rfl, fun _ _ h => h.1.symm⟩
    have htrades : Trades request w (w.callL1 env request l1Idx
        (.finishWriteAndDelete keys (getPrefetchWriteTag request))) _ :=
      trades_callL1 hown fun _ _ => rfl
    refine ⟨htrades.toMoves, fun x => ?_, htrades.missed, htrades.booked⟩
    rw [htrades.holds]
    cases x with
    | read idx key => simp [amount, L1Call.granted, givenBack]
    | _ => simp [amount]
  staged hq idx key := staged_callL1_finish .delete hq idx key

lemma effect_submitUnlock {adapter : Nat} :
    Effect request w (w.record (.submitUnlock request adapter keys))
      (-pinsOn adapter fun key => keys.count key) (fun _ _ => false) := by
  refine (effect_record rfl rfl fun _ _ => rfl).congr (fun x => ?_) fun _ _ => rfl
  cases x with
  | pin idx key =>
    by_cases h : adapter = idx
    · simp [amount, pinsOn, h]
    · simp [amount, pinsOn, h, Ne.symm h]
  | _ => simp [amount, pinsOn]

end Calls

/-! ## Releasing cells -/

/-- The locks taken for each object of a row. -/
def lockWeight (group : GroupedObjectKeys Key) : Int := validateReadLocks group.numKvReaders

section Cells

variable {env : Environment Key Obj} {request : Nat} {groups : List (GroupedObjectKeys Key)}

omit [DecidableEq Obj] in
lemma tally_lockWeight_nonneg (key : Key) (cells : Bitmap2D m n) :
    0 ≤ tally lockWeight groups key cells := by
  refine Finset.sum_nonneg fun i _ => Finset.sum_nonneg fun j _ => ?_
  unfold cellWeight lockWeight
  cases groups[i]? with
  | none => simp
  | some group =>
    dsimp only [Option.elim_some]
    split_ifs <;> omega

omit [DecidableEq Key] [DecidableEq Obj] in
/-- Giving back takes nothing. -/
lemma readsOn_gives {f : Key → Int} (hf : ∀ key, 0 ≤ f key) (l1Idx idx : Nat) (key : Key) :
    (-readsOn l1Idx f) (.read idx key) ≤ 0 := by
  have hkey := hf key
  simp only [Pi.neg_apply, readsOn]
  split <;> omega

/-- A loop that takes no read locks has the effects of its rounds. -/
lemma effect_foldl {α : Type} {body : World Key Obj → α → World Key Obj} {δ : α → Item Key → Int}
    {gone : α → Nat → Key → Bool} (hbody : ∀ w item, Effect request w (body w item) (δ item) (gone item))
    (hgives : ∀ item l1Idx key, δ item (.read l1Idx key) ≤ 0) (items : List α) (w : World Key Obj) :
    Effect request w (items.foldl body w) (fun x => (items.map fun item => δ item x).sum)
      (fun l1Idx key => items.any fun item => gone item l1Idx key) := by
  induction items generalizing w with
  | nil => exact Effect.refl w
  | cons item items ih =>
    refine ((hbody w item).trans (ih _) (.inr fun l1Idx key => ?_)).congr (fun x => ?_)
      fun l1Idx key => ?_
    · refine le_of_le_of_eq (sum_le_card_nsmul _ 0 fun y hy => ?_) (nsmul_zero _)
      obtain ⟨item, -, rfl⟩ := mem_map.mp hy
      exact hgives item l1Idx key
    · rfl
    · rfl

/-- `finish_read` row by row gives back the tally of the cells. -/
lemma effect_finishReadCells (hrows : Rows groups m n) (l1Idx : Nat) (cells : Bitmap2D m n)
    (w : World Key Obj) : Effect request w (finishReadCells env request groups l1Idx cells w)
      (-readsOn l1Idx fun key => tally lockWeight groups key cells) (fun _ _ => false) := by
  have hrow : ∀ (w : World Key Obj) (row : GroupedObjectKeys Key × List Key), Effect request w
      (if row.2.isEmpty then w else w.callL1 env request l1Idx (.finishRead row.2 row.1.numKvReaders))
      (-readsOn l1Idx fun key => (row.2.count key : Int) * lockWeight row.1) (fun _ _ => false) := by
    intro w row
    split_ifs with hempty
    · refine (Effect.refl w).congr (fun x => ?_) fun _ _ => rfl
      rw [isEmpty_iff.mp hempty]
      cases x <;> simp [readsOn]
    · exact effect_finishRead
  refine (effect_foldl hrow (fun row => readsOn_gives (fun key => ?_) l1Idx) _ w).congr
    (fun x => ?_) fun _ _ => by simp
  · exact Int.mul_nonneg (Int.natCast_nonneg _) (Int.natCast_nonneg _)
  · simp only [← sum_gatherKeysByRow hrows, Pi.neg_apply]
    cases x with
    | read idx key =>
      by_cases hidx : idx = l1Idx
      · simp [readsOn, hidx, List.sum_neg, map_map, Function.comp_def]
      · simp [readsOn, hidx]
    | _ => simp [readsOn]

lemma effect_unlockCells (hrows : Rows groups m n) (adapter : Nat) (cells : Bitmap2D m n)
    (w : World Key Obj) : Effect request w (unlockCells request groups adapter cells w)
      (-pinsOn adapter fun key => tally (fun _ => 1) groups key cells) (fun _ _ => false) := by
  simp only [← count_gatherKeys hrows]
  unfold unlockCells
  split_ifs with hempty
  · refine (Effect.refl w).congr (fun x => ?_) fun _ _ => rfl
    rw [isEmpty_iff.mp hempty]
    cases x <;> simp [pinsOn]
  · exact effect_submitUnlock

lemma effect_deleteCells (l1Idx : Nat) (cells : Bitmap2D m n) (w : World Key Obj) :
    Effect request w (deleteCells env request groups l1Idx cells w) 0
      (fun idx key => decide (idx = l1Idx) && decide (key ∈ gatherKeys groups cells)) := by
  unfold deleteCells
  split_ifs with hempty
  · refine (Effect.refl w).congr (fun _ => rfl) fun _ _ => ?_
    simp [isEmpty_iff.mp hempty]
  · exact effect_finishWriteAndDelete

variable (groups) in
/-- The read locks of a map. -/
def readsOf (cells : MapState m n) : Item Key → Int
  | .read l1Idx key => tally lockWeight groups key (cells.grid l1Idx)
  | _ => 0

variable (groups) in
/-- The pins of a map. -/
def pinsOf (cells : MapState m n) : Item Key → Int
  | .pin adapter key => tally (fun _ => 1) groups key (cells.grid adapter)
  | _ => 0

lemma effect_finishReadMap (hrows : Rows groups m n) (cells : MapState m n) (w : World Key Obj) :
    Effect request w (finishReadMap env request groups cells w) (-readsOf groups cells)
      (fun _ _ => false) := by
  refine (effect_foldl (fun w item => effect_finishReadCells hrows item.1 item.2 w)
    (fun item => readsOn_gives (fun key => tally_lockWeight_nonneg key _) _) cells.items w).congr
    (fun x => ?_) fun _ _ => by simp
  cases x with
  | read l1Idx key =>
    have hsum := cells.sum_items l1Idx (fun g => -tally lockWeight groups key g)
      (by rw [tally_eq_zero (by simp), neg_zero])
    simpa [readsOn, readsOf, apply_ite Neg.neg] using hsum
  | _ => simp [readsOn, readsOf]

lemma effect_unlockMap (hrows : Rows groups m n) (cells : MapState m n) (w : World Key Obj) :
    Effect request w (unlockMap request groups cells w) (-pinsOf groups cells)
      (fun _ _ => false) := by
  refine (effect_foldl (fun w item => effect_unlockCells hrows item.1 item.2 w)
    (by simp [pinsOn]) cells.items w).congr (fun x => ?_) fun _ _ => by simp
  cases x with
  | pin adapter key =>
    have hsum := cells.sum_items adapter (fun g => -tally (fun _ => 1) groups key g)
      (by rw [tally_eq_zero (by simp), neg_zero])
    simpa [pinsOn, pinsOf, apply_ite Neg.neg] using hsum
  | _ => simp [pinsOn, pinsOf]

lemma effect_deleteMap (cells : MapState m n) (w : World Key Obj) :
    Effect request w (deleteMap env request groups cells w) 0
      (fun l1Idx key => decide (key ∈ gatherKeys groups (cells.grid l1Idx))) := by
  refine (effect_foldl (fun w item => effect_deleteCells item.1 item.2 w) (by simp)
    cells.items w).congr (fun x => by simp) fun l1Idx key => ?_
  exact cells.any_items l1Idx (fun g => decide (key ∈ gatherKeys groups g))
    (by simp [gatherKeys_zeros])

end Cells

end LMCache.StorageControllers
