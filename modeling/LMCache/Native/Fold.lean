/-
LMCache.Native.Fold — prefix hits over rows with sliding windows.

A row is the presence bitmap of one object group on one rank. A row with
window `w` serves a prefix of `L` chunks when the last `w` of them are
present, a full-attention row (`w ≤ 0`) when all of them are (`Serves`).
`foldGrouped` marks the lengths every row serves, `unfoldGrouped` lists the
chunks each row needs at one length. Their composition finds the longest
servable prefix (`foldUnfoldGrouped_spec`); the loops are those of
`fold.cpp`, the argument checks those of `fold.py`.
-/
import LMCache.Native.Bitmap

namespace LMCache.Native

open List Bitmap

/-- A raised `ValueError`. -/
structure ValueError where
  message : String
  deriving DecidableEq, Repr

/-! ## Folding -/

/-- The window in chunks; full attention is as long as the request. -/
def effWindow (numChunks : Nat) (window : Int) : Nat :=
  if window ≤ 0 then numChunks else window.toNat

/-- The body of the inner loop of `fold_grouped`, at chunk `j`: the run of
present chunks ending at `j`, and the lengths still servable. -/
def foldChunk (window : Nat) (row : Bitmap) (acc : Nat × List Bool) (j : Nat) : Nat × List Bool :=
  let run := if row.test j then acc.1 + 1 else 0
  (run,
    if acc.2.getD j false && decide (run < min window (j + 1)) then acc.2.set j false else acc.2)

/-- The body of the outer loop of `fold_grouped`. -/
def foldRow (numChunks : Nat) (servable : List Bool) (row : Bitmap × Int) : List Bool :=
  ((range numChunks).foldl (foldChunk (effWindow numChunks row.2) row.1) (0, servable)).2

section

variable (rows : List Bitmap)

/-- The chunk count of the rows. -/
def numChunks : Nat := (rows.head?.map size).getD 0

/-- `fold_grouped`. -/
def foldGrouped (windows : List Int) : Except ValueError Bitmap :=
  if windows.isEmpty then .error ⟨"windows must be non-empty"⟩
  else if rows.length ≠ windows.length then
    .error ⟨s!"rows and windows must have the same length, got {rows.length} rows and {windows.length} windows"⟩
  else
    match rows.find? (fun row => row.size ≠ numChunks rows) with
    | some row =>
      .error ⟨s!"fold_grouped: all rows must have the same size, got {row.size} vs {numChunks rows}"⟩
    | none =>
      .ok ⟨(rows.zip windows).foldl (foldRow (numChunks rows))
        (replicate (numChunks rows) true)⟩

/-! ## Unfolding -/

/-- The first chunk a row with this window needs at a prefix length. -/
def windowStart (window : Int) (hitLength : Nat) : Nat :=
  if 0 < window ∧ window.toNat < hitLength then hitLength - window.toNat else 0

/-- The chunks one row retains. -/
def unfoldRow (hitLength numChunks : Nat) (window : Int) : Bitmap :=
  if 0 < hitLength then (zeros numChunks).setRange (windowStart window hitLength) hitLength
  else zeros numChunks

/-- `unfold_grouped`. -/
def unfoldGrouped (hitLength numChunks : Nat) (windows : List Int) :
    Except ValueError (List Bitmap) :=
  if windows.isEmpty then .error ⟨"windows must be non-empty"⟩
  else .ok (windows.map (unfoldRow (min hitLength numChunks) numChunks))

/-- `fold_unfold_grouped`. -/
def foldUnfoldGrouped (windows : List Int) : Except ValueError (Nat × List Bitmap) := do
  let servable ← foldGrouped rows windows
  let hitLength := (servable.highestSetBit + 1).toNat
  let retain ← unfoldGrouped hitLength (numChunks rows) windows
  return (hitLength, retain)

/-- `all_grouped`: every row restricted to the columns present in all rows. -/
def allGrouped : List Bitmap → List Bitmap
  | [] => []
  | row :: rows => replicate (rows.length + 1) (rows.foldl and row)

lemma length_allGrouped : (allGrouped rows).length = rows.length := by
  cases rows <;> simp [allGrouped]

end

lemma foldl_and_spec {n : Nat} (rows : List Bitmap) (row : Bitmap) (hrow : row.size = n)
    (hrows : ∀ r ∈ rows, r.size = n) : (rows.foldl Bitmap.and row).size = n ∧
      ∀ j, (rows.foldl Bitmap.and row).test j ↔ ∀ r ∈ row :: rows, r.test j := by
  induction rows generalizing row with
  | nil => simp [hrow]
  | cons r rows ih =>
    have hr := hrows r mem_cons_self
    obtain ⟨hsize, htest⟩ := ih (row.and r) (by simp [hrow, hr])
      fun r' h' => hrows r' (mem_cons_of_mem _ h')
    refine ⟨hsize, fun j => (htest j).trans ?_⟩
    simp [and_assoc]

/-- Every row of `allGrouped` has the columns all rows have. -/
lemma allGrouped_spec {n : Nat} {rows : List Bitmap} (hrows : ∀ r ∈ rows, r.size = n) :
    ∀ c ∈ allGrouped rows, c.size = n ∧ ∀ j, c.test j ↔ ∀ r ∈ rows, r.test j := by
  cases rows with
  | nil => simp [allGrouped]
  | cons row rows =>
    intro c hc
    rw [eq_of_mem_replicate hc]
    exact foldl_and_spec rows row (hrows row mem_cons_self)
      fun r h => hrows r (mem_cons_of_mem _ h)

/-! ## What a row needs -/

/-- The row has every chunk it needs for a prefix of `length` chunks. -/
def Serves (window : Int) (row : Bitmap) (length : Nat) : Prop :=
  ∀ j, windowStart window length ≤ j → j < length → row.test j

/-- Every row has the chunks it needs for a prefix of `length` chunks. -/
def AllServe (rows : List Bitmap) (windows : List Int) (length : Nat) : Prop :=
  ∀ p ∈ rows.zip windows, Serves p.2 p.1 length

/-- The windows are not empty: a positive prefix needs its last chunk. -/
lemma windowStart_lt {window : Int} {length : Nat} (h : 0 < length) :
    windowStart window length < length := by
  unfold windowStart
  split <;> omega

lemma windowStart_mono (window : Int) {m n : Nat} (h : m ≤ n) :
    windowStart window m ≤ windowStart window n := by
  unfold windowStart
  split <;> split <;> omega

lemma windowStart_eq_sub {numChunks length : Nat} (window : Int) (h : length ≤ numChunks) :
    windowStart window length = length - min (effWindow numChunks window) length := by
  unfold windowStart effWindow
  split <;> split <;> omega

/-! ## The inner loop -/

/-- `run` is the length of the run of ones that ends just before `j`. -/
def RunTo (row : Bitmap) (j run : Nat) : Prop :=
  run ≤ j ∧ (∀ k, j - run ≤ k → k < j → row.test k) ∧
    (run < j → row.test (j - run - 1) = false)

lemma RunTo.next {row : Bitmap} {j run : Nat} (h : RunTo row j run) :
    RunTo row (j + 1) (if row.test j then run + 1 else 0) := by
  obtain ⟨hle, hones, hstop⟩ := h
  by_cases hj : row.test j
  · rw [if_pos hj]
    refine ⟨by omega, fun k hk hlt => ?_, fun hlt => ?_⟩
    · by_cases hkj : k = j
      · rw [hkj, hj]
      · exact hones k (by omega) (by omega)
    · rw [show j + 1 - (run + 1) - 1 = j - run - 1 by omega]
      exact hstop (by omega)
  · rw [if_neg hj]
    refine ⟨by omega, fun k hk hlt => by omega, fun _ => ?_⟩
    simpa using hj

/-- A run is at least `m` long iff the last `m` chunks are present. -/
lemma RunTo.le_iff {row : Bitmap} {j run m : Nat} (h : RunTo row j run) (hm : m ≤ j) :
    m ≤ run ↔ ∀ k, j - m ≤ k → k < j → row.test k := by
  obtain ⟨hle, hones, hstop⟩ := h
  constructor
  · intro hmr k hk hlt
    exact hones k (by omega) hlt
  · intro hall
    by_contra hlt
    have hgap := hstop (by omega)
    rw [hall (j - run - 1) (by omega) (by omega)] at hgap
    cases hgap

lemma getD_cut (kept : List Bool) (j k : Nat) (cut : Bool) :
    (if kept.getD j false && cut then kept.set j false else kept).getD k false
      = (kept.getD k false && !(decide (j = k) && cut)) := by
  cases hj : kept.getD j false && cut with
  | false =>
    by_cases hjk : j = k
    · cases cut <;> simp_all
    · simp [hjk]
  | true =>
    obtain ⟨-, hcut⟩ := Bool.and_eq_true_iff.mp hj
    simp only [hcut]
    by_cases hjk : j = k
    · subst hjk
      by_cases hlt : j < kept.length <;> simp [hlt]
    · simp [hjk]

/-- After the first `j` chunks of a row, exactly the lengths the row serves
are left among the first `j`. -/
lemma foldChunk_loop (n : Nat) (window : Int) (row : Bitmap) (servable : List Bool) (j : Nat)
    (hj : j ≤ n) (hlen : servable.length = n) :
    ∃ run kept, (range j).foldl (foldChunk (effWindow n window) row) (0, servable)
      = (run, kept) ∧ RunTo row j run ∧ kept.length = n ∧ ∀ k, kept.getD k false ↔
      servable.getD k false ∧ (k < j → Serves window row (k + 1)) := by
  induction j with
  | zero => exact ⟨0, servable, rfl, by simp [RunTo], hlen, fun k => by simp⟩
  | succ j ih =>
    obtain ⟨run, kept, hfold, hrun, hkept, hiff⟩ := ih (by omega)
    have hnext := hrun.next
    have hserves : min (effWindow n window) (j + 1) ≤ (if row.test j then run + 1 else 0) ↔
        Serves window row (j + 1) := by
      rw [hnext.le_iff (Nat.min_le_right _ _), Serves, windowStart_eq_sub window hj]
    rw [range_succ, foldl_append, hfold]
    simp only [foldl_cons, foldChunk]
    generalize (if row.test j then run + 1 else 0) = run' at hnext hserves ⊢
    refine ⟨run', _, rfl, hnext, ?_, fun k => ?_⟩
    · split <;> simp [hkept]
    · -- only the entry `j` is touched, and only when the row does not serve it
      rw [getD_cut, Bool.and_eq_true, hiff k]
      by_cases hkj : j = k
      · subst hkj
        simp [← hserves]
      · have hlt : k < j + 1 ↔ k < j := by omega
        simp [hkj, hlt]

/-! ## The outer loop -/

lemma foldRow_spec (n : Nat) (row : Bitmap × Int) (servable : List Bool)
    (hlen : servable.length = n) : (foldRow n servable row).length = n ∧
      ∀ k, (foldRow n servable row).getD k false ↔
      servable.getD k false ∧ (k < n → Serves row.2 row.1 (k + 1)) := by
  obtain ⟨run, kept, hfold, -, hkept, hiff⟩ :=
    foldChunk_loop n row.2 row.1 servable n (Nat.le_refl n) hlen
  simp only [foldRow, hfold]
  exact ⟨hkept, hiff⟩

lemma foldRow_loop (n : Nat) (pairs : List (Bitmap × Int)) (servable : List Bool)
    (hlen : servable.length = n) : (pairs.foldl (foldRow n) servable).length = n ∧
      ∀ k, (pairs.foldl (foldRow n) servable).getD k false ↔
      servable.getD k false ∧ ∀ p ∈ pairs, k < n → Serves p.2 p.1 (k + 1) := by
  induction pairs generalizing servable with
  | nil => exact ⟨hlen, fun k => by simp⟩
  | cons p pairs ih =>
    obtain ⟨hlen', hiff'⟩ := foldRow_spec n p servable hlen
    obtain ⟨hlen'', hiff''⟩ := ih (foldRow n servable p) hlen'
    refine ⟨hlen'', fun k => ?_⟩
    rw [foldl_cons, hiff'', hiff']
    simp only [mem_cons, forall_eq_or_imp, and_assoc]

section Grouped

variable {rows : List Bitmap} {windows : List Int} {n : Nat}

lemma numChunks_eq (hne : rows ≠ []) (hsize : ∀ row ∈ rows, row.size = n) :
    numChunks rows = n := by
  cases rows with
  | nil => exact absurd rfl hne
  | cons row rows => exact hsize row mem_cons_self

/-- `fold_grouped` marks the lengths that every row serves. -/
lemma foldGrouped_spec (hne : rows ≠ []) (hlen : rows.length = windows.length)
    (hsize : ∀ row ∈ rows, row.size = n) :
    ∃ servable, foldGrouped rows windows = .ok servable ∧ servable.size = n ∧
      ∀ k, servable.test k ↔ k < n ∧ AllServe rows windows (k + 1) := by
  have hn := numChunks_eq hne hsize
  have hwne : windows.isEmpty = false := by
    cases windows with
    | nil => exact absurd (length_eq_zero_iff.mp hlen) hne
    | cons w ws => rfl
  have hfind : rows.find? (fun row => row.size ≠ numChunks rows) = none := by
    rw [find?_eq_none]
    intro row hrow
    simp [hn, hsize row hrow]
  obtain ⟨hl, hiff⟩ := foldRow_loop n (rows.zip windows) (replicate n true)
    length_replicate
  refine ⟨⟨(rows.zip windows).foldl (foldRow n) (replicate n true)⟩, ?_, hl, fun k => ?_⟩
  · simp only [foldGrouped, hwne, Bool.false_eq_true, if_false, hlen, ne_eq, not_true, hfind]
    rw [hn]
  · refine (hiff k).trans ?_
    by_cases hk : k < n
    · simp [hk, AllServe]
    · simp [hk]

/-- The composition finds the longest prefix every row serves, and retains
for each row the chunks its window needs at that length. -/
lemma foldUnfoldGrouped_spec (hne : rows ≠ []) (hlen : rows.length = windows.length)
    (hsize : ∀ row ∈ rows, row.size = n) : ∃ hitLength, foldUnfoldGrouped rows windows
      = .ok (hitLength, windows.map (unfoldRow hitLength n)) ∧
      hitLength ≤ n ∧ AllServe rows windows hitLength ∧
      ∀ length ≤ n, AllServe rows windows length → length ≤ hitLength := by
  obtain ⟨servable, hfold, hsz, hiff⟩ := foldGrouped_spec hne hlen hsize
  obtain ⟨h, hh, habove, hbelow⟩ := servable.highestSetBit_spec
  have hhit : (servable.highestSetBit + 1).toNat = h := by omega
  have hle : h ≤ n := by
    by_cases h0 : 0 < h
    · have := ((hiff (h - 1)).mp (hbelow h0)).1
      omega
    · omega
  have hwne : windows.isEmpty = false := by
    cases windows with
    | nil => exact absurd (length_eq_zero_iff.mp hlen) hne
    | cons w ws => rfl
  refine ⟨h, ?_, hle, ?_, fun length hl hall => ?_⟩
  · simp only [foldUnfoldGrouped, hfold, hhit, unfoldGrouped, hwne, numChunks_eq hne hsize,
      Nat.min_eq_left hle, bind, Except.bind, pure, Except.pure, Bool.false_eq_true, if_false]
  · by_cases h0 : 0 < h
    · have := ((hiff (h - 1)).mp (hbelow h0)).2
      rwa [show h - 1 + 1 = h by omega] at this
    · rw [show h = 0 by omega]
      exact fun _ _ _ _ h => absurd h (Nat.not_lt_zero _)
  · by_contra hgt
    have hset := (hiff (length - 1)).mpr
      ⟨by omega, by rwa [show length - 1 + 1 = length by omega]⟩
    rw [habove (length - 1) (by omega)] at hset
    cases hset

end Grouped

/-- The retained chunks are those of the window. -/
lemma unfoldRow_test {hitLength n : Nat} (h : hitLength ≤ n) (window : Int) (j : Nat) :
    (unfoldRow hitLength n window).test j ↔
      windowStart window hitLength ≤ j ∧ j < hitLength := by
  unfold unfoldRow
  split
  · rw [test_setRange]
    simp only [test_zeros, size_zeros, Bool.false_or, Bool.and_eq_true, decide_eq_true_eq]
    omega
  · simp
    omega

@[simp] lemma size_unfoldRow (hitLength n : Nat) (window : Int) :
    (unfoldRow hitLength n window).size = n := by
  unfold unfoldRow
  split <;> simp

end LMCache.Native
