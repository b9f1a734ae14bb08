/-
LMCache.StorageControllers.Acquire — the loops in which a request takes
locks and buffers.

Three L1 calls give a request something: `reserve_read` a read lock on what
is resident, `reserve_write` a staging entry, and
`finish_write_and_reserve_read` turns staging entries into read locks. Each
is called row by row. The cells the controller then marks are exactly those
whose key got what was asked for, so what the request holds afterwards is the
tally of the marked cells.
-/
import LMCache.StorageControllers.Effects

namespace LMCache.StorageControllers

open List Lib Native L1Manager World Bitmap

variable {Key Obj : Type} [DecidableEq Key] [DecidableEq Obj] {m n : Nat}
  {env : Environment Key Obj} {request : Nat}

/-! ## `reserve_read` -/

/-- The answers report the key as reserved. -/
def succeeded (answers : Dict Key (L1OperationResult Obj)) (key : Key) : Bool :=
  (answers.get? key).any fun r => decide (r.1 = .success)

section ReserveRead

variable {l1Idx : Nat}

lemma validateReadLocks_pos (readLocks : Int) : 0 < validateReadLocks readLocks := by
  unfold validateReadLocks
  split
  · exact Nat.one_pos
  · split
    · decide
    · omega

/-- What a row's `reserve_read` obtains for a key. -/
def rowGrant (found : L1State Key Obj) (row : GroupedObjectKeys Key) (key : Key) : Int :=
  if key ∈ found.objects then (row.keys.count key : Int) * lockWeight row else 0

omit [DecidableEq Obj] in
lemma readsOn_rowGrant_nonneg (found : L1State Key Obj) (row : GroupedObjectKeys Key) (idx : Nat)
    (key : Key) : 0 ≤ readsOn l1Idx (rowGrant found row) (.read idx key) := by
  have hgrant := Int.mul_nonneg (Int.natCast_nonneg (row.keys.count key))
    (Int.natCast_nonneg (validateReadLocks row.numKvReaders))
  simp only [readsOn, rowGrant, lockWeight]
  split_ifs <;> omega

variable (acc : World Key Obj × Dict Key (L1OperationResult Obj)) (row : GroupedObjectKeys Key)

lemma effect_reserveReadRow : Effect request acc.1 (reserveReadRow env request l1Idx acc row).1
      (readsOn l1Idx (rowGrant (acc.1.met env l1Idx) row)) (fun _ _ => false) := by
  refine (effect_callL1 rfl (fun key tag => ?_) fun _ _ => rfl).congr (fun x => ?_) fun _ _ => rfl
  · exact not_false
  cases x with
  | read idx key =>
    by_cases h : l1Idx = idx
    · simp only [Act.amount, readsOn, L1Call.granted, givenBack, rowGrant, lockWeight, h]
      split <;> simp
    · simp [Act.amount, readsOn, h, Ne.symm h]
  | _ => simp [Act.amount, readsOn]

/-- A row's answers replace those of earlier rows for the keys it has. -/
lemma reserveReadRow_answers (key : Key) :
    succeeded (reserveReadRow env request l1Idx acc row).2 key
      = if key ∈ row.keys then decide (key ∈ (acc.1.met env l1Idx).objects)
      else succeeded acc.2 key := by
  simp only [succeeded, reserveReadRow, Dict.get?_update]
  rw [reserveRead_answer]
  split
  · cases hget : (acc.1.met env l1Idx).objects.get? key with
    | none => simp [readAnswer, Dict.not_mem_iff_get?.mpr hget]
    | some e => simp [readAnswer, Dict.mem_iff_get?.mpr ⟨e, hget⟩]
  · rfl

variable (env request l1Idx) in
/-- The rows of one L1 manager: a key in no row keeps its answer, and among
distinct keys the locks taken are those reported. -/
lemma reserveReadRows_spec (rows : List (GroupedObjectKeys Key))
    (acc : World Key Obj × Dict Key (L1OperationResult Obj)) : ∃ grant : Key → Int,
      Effect request acc.1 (rows.foldl (reserveReadRow env request l1Idx) acc).1
      (readsOn l1Idx grant) (fun _ _ => false) ∧ (∀ key, key ∉ flattenedKeys rows →
      succeeded (rows.foldl (reserveReadRow env request l1Idx) acc).2 key = succeeded acc.2 key) ∧
      ((flattenedKeys rows).Nodup → ∀ key, grant key = (rows.map fun row =>
      if succeeded (rows.foldl (reserveReadRow env request l1Idx) acc).2 key
      then (row.keys.count key : Int) * lockWeight row else 0).sum) := by
  induction rows generalizing acc with
  | nil =>
    refine ⟨0, (Effect.refl acc.1).congr (fun x => ?_) fun _ _ => rfl, ?_, ?_⟩
    · cases x <;> simp [readsOn]
    · intro key _
      rfl
    · intro _ key
      rfl
  | cons row rows ih =>
    obtain ⟨grant, heff, hkeep, hsum⟩ := ih (reserveReadRow env request l1Idx acc row)
    have hrow : Effect request acc.1 (reserveReadRow env request l1Idx acc row).1
        (readsOn l1Idx (rowGrant (acc.1.met env l1Idx) row)) (fun _ _ => false) :=
      effect_reserveReadRow acc row
    have hans : ∀ key, succeeded (reserveReadRow env request l1Idx acc row).2 key = _ :=
      reserveReadRow_answers acc row
    rw [foldl_cons]
    refine ⟨fun key => rowGrant (acc.1.met env l1Idx) row key + grant key, ?_, ?_, ?_⟩
    · refine (hrow.trans heff (.inl (readsOn_rowGrant_nonneg _ row))).congr (fun x => ?_) fun _ _ => rfl
      cases x with
      | read idx key =>
        simp only [Pi.add_apply, readsOn]
        split <;> omega
      | _ => simp [readsOn]
    · intro key hkey
      rw [flattenedKeys, flatMap_cons, mem_append, not_or] at hkey
      rw [hkeep key hkey.2, hans, if_neg hkey.1]
    · intro hnodup key
      rw [flattenedKeys, flatMap_cons, nodup_append] at hnodup
      obtain ⟨-, hrest, hdisj⟩ := hnodup
      rw [map_cons, sum_cons, ← hsum hrest key]
      by_cases hk : key ∈ row.keys
      · have hlater : key ∉ flattenedKeys rows := fun h => hdisj key hk key h rfl
        rw [hkeep key hlater, hans, if_pos hk]
        simp [rowGrant]
      · simp [rowGrant, count_eq_zero_of_not_mem hk]

variable {spec : PrefetchTaskSpec Key}

omit [DecidableEq Obj] in
/-- The cells `_lock_l1_keys` marks are those whose key succeeded. -/
lemma successBitmap_test {answers : Dict Key (L1OperationResult Obj)} {cells : spec.Grid}
    (h : scatterBitmapsFullGlobal (successBitmap spec answers) spec.numRows spec.groupSize
      = .ok cells) {i j : Nat} {key : Key} (hkey : keyAt spec.keyGroups i j = some key) :
    cells.test i j = succeeded answers key := by
  obtain ⟨g, hg, hj⟩ := Option.bind_eq_some_iff.mp hkey
  have hi : i < spec.numRows := (List.getElem?_eq_some_iff.mp hg).1
  have hlt : j < spec.groupSize := by
    rw [← spec.rows.width g (mem_of_getElem? hg)]
    exact (List.getElem?_eq_some_iff.mp hj).1
  have hflat := flattenedKeys_getElem? spec.rows.width i hlt
  rw [hkey] at hflat
  have hbound := (List.getElem?_eq_some_iff.mp hflat).1
  rw [scatterBitmapsFullGlobal_test h hi hlt, successBitmap, test_ofFn, hflat]
  simp [hbound, succeeded]

variable (env request) in
/-- `_lock_l1_keys` on one manager: it is skipped, or marks the cells whose
read locks it got. -/
lemma lockL1Manager_spec (s : spec.Session Obj) (item : Nat × MemoryTags) :
    lockL1Manager env request spec s item = s ∨ ∃ cells grant,
      (lockL1Manager env request spec s item).request = { s.request with
      keyStates := { s.request.keyStates with
      l1LockedKeys := s.request.keyStates.l1LockedKeys.set item.1 cells } } ∧
      Effect request s.world (lockL1Manager env request spec s item).world
      (readsOn item.1 grant) (fun _ _ => false) ∧
      ((flattenedKeys spec.keyGroups).Nodup →
      ∀ key, grant key = tally lockWeight spec.keyGroups key cells) := by
  unfold lockL1Manager
  split
  · exact .inl rfl
  right
  obtain ⟨grant, heff, -, hsum⟩ :=
    reserveReadRows_spec env request item.1 spec.keyGroups (s.world, ∅)
  generalize spec.keyGroups.foldl (reserveReadRow env request item.1) (s.world, ∅) = acc
    at heff hsum
  have hsize : (successBitmap spec acc.2).size = (flattenedKeys spec.keyGroups).length := by
    simp [successBitmap]
  obtain ⟨cells, hcells⟩ := scatterBitmapsFullGlobal_ok spec.rows hsize
  have hmark : ∀ i j key, keyAt spec.keyGroups i j = some key →
      cells.test i j = succeeded acc.2 key := fun i j key => successBitmap_test hcells
  simp only [hcells]
  refine ⟨cells, grant, rfl, heff, fun hnodup key => ?_⟩
  rw [hsum hnodup key, tally_of_keys spec.rows hmark]

end ReserveRead

/-! ## `reserve_write` -/

/-- The answers hand out a buffer for the key. -/
def reservedFor (results : Dict Key (L1OperationResult Obj)) (key : Key) : Bool :=
  match results.get? key with
  | some (.success, some _) => true
  | _ => false

section ReserveWrite

variable {l1Idx : Nat} {w : World Key Obj} {keys : List Key} {alloc : AllocOutcome Obj}

/-- A key without a staging entry has one afterwards iff the answer hands out
a buffer. -/
lemma staged_callL1_reserveWrite {temps : List Bool} (hlen : keys.length = temps.length)
    (hq : Quiet request (w.callL1 env request l1Idx
      (.reserveWrite keys temps (getPrefetchWriteTag request) alloc)).trace) {key : Key}
    (hkey : key ∈ keys) (hnone : w.staged request l1Idx key = false) :
    ∃ ret st, reserveWrite (w.time env) keys temps (getPrefetchWriteTag request) alloc
      (w.met env l1Idx) = .ok (ret, st) ∧ (w.callL1 env request l1Idx
      (.reserveWrite keys temps (getPrefetchWriteTag request) alloc)).staged request l1Idx key
      = reservedFor ret key := by
  obtain ⟨hq', hcall⟩ := quiet_interleave_of_callL1 hq
  have hbefore := (frame_interleave.staged hq' l1Idx key).trans hnone
  have habsent : (w.met env l1Idx).getStaging key (getPrefetchWriteTag request) = none := by
    simpa [staged, met] using hbefore
  obtain ⟨acc, hok, hst, hanswer⟩ := reserveWrite_answer hlen hcall.honest habsent hkey
  refine ⟨acc.ret, _, hok, ?_⟩
  have hafter : (w.callL1 env request l1Idx (.reserveWrite keys temps
      (getPrefetchWriteTag request) alloc)).staged request l1Idx key
      = (acc.st.getStaging key (getPrefetchWriteTag request)).isSome := by
    rw [← hst]
    simp [staged, callL1, onL1, met]
  rw [hafter]
  rcases hanswer with ⟨e, hret, he, -⟩ | ⟨⟨err, herr, hret⟩, he⟩
  · simp [reservedFor, hret, he]
  · cases err <;> simp_all [reservedFor]

variable {row : Bitmap}

omit [DecidableEq Key] in
lemma mem_gather {key : Key} :
    key ∈ row.gather keys ↔ ∃ j, row.test j ∧ keys[j]? = some key := by
  simp [gather]

omit [DecidableEq Key] in
lemma mem_zip_gather (hsize : row.size = keys.length) {p : Nat × Key} :
    p ∈ row.getIndices.zip (row.gather keys) ↔ row.test p.1 ∧ keys[p.1]? = some p.2 := by
  have hzip : ∀ cols : List Nat, (∀ j ∈ cols, j < keys.length) →
      (p ∈ cols.zip (cols.filterMap (keys[·]?)) ↔ p.1 ∈ cols ∧ keys[p.1]? = some p.2) := by
    intro cols
    induction cols with
    | nil => intro _; simp
    | cons j cols ih =>
      intro hcols
      have hj := getElem?_eq_getElem (hcols j mem_cons_self)
      have htail := ih fun j' h' => hcols j' (mem_cons_of_mem _ h')
      rw [filterMap_cons, hj, zip_cons_cons, mem_cons, mem_cons, htail]
      constructor
      · rintro (rfl | ⟨hmem, hkey⟩)
        · exact ⟨.inl rfl, hj⟩
        · exact ⟨.inr hmem, hkey⟩
      · rintro ⟨rfl | hmem, hkey⟩
        · left
          rw [hj] at hkey
          exact Prod.ext rfl (Option.some.inj hkey).symm
        · exact .inr ⟨hmem, hkey⟩
  rw [gather, hzip]
  · rw [mem_getIndices]
  · intro j hj
    rw [← hsize]
    exact lt_size_of_test (mem_getIndices.mp hj)

omit [DecidableEq Obj] in
lemma noteReserved_spec {rowId : Nat} (hrow : rowId < m) (results : Dict Key (L1OperationResult Obj))
    {cell : Nat × Key} (hcol : cell.1 < n) (acc : Reserving Key Obj m n) :
    (noteReserved rowId results acc cell).world = acc.world ∧
    (∀ i j, (noteReserved rowId results acc cell).success.test i j ↔
      acc.success.test i j ∨ i = rowId ∧ j = cell.1 ∧ reservedFor results cell.2) ∧
    ((noteReserved rowId results acc cell).failedCount = 0 →
      acc.failedCount = 0 ∧ reservedFor results cell.2) := by
  have hset : ∀ i j, (acc.success.set rowId cell.1).test i j ↔
      acc.success.test i j ∨ i = rowId ∧ j = cell.1 := by
    intro i j
    rw [Bitmap2D.test_set]
    simp only [Bool.or_eq_true, Bool.and_eq_true, decide_eq_true_eq]
    exact or_congr_right ⟨fun h => ⟨h.1.1.1.symm, h.1.1.2.symm⟩, by rintro ⟨rfl, rfl⟩; simp [hrow, hcol]⟩
  unfold noteReserved reservedFor
  rcases results.get? cell.2 with _ | ⟨err, obj⟩
  · simp
  · cases err <;> cases obj <;> simp [hset]

omit [DecidableEq Obj] in
/-- Noting the answers of a row marks the cells that got a buffer and counts
the others. -/
lemma noteReserved_loop {rowId : Nat} (hrow : rowId < m) (results : Dict Key (L1OperationResult Obj))
    {cells : List (Nat × Key)} (hcols : ∀ p ∈ cells, p.1 < n) (acc : Reserving Key Obj m n) :
    (cells.foldl (noteReserved rowId results) acc).world = acc.world ∧
    (∀ i j, (cells.foldl (noteReserved rowId results) acc).success.test i j ↔
      acc.success.test i j ∨ i = rowId ∧
      ∃ key, (j, key) ∈ cells ∧ reservedFor results key) ∧
    ((cells.foldl (noteReserved rowId results) acc).failedCount = 0 →
      acc.failedCount = 0 ∧ ∀ p ∈ cells, reservedFor results p.2) := by
  induction cells generalizing acc with
  | nil => simp
  | cons p cells ih =>
    obtain ⟨hcol, hcols⟩ := forall_mem_cons.mp hcols
    obtain ⟨hworld, hsucc, hfail⟩ := ih hcols (noteReserved rowId results acc p)
    obtain ⟨hworld', hsucc', hfail'⟩ := noteReserved_spec hrow results hcol acc
    rw [foldl_cons]
    refine ⟨hworld.trans hworld', fun i j => ?_, fun hzero => ?_⟩
    · have hmem : (∃ key, (j, key) ∈ p :: cells ∧ reservedFor results key) ↔
          j = p.1 ∧ reservedFor results p.2 ∨
            ∃ key, (j, key) ∈ cells ∧ reservedFor results key := by
        simp [Prod.ext_iff, or_and_right, exists_or]
      rw [hsucc, hsucc', hmem, or_assoc, and_or_left]
    · obtain ⟨hacc, hall⟩ := hfail hzero
      exact ⟨(hfail' hacc).1, forall_mem_cons.mpr ⟨(hfail' hacc).2, hall⟩⟩

omit [DecidableEq Key] in
/-- The keys of the marked cells, once the answers of a row are noted. -/
lemma mem_gatherKeys_noted {groups : List (GroupedObjectKeys Key)} {k : Nat}
    {group : GroupedObjectKeys Key} {before after : Bitmap2D m n} {got : Key → Bool}
    (hgroup : groups[k]? = some group) (hcell : ∀ i j, after.test i j ↔
      before.test i j ∨ i = k ∧
        ∃ key, row.test j ∧ group.keys[j]? = some key ∧ got key) {key : Key} :
    key ∈ gatherKeys groups after ↔ key ∈ gatherKeys groups before ∨
      key ∈ row.gather group.keys ∧ got key := by
  rw [mem_gatherKeys, mem_gatherKeys, mem_gather]
  constructor
  · rintro ⟨i, j, hij, hkey⟩
    rcases (hcell i j).mp hij with hij | ⟨rfl, key', hj, hkey', hgot⟩
    · exact .inl ⟨i, j, hij, hkey⟩
    · rw [keyAt, hgroup, Option.bind_some, hkey'] at hkey
      cases hkey
      exact .inr ⟨⟨j, hj, hkey'⟩, hgot⟩
  · rintro (⟨i, j, hij, hkey⟩ | ⟨⟨j, hj, hkey⟩, hgot⟩)
    · exact ⟨i, j, (hcell i j).mpr (.inl hij), hkey⟩
    · exact ⟨k, j, (hcell k j).mpr (.inr ⟨rfl, key, hj, hkey, hgot⟩), by
        rw [keyAt, hgroup, Option.bind_some, hkey]⟩

/-- What a `reserve_write` does to the entry of one key: `old` are the keys with
entries before it, none of which it names, and `new` those afterwards. -/
lemma staged_reserveWrite_key {temps : List Bool} (hlen : keys.length = temps.length)
    (hq : Quiet request (w.callL1 env request l1Idx
      (.reserveWrite keys temps (getPrefetchWriteTag request) alloc)).trace)
    {ret : Dict Key (L1OperationResult Obj)} {st : L1State Key Obj}
    (hok : reserveWrite (w.time env) keys temps (getPrefetchWriteTag request) alloc
      (w.met env l1Idx) = .ok (ret, st)) {old new : List Key} {key : Key}
    (hfresh : key ∈ keys → key ∉ old)
    (hnew : key ∈ new ↔ key ∈ old ∨ key ∈ keys ∧ reservedFor ret key) {idx : Nat} {b : Bool}
    (hbefore : w.staged request idx key = if idx = l1Idx then decide (key ∈ old) else b) :
    (w.callL1 env request l1Idx (.reserveWrite keys temps (getPrefetchWriteTag request) alloc)).staged
      request idx key = if idx = l1Idx then decide (key ∈ new) else b := by
  by_cases hname : idx = l1Idx ∧ key ∈ keys
  · obtain ⟨rfl, hmem⟩ := hname
    rw [if_pos rfl, decide_eq_false (hfresh hmem)] at hbefore
    obtain ⟨ret', st', hok', hstaged⟩ := staged_callL1_reserveWrite hlen hq hmem hbefore
    rw [hok] at hok'
    cases hok'
    rw [hstaged, if_pos rfl, Bool.eq_iff_iff, decide_eq_true_eq, hnew]
    simp [hfresh hmem, hmem]
  · rw [staged_callL1_other rfl hq fun hidx hnames => hname ⟨hidx, hnames.2⟩, hbefore]
    by_cases hidx : idx = l1Idx
    · have hmem : key ∉ keys := fun hmem => hname ⟨hidx, hmem⟩
      rw [if_pos hidx, if_pos hidx, decide_eq_decide, hnew]
      simp [hmem]
    · rw [if_neg hidx, if_neg hidx]

/-- What holds after the first `k` rows of `_reserve_l1_cells`: the marked
cells are planned ones, all of them if nothing failed, and if the manager had
no staging entry of the request they are the entries it has now. -/
structure ReservedRows (request : Nat) (groups : List (GroupedObjectKeys Key)) (l1Idx : Nat)
    (cells : Bitmap2D m n) (w : World Key Obj) (k : Nat) (acc : Reserving Key Obj m n) : Prop where
  trades : Trades request w acc.world 0
  planned : ∀ i j, acc.success.test i j → i < k ∧ cells.test i j
  complete : acc.failedCount = 0 → ∀ i j, i < k → cells.test i j →
    acc.success.test i j
  staged : (flattenedKeys groups).Nodup → Quiet request acc.world.trace →
    (∀ key, w.staged request l1Idx key = false) → ∀ idx key,
    acc.world.staged request idx key
      = if idx = l1Idx then decide (key ∈ gatherKeys groups acc.success)
        else w.staged request idx key

variable {cfg : PrefetchConfig} {spec : PrefetchTaskSpec Key} {cells : Bitmap2D m n}

lemma trades_reserveWrite {temps : List Bool} : Trades request w (w.callL1 env request l1Idx
      (.reserveWrite keys temps (getPrefetchWriteTag request) alloc)) 0 := by
  have hown : OwnCall request (.reserveWrite keys temps (getPrefetchWriteTag request) alloc) :=
    ⟨rfl, fun _ _ h => h.1.symm⟩
  have htrades : Trades request w (w.callL1 env request l1Idx
      (.reserveWrite keys temps (getPrefetchWriteTag request) alloc)) _ :=
    trades_callL1 hown fun _ _ => rfl
  refine ⟨htrades.toMoves, fun x => ?_, htrades.missed, htrades.booked⟩
  rw [htrades.holds]
  cases x with
  | read idx key => simp [Act.amount, L1Call.granted, givenBack]
  | _ => simp [Act.amount]

variable {acc : Reserving Key Obj m n}

lemma ReservedRows.skip {k : Nat} (h : ReservedRows request spec.keyGroups l1Idx cells w k acc)
    (hnone : ∀ j, cells.test k j = false) :
    ReservedRows request spec.keyGroups l1Idx cells w (k + 1) acc where
  trades := h.trades
  planned i j hij := ⟨Nat.lt_succ_of_lt (h.planned i j hij).1, (h.planned i j hij).2⟩
  complete hzero i j hi hij := by
    rcases Nat.lt_succ_iff_lt_or_eq.mp hi with hi | rfl
    · exact h.complete hzero i j hi hij
    · rw [hnone j] at hij
      cases hij
  staged := h.staged

lemma reserveRow_spec (hrows : Rows spec.keyGroups m n) {k : Nat}
    (h : ReservedRows request spec.keyGroups l1Idx cells w k acc) {group : GroupedObjectKeys Key}
    (hgroup : spec.keyGroups[k]? = some group) (hrow : cells.rows[k]? = some row) :
    ReservedRows request spec.keyGroups l1Idx cells w (k + 1)
      (reserveRow env cfg request spec l1Idx acc ((group, row), k)) := by
  have hk : k < m := hrows.length ▸ (List.getElem?_eq_some_iff.mp hgroup).1
  have hwidth : group.keys.length = n := hrows.width group (mem_of_getElem? hgroup)
  have hsize : row.size = group.keys.length :=
    (cells.size_rows row (mem_of_getElem? hrow)).trans hwidth.symm
  unfold reserveRow
  dsimp only
  split_ifs with hempty
  · refine h.skip fun j => ?_
    rw [cells.test_eq hrow]
    by_contra hj
    have hmem := mem_getIndices.mpr (Bool.not_eq_false _ ▸ hj)
    rw [isEmpty_iff.mp hempty] at hmem
    cases hmem
  -- the row has planned cells: one call reserves them all
  have hlen : (row.gather group.keys).length
      = ((row.gather group.keys).map fun _ => !retains cfg spec).length := by simp
  have hcall : Trades request acc.world (acc.world.callL1 env request l1Idx
      (.reserveWrite (row.gather group.keys) ((row.gather group.keys).map fun _ =>
        !retains cfg spec) (getPrefetchWriteTag request) (acc.world.allocated env))) 0 :=
    trades_reserveWrite
  obtain ⟨ret, st, hok⟩ : ∃ ret st, reserveWrite (acc.world.time env) (row.gather group.keys)
      ((row.gather group.keys).map fun _ => !retains cfg spec) (getPrefetchWriteTag request)
      (acc.world.allocated env) (acc.world.met env l1Idx) = .ok (ret, st) := by
    unfold reserveWrite
    rw [if_neg (by simp)]
    dsimp only
    split
    · exact ⟨_, _, rfl⟩
    · exact ⟨_, _, rfl⟩
  simp only [hok]
  generalize hworld : acc.world.callL1 env request l1Idx
    (.reserveWrite (row.gather group.keys) ((row.gather group.keys).map fun _ =>
      !retains cfg spec) (getPrefetchWriteTag request) (acc.world.allocated env)) = w' at hcall
  have hcols : ∀ p ∈ row.getIndices.zip (row.gather group.keys), p.1 < n := fun p hp =>
    hwidth ▸ hsize ▸ lt_size_of_test ((mem_zip_gather hsize).mp hp).1
  obtain ⟨hw, hcell, hfail⟩ := noteReserved_loop hk ret hcols { acc with world := w' }
  simp only [mem_zip_gather hsize, and_assoc] at hcell
  generalize (row.getIndices.zip (row.gather group.keys)).foldl (noteReserved k ret)
    { acc with world := w' } = acc' at hw hcell hfail
  refine ⟨?_, ?_, ?_, ?_⟩
  · rw [hw]
    have hboth := h.trades.trans hcall (.inr (by simp))
    rwa [add_zero] at hboth
  · intro i j hij
    rcases (hcell i j).mp hij with hij | ⟨rfl, key, hj, -, -⟩
    · exact ⟨Nat.lt_succ_of_lt (h.planned i j hij).1, (h.planned i j hij).2⟩
    · exact ⟨Nat.lt_succ_self _, (cells.test_eq hrow j).trans hj⟩
  · intro hzero i j hi hij
    obtain ⟨hacc, hall⟩ := hfail hzero
    rw [hcell]
    rcases Nat.lt_succ_iff_lt_or_eq.mp hi with hi | rfl
    · exact .inl (h.complete hacc i j hi hij)
    · rw [cells.test_eq hrow] at hij
      have hj : j < group.keys.length := hsize ▸ lt_size_of_test hij
      have hkey := getElem?_eq_getElem hj
      exact .inr ⟨rfl, _, hij, hkey, hall (j, _) ((mem_zip_gather hsize).mpr ⟨hij, hkey⟩)⟩
  · intro hnodup hq hnone idx key
    rw [hw, ← hworld] at hq ⊢
    have hbefore := h.staged hnodup (hcall.toMoves.quiet (hworld ▸ hq)) hnone idx key
    refine staged_reserveWrite_key hlen hq hok (fun hmem hold => ?_)
      (mem_gatherKeys_noted hgroup hcell) hbefore
    -- the key's only cell is in this row, so it has no entry yet
    obtain ⟨i, j, hij, hkey⟩ := mem_gatherKeys.mp hold
    obtain ⟨j', -, hkey'⟩ := mem_gather.mp hmem
    have hat : keyAt spec.keyGroups k j' = some key := by
      rw [keyAt, hgroup, Option.bind_some, hkey']
    have hik := (keyAt_inj hrows.width hnodup hkey hat).1
    have hlt := (h.planned i j hij).1
    omega

lemma reserveL1Cells_spec (hrows : Rows spec.keyGroups m n) (cells : Bitmap2D m n)
    (w : World Key Obj) : ReservedRows request spec.keyGroups l1Idx cells w m
      (reserveL1Cells env cfg request spec l1Idx cells w) := by
  have hloop : ∀ (items : List ((GroupedObjectKeys Key × Bitmap) × Nat)) (k : Nat)
      (acc : Reserving Key Obj m n),
      (∀ j, items[j]? = (spec.keyGroups.zip cells.rows).zipIdx[k + j]?) →
      ReservedRows request spec.keyGroups l1Idx cells w k acc →
      ReservedRows request spec.keyGroups l1Idx cells w (k + items.length)
        (items.foldl (reserveRow env cfg request spec l1Idx) acc) := by
    intro items
    induction items with
    | nil => intro k acc _ h; exact h
    | cons item items ih =>
      intro k acc hitems h
      have hitem := hitems 0
      rw [getElem?_zipIdx, zero_add] at hitem
      obtain ⟨p, hp, rfl⟩ := Option.map_eq_some_iff.mp hitem.symm
      obtain ⟨hgroup, hrow⟩ := getElem?_zip_eq_some.mp hp
      have hnext := ih (k + 1) (reserveRow env cfg request spec l1Idx acc (p, k))
        (fun j => by rw [add_assoc, add_comm 1 j, ← hitems (j + 1), getElem?_cons_succ])
        (reserveRow_spec hrows h hgroup hrow)
      rwa [add_assoc, add_comm 1] at hnext
  have hstart : ReservedRows request spec.keyGroups l1Idx cells w 0 ⟨w, .zeros m n, ∅, 0⟩ :=
    ⟨.refl w, by simp, by simp, fun _ _ hnone idx key => by
      by_cases hidx : idx = l1Idx
      · subst hidx
        simp [hnone, gatherKeys_zeros]
      · rw [if_neg hidx]⟩
  have hend := hloop (spec.keyGroups.zip cells.rows).zipIdx 0 _ (fun j => by rw [zero_add]) hstart
  rw [length_zipIdx, length_zip, hrows.length, cells.length_rows, Nat.min_self, zero_add] at hend
  exact hend

end ReserveWrite

/-! ## `finish_write_and_reserve_read` -/

section Admit

variable {l1Idx : Nat} {w : World Key Obj}

/-- The call that admits loaded keys. -/
def admitOp (request : Nat) (keys : List Key) (readLocks : Int) : L1Op Key Obj :=
  .finishWriteAndReserveRead keys readLocks (getPrefetchWriteTag request)

variable {readLocks : Int} {keys : List Key}

/-- An admission that misses nothing finds every key staged and live. -/
lemma live_of_neverMissed
    (hn : NeverMissed request (w.callL1 env request l1Idx (admitOp request keys readLocks)).trace)
    {key : Key} (hkey : key ∈ keys) :
    (w.met env l1Idx).stagesLive (w.time env) key (getPrefetchWriteTag request) := by
  have hact := hn _ (mem_append_right _ (mem_singleton_self _)) rfl
  simp only [admitOp, Act.misses, any_eq_false, Bool.not_eq_true, Bool.not_eq_false'] at hact
  exact hact key hkey

/-- An admission of staged keys that have not expired misses nothing. -/
lemma neverMissed_admission
    (hq : Quiet request (w.callL1 env request l1Idx (admitOp request keys readLocks)).trace)
    (hn : NeverMissed request w.trace) (hstaged : ∀ key ∈ keys, w.staged request l1Idx key) :
    NeverMissed request (w.callL1 env request l1Idx (admitOp request keys readLocks)).trace := by
  obtain ⟨hq', hcall⟩ := quiet_interleave_of_callL1 hq
  intro a ha hreq
  rcases mem_append.mp ha with ha | ha
  · exact frame_interleave.neverMissed.mpr hn a ha hreq
  · rw [mem_singleton.mp ha]
    simp only [admitOp, Act.misses, any_eq_false, Bool.not_eq_true, Bool.not_eq_false']
    intro key hkey
    have hmet : (w.interleave env).staged request l1Idx key :=
      (frame_interleave.staged hq' l1Idx key).trans (hstaged key hkey)
    obtain ⟨e, he⟩ := Option.isSome_iff_exists.mp hmet
    have hlive : e.writeLock.isLocked (w.time env) := hcall.unexpired key e he
    exact (Option.any_eq_true _ _).mpr ⟨e, he, hlive⟩

/-- What one admission gives the request. -/
lemma holds_admission (x : Item Key) :
    (w.callL1 env request l1Idx (admitOp request keys readLocks)).holds request x
      = w.holds request x + readsOn l1Idx (fun key =>
      if key ∈ keys ∧
      (w.met env l1Idx).stagesLive (w.time env) key (getPrefetchWriteTag request)
      then (validateReadLocks readLocks : Int) else 0) x := by
  rw [holds, total_callL1]
  congr 1
  cases x with
  | read idx key =>
    simp only [Act.amount, readsOn, L1Call.granted, givenBack, admitOp, eq_comm]
    split
    · split <;> simp
    · rfl
  | _ => rfl

/-- What admitting the rows of a finished load does: the request gets the
read locks of the rows unless a staging entry was missed, the entries are
gone, and none is missed if all were there and unexpired. -/
structure Admits (request l1Idx : Nat) (rows : List (GroupedObjectKeys Key × List Key))
    (w w' : World Key Obj) : Prop extends Moves request w w' where
  rest : ∀ x, (∀ idx key, x ≠ .read idx key) → w'.holds request x = w.holds request x
  reads : NeverMissed request w'.trace → (rows.flatMap Prod.snd).Nodup → ∀ idx key,
    w'.holds request (.read idx key) = w.holds request (.read idx key)
      + if idx = l1Idx then (rows.map fun p => (p.2.count key : Int) * lockWeight p.1).sum else 0
  booked : SecureFor request w'.trace → w.Booked request → w'.Booked request
  staged : Quiet request w'.trace → ∀ idx key, w'.staged request idx key
    = (w.staged request idx key && !(decide (idx = l1Idx) && decide (key ∈ rows.flatMap Prod.snd)))
  kept : Quiet request w'.trace → NeverMissed request w.trace → (rows.flatMap Prod.snd).Nodup →
    (∀ key ∈ rows.flatMap Prod.snd, w.staged request l1Idx key) →
    NeverMissed request w'.trace

lemma Admits.append {rows rows' : List (GroupedObjectKeys Key × List Key)}
    {w w' w'' : World Key Obj} (h : Admits request l1Idx rows w w')
    (h' : Admits request l1Idx rows' w' w'') : Admits request l1Idx (rows ++ rows') w w'' where
  toMoves := h.toMoves.trans h'.toMoves
  rest x hx := (h'.rest x hx).trans (h.rest x hx)
  reads hn hnodup idx key := by
    rw [flatMap_append, nodup_append] at hnodup
    rw [h'.reads hn hnodup.2.1, h.reads (h'.neverMissed hn) hnodup.1, map_append, sum_append]
    split <;> omega
  booked hsecure hbooked := h'.booked hsecure (h.booked (h'.secure hsecure) hbooked)
  staged hq idx key := by
    rw [h'.staged hq, h.staged (h'.quiet hq), flatMap_append]
    simp only [mem_append]
    cases w.staged request idx key <;> cases decide (idx = l1Idx) <;> simp
  kept hq hn hnodup hstaged := by
    rw [flatMap_append, nodup_append] at hnodup
    rw [flatMap_append] at hstaged
    refine h'.kept hq ?_ hnodup.2.1 ?_
    · exact h.kept (h'.quiet hq) hn hnodup.1 fun key hkey =>
        hstaged key (mem_append_left _ hkey)
    · -- the first rows take none of the entries the others need
      intro key hkey
      have hlater : key ∉ rows.flatMap Prod.snd := fun hmem => hnodup.2.2 key hmem key hkey rfl
      rw [h.staged (h'.quiet hq), hstaged key (mem_append_right _ hkey)]
      simp [hlater]

lemma admits_row (row : GroupedObjectKeys Key × List Key) (w : World Key Obj) :
    Admits request l1Idx [row] w
      (w.callL1 env request l1Idx (admitOp request row.2 row.1.numKvReaders)) where
  toMoves := moves_callL1 ⟨rfl, fun _ _ h => h.1.symm⟩
  rest x hx := by
    rw [holds_admission]
    cases x with
    | read idx key => exact absurd rfl (hx idx key)
    | _ => simp [readsOn]
  reads hn hnodup idx key := by
    rw [flatMap_singleton] at hnodup
    rw [holds_admission]
    simp only [readsOn, map_cons, map_nil, sum_cons, sum_nil, add_zero]
    by_cases hkey : key ∈ row.2
    · simp [hkey, live_of_neverMissed hn hkey, count_eq_one_of_mem hnodup hkey, lockWeight]
    · simp [hkey, count_eq_zero_of_not_mem hkey]
  booked hsecure hbooked := by
    refine World.Booked.onL1 (frame_interleave.booked hsecure.of_append hbooked) hsecure
      fun _ idx key => ?_
    have hbefore := hbooked.solvent idx key
    show 0 ≤ (w.callL1 env request l1Idx (admitOp request row.2 row.1.numKvReaders)).holds request _
    rw [holds_admission]
    simp only [readsOn]
    split_ifs <;> omega
  staged hq idx key := by
    rw [flatMap_singleton]
    exact staged_callL1_finish (.reserveRead _) hq idx key
  kept hq hn _ hstaged := by
    rw [flatMap_singleton] at hstaged
    exact neverMissed_admission hq hn hstaged

variable (env) in
lemma admits_rows (rows : List (GroupedObjectKeys Key × List Key)) (w : World Key Obj) :
    Admits request l1Idx rows w (rows.foldl (fun w row =>
      if row.2.isEmpty then w
      else w.callL1 env request l1Idx (admitOp request row.2 row.1.numKvReaders)) w) := by
  induction rows generalizing w with
  | nil => exact ⟨.refl w, by simp, by simp, fun _ => id, by simp, fun _ hn _ _ => hn⟩
  | cons row rows ih =>
    have hrow : Admits request l1Idx [row] w (if row.2.isEmpty then w
        else w.callL1 env request l1Idx (admitOp request row.2 row.1.numKvReaders)) := by
      split_ifs with hempty
      · have hnil := isEmpty_iff.mp hempty
        exact ⟨.refl w, by simp, by simp [hnil], fun _ => id, by simp [hnil], fun _ hn _ _ => hn⟩
      · exact admits_row row w
    exact hrow.append (ih _)

end Admit

end LMCache.StorageControllers
