/-
LMCache.Lib.Extents — ranges of addresses, and lists of them that tile an
address space.

An extent is a half-open range. `coverage es x` counts the extents of a list
that contain the address `x`, so that "these extents partition the addresses
below `n`" is an equation for every address (`Tiles`), splitting and joining
extents are additions, and the order of the list does not matter.

`Separated` is the discipline of a free list: ascending, with a gap between
any two neighbours. `insort` keeps a list ordered by start, and `place` puts
an extent between two parts of a separated list, joining it with the
neighbours it touches.
-/
import Mathlib.Data.List.Perm.Basic

namespace LMCache.Lib

open List

/-- The addresses from `start` on, `size` of them. -/
structure Extent where
  start : Nat
  size : Nat
  deriving DecidableEq, Repr

namespace Extent

def stop (e : Extent) : Nat := e.start + e.size

def covers (e : Extent) (x : Nat) : Bool := decide (e.start ≤ x) && decide (x < e.stop)

lemma covers_iff {e : Extent} {x : Nat} : e.covers x ↔ e.start ≤ x ∧ x < e.stop := by
  simp [covers]

end Extent

/-! ## Coverage -/

/-- The number of extents that contain the address. -/
def coverage (es : List Extent) (x : Nat) : Nat := es.countP (·.covers x)

variable {es es' pre post : List Extent} {e b : Extent} {n x : Nat}

@[simp] lemma coverage_nil : coverage [] x = 0 := rfl

lemma coverage_cons : coverage (e :: es) x = coverage [e] x + coverage es x := by
  simp [coverage, countP_cons, Nat.add_comm]

@[simp] lemma coverage_append : coverage (es ++ es') x = coverage es x + coverage es' x := by
  simp [coverage]

lemma coverage_append_cons :
    coverage (pre ++ e :: post) x = coverage pre x + coverage [e] x + coverage post x := by
  rw [coverage_append, coverage_cons, Nat.add_assoc]

lemma coverage_perm (h : es.Perm es') : coverage es x = coverage es' x := h.countP_eq _

lemma coverage_singleton : coverage [e] x = if e.start ≤ x ∧ x < e.stop then 1 else 0 := by
  simp [coverage, Extent.covers_iff]

lemma coverage_split {s n m : Nat} :
    coverage [⟨s, n + m⟩] x = coverage [⟨s, n⟩] x + coverage [⟨s + n, m⟩] x := by
  simp only [coverage_singleton, Extent.stop]
  grind

/-- What is left of an extent after its first `a` addresses. -/
def Extent.trim (b : Extent) (a : Nat) : List Extent :=
  if b.size > a then [⟨b.start + a, b.size - a⟩] else []

lemma coverage_trim {a : Nat} (h : a ≤ b.size) :
    coverage [⟨b.start, a⟩] x + coverage (b.trim a) x = coverage [b] x := by
  unfold Extent.trim
  split
  · have hsize : b = ⟨b.start, a + (b.size - a)⟩ := by
      rw [Nat.add_sub_cancel' h]
    rw [hsize, coverage_split]
    simp
  · obtain rfl : a = b.size := by omega
    simp

lemma coverage_pos_of_mem (h : e ∈ es) (hx : e.start ≤ x) (hlt : x < e.stop) :
    0 < coverage es x :=
  countP_pos_iff.mpr ⟨e, h, Extent.covers_iff.mpr ⟨hx, hlt⟩⟩

lemma exists_of_coverage_pos (h : 0 < coverage es x) : ∃ e ∈ es, e.start ≤ x ∧ x < e.stop := by
  obtain ⟨e, he, hcovers⟩ := countP_pos_iff.mp h
  exact ⟨e, he, Extent.covers_iff.mp hcovers⟩

/-! ## Tilings -/

/-- The extents partition the addresses below `n`. -/
def Tiles (n : Nat) (es : List Extent) : Prop := ∀ x, coverage es x = if x < n then 1 else 0

lemma Tiles.perm (h : Tiles n es) (hperm : es.Perm es') : Tiles n es' :=
  fun x => (coverage_perm hperm).symm.trans (h x)

lemma Tiles.stop_le (h : Tiles n es) (he : e ∈ es) (hpos : 0 < e.size) : e.stop ≤ n := by
  by_contra hover
  have hcovered : 0 < coverage es (e.stop - 1) :=
    coverage_pos_of_mem he (by simp only [Extent.stop]; omega) (by simp only [Extent.stop]; omega)
  rw [h, if_neg (by omega)] at hcovered
  exact Nat.lt_irrefl _ hcovered

lemma apart_of_coverage_le (h : ∀ x, coverage (e :: es) x ≤ 1) (hb : b ∈ es)
    (hpos : 0 < e.size) (hbpos : 0 < b.size) : e.stop ≤ b.start ∨ b.stop ≤ e.start := by
  by_contra hover
  have hcount := h (max e.start b.start)
  simp only [Extent.stop] at hover
  have hcovered : 0 < coverage es (max e.start b.start) :=
    coverage_pos_of_mem hb (by omega) (by simp only [Extent.stop]; omega)
  rw [coverage_cons, coverage_singleton, if_pos (by simp only [Extent.stop]; omega)] at hcount
  omega

lemma Tiles.coverage_le (h : Tiles n es) (x : Nat) : coverage es x ≤ 1 := by
  rw [h]
  split <;> omega

/-- Where no address is covered twice, nonempty extents are pairwise apart. -/
lemma pairwise_of_coverage_le (hle : ∀ x, coverage es x ≤ 1) (hpos : ∀ e ∈ es, 0 < e.size) :
    es.Pairwise fun e e' => e.stop ≤ e'.start ∨ e'.stop ≤ e.start := by
  induction es with
  | nil => exact .nil
  | cons e es ih =>
    have hepos := hpos e mem_cons_self
    refine .cons (fun b hb => ?_) (ih (fun x => ?_) fun b hb => hpos b (mem_cons_of_mem _ hb))
    · exact apart_of_coverage_le hle hb hepos (hpos b (mem_cons_of_mem _ hb))
    · have hcount := hle x
      rw [coverage_cons] at hcount
      omega

/-! ## Separated lists -/

/-- Ascending, with a gap between any two. -/
def Separated (es : List Extent) : Prop := es.Pairwise fun e e' => e.stop < e'.start

/-- Insert after every extent that does not start later. -/
def insort (e : Extent) : List Extent → List Extent
  | [] => [e]
  | b :: es => if b.start ≤ e.start then b :: insort e es else e :: b :: es

lemma insort_separated (h : Separated (pre ++ e :: post)) :
    insort e (pre ++ post) = pre ++ e :: post := by
  induction pre with
  | nil =>
    cases post with
    | nil => rfl
    | cons b post =>
      have hb := rel_of_pairwise_cons h mem_cons_self
      simp only [Extent.stop] at hb
      simp [insort, show ¬ b.start ≤ e.start by omega]
  | cons b pre ih =>
    have hb := rel_of_pairwise_cons h (mem_append_right pre (mem_cons_self (a := e) ..))
    simp only [Extent.stop] at hb
    simp [insort, show b.start ≤ e.start by omega, ih (List.Pairwise.of_cons h)]

/-- An extent with the neighbours it may have touched joined into it. -/
structure Joined (pre : List Extent) (e : Extent) (post pre' : List Extent) (e' : Extent)
    (post' : List Extent) : Prop where
  separated : Separated (pre' ++ e' :: post')
  covered : ∀ x, coverage (pre' ++ e' :: post') x = coverage (pre ++ e :: post) x
  pre_subset : ∀ b ∈ pre', b ∈ pre
  post_subset : ∀ b ∈ post', b ∈ post
  start : e'.start = e.start ∨ ∃ b ∈ pre, b.start = e'.start
  stop : e'.stop = e.stop ∨ ∃ b ∈ post, b.stop = e'.stop
  start_le : e'.start ≤ e.start
  le_stop : e.stop ≤ e'.stop

lemma joined_none (hsep : Separated (pre ++ post)) (hpre : ∀ b ∈ pre, b.stop < e.start)
    (hpost : ∀ b ∈ post, e.stop < b.start) : Joined pre e post pre e post where
  separated := by
    obtain ⟨hl, hr, hlr⟩ := pairwise_append.mp hsep
    refine pairwise_append.mpr ⟨hl, .cons hpost hr, fun b hb c hc => ?_⟩
    rcases mem_cons.mp hc with rfl | hc
    · exact hpre b hb
    · exact hlr b hb c hc
  covered _ := rfl
  pre_subset _ h := h
  post_subset _ h := h
  start := .inl rfl
  stop := .inl rfl
  start_le := Nat.le_refl _
  le_stop := Nat.le_refl _

/-- The extent before is touched; what else is touched is known for the two
joined. -/
lemma Joined.left {p : Extent} {pre' post' : List Extent} {e' : Extent}
    (htouch : p.stop = e.start) (h : Joined pre ⟨p.start, p.size + e.size⟩ post pre' e' post') :
    Joined (pre ++ [p]) e post pre' e' post' where
  separated := h.separated
  covered x := by
    have hsplit : coverage [⟨p.start, p.size + e.size⟩] x = coverage [p] x + coverage [e] x := by
      rw [coverage_split]
      simp only [Extent.stop] at htouch
      rw [htouch]
    rw [h.covered, coverage_append_cons, coverage_append_cons, coverage_append]
    omega
  pre_subset b hb := mem_append_left _ (h.pre_subset b hb)
  post_subset := h.post_subset
  start := by
    right
    rcases h.start with heq | ⟨b, hb, heq⟩
    · exact ⟨p, mem_append_right _ (mem_singleton_self _), heq.symm⟩
    · exact ⟨b, mem_append_left _ hb, heq⟩
  stop := by
    refine h.stop.imp_left fun heq => heq.trans ?_
    simp only [Extent.stop] at htouch ⊢
    omega
  start_le := by
    have hle := h.start_le
    simp only [Extent.stop] at htouch hle
    omega
  le_stop := by
    have hle := h.le_stop
    simp only [Extent.stop] at htouch hle ⊢
    omega

lemma Joined.right {q : Extent} {pre' post' : List Extent} {e' : Extent}
    (htouch : e.stop = q.start) (h : Joined pre ⟨e.start, e.size + q.size⟩ post pre' e' post') :
    Joined pre e (q :: post) pre' e' post' where
  separated := h.separated
  covered x := by
    have hsplit : coverage [⟨e.start, e.size + q.size⟩] x = coverage [e] x + coverage [q] x := by
      rw [coverage_split]
      simp only [Extent.stop] at htouch
      rw [htouch]
    have hpost : coverage (q :: post) x = coverage [q] x + coverage post x := coverage_cons
    rw [h.covered, coverage_append_cons, coverage_append_cons]
    omega
  pre_subset := h.pre_subset
  post_subset b hb := mem_cons_of_mem _ (h.post_subset b hb)
  start := h.start
  stop := by
    right
    rcases h.stop with heq | ⟨b, hb, heq⟩
    · refine ⟨q, mem_cons_self, ?_⟩
      rw [heq]
      simp only [Extent.stop] at htouch ⊢
      omega
    · exact ⟨b, mem_cons_of_mem _ hb, heq⟩
  start_le := h.start_le
  le_stop := by
    have hle := h.le_stop
    simp only [Extent.stop] at htouch hle ⊢
    omega

end LMCache.Lib
