/-
LMCache.Multiprocess.ChunkSize — agreeing on the chunk size of a server.

Selecting a size and finalising it are two latches. Between them the listeners
are told one by one, and a listener that raises leaves the index where the next
negotiation resumes. The trace records every listener call and every size that
was returned; `Justified` says what must have happened before each.
-/
import LMCache.Lib.Run
import Mathlib.Data.Int.ModEq

namespace LMCache.Multiprocess

/-- A listener was called, or a negotiation returned a size. -/
inductive ChunkSizeAct
  | notify (listener : Nat) (size : Int) (accepted : Bool)
  | agree (alignment size : Int)

/-- What `MPCacheServerContext` knows of its chunk size. The listeners were
registered before; the trace has the newest act first. -/
structure ChunkSizeContext (configured : Int) (listeners : Nat) where
  chunkSize : Int := configured
  selected : Bool := false
  finalized : Bool := false
  nextBindListener : Nat := 0
  trace : List ChunkSizeAct := []

/-- A call of `negotiate_chunk_size`, with the number of sessions it finds and
the listeners that do not raise. -/
structure Negotiation where
  requiredAlignment : Int
  activeCount : Nat
  accepts : Nat → Bool

inductive NegotiationError
  | notPositive | incompatible | sessionsStarted | listenerFailed

/-- `_round_up_to_multiple`. -/
def roundUpToMultiple (value multiple : Int) : Int := (value + multiple - 1) / multiple * multiple

namespace ChunkSizeContext

variable {configured : Int} {listeners : Nat}

/-- The loop of `_finalize_chunk_size_locked` over the listeners that are left:
whether none raised. -/
def notifyLeft (accepts : Nat → Bool) :
    Nat → ChunkSizeContext configured listeners → Bool × ChunkSizeContext configured listeners
  | 0, c => (true, { c with finalized := true })
  | left + 1, c =>
    let c' := { c with
      trace := .notify c.nextBindListener c.chunkSize (accepts c.nextBindListener) :: c.trace }
    if accepts c.nextBindListener then
      notifyLeft accepts left { c' with nextBindListener := c.nextBindListener + 1 }
    else (false, c')

variable (c : ChunkSizeContext configured listeners) (r : Negotiation)

/-- `_finalize_chunk_size_locked` and the end of `negotiate_chunk_size`. -/
def finalizeChunkSize : Except NegotiationError Int × ChunkSizeContext configured listeners :=
  match if c.finalized then (true, c)
    else notifyLeft r.accepts (listeners - c.nextBindListener) c with
  | (true, c) => (.ok c.chunkSize, c)
  | (false, c) => (.error .listenerFailed, c)

/-- `negotiate_chunk_size`. -/
def negotiateChunkSize : Except NegotiationError Int × ChunkSizeContext configured listeners :=
  if r.requiredAlignment < 1 then (.error .notPositive, c)
  else if c.selected then
    if c.chunkSize % r.requiredAlignment = 0 then c.finalizeChunkSize r
    else (.error .incompatible, c)
  else
    let resolved := roundUpToMultiple configured r.requiredAlignment
    if resolved ≠ c.chunkSize ∧ r.activeCount ≠ 0 then (.error .sessionsStarted, c)
    else finalizeChunkSize { c with chunkSize := resolved, selected := true } r

/-- A negotiation, with the size it returns on the trace. -/
def step : ChunkSizeContext configured listeners :=
  match c.negotiateChunkSize r with
  | (.ok size, c') => { c' with trace := .agree r.requiredAlignment size :: c'.trace }
  | (.error _, c') => c'

/-- A listener that is called has not accepted before. A size that is returned
is a multiple of the alignment and at least the configured one, every listener
has accepted it, and no other was returned. -/
def Justified (configured : Int) (listeners : Nat) (before : List ChunkSizeAct) :
    ChunkSizeAct → Prop
  | .notify listener _ _ => ∀ size, .notify listener size true ∉ before
  | .agree alignment size => alignment ∣ size ∧ configured ≤ size ∧
      (∀ listener < listeners, .notify listener size true ∈ before) ∧
      ∀ alignment' size', .agree alignment' size' ∈ before → size' = size

/-- Every act of the trace is justified by those before it. -/
def AllJustified (configured : Int) (listeners : Nat) : List ChunkSizeAct → Prop
  | [] => True
  | act :: before =>
    Justified configured listeners before act ∧ AllJustified configured listeners before

structure Inv : Prop where
  fresh : c.selected = false → c.trace = [] ∧ c.nextBindListener = 0
  atLeast : configured ≤ c.chunkSize
  next_le : c.nextBindListener ≤ listeners
  finalized : c.finalized → c.nextBindListener = listeners
  accepted : ∀ i size, .notify i size true ∈ c.trace ↔ i < c.nextBindListener ∧ size = c.chunkSize
  agreed : ∀ alignment size, .agree alignment size ∈ c.trace → size = c.chunkSize
  justified : AllJustified configured listeners c.trace

variable {c r}

/-- The loop keeps the size, and ends well only past the last listener. -/
lemma Inv.notifyLeft {accepts : Nat → Bool} {size : Int} {left : Nat} (h : c.Inv)
    (hselected : c.selected) (hsize : c.chunkSize = size)
    (hleft : c.nextBindListener + left = listeners) : ∀ ok c', notifyLeft accepts left c = (ok, c') →
      c'.Inv ∧ c'.selected ∧ c'.chunkSize = size ∧
        (ok → c'.nextBindListener = listeners) := by
  induction left generalizing c with
  | zero =>
    rintro ok c' ⟨⟩
    exact ⟨{ h with finalized := fun _ => hleft }, hselected, hsize, fun _ => hleft⟩
  | succ left ih =>
    intro ok c' heq
    have hcalled : ∀ size, .notify c.nextBindListener size true ∉ c.trace := by
      simp [h.accepted]
    unfold ChunkSizeContext.notifyLeft at heq
    split at heq
    · rename_i haccepts
      refine ih ?_ ?_ ?_ ?_ ok c' heq
      · exact { h with
          fresh := by simp [hselected]
          next_le := by dsimp only; omega
          finalized := fun hfinal => absurd (h.finalized hfinal) (by omega)
          accepted := by simp [h.accepted, haccepts]; omega
          agreed := by simpa using h.agreed
          justified := ⟨hcalled, h.justified⟩ }
      · exact hselected
      · exact hsize
      · dsimp only
        omega
    · rename_i hraises
      cases heq
      exact ⟨{ h with
        fresh := by simp [hselected]
        accepted := by simpa [hraises] using h.accepted
        agreed := by simpa using h.agreed
        justified := ⟨hcalled, h.justified⟩ }, hselected, hsize, nofun⟩

/-- What a call leaves: a size it returns is the selected one, fits the
alignment and has been accepted by all listeners. -/
structure Answered (r : Negotiation)
    (out : Except NegotiationError Int × ChunkSizeContext configured listeners) : Prop where
  inv : out.2.Inv
  ok : ∀ size, out.1 = .ok size → out.2.selected ∧ size = out.2.chunkSize ∧
    r.requiredAlignment ∣ size ∧ out.2.nextBindListener = listeners

lemma Inv.finalizeChunkSize (h : c.Inv) (hselected : c.selected)
    (hfits : r.requiredAlignment ∣ c.chunkSize) : Answered r (c.finalizeChunkSize r) := by
  unfold ChunkSizeContext.finalizeChunkSize
  have hloop : ∀ ok c', (if c.finalized then (true, c)
      else ChunkSizeContext.notifyLeft r.accepts (listeners - c.nextBindListener) c) = (ok, c') →
      c'.Inv ∧ c'.selected ∧ c'.chunkSize = c.chunkSize ∧
        (ok → c'.nextBindListener = listeners) := by
    split_ifs with hfinal
    · rintro ok c' ⟨⟩
      exact ⟨h, hselected, rfl, fun _ => h.finalized hfinal⟩
    · exact h.notifyLeft hselected rfl (Nat.add_sub_cancel' h.next_le)
  split
  · rename_i c' heq
    obtain ⟨hinv, hselected', hsize, hnext⟩ := hloop _ _ heq
    refine ⟨hinv, ?_⟩
    rintro size ⟨⟩
    exact ⟨hselected', rfl, hsize ▸ hfits, hnext rfl⟩
  · rename_i heq
    exact ⟨(hloop _ _ heq).1, nofun⟩

lemma le_roundUpToMultiple {value multiple : Int} (h : 0 < multiple) :
    value ≤ roundUpToMultiple value multiple := by
  have := Int.emod_add_mul_ediv (value + multiple - 1) multiple
  have := Int.emod_lt_of_pos (value + multiple - 1) h
  rw [roundUpToMultiple, mul_comm]
  omega

lemma Inv.negotiateChunkSize (h : c.Inv) (r : Negotiation) :
    Answered r (c.negotiateChunkSize r) := by
  unfold ChunkSizeContext.negotiateChunkSize
  split
  · exact ⟨h, nofun⟩
  · split
    · rename_i hselected
      split_ifs with hfits
      · exact h.finalizeChunkSize hselected (Int.dvd_of_emod_eq_zero hfits)
      · exact ⟨h, nofun⟩
    · rename_i hopen
      obtain ⟨htrace, hnext⟩ := h.fresh (by simpa using hopen)
      dsimp only
      split
      · exact ⟨h, nofun⟩
      · -- nothing was said yet about the size that is replaced
        refine Inv.finalizeChunkSize { h with
          fresh := nofun
          atLeast := le_roundUpToMultiple (by omega)
          accepted := by simp [htrace, hnext]
          agreed := by simp [htrace] } rfl (Int.dvd_mul_left _ _)

lemma Inv.step (h : c.Inv) (r : Negotiation) : (c.step r).Inv := by
  have hcall := h.negotiateChunkSize r
  unfold ChunkSizeContext.step
  split
  · rename_i size c' heq
    rw [heq] at hcall
    obtain ⟨hinv, hok⟩ := hcall
    obtain ⟨hselected, hsize, hfits, hnext⟩ := hok size rfl
    dsimp only at hinv hselected hsize hnext
    subst hsize
    exact { hinv with
      fresh := by simp [hselected]
      accepted := by simpa using hinv.accepted
      agreed := by simpa using fun _ _ h => h.elim And.right (hinv.agreed _ _)
      justified := ⟨⟨hfits, hinv.atLeast,
        fun i hi => (hinv.accepted _ _).mpr ⟨by rwa [hnext], rfl⟩, hinv.agreed⟩, hinv.justified⟩ }
  · rename_i heq
    rw [heq] at hcall
    exact hcall.inv

/-- In every sequence of negotiations each listener call and each size that is
returned is justified by what came before. -/
theorem negotiations_justified (configured : Int) (listeners : Nat) (rs : List Negotiation) :
    AllJustified configured listeners
      (Lib.run step ({} : ChunkSizeContext configured listeners) rs).trace := by
  have hnew : ({} : ChunkSizeContext configured listeners).Inv :=
    ⟨by simp, le_rfl, Nat.zero_le _, by simp, by simp, by simp, trivial⟩
  exact (Lib.run_always Inv (fun _ r h => h.step r) hnew rs).justified

end ChunkSizeContext

end LMCache.Multiprocess
