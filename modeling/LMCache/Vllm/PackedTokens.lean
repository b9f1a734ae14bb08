/-
LMCache.Vllm.PackedTokens — the packed token ids of a request tracker
(`lmcache_mp_metadata.py`).

`packed_token_ids` keeps its buffer from call to call and packs what came
behind it. It starts over when the sequence got shorter than the buffer, or has
another token at the end of the buffer. An edit further in front that leaves
that token goes unnoticed (`packedTokenIds_eq_iff`).

The buffer is modelled by its words: `pack_token_ids` writes one for each token.
-/
import LMCache.Lib.Run

namespace LMCache.Vllm

open Lib List

/-- What `packed_token_ids` reads of `LMCacheMPRequestTracker`. -/
structure RequestTracker where
  allTokenIds : List UInt32
  mmAdjustedPromptIds : List UInt32
  packedTokens : List UInt32

namespace RequestTracker

variable (t : RequestTracker)

def getTokenIdsSlice (start stop : Nat) : List UInt32 :=
  let numPromptTokens := t.mmAdjustedPromptIds.length
  if stop ≤ numPromptTokens then (t.mmAdjustedPromptIds.take stop).drop start
  else if numPromptTokens ≤ start then (t.allTokenIds.take stop).drop start
  else t.mmAdjustedPromptIds.drop start ++ (t.allTokenIds.take stop).drop numPromptTokens

def getTokenIds : List UInt32 :=
  if t.mmAdjustedPromptIds = [] then t.allTokenIds
  else t.getTokenIdsSlice 0 t.allTokenIds.length

/-- The buffer is longer than the sequence, or ends in another token. -/
def Stale : Prop :=
  t.packedTokens ≠ [] ∧ (t.allTokenIds.length < t.packedTokens.length ∨
    (t.getTokenIdsSlice (t.packedTokens.length - 1) t.packedTokens.length).head? ≠
      t.packedTokens.getLast?)

instance : Decidable t.Stale := inferInstanceAs (Decidable (_ ∧ _))

def packedTokenIds : List UInt32 :=
  let packed := if t.Stale then [] else t.packedTokens
  if packed.length < t.allTokenIds.length then
    packed ++ t.getTokenIdsSlice packed.length t.allTokenIds.length
  else packed

/-- The sequence is edited in any way, or the tracker is asked for its tokens. -/
inductive Event
  | edit (allTokenIds : List UInt32)
  | packedTokenIds

def step (t : RequestTracker) : Event → RequestTracker
  | .edit allTokenIds => { t with allTokenIds }
  | .packedTokenIds => { t with packedTokens := t.packedTokenIds }

/-- The tokens under the buffer are still there, or the change is noticed. -/
def Noticed : Prop := t.Stale ∨ t.packedTokens <+: t.getTokenIds

/-! ## The tokens -/

variable {t}

lemma getTokenIds_eq : t.getTokenIds = t.mmAdjustedPromptIds.take t.allTokenIds.length ++
    t.allTokenIds.drop t.mmAdjustedPromptIds.length := by
  unfold getTokenIds
  split
  · rename_i hnone
    simp [hnone]
  · rename_i hsome
    simp only [getTokenIdsSlice]
    split
    · rename_i hle
      simp [drop_eq_nil_of_le hle]
    · have hprompt : t.mmAdjustedPromptIds.take t.allTokenIds.length = t.mmAdjustedPromptIds :=
        take_of_length_le (by omega)
      simp [hsome, hprompt]

@[simp] lemma length_getTokenIds : t.getTokenIds.length = t.allTokenIds.length := by
  rw [getTokenIds_eq, length_append, length_take, length_drop]
  omega

lemma getTokenIdsSlice_eq {start stop : Nat} (hstop : stop ≤ t.allTokenIds.length) :
    t.getTokenIdsSlice start stop = (t.getTokenIds.take stop).drop start := by
  simp only [getTokenIds_eq, getTokenIdsSlice]
  split
  · rw [take_append_of_le_length (by rw [length_take]; omega), take_take, Nat.min_eq_left hstop]
  · have hprompt : t.mmAdjustedPromptIds.take t.allTokenIds.length = t.mmAdjustedPromptIds :=
      take_of_length_le (by omega)
    have hstop : t.mmAdjustedPromptIds.take stop = t.mmAdjustedPromptIds :=
      take_of_length_le (by omega)
    rw [hprompt, take_append, hstop, ← drop_take]
    split
    · rename_i hle
      rw [drop_append, drop_eq_nil_of_le hle, drop_drop]
      congr 1
      omega
    · rw [drop_append_of_le_length (by omega)]

/-! ## The buffer -/

/-- A call returns the packed form of the tokens exactly if the change since the
last call left the tokens under the buffer or is noticed. -/
lemma packedTokenIds_eq_iff : t.packedTokenIds = t.getTokenIds ↔ t.Noticed := by
  have hgrow : ∀ packed : List UInt32, packed.length ≤ t.allTokenIds.length →
      (if packed.length < t.allTokenIds.length then
        packed ++ t.getTokenIdsSlice packed.length t.allTokenIds.length else packed) =
      packed ++ t.getTokenIds.drop packed.length := by
    intro packed hle
    have hall : t.getTokenIds.take t.allTokenIds.length = t.getTokenIds :=
      take_of_length_le (by simp)
    split
    · rw [getTokenIdsSlice_eq (Nat.le_refl _), hall]
    · rw [drop_eq_nil_of_le (by rw [length_getTokenIds]; omega), append_nil]
  unfold packedTokenIds Noticed
  by_cases hstale : t.Stale
  · simpa [hstale] using hgrow [] (Nat.zero_le _)
  · have hle : t.packedTokens.length ≤ t.allTokenIds.length := by
      refine Nat.le_of_not_lt fun hlt => hstale ⟨?_, .inl hlt⟩
      exact ne_nil_of_length_pos (Nat.zero_lt_of_lt hlt)
    simp only [if_neg hstale, hgrow _ hle, or_iff_right hstale]
    constructor
    · intro heq
      exact ⟨_, heq⟩
    · rintro ⟨rest, heq⟩
      rw [← heq, drop_left]

/-- In every history of edits and calls: all calls return the packed form of the
tokens exactly if the change before each of them is noticed or leaves the tokens
under the buffer. -/
theorem always_packed_iff_noticed (t : RequestTracker) (es : List Event) :
    Along step (fun t e => e = .packedTokenIds → t.packedTokenIds = t.getTokenIds) t es ↔
      Along step (fun t e => e = .packedTokenIds → t.Noticed) t es := by
  simp only [packedTokenIds_eq_iff]

/-- The second of three packed tokens changes. -/
theorem packedTokenIds_of_replaced :
    (run step ⟨[1, 2, 3], [], []⟩ [.packedTokenIds, .edit [1, 5, 3]]).packedTokenIds = [1, 2, 3] ∧
      (run step ⟨[1, 2, 3], [], []⟩ [.packedTokenIds, .edit [1, 5, 3]]).getTokenIds = [1, 5, 3] := by
  decide

end RequestTracker

end LMCache.Vllm
