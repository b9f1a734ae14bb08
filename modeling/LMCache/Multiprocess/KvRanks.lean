/-
LMCache.Multiprocess.KvRanks — the kv ranks of the workers of a world.

The rank of a worker packs four numbers in eight bits each and masks none of
them. With one rank for each worker it tells the workers of a world apart, and
gives the size of the world back, up to 255 workers (`ranks_sound_iff`).
-/
import LMCache.Coordinator.BlendIndex

namespace LMCache.Multiprocess

open Coordinator (worldSizeFromKVRank)

variable {Token : Type} (key : IPCCacheServerKey Token)

/-- The kv ranks of the keys of worker `w`. -/
def workerRanks (tpReplicas dcpShards w : Nat) : List Nat :=
  lookupKvRanks { key with workerId := some w } tpReplicas dcpShards

/-- Two workers share no rank, and each rank tells the size of the world. -/
def RanksSound (tpReplicas dcpShards : Nat) : Prop :=
  (∀ w < key.worldSize, ∀ w' < key.worldSize, w ≠ w' →
    (workerRanks key tpReplicas dcpShards w).Disjoint (workerRanks key tpReplicas dcpShards w')) ∧
    ∀ w < key.worldSize, ∀ rank ∈ workerRanks key tpReplicas dcpShards w,
      worldSizeFromKVRank rank = key.worldSize

lemma workerRanks_one (w : Nat) :
    workerRanks key 1 1 w = [computeKVRank key.worldSize w key.worldSize w] := by
  simp [workerRanks, lookupKvRanks, Nat.mod_one]

lemma computeKVRank_mod (n w : Nat) : computeKVRank n w n w % 2 ^ 8 = w % 2 ^ 8 := by
  have hlow : ∀ a k, 8 ≤ k → (a <<< k) % 2 ^ 8 = 0 := by
    intro a k hk
    rw [Nat.shiftLeft_eq]
    exact Nat.mod_eq_zero_of_dvd (Dvd.dvd.mul_left (Nat.pow_dvd_pow 2 hk) a)
  simp only [computeKVRank, Nat.or_mod_two_pow, hlow n 24 (by decide),
    hlow w 16 (by decide), hlow n 8 (by decide), Nat.zero_or]

lemma computeKVRank_shiftRight {n w : Nat} (hsize : n < 2 ^ 8) (hw : w < 2 ^ 8) :
    computeKVRank n w n w >>> 24 = n := by
  have hnone : ∀ a k, a < 2 ^ 8 → k ≤ 16 → (a <<< k) >>> 24 = 0 := by
    intro a k ha hk
    rw [Nat.shiftLeft_eq, Nat.shiftRight_eq_div_pow]
    refine Nat.div_eq_of_lt ?_
    calc a * 2 ^ k < 2 ^ 8 * 2 ^ k := Nat.mul_lt_mul_of_pos_right ha (Nat.two_pow_pos k)
      _ ≤ 2 ^ 8 * 2 ^ 16 := Nat.mul_le_mul_left _ (Nat.pow_le_pow_right Nat.two_pos hk)
  have hlast : w >>> 24 = 0 := by simpa using hnone w 0 hw (Nat.zero_le _)
  simp only [computeKVRank, Nat.shiftRight_or_distrib, Nat.shiftLeft_shiftRight,
    hnone w 16 hw le_rfl, hnone n 8 hsize (by decide), hlast, Nat.or_zero]

/-- With one rank for each worker, eight bits hold a world of up to 255 workers,
and no larger one. -/
theorem ranks_sound_iff : RanksSound key 1 1 ↔ key.worldSize < 256 := by
  simp only [RanksSound, workerRanks_one, List.mem_singleton, List.singleton_disjoint, forall_eq]
  constructor
  · rintro ⟨-, hsize⟩
    by_contra hlarge
    have hread := hsize 0 (by omega)
    have hbyte : worldSizeFromKVRank (computeKVRank key.worldSize 0 key.worldSize 0) ≤ 0xFF :=
      Nat.and_le_right
    omega
  · intro hsize
    refine ⟨fun w hw w' hw' hne heq => hne ?_, fun w hw => ?_⟩
    · have hlow := congrArg (· % 2 ^ 8) heq
      simp only [computeKVRank_mod] at hlow
      omega
    · rw [worldSizeFromKVRank, computeKVRank_shiftRight hsize (by omega)]
      exact Nat.and_two_pow_sub_one_of_lt_two_pow (n := 8) hsize

/-- A key of a world of this size. -/
def keyOfWorld (worldSize : Nat) : IPCCacheServerKey Nat :=
  ⟨"m", worldSize, none, [], 0, 0, "r", "", []⟩

/-- In a world of 257 the first and the last worker share a rank, and 256 reads
as no worker at all. Two workers that replicate each other share their rank. -/
theorem large_worlds_unsound :
    workerRanks (keyOfWorld 257) 1 1 0 = workerRanks (keyOfWorld 257) 1 1 256 ∧
    (workerRanks (keyOfWorld 256) 1 1 0).map worldSizeFromKVRank = [0] ∧
    workerRanks (keyOfWorld 2) 2 1 0 = workerRanks (keyOfWorld 2) 2 1 1 := by
  decide

end LMCache.Multiprocess
