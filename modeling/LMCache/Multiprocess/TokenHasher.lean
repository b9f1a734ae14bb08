/-
LMCache.Multiprocess.TokenHasher — rolling hashes of token chunks.

The hash of a chunk covers all tokens up to its end: each chunk is hashed
with the hash of the chunk before it. `computePackedChunkHashes` runs the
chain from the first token and keeps the chunks from `start` on. What it
returns is the chain read off at the kept chunks
(`computePackedChunkHashes_aligned`), so that asking for a part of the range
returns that part of the hashes.

A packed buffer is the list of its tokens; the four bytes of a token are
never looked at on their own.
-/
import LMCache.Lib.Ranges

namespace LMCache.Multiprocess

variable {Token Hash Digest : Type}

/-- `TokenHasher`; `hashToBytes` is `hash_to_bytes`, which turns a hash of
either kind into the bytes of an object key. -/
structure TokenHasher (Token Hash Digest : Type) where
  chunkSize : Nat
  noneHash : Hash
  packedHashFunc : List Token → Hash → Hash
  hashToBytes : Hash → Digest
  chunkSize_pos : 0 < chunkSize

namespace TokenHasher

variable (hasher : TokenHasher Token Hash Digest)

/-- `hash_packed_chunk`. -/
def hashPackedChunk (chunk : List Token) (prefixHash : Option Hash) : Hash :=
  hasher.packedHashFunc chunk (prefixHash.getD hasher.noneHash)

section

variable (packed : List Token)

/-- The tokens of chunk `c`. -/
def chunkAt (c : Nat) : List Token :=
  (packed.drop (c * hasher.chunkSize)).take hasher.chunkSize

/-- The body of the loop of `compute_packed_chunk_hashes`, at chunk `c`. -/
def hashStep (start : Nat) (acc : Hash × List Digest) (c : Nat) : Hash × List Digest :=
  let prefixHash := hasher.hashPackedChunk (hasher.chunkAt packed c) (some acc.1)
  (prefixHash,
    if start ≤ c * hasher.chunkSize then acc.2 ++ [hasher.hashToBytes prefixHash] else acc.2)

/-- The number of complete chunks of a buffer before `stop`. -/
def numComplete (stop : Option Nat) : Nat :=
  stop.elim packed.length (min packed.length) / hasher.chunkSize

/-- `compute_packed_chunk_hashes`. -/
def computePackedChunkHashes (prefixHash : Option Hash) (start : Nat) (stop : Option Nat) :
    List Digest :=
  ((List.range (hasher.numComplete packed stop)).foldl (hasher.hashStep packed start)
    (prefixHash.getD hasher.noneHash, [])).2

end

/-! ## The chain -/

/-- The prefix hash before chunk `c`. -/
def prefixHashAt (packed : List Token) (init : Hash) : Nat → Hash
  | 0 => init
  | c + 1 => hasher.hashPackedChunk (hasher.chunkAt packed c) (some (prefixHashAt packed init c))

/-- The hash of chunk `c` of a buffer. -/
def chainHash (packed : List Token) (c : Nat) : Hash :=
  hasher.prefixHashAt packed hasher.noneHash (c + 1)

variable (packed : List Token)

lemma foldl_hashStep (start : Nat) (init : Hash) (n : Nat) :
    (List.range n).foldl (hasher.hashStep packed start) (init, [])
      = (hasher.prefixHashAt packed init n,
      ((List.range n).filter fun c => start ≤ c * hasher.chunkSize).map fun c =>
      hasher.hashToBytes (hasher.prefixHashAt packed init (c + 1))) := by
  induction n with
  | zero => simp [prefixHashAt]
  | succ n ih =>
    rw [List.range_succ, List.foldl_append, ih]
    by_cases hn : start ≤ n * hasher.chunkSize <;> simp [hashStep, prefixHashAt, hn]

/-- From a chunk boundary on, the hashes are those of the chain. -/
lemma computePackedChunkHashes_aligned (c : Nat) (stop : Option Nat) :
    hasher.computePackedChunkHashes packed none (c * hasher.chunkSize) stop
      = (List.Ico c (hasher.numComplete packed stop)).map fun c =>
      hasher.hashToBytes (hasher.chainHash packed c) := by
  have hfilter : ((List.range (hasher.numComplete packed stop)).filter
      fun d => c * hasher.chunkSize ≤ d * hasher.chunkSize)
        = List.Ico c (hasher.numComplete packed stop) := by
    rw [← List.Ico.zero_bot]
    simpa only [Nat.mul_le_mul_right_iff hasher.chunkSize_pos, Nat.zero_max] using
      List.Ico.filter_le 0 (hasher.numComplete packed stop) c
  rw [computePackedChunkHashes, foldl_hashStep, hfilter]
  rfl

lemma numComplete_aligned {c : Nat} (h : c * hasher.chunkSize ≤ packed.length) :
    hasher.numComplete packed (some (c * hasher.chunkSize)) = c := by
  rw [numComplete, Option.elim_some, Nat.min_eq_right h, Nat.mul_div_cancel _ hasher.chunkSize_pos]

lemma numComplete_mul_le (stop : Option Nat) :
    hasher.numComplete packed stop * hasher.chunkSize ≤ packed.length := by
  refine le_trans (Nat.div_mul_le_self _ _) ?_
  cases stop with
  | none => exact le_rfl
  | some stop => exact Nat.min_le_left ..

end TokenHasher

end LMCache.Multiprocess
