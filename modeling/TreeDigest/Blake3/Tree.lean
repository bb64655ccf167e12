import TreeDigest.Blake3.Compress
namespace TreeDigest

structure Digest where
  bytes : Bytes
  length_eq : bytes.length = 32
  deriving DecidableEq

namespace Blake3

-- The blocks of a chunk after its first one has been told apart. The last block is left to be
-- compressed by whoever takes the node.
def chunkFrom (counter : UInt64) (start : UInt32) (cv : Chaining) (bs : Bytes) : Node :=
  if blockSize < bs.length then
    let node : Node := ⟨cv, block (bs.take blockSize), counter, 64, start⟩
    chunkFrom counter 0 node.chaining (bs.drop blockSize)
  else ⟨cv, block bs, counter, bs.length.toUInt32, start ||| chunkEnd⟩
termination_by bs.length
decreasing_by simp only [blockSize, List.length_drop] at *; omega

def chunkNode (index : Nat) (bs : Bytes) : Node :=
  chunkFrom index.toUInt64 chunkStart initial bs

def parentNode (left right : Chaining) : Node :=
  ⟨initial, (left ++ right : Block), 0, 64, parentFlag⟩

-- Every chunk but the last is full, and no content is one empty chunk.
def chunks (bs : Bytes) : List Bytes :=
  if chunkSize < bs.length then bs.take chunkSize :: chunks (bs.drop chunkSize) else [bs]
termination_by bs.length
decreasing_by simp only [chunkSize, List.length_drop] at *; omega

def leftCount (n : Nat) : Nat := Nat.pow 2 (Nat.log2 (n - 1))

theorem leftCount_lt {n : Nat} (h : 2 ≤ n) : leftCount n < n := by
  have : leftCount n ≤ n - 1 := Nat.log2_self_le (by omega)
  omega

theorem leftCount_pos (n : Nat) : 0 < leftCount n := Nat.two_pow_pos _

def subtree (index : Nat) (cs : List Bytes) : Node :=
  if _h : 2 ≤ cs.length then
    let left := leftCount cs.length
    parentNode (subtree index (cs.take left)).chaining (subtree (index + left) (cs.drop left)).chaining
  else chunkNode index (cs.headD [])
termination_by cs.length
decreasing_by
  · have := leftCount_lt _h; simp only [List.length_take]; omega
  · have := leftCount_pos cs.length; simp only [List.length_drop]; omega

def Node.digest (n : Node) : Digest :=
  ⟨n.asRoot.chaining.toList.flatMap wordBytes, by
    simp [List.length_flatMap, wordBytes, List.map_const']⟩

def hash (bs : Bytes) : Digest := (subtree 0 (chunks bs)).digest

end Blake3
end TreeDigest
