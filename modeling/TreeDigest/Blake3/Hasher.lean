import TreeDigest.Blake3.Tree
namespace TreeDigest.Blake3

-- A hash in progress: the completed subtrees, the last one first, how many chunks they cover, and the
-- bytes of the chunk that is being filled. A full chunk waits until it is known not to be the last.
structure Hasher where
  stack : List Chaining
  count : Nat
  pending : Array UInt8

namespace Hasher

def empty : Hasher := ⟨[], 0, #[]⟩

-- Two subtrees of one size become one as soon as they stand side by side. The number of chunks so far,
-- this one included, tells how often that happens.
def push (total : Nat) (cv : Chaining) : List Chaining → List Chaining
  | [] => [cv]
  | top :: rest =>
    if total % 2 = 0 then push (total / 2) (parentNode top cv).chaining rest else cv :: top :: rest

def flush (h : Hasher) : Hasher :=
  ⟨push (h.count + 1) (chunkNode h.count h.pending.toList).chaining h.stack, h.count + 1, #[]⟩

def absorb (h : Hasher) (b : UInt8) : Hasher :=
  let h := if h.pending.size = chunkSize then h.flush else h
  { h with pending := h.pending.push b }

def update (h : Hasher) (bs : Bytes) : Hasher := bs.foldl absorb h

def finalize (h : Hasher) : Digest :=
  (h.stack.foldl (fun node cv => parentNode cv node.chaining)
    (chunkNode h.count h.pending.toList)).digest

end Hasher

def hashReads (reads : List Bytes) : Digest :=
  ((reads.takeWhile (!·.isEmpty)).foldl Hasher.update Hasher.empty).finalize

def reads (size : Nat) (bs : Bytes) : List Bytes :=
  if _h : bs = [] ∨ size = 0 then [[]] else bs.take size :: reads size (bs.drop size)
termination_by bs.length
decreasing_by
  have : 0 < bs.length := List.length_pos_iff.2 (fun e => _h (.inl e))
  simp only [List.length_drop]; omega

end TreeDigest.Blake3
