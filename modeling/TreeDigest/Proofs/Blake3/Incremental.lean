import TreeDigest.Blake3.Hasher
namespace TreeDigest.Blake3

def fullCount (k : Nat) : Nat := Nat.pow 2 k

theorem fullCount_zero : fullCount 0 = 1 := rfl

theorem fullCount_succ (k : Nat) : fullCount (k + 1) = fullCount k + fullCount k := Nat.mul_two _

theorem fullCount_pos (k : Nat) : 0 < fullCount k := Nat.two_pow_pos k

theorem leftCount_eq {k r : Nat} (nonempty : 0 < r) (most : r ≤ fullCount k) :
    leftCount (fullCount k + r) = fullCount k := by
  have positive := fullCount_pos k
  have exponent : Nat.log2 (fullCount k + r - 1) = k := by
    refine (Nat.log2_eq_iff (by omega)).mpr ⟨?_, ?_⟩
    · show fullCount k ≤ fullCount k + r - 1
      omega
    · show fullCount k + r - 1 < fullCount (k + 1)
      rw [fullCount_succ]
      omega
  rw [leftCount, exponent]
  rfl

theorem subtree_single (index : Nat) (c : Bytes) : subtree index [c] = chunkNode index c := by
  rw [subtree]
  simp

theorem subtree_append {k : Nat} (index : Nat) {cs rest : List Bytes} (full : cs.length = fullCount k)
    (nonempty : 0 < rest.length) (most : rest.length ≤ fullCount k) :
    subtree index (cs ++ rest) =
      parentNode (subtree index cs).chaining (subtree (index + fullCount k) rest).chaining := by
  have positive := fullCount_pos k
  have left : leftCount (cs ++ rest).length = fullCount k := by
    rw [List.length_append, full, leftCount_eq nonempty most]
  rw [subtree, dif_pos (by rw [List.length_append]; omega)]
  dsimp only
  rw [left, ← full, List.take_left, List.drop_left]

-- The stack over a number of full trees of one height: for each binary digit of that number there is
-- the tree of that size, the least one last.
inductive Covers : Nat → Nat → List Bytes → List Chaining → Prop where
  | none {k : Nat} : Covers k 0 [] []
  | even {k m : Nat} {cs : List Bytes} {stack : List Chaining} (covers : Covers (k + 1) m cs stack) :
      Covers k (2 * m) cs stack
  | odd {k m : Nat} {cs tree : List Bytes} {stack : List Chaining} (covers : Covers (k + 1) m cs stack)
      (full : tree.length = fullCount k) :
      Covers k (2 * m + 1) (cs ++ tree) ((subtree cs.length tree).chaining :: stack)

namespace Covers
variable {k m : Nat} {cs tree rest : List Bytes} {stack : List Chaining}

theorem length_eq (covers : Covers k m cs stack) : cs.length = m * fullCount k := by
  induction covers with
  | none => simp
  | even covers ih => rw [ih, fullCount_succ, Nat.mul_add, Nat.two_mul, Nat.add_mul]
  | odd covers full ih => rw [List.length_append, ih, full, fullCount_succ]; grind

theorem push (covers : Covers k m cs stack) (full : tree.length = fullCount k) :
    Covers k (m + 1) (cs ++ tree) (Hasher.push (m + 1) (subtree cs.length tree).chaining stack) := by
  induction covers generalizing tree with
  | none => exact odd (m := 0) none full
  | @even k m cs stack covers ih =>
    have digit : Hasher.push (2 * m + 1) (subtree cs.length tree).chaining stack =
        (subtree cs.length tree).chaining :: stack := by
      cases stack with
      | nil => rfl
      | cons top rest => rw [Hasher.push, if_neg (by omega)]
    rw [digit]
    exact odd covers full
  | @odd k m cs last stack covers before ih =>
    have positive := fullCount_pos k
    have joined := subtree_append cs.length before (show 0 < tree.length by omega) (by omega)
    have carry : (2 * m + 1 + 1) / 2 = m + 1 := by omega
    rw [Hasher.push, if_pos (by omega), carry, List.length_append, before, ← joined, List.append_assoc]
    have twice : (last ++ tree).length = fullCount (k + 1) := by
      rw [List.length_append, before, full, fullCount_succ]
    exact even (m := m + 1) (ih twice)

theorem foldl_eq (covers : Covers k m cs stack) (nonempty : 0 < rest.length)
    (most : rest.length ≤ fullCount k) :
    stack.foldl (fun node cv => parentNode cv node.chaining) (subtree cs.length rest) =
      subtree 0 (cs ++ rest) := by
  induction covers generalizing rest with
  | none => rfl
  | even covers ih => exact ih nonempty (by rw [fullCount_succ]; omega)
  | odd covers full ih =>
    rw [List.foldl_cons, List.length_append, full, ← subtree_append _ full nonempty most, List.append_assoc]
    apply ih
    · rw [List.length_append]
      omega
    · rw [List.length_append, full, fullCount_succ]
      omega

end Covers

theorem chunks_append {cs : List Bytes} {last : Bytes} (full : ∀ c ∈ cs, c.length = chunkSize)
    (most : last.length ≤ chunkSize) (filled : cs ≠ [] → last ≠ []) :
    chunks (cs.flatten ++ last) = cs ++ [last] := by
  induction cs with
  | nil =>
    rw [List.flatten_nil, List.nil_append, chunks, if_neg (by omega)]
    rfl
  | cons c rest ih =>
    have own := full c (List.mem_cons_self ..)
    have positive := List.length_pos_iff.mpr (filled nofun)
    have more : chunkSize < (c ++ (rest.flatten ++ last)).length := by
      simp only [List.length_append]
      omega
    rw [List.flatten_cons, List.append_assoc, chunks, if_pos more, ← own, List.take_left, List.drop_left,
      ih (fun c member => full c (List.mem_cons_of_mem _ member)) (fun _ => filled nofun)]
    rfl

namespace Hasher

-- What a hasher has taken in: full chunks under the trees on its stack, and the chunk being filled.
structure Holds (h : Hasher) (bs : Bytes) : Prop where
  cover : ∃ cs, Covers 0 h.count cs h.stack ∧ (∀ c ∈ cs, c.length = chunkSize) ∧
    (cs ≠ [] → h.pending.toList ≠ []) ∧ bs = cs.flatten ++ h.pending.toList
  most : h.pending.size ≤ chunkSize

theorem empty_holds : empty.Holds [] :=
  ⟨⟨[], .none, nofun, fun other => absurd rfl other, rfl⟩, Nat.zero_le _⟩

variable {h : Hasher} {bs : Bytes}

theorem Holds.flush (holds : h.Holds bs) (full : h.pending.size = chunkSize) :
    ∃ cs, Covers 0 h.flush.count cs h.flush.stack ∧ (∀ c ∈ cs, c.length = chunkSize) ∧
      bs = cs.flatten := by
  obtain ⟨cs, covers, all, -, rfl⟩ := holds.cover
  have count : cs.length = h.count := by simpa [fullCount_zero] using covers.length_eq
  have pushed := covers.push (show [h.pending.toList].length = fullCount 0 from rfl)
  rw [subtree_single, count] at pushed
  refine ⟨_, pushed, ?_, by simp⟩
  intro c member
  rcases List.mem_append.mp member with old | new
  · exact all c old
  · rw [List.mem_singleton.mp new, Array.length_toList, full]

theorem Holds.absorb (holds : h.Holds bs) (b : UInt8) : (h.absorb b).Holds (bs ++ [b]) := by
  unfold Hasher.absorb
  split
  · rename_i full
    obtain ⟨cs, covers, all, rfl⟩ := holds.flush full
    exact ⟨⟨cs, covers, all, fun _ => by simp, by simp [Hasher.flush]⟩, by simp [Hasher.flush, chunkSize]⟩
  · rename_i other
    have most := holds.most
    obtain ⟨cs, covers, all, -, rfl⟩ := holds.cover
    refine ⟨⟨cs, covers, all, fun _ => by simp, by simp⟩, ?_⟩
    rw [Array.size_push]
    omega

theorem Holds.update (holds : h.Holds bs) (more : Bytes) : (h.update more).Holds (bs ++ more) := by
  induction more generalizing h bs with
  | nil => simpa [Hasher.update] using holds
  | cons b rest ih => simpa [Hasher.update] using ih (holds.absorb b)

theorem Holds.finalize (holds : h.Holds bs) : h.finalize = hash bs := by
  obtain ⟨cs, covers, all, filled, rfl⟩ := holds.cover
  have count : cs.length = h.count := by simpa [fullCount_zero] using covers.length_eq
  have tree := covers.foldl_eq (show 0 < [h.pending.toList].length by simp) (Nat.le_refl 1)
  rw [subtree_single, count] at tree
  rw [hash, chunks_append all (by simpa using holds.most) filled, Hasher.finalize, tree]

end Hasher

-- Whatever the reads, what is hashed is what they bring before the first empty one.
theorem hashReads_eq (reads : List Bytes) :
    hashReads reads = hash (reads.takeWhile (!·.isEmpty)).flatten := by
  have all (pieces : List Bytes) (h : Hasher) (bs : Bytes) (holds : h.Holds bs) :
      (pieces.foldl Hasher.update h).Holds (bs ++ pieces.flatten) := by
    induction pieces generalizing h bs with
    | nil => simpa using holds
    | cons piece rest ih => simpa using ih _ _ (holds.update piece)
  exact (all _ _ _ Hasher.empty_holds).finalize

theorem reads_split {size : Nat} (positive : 0 < size) (bs : Bytes) :
    ∃ pieces, reads size bs = pieces ++ [[]] ∧ pieces.flatten = bs ∧
      ∀ piece ∈ pieces, piece ≠ [] ∧ piece.length ≤ size := by
  rw [reads]
  split
  · rename_i stop
    obtain rfl : bs = [] := stop.resolve_right (Nat.ne_of_gt positive)
    exact ⟨[], rfl, rfl, nofun⟩
  · rename_i more
    have length : 0 < bs.length := List.length_pos_iff.mpr fun empty => more (.inl empty)
    have shorter : (bs.drop size).length < bs.length := by
      rw [List.length_drop]
      omega
    have nonempty : bs.take size ≠ [] := by
      refine List.length_pos_iff.mp ?_
      rw [List.length_take]
      omega
    obtain ⟨pieces, parted, whole, each⟩ := reads_split positive (bs.drop size)
    refine ⟨bs.take size :: pieces, by rw [parted, List.cons_append], ?_, ?_⟩
    · rw [List.flatten_cons, whole, List.take_append_drop]
    · exact List.forall_mem_cons.mpr ⟨⟨nonempty, List.length_take_le ..⟩, each⟩
termination_by bs.length

end TreeDigest.Blake3
