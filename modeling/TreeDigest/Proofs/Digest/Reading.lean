import TreeDigest.Digest.Tree
import TreeDigest.Proofs.Blake3.Incremental
namespace TreeDigest.Digesting
variable {content : Bytes} {pieces : List Bytes}

-- One way in which a reader may hand over a content. How much a read brings is up to the reader, as long
-- as it brings something and no more than the buffer holds.
structure Reading (content : Bytes) (pieces : List Bytes) : Prop where
  whole : pieces.flatten = content
  nonempty : ∀ piece ∈ pieces, piece ≠ []
  fits : ∀ piece ∈ pieces, piece.length ≤ readSize

theorem Reading.hashed (reading : Reading content pieces) (later : List Bytes) :
    Blake3.hashReads (pieces ++ [] :: later) = Blake3.hash content := by
  have all : ∀ piece ∈ pieces, (!piece.isEmpty) = true := by
    intro piece member
    simpa using reading.nonempty piece member
  rw [Blake3.hashReads_eq, List.takeWhile_append_of_pos all,
    List.takeWhile_cons_of_neg (by simp), List.append_nil, reading.whole]

theorem full_reading (content : Bytes) :
    ∃ pieces, Reading content pieces ∧ Blake3.reads readSize content = pieces ++ [[]] := by
  obtain ⟨pieces, split, whole, each⟩ := Blake3.reads_split (show 0 < readSize by decide) content
  exact ⟨pieces, ⟨whole, fun p own => (each p own).1, fun p own => (each p own).2⟩, split⟩

theorem hashMapped_eq (content : Bytes) : hashMapped content = Blake3.hash content :=
  (Blake3.Hasher.empty_holds.update content).finalize

theorem hashContent_eq (content : Bytes) : hashContent content = Blake3.hash content := by
  obtain ⟨pieces, reading, split⟩ := full_reading content
  rw [hashContent, hashMapped_eq, split, reading.hashed, ite_self]

-- A content has one hash, whether it comes in pieces of any size or all at once.
theorem reading_unheeded (reading : Reading content pieces) (later : List Bytes) :
    Blake3.hashReads (pieces ++ [] :: later) = Blake3.hash content ∧
      hashMapped content = Blake3.hash content ∧ hashContent content = Blake3.hash content :=
  ⟨reading.hashed later, hashMapped_eq content, hashContent_eq content⟩

theorem reading_unheeded_across :
    Reading (List.replicate 2100 7) [List.replicate 1000 7, List.replicate 1100 7] ∧
      Blake3.hashReads [List.replicate 1000 7, List.replicate 1100 7, []] =
        hashMapped (List.replicate 2100 7) := by
  have reading : Reading (List.replicate 2100 7) [List.replicate 1000 7, List.replicate 1100 7] := by
    refine ⟨?_, ?_, ?_⟩
    · rw [List.flatten_cons, List.flatten_cons, List.flatten_nil, List.append_nil,
        List.replicate_append_replicate]
    · simp only [List.forall_mem_cons, ne_eq, List.replicate_eq_nil_iff]
      decide
    · simp only [List.forall_mem_cons, List.length_replicate, readSize]
      decide
  have both := reading_unheeded reading []
  exact ⟨reading, both.1.trans both.2.1.symm⟩

end TreeDigest.Digesting
