import TreeDigest.Proofs.Digest.Lenient
import TreeDigest.Proofs.Path.Shown
namespace TreeDigest.Digesting
open TreeWalk

namespace Sample
variable {s : Sample}

def report (s : Sample) : Report where
  digests := (s.located fileWalk.root).map fun e => (e.1, hashContent e.2)

theorem everything_eq (s : Sample) : everything s.tree fileWalk = s.report := by
  have outcomes := s.outcomes fileWalk_plain s.slash_atop rfl
  have hashed := s.hashed s.slash_atop (by decide)
  have yielded : fileWalk.yielded s.tree = (s.located fileWalk.root).map (·.1) := by
    rw [TreeWalk.yielded, outcomes, List.filterMap_cons_none rfl, List.filterMap_cons_none rfl,
      List.filterMap_map]
    exact congrFun List.filterMap_eq_map _
  have digests : (fileWalk.yielded s.tree).filterMap (digested? s.tree) =
      (s.located fileWalk.root).map fun e => (e.1, hashContent e.2) := by
    rw [yielded, List.filterMap_map, ← List.filterMap_eq_map]
    refine List.filterMap_congr fun e member => ?_
    simp [digested?, hashed e member, Except.toOption]
  have failures : (fileWalk.yielded s.tree).filterMap (unreadable? s.tree) = [] := by
    rw [unreadable_nil, yielded, List.forall_mem_map]
    exact fun e member => ⟨_, hashed e member⟩
  have complaints : fileWalk.complaints s.tree = [] := by
    rw [TreeWalk.complaints, outcomes, List.filterMap_cons_none rfl, List.filterMap_cons_none rfl,
      List.filterMap_map]
    exact List.filterMap_eq_nil_iff.mpr fun _ _ => rfl
  simp [everything, gathered, report, digests, failures, complaints]

theorem ends (s : Sample) : Ends s.tree fileWalk.root (lenient {}) none (.ok s.report) := by
  have comes : Comes s.tree fileWalk.root (lenient {}) none _ := lenient_comes (by decide) rfl (.inl rfl)
  obtain ⟨seen, result, ended, rfl, -⟩ := comes.ends
  rw [← s.everything_eq]
  exact ended

def relative (s : Sample) : List (Path × Bytes) :=
  s.inner.map (fun e => (⟨folder.bytes ++ Path.slash :: e.1.bytes⟩, e.2)) ++
    s.outer.map fun e => (e.1.path, e.2)

theorem shownUnder_located :
    (s.located fileWalk.root).map (fun e => (e.1.shownUnder fileWalk.root, e.2)) = s.relative := by
  have root : fileWalk.root.components ≠ [] := by decide
  have one (n : Name) : (fileWalk.root.join n.path).shownUnder fileWalk.root = n.path :=
    Path.shownUnder_below root (List.cons_ne_nil n [])
  have two (n : Name) : ((fileWalk.root.join folder.path).join n.path).shownUnder fileWalk.root =
      ⟨folder.bytes ++ Path.slash :: n.bytes⟩ :=
    Path.shownUnder_below root (List.cons_ne_nil folder [n])
  simp only [located, relative, List.map_append, List.map_map, Function.comp_def, one, two]

end Sample

end TreeDigest.Digesting
