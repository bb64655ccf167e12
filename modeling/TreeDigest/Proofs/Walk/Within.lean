import TreeDigest.Proofs.Walk.Telling
namespace TreeDigest.TreeWalk
open FileSystem

variable {fs : FileSystem} {w : TreeWalk} {trail ancestors : List Path} {path q : Path} {kind : Kind}

def Within (path q : Path) : Prop := ∃ rest, rest ≠ [] ∧ q.components = path.components ++ rest

theorem within_child {n : Name} {rest : List Path.Component}
    (same : q.components = path.components ++ .normal n.bytes :: rest) : Within path q :=
  ⟨_, List.cons_ne_nil _ _, same⟩

theorem below_within (visited : q ∈ files (below fs w trail path)) :
    Within path q := by
  obtain ⟨entries, listed⟩ := listed_of_file visited
  rw [below_listed listed, files, List.filterMap_flatMap] at visited
  obtain ⟨⟨n, kind⟩, -, visited⟩ := List.mem_flatMap.mp visited
  change q ∈ files (entryVisits fs w trail (path.join n.path) kind) at visited
  unfold entryVisits at visited
  split at visited
  · cases visited
  · split at visited
    · cases visited
    · rcases files_cons.mp visited with ⟨rfl, -⟩ | further
      · exact within_child (path.components_join n)
      · split at further
        · obtain ⟨rest, same⟩ := (below_walked fs w _ _).within q further
          exact within_child (same.trans (by rw [Path.components_join, List.append_assoc]; rfl))
        · cases further

theorem belowParallel_within
    (visited : q ∈ files (belowParallel fs w ancestors path)) : Within path q := by
  cases listed : fs.list path with
  | error e =>
    rw [belowParallel_failed listed] at visited
    cases visited
  | ok entries =>
    rw [belowParallel_listed listed, files, List.filterMap_flatMap] at visited
    obtain ⟨b, arranged, visited⟩ := List.mem_flatMap.mp visited
    obtain ⟨⟨n, kind⟩, -, made⟩ := List.mem_map.mp (mem_arrange arranged)
    change q ∈ files (branchVisits fs w (path :: ancestors) b) at visited
    cases b with
    | error e => cases visited
    | ok b =>
      rcases files_cons.mp visited with ⟨rfl, -⟩ | further
      · exact within_child (branch_of made).components
      · split at further
        · rename_i place read
          rw [branch_readAt made read] at further
          obtain ⟨rest, same⟩ := (belowParallel_walked fs w _ _).within q further
          exact within_child (same.trans (by rw [Path.components_join, List.append_assoc]; rfl))
        · cases further

-- All of the files are further down than the root, or there is no more than one.
def Placed (root : Path) (visits : List Visit) : Prop :=
  (∀ q ∈ files visits, Within root q) ∨ (files visits).length ≤ 1

theorem placed_single (visit : Visit) : Placed path [visit] := .inr (List.length_filterMap_le ..)

theorem placed_directory {visits : List Visit} (other : kind ≠ .file)
    (inner : ∀ q ∈ files visits, Within w.root q) :
    Placed w.root (.ok (path, kind) :: visits) := by
  refine .inl fun q visited => inner q ?_
  exact (files_cons.mp visited).resolve_left fun own => other own.2

theorem serial_placed (fs : FileSystem) (w : TreeWalk) : Placed w.root (serial fs w) := by
  have inner (kind : Kind) (other : kind ≠ .file) :
      Placed w.root (.ok (w.root, kind) :: below fs w [w.root] w.root) :=
    placed_directory other fun q => below_within
  unfold serial
  split
  · exact placed_single _
  · split
    · exact placed_single _
    · unfold serialRoot
      split
      · rename_i isDirectory
        exact inner _ (by simp [isDirectory])
      · split
        · rename_i isLink
          split
          · exact placed_single _
          · exact inner _ (by simp [isLink])
          · exact placed_single _
        · exact placed_single _

theorem components_respelled_root (first : fs.kind false path = .ok kind) (other : kind ≠ .directory) :
    (respelled path).components = path.components ∧
      (respelled (respelled path)).components = path.components := by
  obtain ⟨here, found, own⟩ := kind_inv first
  obtain ⟨-, plain, -⟩ := find_ok found
  obtain ⟨last, named⟩ := named_of_find found (own ▸ other)
  exact ⟨components_respelled_name named plain, respelled_named named plain⟩

theorem parallel_placed (fs : FileSystem) (w : TreeWalk) :
    Placed w.root (parallelVisits fs w) := by
  cases first : fs.kind false w.root with
  | error e =>
    unfold parallelVisits
    rw [first]
    exact placed_single _
  | ok kind =>
    rw [parallel_found first]
    unfold kept
    split
    · cases made : rootBranch fs w kind with
      | error e => exact placed_single _
      | ok b =>
        obtain ⟨-, spelled⟩ := rootBranch_spelled made
          (fun other => (components_respelled_root first other).1)
          fun other => (components_respelled_root first other).2
        rw [branchVisits]
        split
        · rename_i q read
          refine placed_directory (rootBranch_read made read) fun file visited => ?_
          obtain ⟨rest, more, same⟩ := belowParallel_within visited
          exact ⟨rest, more, by rw [same, spelled q read]⟩
        · exact placed_single _
    · exact .inr (Nat.zero_le _)

theorem visits_placed (fs : FileSystem) (w : TreeWalk) : Placed w.root (w.visits fs) := by
  unfold TreeWalk.visits
  split
  · exact parallel_placed fs w
  · exact serial_placed fs w

theorem rooted_of_visited (visited : q ∈ files (w.visits fs)) : w.root.bytes ≠ [] := by
  cases first : fs.kind false w.root with
  | error e =>
    unfold TreeWalk.visits parallelVisits serial at visited
    simp only [first] at visited
    split at visited <;> cases visited
  | ok kind => exact nonempty_of_kind first

end TreeDigest.TreeWalk
