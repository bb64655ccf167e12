import TreeDigest.Proofs.FileSystem.Distinct
import TreeDigest.Walk.Items
namespace TreeDigest.TreeWalk
open Std TreeDigest.Path

def file? : Visit → Option Path
  | .ok (path, .file) => some path
  | _ => none

def files (visits : List Visit) : List Path := visits.filterMap file?

structure Walked (front : List Component) (visits : List Visit) : Prop where
  ascending : (files visits).Pairwise fun p q => p.compare q = .lt
  within : ∀ q ∈ files visits, ∃ rest, q.components = front ++ rest

def Apart (front : List Component) (before after : List Visit) : Prop :=
  files before = [] ∨ files after = [] ∨ ∃ m n, compareBytes m n = .lt ∧
    Walked (front ++ [.normal m]) before ∧ Walked (front ++ [.normal n]) after

variable {front : List Component} {visits u v : List Visit} {path : Path} {kind : Kind}

theorem walked_none (none : files visits = []) : Walked front visits :=
  ⟨by simp [none], by simp [none]⟩

theorem walked_single (path : Path) (kind : Kind) : Walked path.components [.ok (path, kind)] := by
  cases kind with
  | file => exact ⟨List.pairwise_singleton _ _, fun q member => ⟨[], by simp_all [files, file?]⟩⟩
  | directory | symlink | special => exact walked_none rfl

theorem Walked.directory (walked : Walked front visits) (path : Path) (other : kind ≠ .file) :
    Walked front (.ok (path, kind) :: visits) := by
  have same : files (.ok (path, kind) :: visits) = files visits := by
    cases kind with
    | file => exact absurd rfl other
    | directory | symlink | special => rfl
  exact ⟨same ▸ walked.ascending, same ▸ walked.within⟩

theorem Walked.up {c : Component} (walked : Walked (front ++ [c]) visits) : Walked front visits :=
  ⟨walked.ascending, fun q member => by
    obtain ⟨rest, split⟩ := walked.within q member
    exact ⟨c :: rest, by simp [split]⟩⟩

theorem Apart.lt (apart : Apart front u v) : ∀ p ∈ files u, ∀ q ∈ files v, p.compare q = .lt := by
  intro p here q there
  rcases apart with none | none | ⟨m, n, before, left, right⟩
  · simp [none] at here
  · simp [none] at there
  · obtain ⟨r, one⟩ := left.within p here
    obtain ⟨s, two⟩ := right.within q there
    exact compare_parting (one.trans (List.append_assoc ..)) (two.trans (List.append_assoc ..)) before

theorem walked_flatMap {entries : List γ} {f : γ → List Visit}
    (each : ∀ e ∈ entries, Walked front (f e))
    (apart : entries.Pairwise fun a b => Apart front (f a) (f b)) :
    Walked front (entries.flatMap f) := by
  have all : files (entries.flatMap f) = entries.flatMap fun e => files (f e) :=
    List.filterMap_flatMap ..
  constructor
  · rw [all, List.pairwise_flatMap]
    exact ⟨fun e member => (each e member).ascending, apart.imp Apart.lt⟩
  · intro q member
    rw [all, List.mem_flatMap] at member
    obtain ⟨e, present, here⟩ := member
    exact (each e present).within q here

def entryVisits (fs : FileSystem) (w : TreeWalk) (trail : List Path) (child : Path) (kind : Kind) :
    List Visit :=
  match followed fs w trail child kind with
  | .error e => [.error e]
  | .ok kind =>
    if !w.includes child then []
    else .ok (child, kind) :: if kind = .directory then below fs w (child :: trail) child else []

theorem below_listed {fs : FileSystem} {w : TreeWalk} {trail : List Path} {path : Path}
    {entries : List (Name × Kind)} (listed : fs.list path = .ok entries) :
    below fs w trail path =
      entries.flatMap fun e => entryVisits fs w trail (path.join e.1.path) e.2 := by
  rw [below]
  split
  · rename_i failed
    cases listed.symm.trans failed
  · rename_i others found
    cases listed.symm.trans found
    rfl

theorem below_failed {fs : FileSystem} {w : TreeWalk} {trail : List Path} {path : Path} {e : SystemError}
    (failed : fs.list path = .error e) : below fs w trail path = [.error (.system path e)] := by
  rw [below]
  split
  · rename_i also
    cases failed.symm.trans also
    rfl
  · rename_i listed
    cases failed.symm.trans listed

theorem below_walked (fs : FileSystem) (w : TreeWalk)
    (trail : List Path) (path : Path) : Walked path.components (below fs w trail path) := by
  cases listed : fs.list path with
  | error e => exact walked_none (by rw [below_failed listed]; rfl)
  | ok entries =>
    rw [below_listed listed]
    have each : ∀ e ∈ entries, Walked (path.components ++ [.normal e.1.bytes])
        (entryVisits fs w trail (path.join e.1.path) e.2) := by
      intro e member
      rw [← components_join]
      unfold entryVisits
      split
      · exact walked_none rfl
      · split
        · exact walked_none rfl
        · split
          · rename_i kind _ _ isDirectory
            -- What is below is walked under a longer path, and a directory that is listed has one that
            -- is short enough.
            have shorter := FileSystem.list_length listed
            have longer := path.join_name_length e.1
            exact (below_walked fs w _ _).directory _ (by simp [isDirectory])
          · exact walked_single _ _
    apply walked_flatMap (fun e member => (each e member).up)
    have order := FileSystem.list_ascending listed
    exact List.Pairwise.imp_of_mem
      (fun here there before => .inr (.inr ⟨_, _, before, each _ here, each _ there⟩)) order
termination_by FileSystem.longestPath + 1 - path.bytes.length

theorem components_respelled (path : Path) (n : Name) :
    (respelled (path.join n.path)).components = path.components ++ [.normal n.bytes] := by
  obtain ⟨parent, found, same⟩ := path.parent?_join n
  rw [respelled, found, path.fileName?_join n, Option.getD_some, Option.getD_some, ← same]
  exact parent.components_join n

structure Branch.Of (b : Branch) (path : Path) (n : Name) : Prop where
  components : b.path.components = path.components ++ [.normal n.bytes]
  leaf : b.kind = .file → b.readAt = none

theorem branchAt_of (path : Path) (n : Name) (kind : Kind) :
    (branchAt (path.join n.path) kind).Of path n where
  components := components_respelled path n
  leaf file := by simp_all [branchAt]

theorem branch_of {fs : FileSystem} {w : TreeWalk} {ancestors : List Path} {path : Path} {n : Name}
    {kind : Kind} {b : Branch} (made : branch fs w ancestors (path.join n.path) kind = .ok b) :
    b.Of path n := by
  unfold branch at made
  split at made
  · unfold followLink at made
    split at made
    · cases made
    · split at made
      · cases made
      · cases made; exact branchAt_of path n .directory
    · cases made; exact branchAt_of path n _
  · cases made
    exact ⟨path.components_join n, fun file => by simp_all⟩

theorem arrange_pairwise {w : TreeWalk} {branches : List (Except WalkError Branch)}
    {R : Except WalkError Branch → Except WalkError Branch → Prop} (order : branches.Pairwise R)
    (last : ∀ b e, R b (.error e)) :
    (arrange w branches).Pairwise R := by
  have failed {b : Except WalkError Branch} (yes : isFailed b = true) : ∃ e, b = .error e := by
    cases b with
    | ok b => cases yes
    | error e => exact ⟨e, rfl⟩
  unfold arrange
  dsimp only
  refine List.pairwise_append.mpr ⟨(order.filter _).filter _, (order.filter _).filter _, ?_⟩
  intro a _ b there
  obtain ⟨e, rfl⟩ := failed (List.mem_filter.mp there).2
  exact last a e

def branchVisits (fs : FileSystem) (w : TreeWalk) (ancestors : List Path) :
    Except WalkError Branch → List Visit
  | .error e => [.error e]
  | .ok b =>
    .ok (b.path, b.kind) ::
      match b.readAt with
      | some q => belowParallel fs w ancestors q
      | none => []

def branches (fs : FileSystem) (w : TreeWalk) (ancestors : List Path) (path : Path)
    (entries : List (Name × Kind)) : List (Except WalkError Branch) :=
  entries.map fun e => branch fs w ancestors (path.join e.1.path) e.2

theorem belowParallel_listed {fs : FileSystem} {w : TreeWalk} {ancestors : List Path} {path : Path}
    {entries : List (Name × Kind)} (listed : fs.list path = .ok entries) :
    belowParallel fs w ancestors path =
      (arrange w (branches fs w (path :: ancestors) path entries)).flatMap
        (branchVisits fs w (path :: ancestors)) := by
  rw [belowParallel]
  split
  · rename_i failed
    cases listed.symm.trans failed
  · rename_i others found
    cases listed.symm.trans found
    dsimp only
    rw [List.flatMap_subtype (g := branchVisits fs w (path :: ancestors)), List.unattach_attach]
    · rfl
    · rintro (e | b) member
      · rfl
      · simp only [branchVisits]
        split <;> simp_all

theorem belowParallel_failed {fs : FileSystem} {w : TreeWalk} {ancestors : List Path} {path : Path}
    {e : SystemError} (failed : fs.list path = .error e) : belowParallel fs w ancestors path = [] := by
  rw [belowParallel]
  split
  · rfl
  · rename_i listed
    cases failed.symm.trans listed

theorem belowParallel_walked (fs : FileSystem) (w : TreeWalk)
    (ancestors : List Path) (path : Path) :
    Walked path.components (belowParallel fs w ancestors path) := by
  cases listed : fs.list path with
  | error e => exact walked_none (by rw [belowParallel_failed listed]; rfl)
  | ok entries =>
    rw [belowParallel_listed listed]
    have each : ∀ e ∈ entries, Walked (path.components ++ [.normal e.1.bytes])
        (branchVisits fs w (path :: ancestors)
          (branch fs w (path :: ancestors) (path.join e.1.path) e.2)) := by
      intro e member
      cases made : branch fs w (path :: ancestors) (path.join e.1.path) e.2 with
      | error _ => exact walked_none rfl
      | ok b =>
        have own := branch_of made
        simp only [branchVisits]
        split
        · rename_i q read
          have shorter := FileSystem.list_length listed
          have longer := path.join_name_length e.1
          have inner := belowParallel_walked fs w (path :: ancestors) (path.join e.1.path)
          rw [branch_readAt made read, ← path.components_join]
          exact inner.directory _ fun file => by simp [own.leaf file] at read
        · rw [← own.components]
          exact walked_single _ _
    apply walked_flatMap
    · intro b member
      obtain ⟨e, present, rfl⟩ := List.mem_map.mp (mem_arrange member)
      exact (each e present).up
    · have order := FileSystem.list_ascending listed
      refine arrange_pairwise ?_ fun b e => .inr (.inl rfl)
      refine List.pairwise_map.mpr (List.Pairwise.imp_of_mem ?_ order)
      intro m n here there before
      exact .inr (.inr ⟨_, _, before, each _ here, each _ there⟩)
termination_by FileSystem.longestPath + 1 - path.bytes.length

theorem serial_ascending (fs : FileSystem) (w : TreeWalk) :
    (files (serial fs w)).Pairwise fun p q => p.compare q = .lt := by
  have single (path : Path) (kind : Kind) := (walked_single path kind).ascending
  have inner (kind : Kind) (other : kind ≠ .file) :=
    ((below_walked fs w [w.root] w.root).directory w.root other).ascending
  unfold serial
  split
  · exact .nil
  · split
    · exact .nil
    · unfold serialRoot
      split
      · rename_i isDirectory
        exact inner _ (by simp [isDirectory])
      · split
        · rename_i isLink
          split
          · exact .nil
          · exact inner _ (by simp [isLink])
          · exact single _ _
        · exact single _ _

theorem rootBranch_read {fs : FileSystem} {w : TreeWalk} {kind : Kind} {b : Branch} {q : Path}
    (made : rootBranch fs w kind = .ok b) (read : b.readAt = some q) : b.kind ≠ .file := by
  have plain (path : Path) (kind : Kind) (read : (branchAt path kind).readAt = some q) :
      kind ≠ .file := by
    rintro rfl
    cases read
  unfold rootBranch at made
  dsimp only at made
  split at made
  · rename_i isLink
    split at made
    · unfold followLink at made
      split at made
      · cases made
      · split at made
        · cases made
        · cases made; exact plain _ _ read
      · cases made; exact plain _ _ read
    · split at made
      · cases made
      · cases made; simp [branchAt, isLink]
      · cases made; exact plain _ _ read
  · cases made; exact plain _ _ read

theorem parallel_ascending (fs : FileSystem) (w : TreeWalk) :
    (files (parallelVisits fs w)).Pairwise fun p q => p.compare q = .lt := by
  unfold parallelVisits
  split
  · exact .nil
  · split
    · exact .nil
    · rename_i b made
      split
      · exact .nil
      · split
        · rename_i q read
          exact ((belowParallel_walked fs w _ q).directory _ (rootBranch_read made read)).ascending
        · exact (walked_single _ _).ascending

-- In either walk the files come in strictly ascending path order, so none of them comes twice.
theorem visits_ascending (fs : FileSystem) (w : TreeWalk) :
    (files (w.visits fs)).Pairwise fun p q => p.compare q = .lt := by
  unfold TreeWalk.visits
  split
  · exact parallel_ascending fs w
  · exact serial_ascending fs w

end TreeDigest.TreeWalk
