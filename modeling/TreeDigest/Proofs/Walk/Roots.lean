import TreeDigest.Proofs.Walk.Agreement
import TreeDigest.Proofs.Walk.Reach
namespace TreeDigest.TreeWalk
open TreeDigest.Path

variable {fs : FileSystem} {w : TreeWalk} {kind : Kind} {path : Path}

-- The walk in many threads respells its root. It has to be the same path still, or a directory that is
-- not excluded under the other spelling.
def RootKept (fs : FileSystem) (w : TreeWalk) : Prop :=
  respelled w.root = w.root ∨
    fs.kind false w.root = .ok .directory ∧ w.includes (respelled w.root) = true

theorem RootKept.included (root : RootKept fs w) (nonempty : w.root.bytes ≠ []) :
    w.includes (respelled w.root) = true := by
  rcases root with same | ⟨-, included⟩
  · rw [same]
    exact includes_root nonempty rfl
  · exact included

theorem components_respelled_name {last : Bytes} (named : path.fileName? = some last)
    (plain : 0 ∉ path.bytes) : (respelled path).components = path.components := by
  obtain ⟨n, front, rfl, ends⟩ := Path.fileName?_name named plain
  obtain ⟨q, found, same⟩ := Path.parent?_split ends
  rw [n.bodyComponents_eq] at same
  rw [respelled, found, named, same]
  exact q.components_join n

theorem rootKept_of_name {last : Bytes} (named : w.root.fileName? = some last)
    (first : fs.kind false w.root = .ok .directory) : RootKept fs w := by
  obtain ⟨here, found, -⟩ := FileSystem.kind_inv first
  obtain ⟨nonempty, plain, -⟩ := FileSystem.find_ok found
  exact .inr ⟨first, includes_root nonempty (components_respelled_name named plain)⟩

theorem parallel_found (first : fs.kind false w.root = .ok kind) : parallelVisits fs w =
    kept fs w (if w.followLinks then [w.root] else []) (rootBranch fs w kind) := by
  rw [parallelVisits]
  simp only [first]
  cases rootBranch fs w kind with
  | error e => rfl
  | ok b =>
    rw [kept, keeps]
    dsimp only
    cases w.includes b.path <;> rfl

theorem serial_link (first : fs.kind false w.root = .ok .symlink) (follow : w.followLinks = true)
    (included : w.includes w.root = true) : serial fs w = entryVisits fs w [] w.root .symlink := by
  unfold serial entryVisits followed
  simp only [first, follow, included]
  rcases resolved : fs.kind true w.root with e | k
  · rfl
  · cases k with
    | symlink => simp [serialRoot, resolved]
    | directory | file | special => rfl

theorem parallel_link (first : fs.kind false w.root = .ok .symlink) (follow : w.followLinks = true)
    (spelling : respelled w.root = w.root) :
    parallelVisits fs w = kept fs w [w.root] (branch fs w [w.root] w.root .symlink) := by
  rw [parallel_found first]
  simp [follow, rootBranch, branch, branchAt, spelling]

theorem serial_unfollowed (first : fs.kind false w.root = .ok .symlink) (follow : w.followLinks = false) :
    serial fs w = match fs.kind true w.root with
      | .error e => [.error (.system w.root e)]
      | .ok .directory => .ok (w.root, .symlink) :: below fs w [w.root] w.root
      | .ok _ => [.ok (w.root, .symlink)] := by
  unfold serial followed
  simp only [first, follow]
  rfl

theorem parallel_unfollowed (first : fs.kind false w.root = .ok .symlink) (follow : w.followLinks = false)
    (spelling : respelled w.root = w.root) (included : w.includes w.root = true) :
    parallelVisits fs w = match fs.kind true w.root with
      | .error e => [.error (.system w.root e)]
      | .ok .directory => .ok (w.root, .symlink) :: belowParallel fs w [] w.root
      | .ok _ => [.ok (w.root, .symlink)] := by
  rw [parallel_found first]
  unfold rootBranch
  simp only [follow, branchAt, spelling]
  rcases fs.kind true w.root with e | k
  · rfl
  · cases k <;> simp [kept, keeps, included, branchVisits]

theorem parallel_plain (first : fs.kind false w.root = .ok kind) (other : kind ≠ .symlink)
    (included : w.includes (respelled w.root) = true) :
    parallelVisits fs w = .ok (respelled w.root, kind) ::
      if kind = .directory then belowParallel fs w (if w.followLinks then [w.root] else []) w.root
      else [] := by
  rw [parallel_found first]
  by_cases directory : kind = .directory <;>
    simp [rootBranch, branchAt, other, kept, keeps, included, branchVisits, directory]

theorem below_loopless (unfollowed : w.followLinks = false) (trail : List Path) (path : Path) :
    Loopless (below fs w trail path) := by
  cases listed : fs.list path with
  | error e =>
    rw [below_failed listed]
    simp [Loopless]
  | ok entries =>
    rw [below_listed listed]
    intro child ancestor loop
    obtain ⟨e, -, inside⟩ := List.mem_flatMap.mp loop
    rw [entryVisits, followed_plain (.inl unfollowed)] at inside
    dsimp only at inside
    split at inside
    · cases inside
    · have more := (List.mem_cons.mp inside).resolve_left (by simp)
      split at more
      · have shorter := FileSystem.list_length listed
        have longer := path.join_name_length e.1
        exact below_loopless unfollowed _ _ child ancestor more
      · cases more
termination_by FileSystem.longestPath + 1 - path.bytes.length

theorem serial_loopless (unfollowed : w.followLinks = false) : Loopless (serial fs w) := by
  have inner (kind : Kind) : Loopless (.ok (w.root, kind) :: below fs w [w.root] w.root) :=
    fun child ancestor loop => below_loopless unfollowed _ _ child ancestor
      ((List.mem_cons.mp loop).resolve_left (by simp))
  cases first : fs.kind false w.root with
  | error e =>
    unfold serial
    simp only [first]
    simp [Loopless]
  | ok kind =>
    by_cases isLink : kind = .symlink
    · rw [serial_unfollowed (isLink ▸ first) unfollowed]
      split
      · simp [Loopless]
      · exact inner _
      · simp [Loopless]
    · rw [serial_plain first isLink]
      split
      · exact inner _
      · simp [Loopless]

theorem belowParallel_loopless (unfollowed : w.followLinks = false) (ancestors : List Path) (path : Path) :
    Loopless (belowParallel fs w ancestors path) := by
  cases listed : fs.list path with
  | error e =>
    rw [belowParallel_failed listed]
    simp [Loopless]
  | ok entries =>
    rw [belowParallel_listed listed]
    intro child ancestor loop
    obtain ⟨b, arranged, inside⟩ := List.mem_flatMap.mp loop
    obtain ⟨e, -, rfl⟩ := List.mem_map.mp (mem_arrange arranged)
    have plain : branch fs w (path :: ancestors) (path.join e.1.path) e.2 =
        .ok ⟨path.join e.1.path, e.2, if e.2 = .directory then some (path.join e.1.path) else none⟩ := by
      simp [branch, unfollowed]
    rw [plain, branchVisits] at inside
    have more := (List.mem_cons.mp inside).resolve_left (by simp)
    by_cases directory : e.2 = .directory
    · have shorter := FileSystem.list_length listed
      have longer := path.join_name_length e.1
      simp only [directory, if_true] at more
      exact belowParallel_loopless unfollowed _ _ child ancestor more
    · simp [directory] at more
termination_by FileSystem.longestPath + 1 - path.bytes.length

theorem parallel_loopless (unfollowed : w.followLinks = false) : Loopless (parallelVisits fs w) := by
  cases first : fs.kind false w.root with
  | error e =>
    unfold parallelVisits
    simp only [first]
    simp [Loopless]
  | ok kind =>
    rw [parallel_found first]
    intro child ancestor loop
    unfold kept at loop
    split at loop
    · cases made : rootBranch fs w kind with
      | error e =>
        rw [made, branchVisits, List.mem_singleton] at loop
        cases loop
        unfold rootBranch at made
        simp only [unfollowed, Bool.false_eq_true, if_false] at made
        split at made
        · split at made <;> cases made
        · cases made
      | ok b =>
        rw [made, branchVisits] at loop
        have more := (List.mem_cons.mp loop).resolve_left (by simp)
        split at more
        · exact belowParallel_loopless unfollowed _ _ child ancestor more
        · cases more
    · cases loop

theorem root_below_agrees (nonempty : w.root.bytes ≠ []) {trail ancestors : List Path}
    (one : Loopless (.ok (w.root, kind) :: below fs w trail w.root))
    (other : Loopless (.ok (path, kind) :: belowParallel fs w ancestors w.root))
    (notFile : kind ≠ .file) {entries : List (Name × Kind)} (listed : fs.list w.root = .ok entries) :
    Agree fs w (.ok (w.root, kind) :: below fs w trail w.root)
      (.ok (path, kind) :: belowParallel fs w ancestors w.root) := by
  have rest := below_agrees nonempty [] rfl listed one.tail other.tail
  exact .cons (fun file => absurd file notFile) rest fun _ => ⟨entries, listed⟩

theorem plain_agrees (nonempty : w.root.bytes ≠ []) (root : RootKept fs w)
    (first : fs.kind false w.root = .ok kind) (notLink : kind ≠ .symlink) (one : Loopless (serial fs w))
    (other : Loopless (parallelVisits fs w)) : Agree fs w (serial fs w) (parallelVisits fs w) := by
  rw [serial_plain first notLink] at one ⊢
  rw [parallel_plain first notLink (root.included nonempty)] at other ⊢
  by_cases directory : kind = .directory
  · simp only [if_pos directory] at one other ⊢
    cases listed : fs.list w.root with
    | error e =>
      have nothing : belowParallel fs w (if w.followLinks then [w.root] else []) w.root = [] :=
        belowParallel_failed listed
      rw [below_failed listed, nothing, directory]
      exact .unlisted listed
    | ok entries => exact root_below_agrees nonempty one other (by simp [directory]) listed
  · have same : respelled w.root = w.root := root.resolve_right fun other =>
      directory (Except.ok.inj (first.symm.trans other.1))
    simp only [if_neg directory, same]
    exact .cons (fun _ => ⟨rfl, rfl⟩) .nil fun own => absurd own directory

theorem link_agrees (nonempty : w.root.bytes ≠ []) (root : RootKept fs w)
    (first : fs.kind false w.root = .ok .symlink) (one : Loopless (serial fs w))
    (other : Loopless (parallelVisits fs w)) : Agree fs w (serial fs w) (parallelVisits fs w) := by
  have same : respelled w.root = w.root := root.resolve_right fun other => by
    cases first.symm.trans other.1
  have included := includes_root nonempty (rfl : w.root.components = _)
  cases follow : w.followLinks with
  | true =>
    rw [serial_link first follow included] at one ⊢
    rw [parallel_link first follow same] at other ⊢
    exact entry_agrees (by rw [same]) (by rw [same]) one other fun entries listed =>
      below_agrees nonempty [] rfl listed
  | false =>
    rw [serial_unfollowed first follow] at one ⊢
    rw [parallel_unfollowed first follow same included] at other ⊢
    cases resolved : fs.kind true w.root with
    | error e => exact .error _
    | ok k =>
      rw [resolved] at one other
      cases k with
      | directory =>
        obtain ⟨entries, listed⟩ := FileSystem.list_of_kind resolved
        exact root_below_agrees nonempty one other nofun listed
      | file | symlink | special => exact .cons nofun .nil nofun

-- The walk in many threads comes by the same files as the walk in one, in the same order, and by the same
-- errors but for those of the directories which it cannot list.
theorem parallel_agrees (root : RootKept fs w) (one : Loopless (serial fs w))
    (other : Loopless (parallelVisits fs w)) : Agree fs w (serial fs w) (parallelVisits fs w) := by
  cases first : fs.kind false w.root with
  | error e =>
    have mine : serial fs w = [.error (.system w.root e)] := by
      unfold serial
      simp only [first]
    have theirs : parallelVisits fs w = [.error (.system w.root e)] := by
      unfold parallelVisits
      simp only [first]
    rw [mine, theirs]
    exact .error _
  | ok kind =>
    have nonempty := FileSystem.nonempty_of_kind first
    by_cases isLink : kind = .symlink
    · exact link_agrees nonempty root (isLink ▸ first) one other
    · exact plain_agrees nonempty root first isLink one other

def leaf : Name := ⟨[98], by decide⟩

def inner : Name := ⟨[100, 100], by decide⟩

def twoEntries : Node :=
  .directory [(leaf, .file [121]), (inner, .directory [(⟨[102], by decide⟩, .file [120])])]

theorem twoEntries_distinct : twoEntries.Distinct := by
  refine .directory (by decide) (List.forall_mem_cons.mpr ⟨.file, List.forall_mem_singleton.mpr ?_⟩)
  exact .directory (by decide) (List.forall_mem_singleton.mpr .file)

def deepTree : FileSystem where
  root := .directory [(⟨[116], by decide⟩, twoEntries)]
  distinct := .directory (by decide) (List.forall_mem_singleton.mpr twoEntries_distinct)

section Padded
variable {first : Bytes} {n : Nat}

def padded (first : Bytes) (n : Nat) : Path := ⟨first ++ (List.replicate n [slash, dot]).flatten⟩

theorem padded_length : (padded first n).bytes.length = first.length + 2 * n := by
  simp [padded, Nat.mul_comm]

theorem padded_nonempty : (padded first (n + 1)).bytes ≠ [] :=
  List.ne_nil_of_length_pos (by rw [padded_length]; omega)

theorem padded_plain (plain : 0 ∉ first) : 0 ∉ (padded first n).bytes := by
  simp [padded, plain, slash, dot]

theorem padded_join (m : Name) : ((padded first (n + 1)).join m.path).bytes =
    (padded first (n + 1)).bytes ++ slash :: m.bytes := by
  have ends : (padded first (n + 1)).bytes = ((padded first n).bytes ++ [slash]) ++ [dot] := by
    simp [padded, List.replicate_succ']
  rw [bytes_join m padded_nonempty, if_neg (by rw [ends, List.getLast?_concat]; decide)]

end Padded

def dotted (n : Nat) : Path := ⟨[116] ++ (List.replicate n [slash, dot]).flatten⟩

theorem dotted_length (n : Nat) : (dotted n).bytes.length = 2 * n + 1 :=
  padded_length.trans (Nat.add_comm ..)

theorem dotted_nonempty (n : Nat) : (dotted n).bytes ≠ [] := nofun

theorem dotted_plain (n : Nat) : 0 ∉ (dotted n).bytes := padded_plain (by decide)

theorem dotted_join (n : Nat) (m : Name) :
    ((dotted n).join m.path).bytes = (dotted n).bytes ++ slash :: m.bytes := by
  cases n with
  | zero => exact bytes_join m (dotted_nonempty 0)
  | succ n => exact padded_join m

theorem dotted_named (n : Nat) : (dotted n).fileName? = some [116] := by
  have body : (dotted n).parts.body = [[116]] ++ List.replicate n [dot] := by
    rw [parts_eq, dotted, segments_repeat (by decide) (by decide)]
    rfl
  have trimmed : trimEnd (dotted n).parts.body = [[116]] := by
    rw [body, trimEnd, List.reverse_append, List.reverse_replicate, List.dropWhile_append_of_pos]
    · rfl
    · intro segment member
      rw [List.eq_of_mem_replicate member]
      rfl
  rw [fileName?, trimmed]
  rfl

theorem dotted_found {n : Nat} (short : 2 * n + 1 ≤ FileSystem.longestPath) (follow : Bool) :
    ∃ here, deepTree.find follow (dotted n) = .ok here ∧ here.node = twoEntries := by
  have started : deepTree.start? (dotted n) = some (.root deepTree.root) := rfl
  have first : FileSystem.enter (.root deepTree.root) [116] =
      .ok (.place (.child (.root deepTree.root) ⟨[116], by decide⟩ twoEntries)) := rfl
  refine ⟨.child (.root deepTree.root) ⟨[116], by decide⟩ twoEntries, ?_, rfl⟩
  rw [FileSystem.find_eq (dotted_nonempty n) (dotted_plain n) (by rwa [dotted_length]) started, dotted,
    segments_repeat (by decide) (by decide), FileSystem.resolve, first]
  exact FileSystem.resolve_trivial rfl fun segment member => by
    rw [List.eq_of_mem_replicate member]
    rfl

def deepRoot : Path := dotted 2046

def deepWalk (parallel : Bool) : TreeWalk := { root := deepRoot, parallel }

def leafPath : Path := deepRoot.join leaf.path

def innerPath : Path := deepRoot.join inner.path

theorem deep_found (follow : Bool) :
    ∃ here, deepTree.find follow deepRoot = .ok here ∧ here.node = twoEntries :=
  dotted_found (by decide) follow

theorem deep_kind : deepTree.kind false deepRoot = .ok .directory := by
  obtain ⟨here, found, node⟩ := deep_found false
  rw [FileSystem.kind_ok found, node]
  rfl

theorem deep_listed : deepTree.list deepRoot = .ok [(leaf, .file), (inner, .directory)] := by
  obtain ⟨here, found, node⟩ := deep_found true
  exact FileSystem.list_eq found node (by decide)

theorem deep_unlisted : deepTree.list innerPath = .error .nameTooLong := by
  apply FileSystem.list_tooLong
  · rw [innerPath, deepRoot, dotted_join]
    simp [dotted_plain, inner, slash]
  · rw [innerPath, deepRoot, dotted_join, List.length_append, dotted_length]
    decide

variable {parallel : Bool}

theorem deep_kept : RootKept deepTree (deepWalk parallel) :=
  rootKept_of_name (dotted_named 2046) deep_kind

theorem leaf_included : (deepWalk parallel).includes leafPath = true := by
  refine (includes_entry leaf).trans ?_
  rw [show (deepWalk parallel).exclude = [] from rfl]
  decide +kernel

theorem inner_included : (deepWalk parallel).includes innerPath = true := by
  refine (includes_entry inner).trans ?_
  rw [show (deepWalk parallel).exclude = [] from rfl]
  decide +kernel

theorem deep_serial : serial deepTree (deepWalk parallel) = [.ok (deepRoot, .directory),
    .ok (leafPath, .file), .ok (innerPath, .directory), .error (.system innerPath .nameTooLong)] := by
  have file : entryVisits deepTree (deepWalk parallel) [deepRoot] leafPath .file =
      [.ok (leafPath, .file)] := by
    rw [entryVisits, followed_plain (.inl rfl)]
    simp [leaf_included]
  have directory : entryVisits deepTree (deepWalk parallel) [deepRoot] innerPath .directory =
      [.ok (innerPath, .directory), .error (.system innerPath .nameTooLong)] := by
    rw [entryVisits, followed_plain (.inl rfl)]
    simp [inner_included, below_failed deep_unlisted]
  have walked : below deepTree (deepWalk parallel) [deepRoot] deepRoot =
      [.ok (leafPath, .file), .ok (innerPath, .directory), .error (.system innerPath .nameTooLong)] := by
    rw [below_listed deep_listed, List.flatMap_cons, List.flatMap_singleton]
    change entryVisits deepTree (deepWalk parallel) [deepRoot] leafPath .file ++
      entryVisits deepTree (deepWalk parallel) [deepRoot] innerPath .directory = _
    rw [file, directory]
    rfl
  rw [serial_plain (w := deepWalk parallel) deep_kind (by decide), if_pos rfl]
  exact congrArg (_ :: ·) walked

theorem deep_parallel : parallelVisits deepTree (deepWalk parallel) =
    [.ok (respelled deepRoot, .directory), .ok (leafPath, .file), .ok (innerPath, .directory)] := by
  have nothing : belowParallel deepTree (deepWalk parallel) [deepRoot] innerPath = [] :=
    belowParallel_failed deep_unlisted
  have made : branches deepTree (deepWalk parallel) [deepRoot] deepRoot
      [(leaf, .file), (inner, .directory)] =
        [.ok ⟨leafPath, .file, none⟩, .ok ⟨innerPath, .directory, some innerPath⟩] := rfl
  have walked : belowParallel deepTree (deepWalk parallel) [] deepRoot =
      [.ok (leafPath, .file), .ok (innerPath, .directory)] := by
    rw [belowParallel_listed deep_listed, made]
    simp [arrange, isFailed, leaf_included, inner_included, branchVisits, nothing]
  have included := deep_kept.included (w := deepWalk parallel) (dotted_nonempty 2046)
  rw [parallel_plain (w := deepWalk parallel) deep_kind (by decide) included, if_pos rfl]
  exact congrArg (_ :: ·) walked

theorem parallel_agrees_deep : Agree deepTree (deepWalk true) (serial deepTree (deepWalk true))
    (parallelVisits deepTree (deepWalk true)) :=
  parallel_agrees deep_kept (serial_loopless rfl) (parallel_loopless rfl)

-- A directory that cannot be listed is an error to one of the walks only. The other one comes to its end
-- as if nothing were missing.
theorem unlisted_silent :
    Loopless (serial deepTree (deepWalk true)) ∧ Loopless (parallelVisits deepTree (deepWalk true)) ∧
      ¬ ((serial deepTree (deepWalk true)).filterMap (deepWalk true).failure?).Perm
        ((parallelVisits deepTree (deepWalk true)).filterMap (deepWalk true).failure?) ∧
      (deepWalk false).items deepTree =
        [.ok leafPath, .error (WalkError.system innerPath .nameTooLong).message] ∧
      (deepWalk true).items deepTree = [.ok leafPath] := by
  have mine : (deepWalk false).visits deepTree = serial deepTree (deepWalk false) :=
    if_neg nofun
  have theirs : (deepWalk true).visits deepTree = parallelVisits deepTree (deepWalk true) :=
    if_pos rfl
  refine ⟨serial_loopless rfl, parallel_loopless rfl, fun same => ?_, ?_, ?_⟩
  · have present : .error (.system innerPath .nameTooLong) ∈ serial deepTree (deepWalk true) := by
      rw [deep_serial]
      exact .tail _ (.tail _ (.tail _ (.head _)))
    have silent : ∀ visit ∈ parallelVisits deepTree (deepWalk true),
        (deepWalk true).failure? visit = none := by
      rw [deep_parallel]
      intro visit member
      simp only [List.mem_cons, List.not_mem_nil, or_false] at member
      rcases member with rfl | rfl | rfl <;> exact failure_ok _ _
    rw [List.filterMap_eq_nil_iff.mpr silent] at same
    have unreported := List.filterMap_eq_nil_iff.mp same.eq_nil _ present
    rw [failure_system _ inner_included] at unreported
    cases unreported
  · rw [TreeWalk.items, outcomes, mine, deep_serial]
    have strict : (deepWalk false).skipUnreadable = false := rfl
    simp [List.filterMap_cons, outcome, leaf_included, inner_included, item?, strict]
  · rw [TreeWalk.items, outcomes, theirs, deep_parallel]
    simp [List.filterMap_cons, outcome, leaf_included, item?]

end TreeDigest.TreeWalk
