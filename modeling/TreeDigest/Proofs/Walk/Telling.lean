import Mathlib.Data.List.Basic
import Mathlib.Data.List.Find
import TreeDigest.Digest.Tree
import TreeDigest.Proofs.Walk.Exclusion
import TreeDigest.Proofs.Walk.Roots
namespace TreeDigest

namespace FileSystem
variable {fs gs : FileSystem} {away : List Name → Prop} {path : Path}

theorem Meet.hashFile (alike : fs.Alike gs away)
    (meet : Meet (Twin fs gs away) (fs.find true path) (gs.find true path)) :
    hashFile fs path = hashFile gs path := by
  unfold TreeDigest.hashFile
  obtain ⟨e, left, right⟩ | ⟨p, q, left, right, twin⟩ := meet.cases
  · rw [left, right]
  · have bare := twin.bare alike
    rw [left, right]
    cases here : p.node <;> cases there : q.node <;> simp_all [Node.bare]

end FileSystem

namespace TreeWalk
open FileSystem

variable {fs gs : FileSystem} {w : TreeWalk} {root path : Path} {kind : Kind} {trail ancestors : List Path}

def tells? (fs : FileSystem) (w : TreeWalk) (visit : Visit) :
    Option (WalkOutcome × Option (Except String Digest)) :=
  match w.outcome visit with
  | .file path => some (.file path, some (hashFile fs path))
  | .ignored => none
  | .error e => some (.error e, none)

def tells (fs : FileSystem) (w : TreeWalk) (visits : List Visit) :
    List (WalkOutcome × Option (Except String Digest)) := visits.filterMap (tells? fs w)

theorem tells_cons (visit : Visit) (visits : List Visit) :
    tells fs w (visit :: visits) = (tells? fs w visit).toList ++ tells fs w visits := by
  rw [tells, List.filterMap_cons]
  cases tells? fs w visit <;> rfl

theorem tells_append (front back : List Visit) :
    tells fs w (front ++ back) = tells fs w front ++ tells fs w back := List.filterMap_append ..

theorem tells_flatMap (entries : List γ) (f : γ → List Visit) :
    tells fs w (entries.flatMap f) = entries.flatMap fun e => tells fs w (f e) := List.filterMap_flatMap ..

theorem tells_excluded {e : WalkError} (excluded : w.heeds e = false) :
    tells? fs w (.error e) = none := by
  simp [tells?, outcome, excluded]

theorem tells_ok (read : kind = .file → hashFile fs path = hashFile gs path) :
    tells? fs w (.ok (path, kind)) = tells? gs w (.ok (path, kind)) := by
  cases kind with
  | file => cases included : w.includes path <;> simp [tells?, outcome, included, read rfl]
  | directory | symlink | special => rfl

variable {visit : Visit} {ours theirs : List Visit}

theorem told_cons (first : tells? fs w visit = tells? gs w visit)
    (rest : tells fs w ours = tells gs w theirs) :
    tells fs w (visit :: ours) = tells gs w (visit :: theirs) := by
  rw [tells_cons, tells_cons, first, rest]

theorem told_error (e : WalkError) : tells fs w [.error e] = tells gs w [.error e] := by
  refine told_cons ?_ rfl
  cases included : w.heeds e <;> simp [tells?, outcome, included]

theorem flatMap_silent {entries others : List γ} {keep : γ → Bool} {f g : γ → List δ}
    (same : entries.filter keep = others.filter keep)
    (silent : ∀ e, keep e = false → f e = [] ∧ g e = [])
    (each : ∀ e ∈ entries, keep e = true → f e = g e) : entries.flatMap f = others.flatMap g := by
  have left : (entries.filter keep).flatMap f = entries.flatMap f := by
    rw [flatMap_filter]
    refine List.flatMap_congr fun e _ => ?_
    cases kept : keep e <;> simp [silent e, kept]
  have right : (others.filter keep).flatMap g = others.flatMap g := by
    rw [flatMap_filter]
    refine List.flatMap_congr fun e _ => ?_
    cases kept : keep e <;> simp [silent e, kept]
  rw [← left, ← right, ← same]
  refine List.flatMap_congr fun e member => ?_
  obtain ⟨present, kept⟩ := List.mem_filter.mp member
  exact each e present kept

theorem followed_told (kinds : fs.kind true path = gs.kind true path)
    (above : ∀ a ∈ trail, fs.same a path = gs.same a path) :
    TreeWalk.followed fs w trail path kind = TreeWalk.followed gs w trail path kind := by
  unfold TreeWalk.followed
  rw [kinds, List.find?_congr above]

def Trodden (fs gs : FileSystem) (w : TreeWalk) (trail : List Path) : Prop :=
  ∀ a ∈ trail, Meet (Twin fs gs (w.Excluded fs)) (fs.find true a) (gs.find true a)

theorem Trodden.cons (trodden : Trodden fs gs w trail)
    (meet : Meet (Twin fs gs (w.Excluded fs)) (fs.find true path) (gs.find true path)) :
    Trodden fs gs w (path :: trail) := by
  intro a member
  rcases List.mem_cons.mp member with rfl | earlier
  · exact meet
  · exact trodden a earlier

theorem entryVisits_excluded (excluded : w.includes path = false) :
    tells fs w (entryVisits fs w trail path kind) = [] := by
  unfold entryVisits
  split
  · rename_i e went
    have own : e.path = some path := by
      unfold TreeWalk.followed at went
      split at went
      · split at went
        · cases went; rfl
        · split at went
          · cases went; rfl
          · cases went
        · cases went
      · cases went
    rw [tells_cons, tells_excluded ((heeds_path own).trans excluded)]
    rfl
  · simp [excluded, tells]

namespace Hides
variable (hides : Hides fs gs w)
include hides

theorem entryVisits_told (trodden : Trodden fs gs w trail)
    (meet : w.followLinks = true ∨ kind ≠ .symlink →
      Meet (Twin fs gs (w.Excluded fs)) (fs.find true path) (gs.find true path))
    (further : w.followLinks = true ∨ kind ≠ .symlink → Trodden fs gs w (path :: trail) →
      tells fs w (below fs w (path :: trail) path) = tells gs w (below gs w (path :: trail) path)) :
    tells fs w (entryVisits fs w trail path kind) = tells gs w (entryVisits gs w trail path kind) := by
  unfold entryVisits
  by_cases plain : w.followLinks = true ∨ kind ≠ .symlink
  · have meet := meet plain
    rw [followed_told (meet.kind hides.alike) fun a member => (trodden a member).same meet]
    split
    · exact told_error _
    · split
      · rfl
      · apply told_cons (tells_ok fun _ => meet.hashFile hides.alike)
        split
        · exact further plain (trodden.cons meet)
        · rfl
  · simp only [not_or, Decidable.not_not, Bool.not_eq_true] at plain
    obtain ⟨unfollowed, rfl⟩ := plain
    rw [followed_plain (.inl unfollowed), followed_plain (.inl unfollowed)]
    cases included : w.includes path <;> rfl

variable (nonempty : w.root.bytes ≠ [])
include nonempty

theorem below_told {names : List Name} {path : Path} (place : path = w.root.below names)
    {trail : List Path} (meets : Meets fs gs w w.root names) (trodden : Trodden fs gs w trail) :
    tells fs w (below fs w trail path) = tells gs w (below gs w trail path) := by
  have listed := meets.meet.list hides.alike
    (fun n => w.includes (path.join n.path)) fun here n found directory kept =>
      hides.near nonempty rfl meets found directory (place ▸ kept)
  rw [← place] at listed
  obtain ⟨e, left, right⟩ | ⟨entries, others, left, right, same⟩ := listed.cases
  · rw [below_failed left, below_failed right]
    exact told_error _
  · rw [below_listed left, below_listed right, tells_flatMap, tells_flatMap]
    refine flatMap_silent same (fun e out => ⟨entryVisits_excluded out, entryVisits_excluded out⟩) ?_
    rintro ⟨n, kind⟩ member included
    obtain ⟨here, -, found, -, -⟩ := list_ok left
    obtain ⟨node, holds, rfl⟩ := (list_mem found left).mp member
    have next (plain : w.followLinks = true ∨ node.kind ≠ .symlink) :
        Meets fs gs w w.root (names ++ [n]) := by
      rw [place] at found included
      exact hides.child nonempty rfl meets found holds plain included
    have last : path.join n.path = w.root.below (names ++ [n]) := by rw [place, Path.below_append]; rfl
    apply hides.entryVisits_told trodden
    · intro plain
      rw [last]
      exact (next plain).meet
    · intro plain trodden
      have shorter := list_length left
      have longer := path.join_name_length n
      exact below_told last (next plain) trodden
termination_by longestPath + 1 - path.bytes.length

end Hides

def share (fs : FileSystem) (w : TreeWalk) (ancestors : List Path) (failed : Bool)
    (b : Except WalkError Branch) : List (WalkOutcome × Option (Except String Digest)) :=
  if keeps w b && isFailed b == failed then tells fs w (branchVisits fs w ancestors b) else []

theorem arrange_told (branches : List (Except WalkError Branch)) :
    tells fs w ((arrange w branches).flatMap (branchVisits fs w ancestors)) =
      branches.flatMap (share fs w ancestors false) ++ branches.flatMap (share fs w ancestors true) := by
  rw [arrange_eq, List.flatMap_append, tells_append, tells_flatMap, tells_flatMap, List.filter_filter,
    List.filter_filter, flatMap_filter, flatMap_filter]
  congr 1
  · refine List.flatMap_congr fun b _ => ?_
    unfold share
    cases keeps w b <;> cases isFailed b <;> rfl
  · refine List.flatMap_congr fun b _ => ?_
    unfold share
    cases keeps w b <;> cases isFailed b <;> rfl

theorem branch_cases {b : Except WalkError Branch} (made : branch fs w ancestors path kind = b) :
    (∃ e, b = .error e ∧ e.path = some path) ∨
      ∃ own k, b = .ok ⟨own, k, if k = .directory then some path else none⟩ ∧
        (own = path ∧ (w.followLinks = true ∨ kind ≠ .symlink ∨ k = .symlink) ∨
          w.followLinks = true ∧ own = respelled path) := by
  subst made
  unfold branch
  split
  · rename_i link
    simp only [Bool.and_eq_true, decide_eq_true_eq] at link
    unfold followLink
    split
    · exact .inl ⟨_, rfl, rfl⟩
    · split
      · exact .inl ⟨_, rfl, rfl⟩
      · exact .inr ⟨_, _, rfl, .inr ⟨link.1, rfl⟩⟩
    · exact .inr ⟨_, _, rfl, .inr ⟨link.1, rfl⟩⟩
  · refine .inr ⟨_, _, rfl, .inl ⟨rfl, ?_⟩⟩
    by_cases same : kind = .symlink
    · exact .inr (.inr same)
    · exact .inr (.inl same)

theorem share_excluded (failed : Bool) (excluded : w.includes path = false)
    (spelling : w.includes (respelled path) = w.includes path) :
    share fs w ancestors failed (branch fs w ancestors path kind) = [] := by
  unfold share
  rcases branch_cases (rfl : branch fs w ancestors path kind = _) with ⟨e, made, own⟩ | ⟨own, k, made, same⟩
  · rw [made, branchVisits, tells_cons, tells_excluded ((heeds_path own).trans excluded)]
    exact ite_self _
  · have left : w.includes own = false := by
      rcases same with ⟨rfl, -⟩ | ⟨-, rfl⟩
      · exact excluded
      · exact spelling.trans excluded
    simp [made, keeps, left]

theorem branch_told (kinds : w.followLinks = true → fs.kind true path = gs.kind true path)
    (targets : w.followLinks = true → fs.target? path = gs.target? path) :
    branch fs w ancestors path kind = branch gs w ancestors path kind := by
  unfold branch
  split
  · rename_i link
    have follow : w.followLinks = true := (Bool.and_eq_true_iff.mp link).1
    unfold followLink
    rw [kinds follow, targets follow]
  · rfl

namespace Hides
variable (hides : Hides fs gs w)
include hides

theorem share_told (failed : Bool)
    (linked : w.followLinks = true → ∀ p, p = path ∨ p = respelled path → ∀ last,
      Meet (Twin fs gs (w.Excluded fs)) (fs.find last p) (gs.find last p))
    (meet : w.followLinks = true ∨ kind ≠ .symlink →
      Meet (Twin fs gs (w.Excluded fs)) (fs.find true path) (gs.find true path))
    (further : w.followLinks = true ∨ kind ≠ .symlink →
      tells fs w (belowParallel fs w ancestors path) = tells gs w (belowParallel gs w ancestors path)) :
    share fs w ancestors failed (branch fs w ancestors path kind) =
      share gs w ancestors failed (branch gs w ancestors path kind) := by
  rw [branch_told (fun follow => (linked follow path (.inl rfl) true).kind hides.alike)
    fun follow => (linked follow path (.inl rfl) false).target? hides.alike]
  unfold share
  rcases branch_cases (rfl : branch gs w ancestors path kind = _) with ⟨e, made, -⟩ | ⟨own, k, made, same⟩
  · rw [made, branchVisits, branchVisits, told_error]
  · have plain (other : k ≠ .symlink) : w.followLinks = true ∨ kind ≠ .symlink := by
      rcases same with ⟨-, follow | plain | link⟩ | ⟨follow, -⟩
      · exact .inl follow
      · exact .inr plain
      · exact absurd link other
      · exact .inl follow
    have read (file : k = .file) : hashFile fs own = hashFile gs own := by
      rcases same with ⟨rfl, -⟩ | ⟨follow, rfl⟩
      · exact (meet (plain (by simp [file]))).hashFile hides.alike
      · exact (linked follow _ (.inr rfl) true).hashFile hides.alike
    rw [made, branchVisits, branchVisits, told_cons (tells_ok read)]
    by_cases directory : k = .directory
    · simp only [directory, if_true]
      exact further (plain (by simp [directory]))
    · simp only [directory, if_false]
      rfl

variable (nonempty : w.root.bytes ≠ [])
include nonempty

theorem belowParallel_told (spelled : root.components = w.root.components) {names : List Name}
    {path : Path} (place : path = root.below names) {ancestors : List Path}
    (meets : Meets fs gs w root names) :
    tells fs w (belowParallel fs w ancestors path) = tells gs w (belowParallel gs w ancestors path) := by
  have listed := meets.meet.list hides.alike
    (fun n => w.includes (path.join n.path)) fun here n found directory kept =>
      hides.near nonempty spelled meets found directory (place ▸ kept)
  rw [← place] at listed
  obtain ⟨e, left, right⟩ | ⟨entries, others, left, right, same⟩ := listed.cases
  · rw [belowParallel_failed left, belowParallel_failed right]
    rfl
  · rw [belowParallel_listed left, belowParallel_listed right, arrange_told, arrange_told]
    unfold branches
    rw [List.flatMap_map, List.flatMap_map, List.flatMap_map, List.flatMap_map]
    have each (failed : Bool) :
        entries.flatMap (fun e => share fs w (path :: ancestors) failed
          (branch fs w (path :: ancestors) (path.join e.1.path) e.2)) =
        others.flatMap fun e => share gs w (path :: ancestors) failed
          (branch gs w (path :: ancestors) (path.join e.1.path) e.2) := by
      refine flatMap_silent same ?_ ?_
      · intro e outside
        have spelling : w.includes (respelled (path.join e.1.path)) = w.includes (path.join e.1.path) := by
          rw [place]
          exact includes_respelled nonempty spelled names e.1
        exact ⟨share_excluded failed outside spelling, share_excluded failed outside spelling⟩
      · rintro ⟨n, kind⟩ member included
        obtain ⟨here, -, found, -, -⟩ := list_ok left
        obtain ⟨node, holds, rfl⟩ := (list_mem found left).mp member
        have next (plain : w.followLinks = true ∨ node.kind ≠ .symlink) :
            Meets fs gs w root (names ++ [n]) := by
          rw [place] at found included
          exact hides.child nonempty spelled meets found holds plain included
        have last : path.join n.path = root.below (names ++ [n]) := by rw [place, Path.below_append]; rfl
        have named : (w.root.below (names ++ [n])).components = path.components ++ [.normal n.bytes] := by
          rw [Path.components_below, place, Path.components_below, spelled]
          simp
        apply hides.share_told failed
        · intro follow p either
          refine hides.followed follow (next (.inl follow)).passes ?_
          rcases either with rfl | rfl
          · rw [named, Path.components_join]
          · rw [named, components_respelled]
        · intro plain
          rw [last]
          exact (next plain).meet
        · intro plain
          have shorter := list_length left
          have longer := path.join_name_length n
          exact belowParallel_told spelled last (next plain)
    rw [each, each]
termination_by longestPath + 1 - path.bytes.length

end Hides

theorem respelled_named {last : Bytes} (named : path.fileName? = some last) (plain : 0 ∉ path.bytes) :
    (respelled (respelled path)).components = path.components := by
  obtain ⟨n, front, rfl, ends⟩ := Path.fileName?_name named plain
  obtain ⟨q, found, same⟩ := Path.parent?_split ends
  rw [n.bodyComponents_eq] at same
  have own : respelled path = q.join n.path := by rw [respelled, found, named]; rfl
  rw [own, components_respelled, same]

theorem rootBranch_spelled {b : Branch} (made : rootBranch fs w kind = .ok b)
    (once : kind ≠ .directory → (respelled w.root).components = w.root.components)
    (twice : kind ≠ .directory → (respelled (respelled w.root)).components = w.root.components) :
    (b.kind = .file → b.path.components = w.root.components) ∧
      ∀ q, b.readAt = some q → q.components = w.root.components := by
  have plain (path : Path) (kind : Kind) (same : path.components = w.root.components)
      (again : kind ≠ .directory → (respelled path).components = w.root.components) :
      ((branchAt path kind).kind = .file → (branchAt path kind).path.components = w.root.components) ∧
        ∀ q, (branchAt path kind).readAt = some q → q.components = w.root.components := by
    refine ⟨fun file => again (by rintro rfl; cases file), fun q read => ?_⟩
    unfold branchAt at read
    dsimp only at read
    split at read
    · cases read; exact same
    · cases read
  unfold rootBranch at made
  dsimp only at made
  split at made
  · rename_i link
    have once := once (by simp [link])
    have twice := twice (by simp [link])
    split at made
    · unfold followLink at made
      split at made
      · cases made
      · split at made
        · cases made
        · cases made; exact plain _ _ once fun _ => twice
      · cases made; exact plain _ _ once fun _ => twice
    · split at made
      · cases made
      · cases made
        refine ⟨fun file => once, fun q read => ?_⟩
        cases read
        exact once
      · cases made; exact plain _ _ rfl fun _ => once
  · cases made; exact plain _ _ rfl once

namespace Hides
variable (hides : Hides fs gs w)
include hides

theorem serial_told : tells fs w (serial fs w) = tells gs w (serial gs w) := by
  have start : Meets fs gs w w.root [] := hides.start rfl
  have resolved : fs.kind true w.root = gs.kind true w.root := start.meet.kind hides.alike
  have single (kind : Kind) : tells? fs w (.ok (w.root, kind)) = tells? gs w (.ok (w.root, kind)) :=
    tells_ok fun _ => start.meet.hashFile hides.alike
  unfold serial
  rw [(find_twin hides.alike excluded_part hides.root false).kind hides.alike]
  cases first : gs.kind false w.root with
  | error e => exact told_error _
  | ok kind =>
    dsimp only
    have inner : tells fs w (below fs w [w.root] w.root) = tells gs w (below gs w [w.root] w.root) :=
      hides.below_told (nonempty_of_kind first) rfl start (Trodden.cons (List.forall_mem_nil _) start.meet)
    rw [followed_told resolved (List.forall_mem_nil _)]
    split
    · exact told_error _
    · unfold serialRoot
      rw [resolved]
      split
      · exact told_cons (single _) inner
      · split
        · split
          · exact told_error _
          · exact told_cons (single _) inner
          · exact told_cons (single _) rfl
        · exact told_cons (single _) rfl

theorem parallel_told : tells fs w (parallelVisits fs w) = tells gs w (parallelVisits gs w) := by
  have both := find_twin hides.alike excluded_part hides.root false
  have kinds := both.kind hides.alike
  cases first : gs.kind false w.root with
  | error e =>
    unfold parallelVisits
    rw [kinds, first]
    exact told_error _
  | ok kind =>
    rw [first] at kinds
    obtain ⟨here, found, own⟩ := kind_inv kinds
    obtain ⟨nonempty, plain, -⟩ := find_ok found
    have named (other : kind ≠ .directory) : ∃ last, w.root.fileName? = some last :=
      named_of_find found (own ▸ other)
    have once (other : kind ≠ .directory) : (respelled w.root).components = w.root.components := by
      obtain ⟨last, named⟩ := named other
      exact components_respelled_name named plain
    have twice (other : kind ≠ .directory) :
        (respelled (respelled w.root)).components = w.root.components := by
      obtain ⟨last, named⟩ := named other
      exact respelled_named named plain
    have same : rootBranch fs w kind = rootBranch gs w kind := by
      by_cases link : kind = .symlink
      · have met := find_twin hides.alike excluded_part (hides.root.respelled (once (by simp [link])))
        unfold rootBranch followLink
        simp only [branchAt]
        rw [(met true).kind hides.alike, (met false).target? hides.alike]
      · unfold rootBranch
        rw [if_neg link, if_neg link]
    rw [parallel_found kinds, parallel_found first, same]
    unfold kept
    split
    · cases made : rootBranch gs w kind with
      | error e => exact told_error _
      | ok b =>
        obtain ⟨file, read⟩ := rootBranch_spelled made once twice
        rw [branchVisits, branchVisits]
        refine told_cons (tells_ok fun isFile => ?_) ?_
        · exact (hides.start (file isFile)).meet.hashFile hides.alike
        · split
          · rename_i q isRead
            exact hides.belowParallel_told nonempty (read q isRead) rfl (hides.start (read q isRead))
          · rfl
    · rfl

-- What a walk leaves out cannot change what it tells.
theorem visits_told : tells fs w (w.visits fs) = tells gs w (w.visits gs) := by
  unfold visits
  split
  · exact hides.parallel_told
  · exact hides.serial_told

end Hides

end TreeWalk
end TreeDigest
