import TreeDigest.Proofs.Exclusion.Names
import TreeDigest.Proofs.FileSystem.Lookup
import TreeDigest.Proofs.Path.Strip
import TreeDigest.Proofs.Walk.Order
namespace TreeDigest

-- What is found under these names: through links where links are followed, and otherwise only through
-- the directories themselves.
inductive Leads (fs : FileSystem) (root : Path) (names : List Name) (node : Node) : Bool → Prop where
  | followed {q : Place} (found : fs.find true (root.below names) = .ok q) (holds : q.node = node) :
      Leads fs root names node true
  | plain {here q : Place} (found : fs.find true root = .ok here)
      (descended : here.descend? names = some q) (holds : q.node = node) :
      Leads fs root names node false

theorem Leads.unique {fs : FileSystem} {root : Path} {names : List Name} {node other : Node}
    {follow : Bool} (leads : Leads fs root names node follow) (also : Leads fs root names other follow) :
    node = other := by
  cases leads with
  | followed found own =>
    cases also with
    | followed found' own' =>
      cases found.symm.trans found'
      exact own.symm.trans own'
  | plain found descended own =>
    cases also with
    | plain found' descended' own' =>
      cases found.symm.trans found'
      cases descended.symm.trans descended'
      exact own.symm.trans own'

namespace TreeWalk
variable {fs : FileSystem} {w : TreeWalk} {trail : List Path} {path q : Path} {n : Name}
  {names : List Name} {kind k : Kind} {here there : Place} {node : Node}

theorem includes_root (nonempty : w.root.bytes ≠ []) (same : path.components = w.root.components) :
    w.includes path = true := by
  unfold TreeWalk.includes Exclusion.includes
  rw [Path.stripPrefix?_same (Path.components_ne_nil nonempty) same]
  rfl

theorem includes_entry (n : Name) : w.includes (w.root.join n.path) =
    !(Exclusion.rejectsComponent w.exclude (.normal n.bytes) ||
      Exclusion.rejectsText w.exclude n.path.slashText) :=
  Exclusion.includes_name ..

def Passes (w : TreeWalk) (path : Path) (names : List Name) : Prop :=
  ∀ front, front ≠ [] → front <+: names → w.includes (path.below front) = true

theorem passes_nil : w.Passes path [] :=
  fun _ proper begins => absurd (List.prefix_nil.mp begins) proper

theorem passes_cons : w.Passes path (n :: names) ↔
    w.includes (path.join n.path) = true ∧ w.Passes (path.join n.path) names := by
  constructor
  · intro passes
    refine ⟨passes [n] nofun ⟨names, rfl⟩, fun front proper begins => ?_⟩
    exact passes (n :: front) nofun (List.cons_prefix_cons.mpr ⟨rfl, begins⟩)
  · rintro ⟨first, later⟩ front proper begins
    match front with
    | [] => exact absurd rfl proper
    | [m] =>
      obtain ⟨rfl, -⟩ := List.cons_prefix_cons.mp begins
      exact first
    | m :: second :: front =>
      obtain ⟨rfl, inner⟩ := List.cons_prefix_cons.mp begins
      exact later (second :: front) nofun inner

theorem followed_inv (went : followed fs w trail path kind = .ok k) :
    k = kind ∧ (w.followLinks = false ∨ kind ≠ .symlink) ∨
      w.followLinks = true ∧ fs.kind true path = .ok k := by
  unfold followed at went
  split at went
  · rename_i link
    simp only [Bool.and_eq_true, decide_eq_true_eq] at link
    right
    split at went
    · cases went
    · rename_i isDirectory
      split at went
      · cases went
      · cases went; exact ⟨link.1, isDirectory⟩
    · rename_i found; cases went; exact ⟨link.1, found⟩
  · rename_i plain
    cases went
    left
    refine ⟨rfl, ?_⟩
    by_cases same : kind = .symlink
    · left; simpa [same] using plain
    · exact .inr same

theorem leads_cons (found : fs.find true path = .ok here) (holds : here.Holds n node)
    (plain : w.followLinks = false → fs.find true (path.join n.path) = .ok (.child here n node))
    {below : Node} (leads : Leads fs (path.join n.path) names below w.followLinks) :
    Leads fs path (n :: names) below w.followLinks := by
  cases follow : w.followLinks with
  | true =>
    rw [follow] at leads
    cases leads with
    | followed reached own => exact .followed reached own
  | false =>
    rw [follow] at leads
    cases leads with
    | plain reached descended own =>
      cases (plain follow).symm.trans reached
      exact .plain found (Place.descend?_cons.mpr ⟨node, holds, descended⟩) own

theorem followed_found (found : fs.find true path = .ok here)
    {entries : List (Name × Kind)} (listed : fs.list path = .ok entries) (member : (n, kind) ∈ entries)
    (went : followed fs w trail (path.join n.path) kind = .ok k) (seen : k ≠ .symlink)
    (also : fs.find true (path.join n.path) = .ok there) :
    ∃ node, here.Holds n node ∧ there.node.kind = k ∧
      (w.followLinks = false → there = .child here n node) := by
  obtain ⟨node, holds, own⟩ := (FileSystem.list_mem found listed).mp member
  obtain ⟨other, same, child⟩ := FileSystem.find_child found also
  cases holds.unique same
  refine ⟨node, holds, ?_⟩
  rcases followed_inv went with ⟨rfl, -⟩ | ⟨follow, resolved⟩
  · have arrived := child (.inr (by rwa [own]))
    exact ⟨by rw [arrived]; exact own, fun _ => arrived⟩
  · rw [FileSystem.kind_ok also] at resolved
    exact ⟨Except.ok.inj resolved, fun unfollowed => by simp [unfollowed] at follow⟩

theorem files_cons {visits : List Visit} :
    q ∈ files (.ok (path, kind) :: visits) ↔ q = path ∧ kind = .file ∨ q ∈ files visits := by
  cases kind <;> simp [files, file?]

theorem listed_of_file (visited : q ∈ files (below fs w trail path)) :
    ∃ entries, fs.list path = .ok entries := by
  cases listed : fs.list path with
  | error e =>
    rw [below_failed listed] at visited
    cases visited
  | ok entries => exact ⟨entries, rfl⟩

-- A file that the walk comes by, and that can be looked up, is found under names that all pass.
theorem below_leads {trail : List Path} {path : Path} {here r : Place}
    (found : fs.find true path = .ok here) (visited : q ∈ files (below fs w trail path))
    (reached : fs.find true q = .ok r) :
    ∃ names, names ≠ [] ∧ q = path.below names ∧ w.Passes path names ∧
      Leads fs path names r.node w.followLinks ∧ r.node.kind = .file := by
  obtain ⟨entries, listed⟩ := listed_of_file visited
  rw [below_listed listed, files, List.filterMap_flatMap, List.mem_flatMap] at visited
  obtain ⟨⟨n, kind⟩, member, visited⟩ := visited
  change q ∈ files (entryVisits fs w trail (path.join n.path) kind) at visited
  unfold entryVisits at visited
  split at visited
  · cases visited
  · rename_i k went
    split at visited
    · cases visited
    · rename_i included
      replace included : w.includes (path.join n.path) = true := by simpa using included
      rcases files_cons.mp visited with ⟨rfl, rfl⟩ | inner
      · obtain ⟨node, holds, isFile, child⟩ :=
          followed_found found listed member went nofun reached
        refine ⟨[n], nofun, rfl, passes_cons.mpr ⟨included, passes_nil⟩, ?_, isFile⟩
        refine leads_cons found holds (fun plain => child plain ▸ reached) ?_
        cases w.followLinks with
        | true => exact .followed reached rfl
        | false => exact .plain reached rfl rfl
      · split at inner
        · rename_i isDirectory
          obtain ⟨others, also⟩ := listed_of_file inner
          obtain ⟨there, -, found', -, -⟩ := FileSystem.list_ok also
          obtain ⟨node, holds, -, child⟩ :=
            followed_found found listed member went (by simp [isDirectory]) found'
          have shorter := FileSystem.list_length listed
          have longer := path.join_name_length n
          obtain ⟨names, -, rfl, passes, leads, isFile⟩ := below_leads found' inner reached
          exact ⟨n :: names, nofun, rfl, passes_cons.mpr ⟨included, passes⟩,
            leads_cons found holds (fun plain => child plain ▸ found') leads, isFile⟩
        · cases inner
termination_by FileSystem.longestPath + 1 - path.bytes.length

theorem mem_below {entries : List (Name × Kind)} (listed : fs.list path = .ok entries)
    (member : (n, kind) ∈ entries) {visit : Visit}
    (visited : visit ∈ entryVisits fs w trail (path.join n.path) kind) : visit ∈ below fs w trail path := by
  rw [below_listed listed]
  exact List.mem_flatMap.mpr ⟨_, member, visited⟩

theorem followed_plain (plain : w.followLinks = false ∨ kind ≠ .symlink) :
    followed fs w trail path kind = .ok kind := by
  unfold followed
  rcases plain with plain | plain <;> simp [plain]

theorem followed_link (follow : w.followLinks = true) (found : fs.find true path = .ok there) :
    followed fs w trail path .symlink = .ok there.node.kind ∨
      ∃ ancestor, followed fs w trail path .symlink = .error (.loop path ancestor) := by
  unfold followed
  simp only [follow, Bool.true_and, decide_true, if_true, FileSystem.kind_ok found]
  cases there.node.kind with
  | directory =>
    cases trail.find? (fs.same · path) with
    | none => exact .inl rfl
    | some ancestor => exact .inr ⟨ancestor, rfl⟩
  | file | symlink | special => exact .inl rfl

theorem leads_next (found : fs.find true path = .ok here)
    {entries : List (Name × Kind)} (listed : fs.list path = .ok entries)
    (clean : ∀ e, .error e ∈ below fs w trail path → w.heeds e = false)
    (included : w.includes (path.join n.path) = true)
    (leads : Leads fs path (n :: names) node w.followLinks) :
    ∃ kind k, (n, kind) ∈ entries ∧ followed fs w trail (path.join n.path) kind = .ok k ∧
      (names = [] → k = node.kind) ∧
      (names ≠ [] → k = .directory ∧ ∀ there, fs.find true (path.join n.path) = .ok there →
        Leads fs (path.join n.path) names node w.followLinks) := by
  cases follow : w.followLinks with
  | true =>
    rw [follow] at leads
    cases leads with
    | @followed q reached own =>
      obtain ⟨there, also⟩ := FileSystem.find_below (path.join_nonempty n) reached
      obtain ⟨entry, holds, child⟩ := FileSystem.find_child found also
      have member := (FileSystem.list_mem found listed).mpr ⟨entry, holds, rfl⟩
      have went : followed fs w trail (path.join n.path) entry.kind = .ok there.node.kind := by
        by_cases link : entry.kind = .symlink
        · rw [link]
          apply (followed_link follow also).resolve_right
          rintro ⟨ancestor, loop⟩
          have skipped := clean _ (mem_below listed member (by
            rw [link, entryVisits, loop]
            exact List.mem_singleton_self _))
          simp [included] at skipped
        · rw [followed_plain (.inr link), child (.inr link)]
          rfl
      refine ⟨_, _, member, went, ?_, ?_⟩
      · rintro rfl
        cases also.symm.trans reached
        rw [own]
      · intro more
        obtain ⟨m, rest, rfl⟩ := List.exists_cons_of_ne_nil more
        obtain ⟨beyond, further⟩ := FileSystem.find_below ((path.join n.path).join_nonempty m) reached
        obtain ⟨_, holds', -⟩ := FileSystem.find_child also further
        obtain ⟨nodes, isDirectory⟩ := holds'.directory
        exact ⟨by rw [isDirectory]; rfl, fun _ _ => .followed reached own⟩
  | false =>
    rw [follow] at leads
    cases leads with
    | @plain _ q reached descended own =>
      cases found.symm.trans reached
      obtain ⟨entry, holds, descended⟩ := Place.descend?_cons.mp descended
      have member := (FileSystem.list_mem found listed).mpr ⟨entry, holds, rfl⟩
      refine ⟨_, _, member, followed_plain (.inl follow), ?_, ?_⟩
      · rintro rfl
        cases descended
        rw [← own]
        rfl
      · intro more
        obtain ⟨m, rest, rfl⟩ := List.exists_cons_of_ne_nil more
        obtain ⟨inner, holds', -⟩ := Place.descend?_cons.mp descended
        obtain ⟨nodes, isDirectory⟩ := holds'.directory
        have isDirectory : entry.kind = .directory := by
          change entry = _ at isDirectory
          rw [isDirectory]
          rfl
        refine ⟨isDirectory, fun there also => ?_⟩
        obtain ⟨other, same, child⟩ := FileSystem.find_child found also
        cases holds.unique same
        cases child (.inr (by simp [isDirectory]))
        exact .plain also descended own

theorem file_visited (file : node.kind = .file) :
    ∀ {names : List Name} {trail : List Path} {path : Path} {here : Place}
      {entries : List (Name × Kind)}, names ≠ [] → fs.find true path = .ok here →
      fs.list path = .ok entries →
      (∀ e, .error e ∈ below fs w trail path → w.heeds e = false) →
      w.Passes path names → Leads fs path names node w.followLinks →
      path.below names ∈ files (below fs w trail path) := by
  intro names
  induction names with
  | nil => exact fun proper => absurd rfl proper
  | cons n rest ih =>
    intro trail path here entries _ found listed clean passes leads
    obtain ⟨included, passes⟩ := passes_cons.mp passes
    obtain ⟨kind, k, member, went, last, further⟩ :=
      leads_next found listed clean included leads
    have visits : entryVisits fs w trail (path.join n.path) kind =
        .ok (path.join n.path, k) :: if k = .directory then
          below fs w (path.join n.path :: trail) (path.join n.path) else [] := by
      simp [entryVisits, went, included]
    have seen {q : Path} (inner : q ∈ files (entryVisits fs w trail (path.join n.path) kind)) :
        q ∈ files (below fs w trail path) := by
      obtain ⟨visit, present, own⟩ := List.mem_filterMap.mp inner
      exact List.mem_filterMap.mpr ⟨visit, mem_below listed member present, own⟩
    apply seen
    rw [visits, files_cons]
    by_cases more : rest = []
    · subst more
      exact .inl ⟨rfl, (last rfl).trans file⟩
    · obtain ⟨rfl, leads⟩ := further more
      have inside {visit : Visit}
          (inner : visit ∈ below fs w (path.join n.path :: trail) (path.join n.path)) :
          visit ∈ below fs w trail path :=
        mem_below listed member (by rw [visits]; simp [inner])
      obtain ⟨others, also⟩ : ∃ others, fs.list (path.join n.path) = .ok others := by
        cases also : fs.list (path.join n.path) with
        | ok others => exact ⟨others, rfl⟩
        | error e =>
          have skipped := clean _ (inside (by rw [below_failed also]; exact List.mem_singleton_self _))
          simp [included] at skipped
      obtain ⟨there, -, found', -, -⟩ := FileSystem.list_ok also
      refine .inr ?_
      simpa using ih more found' also (fun e inner => clean e (inside inner)) passes (leads there found')

theorem serial_plain (first : fs.kind false w.root = .ok kind) (other : kind ≠ .symlink) :
    serial fs w = .ok (w.root, kind) :: if kind = .directory then below fs w [w.root] w.root else [] := by
  unfold serial followed
  by_cases directory : kind = .directory <;> simp [first, other, serialRoot, directory]

theorem serial_directory (isDirectory : fs.isDirectory w.root = true) :
    ∃ here kind, fs.find true w.root = .ok here ∧ here.node.kind = .directory ∧ kind ≠ .file ∧
      serial fs w = .ok (w.root, kind) :: below fs w [w.root] w.root := by
  obtain ⟨here, found, directory⟩ : ∃ here, fs.find true w.root = .ok here ∧
      here.node.kind = .directory := by
    unfold FileSystem.isDirectory at isDirectory
    split at isDirectory
    · rename_i own
      exact FileSystem.kind_inv own
    · cases isDirectory
  obtain ⟨r, unfollowed, same⟩ := FileSystem.find_unfollowed found
  have first := FileSystem.kind_ok unfollowed
  have resolved : fs.kind true w.root = .ok .directory := by rw [FileSystem.kind_ok found, directory]
  refine ⟨here, if w.followLinks then .directory else r.node.kind, found, directory, ?_⟩
  unfold serial
  rw [first]
  by_cases link : r.node.kind = .symlink
  · cases follow : w.followLinks with
    | true => simp [link, followed, follow, resolved, serialRoot]
    | false => simp [link, followed, follow, resolved, serialRoot]
  · rw [same link, directory]
    cases follow : w.followLinks <;> simp [followed, serialRoot]

theorem serial_leads (isDirectory : fs.isDirectory w.root = true)
    {r : Place} (visited : q ∈ files (serial fs w)) (reached : fs.find true q = .ok r) :
    ∃ names, names ≠ [] ∧ q = w.root.below names ∧ w.Passes w.root names ∧
      Leads fs w.root names r.node w.followLinks ∧ r.node.kind = .file := by
  obtain ⟨here, kind, found, -, other, visits⟩ := serial_directory isDirectory
  rw [visits, files_cons] at visited
  exact below_leads found (visited.resolve_left fun own => other own.2) reached

theorem serial_visits (isDirectory : fs.isDirectory w.root = true)
    (clean : ∀ e, .error e ∈ serial fs w → w.heeds e = false) (proper : names ≠ [])
    (passes : w.Passes w.root names) (leads : Leads fs w.root names node w.followLinks)
    (file : node.kind = .file) : w.root.below names ∈ files (serial fs w) := by
  obtain ⟨here, kind, found, directory, -, visits⟩ := serial_directory isDirectory
  obtain ⟨entries, listed⟩ := FileSystem.list_directory found directory
  rw [visits] at clean ⊢
  refine files_cons.mpr (.inr ?_)
  exact file_visited file proper found listed
    (fun e visited => clean e (List.mem_cons_of_mem _ visited)) passes leads

end TreeWalk
end TreeDigest
