import TreeDigest.Proofs.Digest.Lossless
import TreeDigest.Proofs.Digest.Order
namespace TreeDigest

namespace Digesting

theorem hashFile_congr {fs : FileSystem} {p q : Path} {here : Place} {d e : Digest}
    (found : fs.find true p = .ok here) (also : fs.find true q = .ok here) (hashed : hashFile fs p = .ok d)
    (other : hashFile fs q = .ok e) : d = e := by
  rw [hashFile, found] at hashed
  rw [hashFile, also] at other
  dsimp only at hashed other
  split at hashed <;> rename_i own <;> rw [own] at other
  · exact Except.ok.inj (hashed.symm.trans other)
  · cases hashed
  · exact Except.ok.inj (hashed.symm.trans other)
  · exact Except.ok.inj (hashed.symm.trans other)

end Digesting

namespace TreeWalk

variable {fs : FileSystem} {v w : TreeWalk} {p q : Path} {here : Place} {kind : Kind} {n : Name}
  {trail : List Path} {ours theirs : List Visit} {entries : List (List Name × Kind)}

-- What walks from two paths have come by: entries of the same names below either, and files that read the
-- same wherever they can be read.
structure Accord (fs : FileSystem) (p q : Path) (entries : List (List Name × Kind))
    (ours theirs : List Visit) : Prop where
  ours : ours = entries.map fun e => .ok (p.below e.1, e.2)
  theirs : theirs = entries.map fun e => .ok (q.below e.1, e.2)
  proper : ∀ e ∈ entries, e.1 ≠ []
  reads : ∀ e ∈ entries, e.2 = .file → ∀ c d, hashFile fs (p.below e.1) = .ok c →
    hashFile fs (q.below e.1) = .ok d → c = d

theorem Accord.nil : Accord fs p q [] [] [] :=
  ⟨rfl, rfl, List.forall_mem_nil _, List.forall_mem_nil _⟩

theorem Accord.append {more : List (List Name × Kind)} {ours' theirs' : List Visit}
    (one : Accord fs p q entries ours theirs) (other : Accord fs p q more ours' theirs') :
    Accord fs p q (entries ++ more) (ours ++ ours') (theirs ++ theirs') where
  ours := by rw [one.ours, other.ours, List.map_append]
  theirs := by rw [one.theirs, other.theirs, List.map_append]
  proper := List.forall_mem_append.mpr ⟨one.proper, other.proper⟩
  reads := List.forall_mem_append.mpr ⟨one.reads, other.reads⟩

theorem accord_flatMap {listed : List γ} {f g : γ → List Visit}
    (each : ∀ e ∈ listed, ∃ entries, Accord fs p q entries (f e) (g e)) :
    ∃ entries, Accord fs p q entries (listed.flatMap f) (listed.flatMap g) := by
  induction listed with
  | nil => exact ⟨[], .nil⟩
  | cons e rest ih =>
    obtain ⟨first, one⟩ := each e (List.mem_cons_self ..)
    obtain ⟨more, other⟩ := ih fun e member => each e (List.mem_cons_of_mem _ member)
    exact ⟨_, one.append other⟩

theorem Accord.entry (reads : kind = .file → ∀ c d, hashFile fs (p.join n.path) = .ok c →
      hashFile fs (q.join n.path) = .ok d → c = d)
    (inner : Accord fs (p.join n.path) (q.join n.path) entries ours theirs) :
    Accord fs p q (([n], kind) :: entries.map fun e => (n :: e.1, e.2))
      (.ok (p.join n.path, kind) :: ours) (.ok (q.join n.path, kind) :: theirs) where
  ours := by
    rw [inner.ours, List.map_cons, List.map_map]
    rfl
  theirs := by
    rw [inner.theirs, List.map_cons, List.map_map]
    rfl
  proper := List.forall_mem_cons.mpr
    ⟨List.cons_ne_nil n [], List.forall_mem_map.mpr fun e _ => List.cons_ne_nil n e.1⟩
  reads := List.forall_mem_cons.mpr ⟨reads, List.forall_mem_map.mpr inner.reads⟩

theorem entry_found (unfollowed : w.followLinks = false)
    (found : fs.find true p = .ok here) {listed : List (Name × Kind)} (own : fs.list p = .ok listed)
    (member : (n, kind) ∈ listed) (seen : kind ≠ .symlink) {there : Place}
    (reached : fs.find true (p.join n.path) = .ok there) :
    ∃ node, here.Holds n node ∧ there = .child here n node := by
  have went : followed fs w [] (p.join n.path) kind = .ok kind := followed_plain (.inl unfollowed)
  obtain ⟨node, holds, -, child⟩ := followed_found found own member went seen reached
  exact ⟨node, holds, child unfollowed⟩

section Entries
variable (unfollowed : w.followLinks = false)
  (found : fs.find true p = .ok here) (also : fs.find true q = .ok here)
  {listed : List (Name × Kind)} (own : fs.list p = .ok listed) (member : (n, kind) ∈ listed)
  (seen : kind ≠ .symlink)
include unfollowed found also own member seen

theorem entry_congr {there other : Place} (reached : fs.find true (p.join n.path) = .ok there)
    (reached' : fs.find true (q.join n.path) = .ok other) : there = other := by
  obtain ⟨node, holds, rfl⟩ := entry_found unfollowed found own member seen reached
  obtain ⟨node', holds', rfl⟩ := entry_found unfollowed also
    ((FileSystem.list_congr found also).symm.trans own) member seen reached'
  rw [holds.unique holds']

end Entries

theorem listed_of_clean (included : w.includes p = true)
    (clean : ∀ e, .error e ∈ below fs w trail p → w.heeds e = false) :
    ∃ listed, fs.list p = .ok listed := by
  cases own : fs.list p with
  | ok listed => exact ⟨listed, rfl⟩
  | error e =>
    have skipped := clean (.system p e) (by rw [below_failed own]; exact List.mem_singleton_self _)
    exact absurd included (Bool.eq_false_iff.mp skipped)

theorem entryVisits_plain (unfollowed : w.followLinks = false) (included : w.includes p = true) :
    entryVisits fs w trail p kind =
      .ok (p, kind) :: if kind = .directory then below fs w (p :: trail) p else [] := by
  rw [entryVisits, followed_plain (.inl unfollowed), included]
  rfl

theorem entryVisits_excluded_plain (unfollowed : w.followLinks = false) (excluded : w.includes p = false) :
    entryVisits fs w trail p kind = [] := by
  rw [entryVisits, followed_plain (.inl unfollowed), excluded]
  rfl

theorem clean_child (unfollowed : w.followLinks = false) {listed : List (Name × Kind)}
    (own : fs.list p = .ok listed) (member : (n, .directory) ∈ listed)
    (included : w.includes (p.join n.path) = true)
    (clean : ∀ e, .error e ∈ below fs w trail p → w.heeds e = false) :
    (∃ there, fs.find true (p.join n.path) = .ok there) ∧
      ∀ e, .error e ∈ below fs w (p.join n.path :: trail) (p.join n.path) → w.heeds e = false := by
  have inner : ∀ e, .error e ∈ below fs w (p.join n.path :: trail) (p.join n.path) →
      w.heeds e = false := by
    intro e inside
    refine clean e (mem_below own member ?_)
    rw [entryVisits_plain unfollowed included]
    exact List.mem_cons_of_mem _ inside
  obtain ⟨more, further⟩ := listed_of_clean included inner
  obtain ⟨there, -, reached, -⟩ := FileSystem.list_ok further
  exact ⟨⟨there, reached⟩, inner⟩

theorem below_accords (plain : v.followLinks = false)
    (plain' : w.followLinks = false) {trail trail' : List Path} {p q : Path} {here : Place}
    (found : fs.find true p = .ok here) (also : fs.find true q = .ok here)
    (agree : ∀ names, v.includes (p.below names) = w.includes (q.below names))
    (included : v.includes p = true)
    (clean : ∀ e, .error e ∈ below fs v trail p → v.heeds e = false)
    (clean' : ∀ e, .error e ∈ below fs w trail' q → w.heeds e = false) :
    ∃ entries, Accord fs p q entries (below fs v trail p) (below fs w trail' q) := by
  obtain ⟨listed, own⟩ := listed_of_clean included clean
  have own' : fs.list q = .ok listed := (FileSystem.list_congr found also).symm.trans own
  rw [below_listed own, below_listed own']
  refine accord_flatMap fun ⟨n, kind⟩ member => ?_
  dsimp only
  have same : v.includes (p.join n.path) = w.includes (q.join n.path) := agree [n]
  cases child : v.includes (p.join n.path) with
  | false =>
    rw [entryVisits_excluded_plain plain child, entryVisits_excluded_plain plain' (same.symm.trans child)]
    exact ⟨[], .nil⟩
  | true =>
    have child' : w.includes (q.join n.path) = true := same.symm.trans child
    rw [entryVisits_plain plain child, entryVisits_plain plain' child']
    have reads : kind = .file → ∀ c d, hashFile fs (p.join n.path) = .ok c →
        hashFile fs (q.join n.path) = .ok d → c = d := by
      rintro rfl c d hashed hashed'
      obtain ⟨there, reached, -⟩ := Digesting.hashFile_ok hashed
      obtain ⟨other, reached', -⟩ := Digesting.hashFile_ok hashed'
      cases entry_congr plain found also own member nofun reached reached'
      exact Digesting.hashFile_congr reached reached' hashed hashed'
    by_cases directory : kind = .directory
    · subst directory
      rw [if_pos rfl, if_pos rfl]
      obtain ⟨⟨there, reached⟩, inner⟩ := clean_child plain own member child clean
      obtain ⟨⟨other, reached'⟩, inner'⟩ := clean_child plain' own' member child' clean'
      cases entry_congr plain found also own member nofun reached reached'
      have shorter := FileSystem.list_length own
      have longer := p.join_name_length n
      obtain ⟨entries, further⟩ := below_accords plain plain' reached reached'
        (fun names => agree (n :: names)) child inner inner'
      exact ⟨_, .entry reads further⟩
    · rw [if_neg directory, if_neg directory]
      exact ⟨_, .entry reads .nil⟩
termination_by FileSystem.longestPath + 1 - p.bytes.length

-- What walks of one directory come by, with its root in two spellings. Only the root may be a link.
structure Matched (fs : FileSystem) (v w : TreeWalk) (entries : List (List Name × Kind)) : Prop where
  ours : ∃ kind, kind ≠ .file ∧
    serial fs v = .ok (v.root, kind) :: entries.map fun e => .ok (v.root.below e.1, e.2)
  theirs : ∃ kind, kind ≠ .file ∧
    serial fs w = .ok (w.root, kind) :: entries.map fun e => .ok (w.root.below e.1, e.2)
  proper : ∀ e ∈ entries, e.1 ≠ []
  reads : ∀ e ∈ entries, e.2 = .file → ∀ c d, hashFile fs (v.root.below e.1) = .ok c →
    hashFile fs (w.root.below e.1) = .ok d → c = d

theorem serial_matched (same : fs.same v.root w.root = true)
    (isDirectory : fs.isDirectory v.root = true) (plain : v.followLinks = false)
    (plain' : w.followLinks = false)
    (agree : ∀ names, v.includes (v.root.below names) = w.includes (w.root.below names))
    (clean : ∀ e, .error e ∈ serial fs v → v.heeds e = false)
    (clean' : ∀ e, .error e ∈ serial fs w → w.heeds e = false) :
    ∃ entries, Matched fs v w entries := by
  obtain ⟨here, found, also⟩ := FileSystem.same_ok same
  have isDirectory' : fs.isDirectory w.root = true := by
    unfold FileSystem.isDirectory at isDirectory ⊢
    rwa [FileSystem.kind_ok also, ← FileSystem.kind_ok found]
  obtain ⟨_, kind, -, -, other, visits⟩ := serial_directory isDirectory
  obtain ⟨_, kind', -, -, other', visits'⟩ := serial_directory isDirectory'
  rw [visits] at clean
  rw [visits'] at clean'
  obtain ⟨entries, accord⟩ := below_accords plain plain' found also agree
    (includes_root (FileSystem.find_ok found).1 rfl) (fun e inner => clean e (List.mem_cons_of_mem _ inner))
    fun e inner => clean' e (List.mem_cons_of_mem _ inner)
  exact ⟨entries, ⟨kind, other, accord.ours ▸ visits⟩, ⟨kind', other', accord.theirs ▸ visits'⟩,
    accord.proper, accord.reads⟩

def fileNames (w : TreeWalk) (entries : List (List Name × Kind)) : List (List Name) :=
  entries.filterMap fun e => if e.2 = .file ∧ w.includes (w.root.below e.1) = true then some e.1 else none

theorem mem_of_fileNames {names : List Name} (member : names ∈ w.fileNames entries) :
    (names, .file) ∈ entries := by
  obtain ⟨⟨own, kind⟩, present, kept⟩ := List.mem_filterMap.mp member
  split at kept
  · rename_i file
    cases kept
    exact file.1 ▸ present
  · cases kept

theorem fileNames_congr (agree : ∀ names, v.includes (v.root.below names) = w.includes (w.root.below names)) :
    v.fileNames entries = w.fileNames entries := by
  simp only [fileNames, agree]

theorem yielded_names (inTurn : w.parallel = false) (other : kind ≠ .file)
    (visits : serial fs w = .ok (w.root, kind) :: entries.map fun e => .ok (w.root.below e.1, e.2)) :
    w.yielded fs = (w.fileNames entries).map w.root.below := by
  have first : (w.outcome (.ok (w.root, kind))).file? = none := by
    cases kind with
    | file => exact absurd rfl other
    | directory | symlink | special => rfl
  have own : w.visits fs = serial fs w := if_neg (by simp [inTurn])
  rw [yielded, outcomes, own, visits, List.map_cons, List.filterMap_cons_none first, fileNames,
    List.map_filterMap, List.map_map, List.filterMap_map]
  refine List.filterMap_congr fun e _ => ?_
  obtain ⟨names, kind⟩ := e
  cases kind with
  | file => cases included : w.includes (w.root.below names) <;> simp [outcome, included, WalkOutcome.file?]
  | directory | symlink | special => rfl

theorem clean_of_complaints (none : w.complaints fs = []) {e : WalkError} (visited : .error e ∈ w.visits fs) :
    w.heeds e = false := by
  have silent := List.filterMap_eq_nil_iff.mp none _ (List.mem_map_of_mem visited)
  cases included : w.heeds e with
  | false => rfl
  | true => simp [outcome, included, WalkOutcome.complaint?] at silent

end TreeWalk

namespace Digesting
open TreeWalk

variable {fs : FileSystem} {root one other : Path} {o : DigestOptions} {caller caller' : Option Signal}
  {report report' : Report}

-- A digest, in turn or by many threads, that has come to a report in which nothing is missing.
structure Succeeds (fs : FileSystem) (root : Path) (o : DigestOptions) (caller : Option Signal)
    (report : Report) : Prop where
  ended : serial fs root o caller = .ok report ∨ Ends fs root o caller (.ok report)
  failures : report.failures = []
  skipped : report.skipped = []

namespace Succeeds
variable (succeeds : Succeeds fs root o caller report)
include succeeds

theorem gathered : firstError? ((TreeWalk.ofOptions root o).items fs) = none ∧
    report = { Digesting.gathered fs {} ((TreeWalk.ofOptions root o).yielded fs) with
      skipped := (TreeWalk.ofOptions root o).skipped fs } := by
  have own : firstError? ((TreeWalk.ofOptions root o).items fs) = none ∧
      report = { Digesting.gathered fs {} (leading ((TreeWalk.ofOptions root o).items fs)) with
        skipped := (TreeWalk.ofOptions root o).skipped fs } := by
    rcases succeeds.ended with done | ended
    · obtain ⟨whole, -, same⟩ := serial_gathered done
      exact ⟨whole, same⟩
    · exact ended_gathered ended
  exact ⟨own.1, leading_items own.1 ▸ own.2⟩

theorem complaints : (TreeWalk.ofOptions root o).complaints fs = [] := by
  obtain ⟨whole, same⟩ := succeeds.gathered
  cases skipping : (TreeWalk.ofOptions root o).skipUnreadable with
  | true =>
    have none := succeeds.skipped
    rw [same] at none
    rw [← skipped_complaints skipping]
    exact none
  | false =>
    rw [firstError?_items skipping] at whole
    simpa using whole

theorem readable : ∀ path ∈ (TreeWalk.ofOptions root o).yielded fs, ∃ d, hashFile fs path = .ok d := by
  have none := succeeds.failures
  rw [(succeeds.gathered).2] at none
  exact unreadable_nil.mp none

end Succeeds

theorem line_below {names : List Name} {d : Digest} (nonempty : root.bytes ≠ []) (proper : names ≠ []) :
    Report.line root (root.below names, d) =
      d.hex ++ "  " ++ (Path.Parts.path ⟨.none, names.map (·.bytes)⟩).slashText ++ "\n" := by
  rw [Report.line, Path.displayUnder_eq, Path.shownUnder_below (Path.components_ne_nil nonempty) proper]

theorem lines_congr {files : List (List Name)} (proper : ∀ names ∈ files, names ≠ [])
    (nonempty : one.bytes ≠ []) (nonempty' : other.bytes ≠ [])
    (hashed : ∀ names ∈ files, ∃ d, hashFile fs (one.below names) = .ok d ∧
      hashFile fs (other.below names) = .ok d) :
    (gathered fs {} (files.map one.below)).lines one =
      (gathered fs {} (files.map other.below)).lines other := by
  simp only [Report.lines, gathered, List.nil_append, List.filterMap_map, List.map_filterMap]
  refine congrArg String.join (List.filterMap_congr fun names member => ?_)
  obtain ⟨d, here, there⟩ := hashed names member
  have proper := proper names member
  simp [digested?, here, there, Except.toOption, line_below nonempty proper, line_below nonempty' proper]

structure Respelled (fs : FileSystem) (o : DigestOptions) (one other : Path) (report report' : Report) :
    Prop where
  stripped : ∀ names,
    (one.below names).stripPrefix? one = some (Path.Parts.path ⟨.none, names.map (·.bytes)⟩) ∧
      (other.below names).stripPrefix? other = some (Path.Parts.path ⟨.none, names.map (·.bytes)⟩)
  excluded : ∀ names, (TreeWalk.ofOptions one o).includes (one.below names) =
    (TreeWalk.ofOptions other o).includes (other.below names)
  walked : ∃ entries, Matched fs (TreeWalk.ofOptions one o) (TreeWalk.ofOptions other o) entries
  lines : report.lines one = report'.lines other

-- Two spellings of one directory, walked without following links, lead to the same names, of which the same
-- are excluded and the same text is written, wherever nothing is missing in either report.
theorem root_respelled (same : fs.same one other = true)
    (isDirectory : fs.isDirectory one = true) (unfollowed : o.followLinks = false)
    (inTurn : o.parallelWalk = false) (left : Succeeds fs one o caller report)
    (right : Succeeds fs other o caller' report') : Respelled fs o one other report report' := by
  have excluded (names : List Name) : (TreeWalk.ofOptions one o).includes (one.below names) =
      (TreeWalk.ofOptions other o).includes (other.below names) := by
    change Exclusion.includes (one.below names) one _ = Exclusion.includes (other.below names) other _
    unfold Exclusion.includes
    rw [Path.stripPrefix?_names, Path.stripPrefix?_names]
    rfl
  have visits (root : Path) : (TreeWalk.ofOptions root o).visits fs =
      TreeWalk.serial fs (TreeWalk.ofOptions root o) := if_neg (by simp [TreeWalk.ofOptions, inTurn])
  obtain ⟨entries, matched⟩ := serial_matched (v := TreeWalk.ofOptions one o)
    (w := TreeWalk.ofOptions other o) same isDirectory unfollowed unfollowed excluded
    (fun e visited => clean_of_complaints (left.complaints) (visits one ▸ visited))
    fun e visited => clean_of_complaints (right.complaints) (visits other ▸ visited)
  refine ⟨fun names => ⟨Path.stripPrefix?_names .., Path.stripPrefix?_names ..⟩, excluded,
    ⟨entries, matched⟩, ?_⟩
  obtain ⟨kind, plain, ours⟩ := matched.ours
  obtain ⟨kind', plain', theirs⟩ := matched.theirs
  have yields := yielded_names inTurn plain ours
  have yields' := yielded_names inTurn plain' theirs
  rw [← fileNames_congr excluded] at yields'
  have readable := left.readable
  have readable' := right.readable
  rw [yields] at readable
  rw [yields'] at readable'
  rw [(left.gathered).2, (right.gathered).2, yields, yields']
  obtain ⟨here, found, also⟩ := FileSystem.same_ok same
  refine lines_congr (fun names member => matched.proper _ (mem_of_fileNames member))
    (FileSystem.find_ok found).1 (FileSystem.find_ok also).1 fun names member => ?_
  obtain ⟨c, hashed⟩ := readable _ (List.mem_map_of_mem member)
  obtain ⟨d, hashed'⟩ := readable' _ (List.mem_map_of_mem member)
  cases matched.reads _ (mem_of_fileNames member) rfl c d hashed hashed'
  exact ⟨c, hashed, hashed'⟩

section Mixed
open Sample

theorem Sample.succeeds {s : Sample} (atop : s.Atop root) (near : root.bytes.length ≤ 7) :
    ∃ report, Succeeds s.tree root {} none report :=
  ⟨_, .inl (Sample.done atop near), unreadable_nil.mpr (Sample.readable atop near), skipped_nothing rfl⟩

def detour : Path := ⟨[Path.slash, 97, Path.slash, Path.dot, Path.dot]⟩

theorem detour_atop : mixed.Atop detour where
  found follow := by
    have segments : Path.segments detour.bytes = [[], [97], [Path.dot, Path.dot]] := by decide
    have stays : FileSystem.enter mixed.top [] = .ok (.place mixed.top) := rfl
    have down : FileSystem.enter mixed.top [97] = .ok (.place mixed.within) := rfl
    have up : FileSystem.enter mixed.within [Path.dot, Path.dot] = .ok (.place mixed.top) := rfl
    have started : mixed.tree.start? detour = some mixed.top := rfl
    rw [FileSystem.find_eq (by decide) (by decide) (by decide) started, segments]
    simp only [FileSystem.resolve, stays, down, up]
  room := by decide

theorem root_respelled_detour : ∃ report report',
    Succeeds mixed.tree fileWalk.root {} none report ∧ Succeeds mixed.tree detour {} none report' ∧
    Respelled mixed.tree {} fileWalk.root detour report report' := by
  have atop : mixed.Atop fileWalk.root := mixed.slash_atop
  have same : mixed.tree.same fileWalk.root detour = true := by
    rw [FileSystem.same, atop.found, detour_atop.found]
    exact beq_self_eq_true _
  obtain ⟨report, left⟩ := Sample.succeeds atop (by decide)
  obtain ⟨report', right⟩ := Sample.succeeds detour_atop (by decide)
  exact ⟨report, report', left, right, root_respelled same atop.isDirectory rfl rfl left right⟩

end Mixed
end Digesting
end TreeDigest
