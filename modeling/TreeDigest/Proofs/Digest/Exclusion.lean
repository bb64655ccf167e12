import TreeDigest.Proofs.Digest.Sample
import TreeDigest.Proofs.FileSystem.Write
import TreeDigest.Proofs.Walk.Skipping
import TreeDigest.Proofs.Walk.Telling
namespace TreeDigest

namespace TreeWalk
variable {fs gs : FileSystem} {w : TreeWalk}

theorem visits_inTurn (inTurn : w.parallel = false) : w.visits fs = serial fs w :=
  if_neg (inTurn ▸ Bool.false_ne_true)

theorem outcomes_told {use : WalkOutcome → Option γ} (ignored : use .ignored = none) :
    (w.outcomes fs).filterMap use = (tells fs w (w.visits fs)).filterMap (use ·.1) := by
  unfold outcomes tells
  rw [List.filterMap_map, List.filterMap_filterMap]
  congr 1
  funext visit
  unfold tells?
  rw [Function.comp_apply]
  cases w.outcome visit with
  | ignored => exact ignored
  | file path | error e => rfl

theorem reads_told {path : Path} (handed : .ok path ∈ w.items fs) :
    (.file path, some (hashFile fs path)) ∈ tells fs w (w.visits fs) := by
  unfold items outcomes at handed
  rw [List.filterMap_map] at handed
  obtain ⟨visit, visited, own⟩ := List.mem_filterMap.mp handed
  refine List.mem_filterMap.mpr ⟨visit, visited, ?_⟩
  unfold tells?
  rw [Function.comp_apply] at own
  cases outcome : w.outcome visit with
  | file other =>
    rw [outcome] at own
    cases own
    rfl
  | ignored =>
    rw [outcome] at own
    cases own
  | error e =>
    rw [outcome] at own
    cases skip : w.skipUnreadable <;> simp [item?, skip] at own

theorem told_reads {path : Path} {read : Except String Digest} {visits : List Visit}
    (told : (.file path, some read) ∈ tells fs w visits) : read = hashFile fs path := by
  obtain ⟨visit, -, own⟩ := List.mem_filterMap.mp told
  unfold tells? at own
  split at own
  · cases own
    rfl
  · cases own
  · cases own

end TreeWalk

namespace Digesting
open TreeWalk

variable {fs gs : FileSystem} {w : TreeWalk} {o : DigestOptions} {items : List (Except String Path)}

theorem serialFrom_congr (same : ∀ path, .ok path ∈ items → hashFile fs path = hashFile gs path)
    (tripped : Bool) (report : Report) :
    serialFrom fs o tripped report items = serialFrom gs o tripped report items := by
  induction items generalizing report with
  | nil => rfl
  | cons next rest ih =>
    have later := ih fun path member => same path (List.mem_cons_of_mem _ member)
    unfold serialFrom
    cases next with
    | error m => rfl
    | ok path =>
      simp only [same path (List.mem_cons_self ..), later]

-- Two trees that differ only in what a walk leaves out come to the same: the same items, errors and skipped
-- entries, and the same report or error. No look-up of the walk may come by what is left out.
theorem excluded_unseen (alike : fs.Alike gs (w.Excluded fs)) (root : fs.Clear (w.Excluded fs) w.root)
    (links : w.followLinks = true → ∀ names, w.Passes w.root names →
      fs.Clear (w.Excluded fs) (w.root.below names))
    :
    w.items fs = w.items gs ∧ w.complaints fs = w.complaints gs ∧ w.skipped fs = w.skipped gs ∧
      ∀ o caller, TreeWalk.ofOptions w.root o = w →
        serial fs w.root o caller = serial gs w.root o caller := by
  have told := Hides.visits_told ⟨alike, root, links⟩
  have use {γ : Type} {use : WalkOutcome → Option γ} (ignored : use .ignored = none) :
      (w.outcomes fs).filterMap use = (w.outcomes gs).filterMap use := by
    rw [outcomes_told ignored, outcomes_told ignored, told]
  have items : w.items fs = w.items gs := use rfl
  have skipped : w.skipped fs = w.skipped gs := use rfl
  refine ⟨items, use rfl, skipped, ?_⟩
  intro o caller own
  have read (path : Path) (handed : .ok path ∈ w.items gs) : hashFile fs path = hashFile gs path := by
    rw [← items] at handed
    exact told_reads (told ▸ reads_told handed)
  unfold serial
  rw [own]
  dsimp only
  rw [items, skipped, serialFrom_congr read]

def top : Name := ⟨[114], by decide⟩

def link : Name := ⟨[108], by decide⟩

def plain : Name := ⟨[112], by decide⟩

def tidy : FileSystem :=
  (FileSystem.write {} [top, link] (.symlink plain.path) .symlink).write [top, plain] (.file [120]) .file

def cluttered : FileSystem := tidy.write [top, junk] (.symlink ⟨[110]⟩) .symlink

def clutteredTop : Place := .child (.root cluttered.root) top
  (.directory [(link, .symlink plain.path), (plain, .file [120]), (junk, .symlink ⟨[110]⟩)])

def linkOptions : DigestOptions := { followLinks := true }

def linkWalk : TreeWalk := TreeWalk.ofOptions top.path linkOptions

theorem cluttered_found : cluttered.find true linkWalk.root = .ok clutteredTop := by
  have segments : Path.segments [114] = [[114]] := by decide
  have enters : FileSystem.enter (.root cluttered.root) [114] = .ok (.place clutteredTop) := rfl
  rw [FileSystem.find_eq (show linkWalk.root.bytes ≠ [] by decide) (by decide) (by decide) rfl]
  simp only [linkWalk, ofOptions, top, Name.path, segments, FileSystem.resolve, enters]

theorem plain_included : linkWalk.includes (linkWalk.root.join plain.path) = true := by
  have unlike : globMatch ".treedigest.toml" "p" = false :=
    globMatch_unlike (p := '.') (c := 'p') rfl rfl (by decide) (by decide) (by decide)
  have name : Utf8.text? [112] = some "p" := Utf8.text?_ascii rfl
  have clean : Exclusion.isJunkName "p" = false := rfl
  have text : Path.slashText ⟨[112]⟩ = "p" := Path.slashText_ascii rfl
  rw [includes_entry]
  simp [linkWalk, linkOptions, ofOptions, defaultExclude, configFileName, programName, plain, Name.path,
    Exclusion.rejectsComponent, Exclusion.rejectsText, name, clean, text, unlike]

def plainPlace : Place := .child clutteredTop plain (.file [120])

theorem plain_enters : FileSystem.enter clutteredTop plain.bytes = .ok (.place plainPlace) := rfl

theorem link_enters : FileSystem.enter clutteredTop link.bytes =
    .ok (.link (.child clutteredTop link (.symlink plain.path)) plain.path) := rfl

theorem entered_cases {n : Name} {found : FileSystem.Found}
    (entered : FileSystem.enter clutteredTop n.bytes = .ok found)
    (included : linkWalk.includes (linkWalk.root.join n.path) = true) : n = link ∨ n = plain := by
  obtain ⟨node, holds, -⟩ := FileSystem.enter_inv entered
  have member := holds.mem rfl
  simp only [List.mem_cons, List.not_mem_nil, or_false, Prod.mk.injEq] at member
  rcases member with ⟨rfl, -⟩ | ⟨rfl, -⟩ | ⟨rfl, -⟩
  · exact .inl rfl
  · exact .inr rfl
  · rw [junk_excluded] at included
    cases included

theorem plainPlace_clear {links : Nat} {rest : List Bytes} :
    FileSystem.Lookup.Clear (linkWalk.Excluded cluttered) ⟨links, plainPlace, rest⟩ :=
  FileSystem.Lookup.clear_of_other (show plainPlace.node.kind ≠ .directory by decide)

theorem plain_clear {links : Nat} {rest : List Bytes} :
    FileSystem.Lookup.Clear (linkWalk.Excluded cluttered) ⟨links, clutteredTop, plain.bytes :: rest⟩ := by
  have passes : linkWalk.Passes linkWalk.root [plain] := passes_cons.mpr ⟨plain_included, passes_nil⟩
  apply FileSystem.Lookup.clear_cons
  · intro _
    exact passes.kept cluttered_found
  · intro q entered
    cases plain_enters.symm.trans entered
    exact plainPlace_clear
  · intro left q target _ entered
    cases plain_enters.symm.trans entered

theorem clutteredTop_clear {links : Nat} {names : List Name}
    (passes : linkWalk.Passes linkWalk.root names) :
    FileSystem.Lookup.Clear (linkWalk.Excluded cluttered)
      ⟨links, clutteredTop, names.map (·.bytes)⟩ := by
  cases names with
  | nil => exact FileSystem.Lookup.clear_nil
  | cons n later =>
    obtain ⟨included, -⟩ := passes_cons.mp passes
    have first : linkWalk.Passes linkWalk.root [n] := passes_cons.mpr ⟨included, passes_nil⟩
    apply FileSystem.Lookup.clear_cons
    · intro _
      exact first.kept cluttered_found
    · intro q entered
      rcases entered_cases entered included with rfl | rfl
      · cases link_enters.symm.trans entered
      · cases plain_enters.symm.trans entered
        exact plainPlace_clear
    · intro left q target _ entered
      rcases entered_cases entered included with rfl | rfl
      · cases link_enters.symm.trans entered
        exact plain_clear
      · cases plain_enters.symm.trans entered

theorem linkWalk_clear {names : List Name} (passes : linkWalk.Passes linkWalk.root names) :
    cluttered.Clear (linkWalk.Excluded cluttered) (linkWalk.root.below names) where
  current _ := excluded_part.proper
  onward first started := by
    have own : first = .root cluttered.root := by
      unfold FileSystem.start? at started
      split at started <;> exact (Option.some.inj started).symm
    have steps : linkWalk.root.steps = [top.bytes] := by decide
    have enters : FileSystem.enter (.root cluttered.root) top.bytes = .ok (.place clutteredTop) := rfl
    rw [own, Path.steps_below, steps]
    apply FileSystem.Lookup.clear_cons
    · intro _
      exact passes_nil.kept cluttered_found
    · intro q entered
      cases enters.symm.trans entered
      exact clutteredTop_clear passes
    · intro left q target _ entered
      cases enters.symm.trans entered

theorem cluttered_alike : cluttered.Alike tidy (linkWalk.Excluded cluttered) := by
  have written : cluttered.Alike tidy ([top, junk] <+: ·) := FileSystem.write_alike [top] rfl
  refine ⟨written.current, fun names kept => written.stands names fun begins => ?_⟩
  obtain ⟨rest, rfl⟩ := begins
  exact kept ⟨clutteredTop, [junk], rest, cluttered_found, nofun, junk_excluded, rfl⟩

theorem excluded_unseen_linked : linkWalk.followLinks = true ∧
    linkWalk.items cluttered = linkWalk.items tidy ∧
    linkWalk.complaints cluttered = linkWalk.complaints tidy ∧
    linkWalk.skipped cluttered = linkWalk.skipped tidy ∧
    serial cluttered top.path linkOptions none = serial tidy top.path linkOptions none := by
  obtain ⟨items, complaints, skipped, reports⟩ :=
    excluded_unseen cluttered_alike (linkWalk_clear passes_nil) fun _ _ => linkWalk_clear
  exact ⟨rfl, items, complaints, skipped, reports linkOptions none rfl⟩

def roundWalk : TreeWalk := { root := ⟨[114, 47, 46, 95, 47, 46, 46]⟩ }

def hollow : FileSystem := FileSystem.write {} [top] .empty .empty

def roundabout : FileSystem := hollow.write [top, junk] .empty .empty

def roundTop : Place := .child (.root roundabout.root) top (.directory [(junk, .empty)])

theorem roundabout_found (follow : Bool) : roundabout.find follow roundWalk.root = .ok roundTop := by
  have segments : Path.segments [114, 47, 46, 95, 47, 46, 46] = [[114], [46, 95], [46, 46]] := by decide
  have first : FileSystem.enter (.root roundabout.root) [114] = .ok (.place roundTop) := rfl
  have second : FileSystem.enter roundTop [46, 95] = .ok (.place (.child roundTop junk .empty)) := rfl
  have third : FileSystem.enter (.child roundTop junk .empty) [46, 46] = .ok (.place roundTop) := rfl
  rw [FileSystem.find_eq (show roundWalk.root.bytes ≠ [] by decide) (by decide) (by decide) rfl]
  simp only [roundWalk, segments, FileSystem.resolve, first, second, third]

theorem roundabout_alike : roundabout.Alike hollow (roundWalk.Excluded roundabout) := by
  have written : roundabout.Alike hollow ([top, junk] <+: ·) := FileSystem.write_alike [top] rfl
  refine ⟨written.current, fun names kept => written.stands names fun begins => ?_⟩
  obtain ⟨rest, rfl⟩ := begins
  exact kept ⟨roundTop, [junk], rest, roundabout_found true, by simp, junk_excluded, rfl⟩

theorem roundabout_items : roundWalk.items roundabout = [] := by
  have first : roundabout.kind false roundWalk.root = .ok .directory :=
    FileSystem.kind_ok (roundabout_found false)
  have listed : roundabout.list roundWalk.root = .ok [(junk, .directory)] :=
    FileSystem.list_eq (roundabout_found true) rfl (List.pairwise_singleton _ _)
  have nothing : below roundabout roundWalk [roundWalk.root] roundWalk.root = [] := by
    rw [below_listed listed, List.flatMap_singleton, entryVisits, followed_plain (.inl rfl),
      junk_excluded]
    rfl
  have visits : roundWalk.visits roundabout = [.ok (roundWalk.root, .directory)] := by
    rw [TreeWalk.visits_inTurn rfl, serial_plain first (by decide), if_pos rfl, nothing]
  rw [TreeWalk.items, outcomes, visits]
  rfl

theorem hollow_items : roundWalk.items hollow ≠ [] := by
  have segments : Path.segments [114, 47, 46, 95, 47, 46, 46] = [[114], [46, 95], [46, 46]] := by decide
  have first : FileSystem.enter (.root hollow.root) [114] =
      .ok (.place (.child (.root hollow.root) top .empty)) := rfl
  have second : FileSystem.enter (.child (.root hollow.root) top .empty) [46, 95] = .error .notFound := rfl
  have missing : hollow.find false roundWalk.root = .error .notFound := by
    rw [FileSystem.find_eq (show roundWalk.root.bytes ≠ [] by decide) (by decide) (by decide) rfl]
    simp only [roundWalk, segments, FileSystem.resolve, first, second]
  have visits : roundWalk.visits hollow = [.error (.system roundWalk.root .notFound)] := by
    rw [TreeWalk.visits_inTurn rfl, TreeWalk.serial, FileSystem.kind, missing]
    rfl
  have included : roundWalk.includes roundWalk.root = true :=
    includes_root (show roundWalk.root.bytes ≠ [] by decide) rfl
  rw [TreeWalk.items, outcomes, visits]
  simp [outcome, included, item?, show roundWalk.skipUnreadable = false from rfl]

def store : Name := ⟨[115], by decide⟩

def stored : Name := ⟨[120], by decide⟩

def passageTree (entries : List (Name × Node)) : Node :=
  .directory [(link, .symlink store.path), (store, .directory entries)]

def passage {entries : List (Name × Node)} (distinct : (Node.directory entries).Distinct) : FileSystem where
  root := .directory [(top, passageTree entries)]
  distinct := by
    refine .directory (List.pairwise_singleton _ _) (List.forall_mem_singleton.mpr (.directory ?_ ?_))
    · exact List.pairwise_pair.mpr (show link ≠ store by decide)
    · exact List.forall_mem_cons.mpr ⟨.symlink, List.forall_mem_singleton.mpr distinct⟩

-- The pattern excludes what is in the directory, but only under its own name.
def passageWalk : TreeWalk := { root := top.path, followLinks := true, exclude := ["s/x"] }

variable {entries : List (Name × Node)} {distinct : (Node.directory entries).Distinct}

def passageTop (entries : List (Name × Node)) : Place :=
  .child (.root (.directory [(top, passageTree entries)])) top (passageTree entries)

def passageStore (entries : List (Name × Node)) : Place :=
  .child (passageTop entries) store (.directory entries)

theorem stored_apart : (Node.directory [(stored, .file [])]).Distinct :=
  .directory (List.pairwise_singleton _ _) (List.forall_mem_singleton.mpr .file)

theorem top_found (follow : Bool) :
    (passage distinct).find follow passageWalk.root = .ok (passageTop entries) := by
  have segments : Path.segments [114] = [[114]] := by decide
  have enters : FileSystem.enter (.root (passage distinct).root) [114] =
      .ok (.place (passageTop entries)) := rfl
  rw [FileSystem.find_eq (show passageWalk.root.bytes ≠ [] by decide) (by decide) (by decide) rfl]
  simp only [passageWalk, top, Name.path, segments, FileSystem.resolve, enters]

theorem store_resolved (follow : Bool) (links : Nat) :
    FileSystem.resolve follow links (passageTop entries) (Path.segments store.path.bytes) =
      .ok (passageStore entries) := by
  have segments : Path.segments store.path.bytes = [[115]] := by decide
  have enters : FileSystem.enter (passageTop entries) [115] = .ok (.place (passageStore entries)) := rfl
  simp only [segments, FileSystem.resolve, enters]

theorem store_found :
    (passage distinct).find true (passageWalk.root.join store.path) = .ok (passageStore entries) := by
  rw [FileSystem.find_entry (top_found true) (rfl : (passageTop entries).Holds store (.directory entries))
    nofun]
  exact if_neg (by decide)

theorem link_found :
    (passage distinct).find true (passageWalk.root.join link.path) = .ok (passageStore entries) := by
  have segments : Path.segments [114, 47, 108] = [[114], [108]] := by decide
  have first : FileSystem.enter (.root (passage distinct).root) [114] =
      .ok (.place (passageTop entries)) := rfl
  have second : FileSystem.enter (passageTop entries) [108] = .ok (.link _ store.path) := rfl
  have path : passageWalk.root.join link.path = ⟨[114, 47, 108]⟩ := by decide
  rw [path, FileSystem.find_eq (by simp) (by decide) (by decide) rfl]
  simp only [segments, FileSystem.resolve, first, second]
  simp only [List.isEmpty_nil, Bool.not_true, Bool.and_false]
  exact store_resolved true 39

theorem globMatch_whole : globMatch "s/x" "s/x" = true ∧ globMatch "s/x" "l/x" = false ∧
    globMatch "s/x" "s" = false ∧ globMatch "s/x" "l" = false ∧ globMatch "s/x" "x" = false := by
  simp [globMatch, Glob.run, Glob.body, Glob.runFrom, Glob.advance, Glob.start]

theorem passage_includes (names : List Name) (text : String)
    (known : ∀ n ∈ names, n = link ∨ n = store ∨ n = stored)
    (filled : (Path.Parts.path ⟨.none, names.map (·.bytes)⟩).isEmpty = false)
    (parts : (Path.Parts.path ⟨.none, names.map (·.bytes)⟩).components = names.map fun n => .normal n.bytes)
    (whole : (Path.Parts.path ⟨.none, names.map (·.bytes)⟩).slashText = text) :
    passageWalk.includes (passageWalk.root.below names) = !globMatch "s/x" text := by
  have plain (n : Name) (own : n = link ∨ n = store ∨ n = stored) :
      Exclusion.rejectsComponent ["s/x"] (.normal n.bytes) = false := by
    obtain ⟨text, read, clean, unlike⟩ : ∃ text, Utf8.text? n.bytes = some text ∧
        Exclusion.isJunkName text = false ∧ globMatch "s/x" text = false := by
      obtain ⟨-, -, s, l, x⟩ := globMatch_whole
      rcases own with rfl | rfl | rfl
      · exact ⟨"l", Utf8.text?_ascii rfl, rfl, l⟩
      · exact ⟨"s", Utf8.text?_ascii rfl, rfl, s⟩
      · exact ⟨"x", Utf8.text?_ascii rfl, rfl, x⟩
    simp [Exclusion.rejectsComponent, Exclusion.rejectsText, read, clean, unlike]
  have none : (names.map fun n => Path.Component.normal n.bytes).any
      (Exclusion.rejectsComponent passageWalk.exclude) = false := by
    rw [List.any_map, List.any_eq_false]
    intro n member
    simp [passageWalk, plain n (known n member)]
  unfold TreeWalk.includes Exclusion.includes
  rw [Path.stripPrefix?_below (by decide) rfl]
  dsimp only
  rw [filled, parts, none, whole]
  simp [passageWalk, Exclusion.rejectsText]

theorem link_included : passageWalk.includes (passageWalk.root.join link.path) = true := by
  refine (passage_includes [link] "l" (by simp) rfl (by decide)
    (Path.slashText_ascii rfl)).trans ?_
  rw [globMatch_whole.2.2.2.1]
  rfl

theorem store_included : passageWalk.includes (passageWalk.root.join store.path) = true := by
  refine (passage_includes [store] "s" (by simp) rfl (by decide)
    (Path.slashText_ascii rfl)).trans ?_
  rw [globMatch_whole.2.2.1]
  rfl

theorem behind_included :
    passageWalk.includes ((passageWalk.root.join link.path).join stored.path) = true := by
  refine (passage_includes [link, stored] "l/x" (by simp) rfl (by decide)
    (Path.slashText_ascii rfl)).trans ?_
  rw [globMatch_whole.2.1]
  rfl

theorem stored_excluded :
    passageWalk.includes ((passageWalk.root.join store.path).join stored.path) = false := by
  refine (passage_includes [store, stored] "s/x" (by simp) rfl (by decide)
    (Path.slashText_ascii rfl)).trans ?_
  rw [globMatch_whole.1]
  rfl

theorem passage_visits (ascending : entries.Pairwise fun a b => Name.compare a.1 b.1 = .lt) :
    let behind := passageWalk.root.join link.path
    let own := passageWalk.root.join store.path
    TreeWalk.serial (passage distinct) passageWalk =
      [.ok (passageWalk.root, .directory), .ok (behind, .directory)] ++
      entries.flatMap (fun e => entryVisits (passage distinct) passageWalk [behind, passageWalk.root]
        (behind.join e.1.path) e.2.kind) ++ [.ok (own, .directory)] ++
      entries.flatMap fun e => entryVisits (passage distinct) passageWalk [own, passageWalk.root]
        (own.join e.1.path) e.2.kind := by
  dsimp only
  have first : (passage distinct).kind false passageWalk.root = .ok .directory :=
    FileSystem.kind_ok (top_found false)
  have listed : (passage distinct).list passageWalk.root = .ok [(link, .symlink), (store, .directory)] :=
    FileSystem.list_eq (top_found true) rfl
      (List.pairwise_pair.mpr (show link.compare store = .lt from rfl))
  have behind : (passage distinct).list (passageWalk.root.join link.path) =
      .ok (entries.map fun e => (e.1, e.2.kind)) := FileSystem.list_eq link_found rfl ascending
  have own : (passage distinct).list (passageWalk.root.join store.path) =
      .ok (entries.map fun e => (e.1, e.2.kind)) := FileSystem.list_eq store_found rfl ascending
  have apart : (passage distinct).same passageWalk.root (passageWalk.root.join link.path) = false := by
    rw [FileSystem.same, top_found, link_found]
    rfl
  have went : followed (passage distinct) passageWalk [passageWalk.root] (passageWalk.root.join link.path)
      .symlink = .ok .directory := by
    unfold followed
    rw [FileSystem.kind_ok link_found, List.find?_singleton, apart]
    rfl
  rw [serial_plain first (by decide), if_pos rfl, below_listed listed]
  have one : entryVisits (passage distinct) passageWalk [passageWalk.root]
      (passageWalk.root.join link.path) .symlink = .ok (passageWalk.root.join link.path, .directory) ::
        entries.flatMap fun e => entryVisits (passage distinct) passageWalk
          [passageWalk.root.join link.path, passageWalk.root]
          ((passageWalk.root.join link.path).join e.1.path) e.2.kind := by
    rw [entryVisits, went, link_included, below_listed behind, List.flatMap_map]
    rfl
  have two : entryVisits (passage distinct) passageWalk [passageWalk.root]
      (passageWalk.root.join store.path) .directory = .ok (passageWalk.root.join store.path, .directory) ::
        entries.flatMap fun e => entryVisits (passage distinct) passageWalk
          [passageWalk.root.join store.path, passageWalk.root]
          ((passageWalk.root.join store.path).join e.1.path) e.2.kind := by
    rw [entryVisits, followed_plain (.inr (show Kind.directory ≠ .symlink by decide)), store_included,
      below_listed own, List.flatMap_map]
    rfl
  rw [List.flatMap_cons, List.flatMap_singleton, one, two]
  simp

theorem passage_empty : TreeWalk.serial (passage .empty) passageWalk =
    [.ok (passageWalk.root, .directory), .ok (passageWalk.root.join link.path, .directory),
      .ok (passageWalk.root.join store.path, .directory)] := passage_visits .nil

theorem passage_filled : TreeWalk.serial (passage stored_apart) passageWalk =
    [.ok (passageWalk.root, .directory), .ok (passageWalk.root.join link.path, .directory),
      .ok ((passageWalk.root.join link.path).join stored.path, .file),
      .ok (passageWalk.root.join store.path, .directory)] := by
  have entry (trail : List Path) (child : Path) : entryVisits (passage stored_apart) passageWalk
      trail child .file = if passageWalk.includes child then [.ok (child, .file)] else [] := by
    rw [entryVisits, followed_plain (.inr (show Kind.file ≠ .symlink by decide))]
    cases passageWalk.includes child <;> rfl
  rw [passage_visits (List.pairwise_singleton _ _), List.flatMap_singleton, List.flatMap_singleton]
  dsimp only [Node.kind]
  rw [entry, entry, behind_included, stored_excluded]
  rfl

theorem passage_items : passageWalk.items (passage .empty) = [] ∧
    passageWalk.items (passage stored_apart) =
      [.ok ((passageWalk.root.join link.path).join stored.path)] := by
  constructor
  · rw [TreeWalk.items, outcomes, TreeWalk.visits_inTurn rfl, passage_empty]
    rfl
  · rw [TreeWalk.items, outcomes, TreeWalk.visits_inTurn rfl, passage_filled]
    simp only [List.map_cons, List.map_nil, outcome, behind_included, if_true]
    rfl

theorem passage_alike : (passage stored_apart).Alike (passage .empty)
    (passageWalk.Excluded (passage stored_apart)) := by
  have written : ((passage .empty).write [top, store, stored] (.file []) .file).Alike (passage .empty)
      ([top, store, stored] <+: ·) := FileSystem.write_alike [top, store] rfl
  refine ⟨written.current, fun names kept => written.stands names fun begins => ?_⟩
  obtain ⟨rest, rfl⟩ := begins
  exact kept ⟨passageTop _, [store, stored], rest, top_found true, by simp, stored_excluded, rfl⟩

theorem leafless {p here : Place} {names : List Name} {n : Name} {node : Node}
    (other : p.node.kind ≠ .directory) (found : p.descend? names = some here) : ¬ here.Holds n node := by
  intro holds
  cases names with
  | nil =>
    cases found
    obtain ⟨entries, own⟩ := holds.directory
    exact other (by rw [own, Node.kind])
  | cons m rest =>
    obtain ⟨node', holds', -⟩ := Place.descend?_cons.mp found
    obtain ⟨entries, own⟩ := holds'.directory
    exact other (by rw [own, Node.kind])

theorem passage_links {names : List Name} {here : Place} {n : Name} {target : Path}
    (found : (Place.root (passage stored_apart).root).descend? names = some here)
    (holds : here.Holds n (.symlink target)) :
    here = passageTop [(stored, .file [])] ∧ target = store.path := by
  cases names with
  | nil =>
    cases found
    have member := holds.mem rfl
    simp [passageTree] at member
  | cons m rest =>
    obtain ⟨node, holds', found⟩ := Place.descend?_cons.mp found
    have member := holds'.mem rfl
    simp only [List.mem_singleton, Prod.mk.injEq] at member
    obtain ⟨rfl, rfl⟩ := member
    cases rest with
    | nil =>
      cases found
      have member := holds.mem rfl
      simp only [List.mem_cons, List.not_mem_nil, or_false, Prod.mk.injEq, Node.symlink.injEq] at member
      rcases member with ⟨-, rfl⟩ | ⟨-, other⟩
      · exact ⟨rfl, rfl⟩
      · cases other
    | cons m rest =>
      obtain ⟨node, holds', found⟩ := Place.descend?_cons.mp found
      have member := holds'.mem rfl
      simp only [List.mem_cons, List.not_mem_nil, or_false, Prod.mk.injEq] at member
      rcases member with ⟨rfl, rfl⟩ | ⟨rfl, rfl⟩
      · exact absurd holds (leafless (by decide) found)
      · cases rest with
        | nil =>
          cases found
          have member := holds.mem rfl
          simp at member
        | cons m rest =>
          obtain ⟨node, holds', found⟩ := Place.descend?_cons.mp found
          have member := holds'.mem rfl
          simp only [List.mem_singleton, Prod.mk.injEq] at member
          obtain ⟨rfl, rfl⟩ := member
          exact absurd holds (leafless (by decide) found)

-- It is not enough that no link leads to what is left out, or that none is followed. A root may come by it,
-- and a pattern may exclude an entry under its own path but not where a link to its directory is followed.
theorem excluded_seen :
    (roundabout.Alike hollow (roundWalk.Excluded roundabout) ∧ roundWalk.followLinks = false ∧
      roundWalk.items roundabout ≠ roundWalk.items hollow) ∧
    ((passage stored_apart).Alike (passage .empty)
        (passageWalk.Excluded (passage stored_apart)) ∧
      (∀ names here n target links q,
        (Place.root (passage stored_apart).root).descend? names = some here →
        here.Holds n (.symlink target) →
        FileSystem.resolve true links (if target.isAbsolute then here.top else here)
          (Path.segments target.bytes) = .ok q →
        ¬ passageWalk.Excluded (passage stored_apart) q.names.reverse) ∧
      Loopless (passageWalk.visits (passage stored_apart)) ∧
      Loopless (passageWalk.visits (passage .empty)) ∧
      passageWalk.items (passage stored_apart) ≠ passageWalk.items (passage .empty)) := by
  refine ⟨⟨roundabout_alike, rfl, ?_⟩, passage_alike, ?_, ?_, ?_, ?_⟩
  · rw [roundabout_items]
    exact hollow_items.symm
  · intro names here n target links q found holds resolved
    obtain ⟨rfl, rfl⟩ := passage_links found holds
    rw [if_neg (by decide), store_resolved] at resolved
    cases resolved
    have passes : passageWalk.Passes passageWalk.root [store] :=
      passes_cons.mpr ⟨store_included, passes_nil⟩
    exact passes.kept (top_found true)
  · rw [TreeWalk.visits_inTurn rfl, passage_filled]
    simp [Loopless]
  · rw [TreeWalk.visits_inTurn rfl, passage_empty]
    simp [Loopless]
  · rw [passage_items.1, passage_items.2]
    exact List.cons_ne_nil _ _

end Digesting
end TreeDigest
