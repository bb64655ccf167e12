import Mathlib.Data.List.Basic
import TreeDigest.Proofs.Digest.Serial
import TreeDigest.Proofs.FileSystem.Meeting
import TreeDigest.Proofs.Glob.Matching
import TreeDigest.Proofs.Walk.Roots
namespace TreeDigest
open Std

namespace Utf8
variable {rest : Bytes}

theorem lossyChars_letter : lossyChars (97 :: rest) = 'a' :: lossyChars rest := lossyChars_small (by decide)

theorem text?_letter {s : String} (read : text? (97 :: rest) = some s) : ∃ cs, s.toList = 'a' :: cs := by
  obtain ⟨all, chars, rfl⟩ := Option.map_eq_some_iff.mp read
  unfold chars? at chars
  rw [chunks_small (by decide), List.mapM_cons] at chars
  obtain ⟨c, own, later⟩ := Option.bind_eq_some_iff.mp chars
  obtain ⟨cs, -, same⟩ := Option.bind_eq_some_iff.mp later
  cases own
  cases same
  exact ⟨cs, String.toList_ofList⟩

end Utf8

namespace Digesting
open TreeWalk

def fileWalk : TreeWalk := TreeWalk.ofOptions ⟨[Path.slash]⟩ {}

theorem isJunkName_letter {name : String} {cs : List Char} (chars : name.toList = 'a' :: cs) :
    Exclusion.isJunkName name = false := by
  have others : ∀ s ∈ Exclusion.junkNames, s.toList.head? ≠ some 'a' := by decide
  have unlisted : name ∉ Exclusion.junkNames := fun member => others name member (by rw [chars]; rfl)
  simp [Exclusion.isJunkName, Exclusion.junkStarts, unlisted, chars, List.isPrefixOf]

theorem rejectsText_letter {text : String} {cs : List Char} (chars : text.toList = 'a' :: cs) :
    Exclusion.rejectsText fileWalk.exclude text = false := by
  have unlike : globMatch ".treedigest.toml" text = false :=
    globMatch_unlike (p := '.') (c := 'a') rfl chars (by decide) (by decide) (by decide)
  change (globMatch ".treedigest.toml" text || false) = false
  rw [unlike]
  rfl

theorem rejectsComponent_letter {rest : Bytes} :
    Exclusion.rejectsComponent fileWalk.exclude (.normal (97 :: rest)) = false := by
  unfold Exclusion.rejectsComponent
  dsimp only
  split
  · rename_i name read
    obtain ⟨cs, chars⟩ := Utf8.text?_letter read
    rw [isJunkName_letter chars, rejectsText_letter chars]
    rfl
  · rfl

structure Plain (w : TreeWalk) : Prop where
  exclude : w.exclude = fileWalk.exclude
  unfollowed : w.followLinks = false

theorem fileWalk_plain : Plain fileWalk := ⟨rfl, rfl⟩

theorem Plain.included {w : TreeWalk} {names : List Name} (plain : Plain w) (nonempty : names ≠ [])
    (lettered : ∀ n ∈ names, n.bytes.head? = some 97) : w.includes (w.root.below names) = true := by
  have components : names.any (fun n => Exclusion.rejectsComponent fileWalk.exclude (.normal n.bytes)) =
      false := by
    rw [List.any_eq_false]
    intro n member
    obtain ⟨rest, bytes⟩ := List.head?_eq_some_iff.mp (lettered n member)
    rw [bytes, rejectsComponent_letter]
    exact Bool.false_ne_true
  have whole : Exclusion.rejectsText fileWalk.exclude
      (Path.Parts.path ⟨.none, names.map (·.bytes)⟩).slashText = false := by
    obtain ⟨n, rest, rfl⟩ := List.exists_cons_of_ne_nil nonempty
    obtain ⟨tail, first⟩ := List.head?_eq_some_iff.mp (lettered n (List.mem_cons_self ..))
    obtain ⟨more, bytes⟩ : ∃ more, Path.joinSegments ((n :: rest).map (·.bytes)) = 97 :: more := by
      rw [List.map_cons, first]
      cases rest <;> exact ⟨_, rfl⟩
    apply rejectsText_letter
    rw [Path.slashText, String.toList_ofList, Path.Parts.path, bytes, Utf8.lossyChars_letter, List.map_cons]
    rfl
  rw [TreeWalk.includes, plain.exclude, Exclusion.includes_names _ _ nonempty, components, whole]
  rfl

def junk : Name := ⟨[46, 95], by decide⟩

theorem junk_excluded {w : TreeWalk} : w.includes (w.root.join junk.path) = false := by
  have name : Utf8.text? [46, 95] = some "._" := Utf8.text?_ascii rfl
  have unclean : Exclusion.isJunkName "._" = true := rfl
  rw [includes_entry]
  simp [junk, Exclusion.rejectsComponent, name, unclean]

structure Tame (entries : List (Name × Bytes)) : Prop where
  ascending : OrderedMap.Ascending Name.compare entries
  lettered : ∀ e ∈ entries, e.1.bytes.head? = some 97
  short : ∀ e ∈ entries, e.1.bytes.length ≤ 255

theorem tame_iff {entries : List (Name × Bytes)} : Tame entries ↔
    OrderedMap.Ascending Name.compare entries ∧
      ∀ e ∈ entries, e.1.bytes.head? = some 97 ∧ e.1.bytes.length ≤ 255 := by
  constructor
  · intro tame
    exact ⟨tame.ascending, fun e member => ⟨tame.lettered e member, tame.short e member⟩⟩
  · intro ⟨ascending, each⟩
    exact ⟨ascending, fun e member => (each e member).1, fun e member => (each e member).2⟩

instance {entries : List (Name × Bytes)} : Decidable (Tame entries) := decidable_of_iff _ tame_iff.symm

def nodes (entries : List (Name × Bytes)) : List (Name × Node) := entries.map fun e => (e.1, .file e.2)

theorem nodes_distinct (entries : List (Name × Bytes)) : ∀ e ∈ nodes entries, e.2.Distinct := by
  intro e member
  obtain ⟨f, -, rfl⟩ := List.mem_map.mp member
  exact .file

theorem Tame.nodes_ascending {entries : List (Name × Bytes)} (tame : Tame entries) :
    OrderedMap.Ascending Name.compare (nodes entries) := List.pairwise_map.mpr tame.ascending

def listing (entries : List (Name × Bytes)) : List (Name × Kind) := entries.map fun e => (e.1, .file)

theorem nodes_listing (entries : List (Name × Bytes)) :
    (nodes entries).map (fun e => (e.1, e.2.kind)) = listing entries := List.map_map ..

theorem listing_visits {fs : FileSystem} {w : TreeWalk} {path : Path} {trail : List Path}
    {entries : List (Name × Bytes)} (plain : Plain w)
    (included : ∀ e ∈ entries, w.includes (path.join e.1.path) = true) :
    (listing entries).flatMap (fun e => entryVisits fs w trail (path.join e.1.path) e.2) =
      entries.map fun e => .ok (path.join e.1.path, .file) := by
  rw [listing, List.flatMap_map, List.map_eq_flatMap]
  refine List.flatMap_congr fun e member => ?_
  rw [entryVisits, followed_plain (.inl plain.unfollowed), included e member]
  rfl

theorem hashFile_entry {fs : FileSystem} {path : Path} {here : Place} {n : Name} {content : Bytes}
    (found : fs.find true path = .ok here) (holds : here.Holds n (.file content))
    (fits : (path.join n.path).bytes.length ≤ FileSystem.longestPath) (short : n.bytes.length ≤ 255) :
    hashFile fs (path.join n.path) = .ok (hashContent content) := by
  have plain : (Node.file content).kind ≠ .symlink := nofun
  rw [hashFile, FileSystem.find_entry found holds plain, FileSystem.longestName, if_neg (by omega)]
  rfl

def tooLong (path : Path) : String := "open " ++ path.display ++ ": " ++ SystemError.nameTooLong.message

theorem hashFile_tooLong {fs : FileSystem} {path : Path} (plain : 0 ∉ path.bytes)
    (long : FileSystem.longestPath < path.bytes.length) : hashFile fs path = .error (tooLong path) := by
  rw [hashFile, FileSystem.find_tooLong plain long]
  rfl

def lettered (rest : Bytes) (plain : Path.slash ∉ rest ∧ 0 ∉ rest) : Name where
  bytes := 97 :: rest
  valid := by
    obtain ⟨slash, zero⟩ := plain
    refine ⟨List.cons_ne_nil _ _, ?_, ?_, ?_, ?_⟩
    · exact List.not_mem_cons_of_ne_of_not_mem (by decide) slash
    · exact List.not_mem_cons_of_ne_of_not_mem (by decide) zero
    · exact fun same => absurd (List.cons.inj same).1 (by decide)
    · exact fun same => absurd (List.cons.inj same).1 (by decide)

def folder : Name := lettered [] ⟨List.not_mem_nil, List.not_mem_nil⟩

def ab : Name := lettered [98] (by decide)

-- A directory of files, with other files beside it.
structure Sample where
  inner : List (Name × Bytes)
  outer : List (Name × Bytes)
  inside : Tame inner
  beside : Tame outer
  beyond : ∀ e ∈ outer, folder.compare e.1 = .lt

namespace Sample
variable (s : Sample) {root : Path}

def entries : List (Name × Node) :=
  (junk, .file [120]) :: (folder, .directory (nodes s.inner)) :: nodes s.outer

theorem entries_ascending : OrderedMap.Ascending Name.compare s.entries := by
  have first : junk.compare folder = .lt := by decide
  have later : ∀ e ∈ nodes s.outer, folder.compare e.1 = .lt := by
    intro e member
    obtain ⟨f, present, rfl⟩ := List.mem_map.mp member
    exact s.beyond f present
  refine List.pairwise_cons.mpr ⟨?_, List.pairwise_cons.mpr ⟨later, s.beside.nodes_ascending⟩⟩
  exact List.forall_mem_cons.mpr ⟨first, fun e member => TransCmp.lt_trans first (later e member)⟩

theorem within_distinct : (Node.directory (nodes s.inner)).Distinct :=
  .of_ascending s.inside.nodes_ascending (nodes_distinct _)

def tree : FileSystem where
  root := .directory s.entries
  distinct := .of_ascending s.entries_ascending
    (List.forall_mem_cons.mpr ⟨.file, List.forall_mem_cons.mpr ⟨s.within_distinct, nodes_distinct _⟩⟩)

def top : Place := .root s.tree.root

def within : Place := .child s.top folder (.directory (nodes s.inner))

def located (root : Path) : List (Path × Bytes) :=
  s.inner.map (fun e => ((root.join folder.path).join e.1.path, e.2)) ++
    s.outer.map fun e => (root.join e.1.path, e.2)

variable {s}

theorem forall_located {P : Path × Bytes → Prop} : (∀ e ∈ s.located root, P e) ↔
    (∀ e ∈ s.inner, P ((root.join folder.path).join e.1.path, e.2)) ∧
      ∀ e ∈ s.outer, P (root.join e.1.path, e.2) := by
  rw [located, List.forall_mem_append, List.forall_mem_map, List.forall_mem_map]

variable (s)

-- The root names the top of the tree, in whatever spelling, and leaves room for the directory's name.
structure Atop (root : Path) : Prop where
  found : ∀ follow, s.tree.find follow root = .ok s.top
  room : (root.join folder.path).bytes.length ≤ FileSystem.longestPath

theorem slash_atop : s.Atop fileWalk.root where
  found follow := by
    rw [FileSystem.find_eq (show fileWalk.root.bytes ≠ [] by decide) (by decide) (by decide) rfl]
    exact FileSystem.resolve_trivial rfl (by decide)
  room := by decide

variable {s}

theorem Atop.nonempty (atop : s.Atop root) : root.bytes ≠ [] :=
  (FileSystem.find_ok (atop.found true)).1

theorem Atop.isDirectory (atop : s.Atop root) : s.tree.isDirectory root = true := by
  rw [FileSystem.isDirectory, FileSystem.kind_ok (atop.found true)]
  rfl

theorem Atop.within_found (atop : s.Atop root) :
    s.tree.find true (root.join folder.path) = .ok s.within := by
  have holds : s.top.Holds folder (.directory (nodes s.inner)) := rfl
  rw [FileSystem.find_entry (atop.found true) holds nofun]
  exact if_neg (by rw [not_or]; exact ⟨Nat.not_lt.mpr atop.room, by decide⟩)

theorem included {w : TreeWalk} (plain : Plain w) : ∀ e ∈ s.located w.root, w.includes e.1 = true := by
  refine forall_located.mpr ⟨fun e member => ?_, fun e member => ?_⟩
  · have own := s.inside.lettered e member
    exact plain.included (List.cons_ne_nil folder [e.1])
      (List.forall_mem_cons.mpr ⟨rfl, List.forall_mem_singleton.mpr own⟩)
  · have own := s.beside.lettered e member
    exact plain.included (List.cons_ne_nil e.1 []) (List.forall_mem_singleton.mpr own)

section Walk
variable {w : TreeWalk} (plain : Plain w) (atop : s.Atop w.root)
include plain atop

theorem visits : TreeWalk.serial s.tree w =
    .ok (w.root, .directory) :: .ok (w.root.join folder.path, .directory) ::
      (s.located w.root).map fun e => .ok (e.1, .file) := by
  obtain ⟨inner_included, outer_included⟩ := forall_located.mp (s.included plain)
  have first : s.tree.kind false w.root = .ok .directory := FileSystem.kind_ok (atop.found false)
  have listed : s.tree.list w.root = .ok ((junk, .file) :: (folder, .directory) :: listing s.outer) := by
    rw [FileSystem.list_eq (atop.found true) rfl s.entries_ascending, entries, List.map_cons, List.map_cons,
      nodes_listing]
    rfl
  have within : s.tree.list (w.root.join folder.path) = .ok (listing s.inner) := by
    rw [FileSystem.list_eq atop.within_found rfl s.inside.nodes_ascending, nodes_listing]
  have left : entryVisits s.tree w [w.root] (w.root.join junk.path) .file = [] := by
    rw [entryVisits, followed_plain (.inl plain.unfollowed), junk_excluded]
    rfl
  have own : w.includes (w.root.join folder.path) = true :=
    plain.included (List.cons_ne_nil folder []) (List.forall_mem_singleton.mpr rfl)
  have down : entryVisits s.tree w [w.root] (w.root.join folder.path) .directory =
      .ok (w.root.join folder.path, .directory) ::
        s.inner.map fun e => .ok ((w.root.join folder.path).join e.1.path, .file) := by
    rw [entryVisits, followed_plain (.inl plain.unfollowed), own]
    dsimp only
    rw [below_listed within, listing_visits plain inner_included]
    rfl
  rw [serial_plain first (by decide), if_pos rfl, below_listed listed, List.flatMap_cons, List.flatMap_cons,
    listing_visits plain outer_included, left, down, located, List.map_append, List.map_map, List.map_map]
  rfl

theorem outcomes (inTurn : w.parallel = false) : w.outcomes s.tree =
    .ignored :: .ignored :: (s.located w.root).map fun e => .file e.1 := by
  have visits : w.visits s.tree = TreeWalk.serial s.tree w := if_neg (by simp [inTurn])
  rw [TreeWalk.outcomes, visits, s.visits plain atop, List.map_cons, List.map_cons, List.map_map]
  refine congrArg (WalkOutcome.ignored :: WalkOutcome.ignored :: ·) (List.map_congr_left fun e member => ?_)
  change (if w.includes e.1 then _ else _) = _
  rw [s.included plain e member]
  rfl

theorem items (inTurn : w.parallel = false) :
    w.items s.tree = ((s.located w.root).map (·.1)).map .ok := by
  rw [TreeWalk.items, s.outcomes plain atop inTurn, List.filterMap_cons_none rfl,
    List.filterMap_cons_none rfl, List.filterMap_map, List.map_map]
  exact congrFun List.filterMap_eq_map _

end Walk

section Hashing
variable (atop : s.Atop root)
include atop

theorem hashed_inner {e : Name × Bytes} (member : e ∈ s.inner)
    (fits : ((root.join folder.path).join e.1.path).bytes.length ≤ FileSystem.longestPath) :
    hashFile s.tree ((root.join folder.path).join e.1.path) = .ok (hashContent e.2) := by
  have holds : s.within.Holds e.1 (.file e.2) :=
    Place.holds_of_mem s.within_distinct rfl (List.mem_map_of_mem member)
  exact hashFile_entry atop.within_found holds fits (s.inside.short e member)

theorem hashed_outer {e : Name × Bytes} (member : e ∈ s.outer)
    (fits : (root.join e.1.path).bytes.length ≤ FileSystem.longestPath) :
    hashFile s.tree (root.join e.1.path) = .ok (hashContent e.2) := by
  have holds : s.top.Holds e.1 (.file e.2) :=
    Place.holds_of_mem s.tree.distinct rfl
      (List.mem_cons_of_mem _ (List.mem_cons_of_mem _ (List.mem_map_of_mem member)))
  exact hashFile_entry (atop.found true) holds fits (s.beside.short e member)

theorem hashed (near : root.bytes.length ≤ 7) :
    ∀ e ∈ s.located root, hashFile s.tree e.1 = .ok (hashContent e.2) := by
  have joined (path : Path) (n : Name) (nonempty : path.bytes ≠ []) :
      (path.join n.path).bytes.length ≤ path.bytes.length + 1 + n.bytes.length := by
    rw [Path.bytes_join n nonempty]
    split <;> simp only [List.length_append, List.length_cons] <;> omega
  have first := joined root folder atop.nonempty
  have one : folder.bytes.length = 1 := rfl
  refine forall_located.mpr ⟨fun e member => ?_, fun e member => ?_⟩
  · have second := joined (root.join folder.path) e.1 (root.join_nonempty folder)
    have short := s.inside.short e member
    exact s.hashed_inner atop member (by rw [FileSystem.longestPath]; omega)
  · have second := joined root e.1 atop.nonempty
    have short := s.beside.short e member
    exact s.hashed_outer atop member (by rw [FileSystem.longestPath]; omega)

end Hashing

def mixed : Sample where
  inner := [(ab, [120])]
  outer := [(lettered [45, 98] (by decide), [121]), (ab, [122])]
  inside := by decide
  beside := by decide
  beyond := by decide

theorem padded_atop {n : Nat} (room : 2 * n + 4 ≤ FileSystem.longestPath) : s.Atop (padded [] (n + 1)) where
  found follow := by
    have segments : Path.segments (padded [] (n + 1)).bytes = [] :: List.replicate (n + 1) [Path.dot] :=
      Path.segments_repeat (s := []) (by decide) (by decide) (n + 1)
    rw [FileSystem.find_eq padded_nonempty (padded_plain List.not_mem_nil)
      (by rw [padded_length, List.length_nil]; omega) rfl, segments]
    refine FileSystem.resolve_trivial rfl fun segment member => ?_
    rcases List.mem_cons.mp member with rfl | member
    · rfl
    · rw [List.eq_of_mem_replicate member]
      rfl
  room := by
    have length : ((padded [] (n + 1)).join folder.path).bytes.length = 2 * n + 4 := by
      rw [padded_join, List.length_append, padded_length, List.length_nil, Nat.zero_add, Nat.mul_add]
      rfl
    exact length ▸ room

theorem padded_join_folder {n : Nat} (m : Name) : (((padded [] (n + 1)).join folder.path).join m.path).bytes =
    (padded [] (n + 1)).bytes ++ Path.slash :: folder.bytes ++ Path.slash :: m.bytes := by
  have last : ((padded [] (n + 1)).bytes ++ Path.slash :: folder.bytes).getLast? ≠ some Path.slash := by
    rw [List.getLast?_append_of_ne_nil _ (List.cons_ne_nil _ _)]
    decide
  rw [Path.bytes_join m (Path.join_nonempty _ folder), padded_join, if_neg last]

-- Under this spelling of the top the directory can be listed, and only `ab` beside it can be opened.
def longTop : Path := padded [] (2045 + 1)

theorem longTop_atop : s.Atop longTop := padded_atop (by decide)

def inFolder : Path := (longTop.join folder.path).join ab.path

def dashedAtTop : Path := longTop.join (lettered [45, 98] (by decide)).path

def plainAtTop : Path := longTop.join ab.path

theorem inFolder_unhashed : hashFile s.tree inFolder = .error (tooLong inFolder) := by
  apply hashFile_tooLong
  · rw [inFolder, longTop, Path.zero_mem_join _ (Path.join_nonempty _ folder),
      Path.zero_mem_join _ padded_nonempty]
    exact padded_plain List.not_mem_nil
  · rw [inFolder, longTop, padded_join_folder, List.length_append, List.length_append, padded_length]
    decide

theorem dashedAtTop_unhashed : hashFile s.tree dashedAtTop = .error (tooLong dashedAtTop) := by
  apply hashFile_tooLong
  · rw [dashedAtTop, longTop, Path.zero_mem_join _ padded_nonempty]
    exact padded_plain List.not_mem_nil
  · rw [dashedAtTop, longTop, padded_join, List.length_append, padded_length]
    decide

theorem plainAtTop_hashed : hashFile mixed.tree plainAtTop = .ok (hashContent [122]) := by
  refine hashed_outer (s := mixed) (e := (ab, [122])) longTop_atop (by decide) ?_
  rw [longTop, padded_join, List.length_append, padded_length]
  decide

theorem mixed_located (root : Path) : (mixed.located root).map (·.1) =
    [(root.join folder.path).join ab.path, root.join (lettered [45, 98] (by decide)).path,
      root.join ab.path] := rfl

theorem mixed_outcomes {w : TreeWalk} (plain : Plain w) (root : w.root = longTop)
    (inTurn : w.parallel = false) : w.outcomes mixed.tree =
      .ignored :: .ignored :: [inFolder, dashedAtTop, plainAtTop].map .file := by
  rw [mixed.outcomes plain (root ▸ longTop_atop) inTurn, root, inFolder, dashedAtTop, plainAtTop,
    ← mixed_located, List.map_map]
  rfl

theorem mixed_items {w : TreeWalk} (plain : Plain w) (root : w.root = longTop) (inTurn : w.parallel = false) :
    w.items mixed.tree = [inFolder, dashedAtTop, plainAtTop].map .ok := by
  rw [mixed.items plain (root ▸ longTop_atop) inTurn, root, mixed_located]
  rfl

theorem mixed_gathered : gathered mixed.tree {} [inFolder, dashedAtTop, plainAtTop] =
    { digests := [(plainAtTop, hashContent [122])]
      failures := [(inFolder, tooLong inFolder), (dashedAtTop, tooLong dashedAtTop)] } := by
  rw [gathered_error inFolder_unhashed, gathered_error dashedAtTop_unhashed, gathered_ok plainAtTop_hashed]
  rfl

end Sample

end Digesting
end TreeDigest
