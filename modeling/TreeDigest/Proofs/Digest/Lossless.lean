import TreeDigest.Proofs.Digest.SampleReport
import TreeDigest.Proofs.Report.Shown
import TreeDigest.Proofs.Walk.Within
namespace TreeDigest
open Std

namespace Report
variable {root : Path} {entries : List (Path × String)}

def paths (r : Report) : List Path := r.digests.map (·.1) ++ r.failures.map (·.1)

-- What is kept of these entries: all of them exactly if no two are shown alike, and so if what is shown of
-- them can be read.
structure Keeps (root : Path) (entries : List (Path × String)) (map : List (String × String)) : Prop where
  tells : Tells root entries map
  whole : map.Perm (displayed root entries) ↔ ((displayed root entries).map (·.1)).Nodup
  legible : (∀ e ∈ entries, (e.1.shownUnder root).Legible) → map.Perm (displayed root entries)

theorem shown_keeps (single : (entries.map (·.1)).Nodup)
    (apart : ∀ e ∈ entries, ∀ f ∈ entries, (e.1.shownUnder root).Legible → (f.1.shownUnder root).Legible →
      e.1.displayUnder root = f.1.displayUnder root → e.1 = f.1) :
    Keeps root entries (shown root entries) := by
  refine ⟨shown_tells root entries, OrderedMap.ofList_perm_iff, fun legible => ?_⟩
  refine OrderedMap.ofList_perm_iff.mpr ?_
  rw [List.map_map, List.Nodup, List.pairwise_map]
  refine (List.pairwise_map.mp single).imp_of_mem fun {e f} here there other same => other ?_
  exact apart e here f there (legible e here) (legible f there) same

end Report

namespace Digesting
open TreeWalk

variable {fs : FileSystem} {root p q : Path} {o : DigestOptions} {caller : Option Signal}
  {report : Report}

theorem ended_gathered (ended : Ends fs root o caller (.ok report)) :
    firstError? ((TreeWalk.ofOptions root o).items fs) = none ∧
      report = { gathered fs {} (leading ((TreeWalk.ofOptions root o).items fs)) with
        skipped := (TreeWalk.ofOptions root o).skipped fs } := by
  cases ended with
  | @returned tuning _ s r _ started path returned concluded =>
    cases r with
    | error e => cases concluded
    | panicked => cases concluded
    | ok c =>
      cases concluded
      obtain ⟨xs, gives, holds, -⟩ := (path.sound started).ok returned
      obtain ⟨rfl, finished⟩ := gives.unique nofun (source_gives fs (TreeWalk.ofOptions root o)) ending_stops
      refine ⟨?_, report_eq holds (leading_ascending ..)⟩
      unfold ending at finished
      split at finished
      · cases finished
      · assumption

theorem ended_report (ended : Ends fs root o caller (.ok report)) :
    report = { gathered fs {} (leading ((TreeWalk.ofOptions root o).items fs)) with
      skipped := (TreeWalk.ofOptions root o).skipped fs } :=
  (ended_gathered ended).2

theorem ended_paths (ended : Ends fs root o caller (.ok report)) :
    report.paths.Perm (leading ((TreeWalk.ofOptions root o).items fs)) := by
  rw [ended_report ended]
  exact gathered_paths fs _

theorem paths_apart (ended : Ends fs root o caller (.ok report))
    (one : p ∈ report.paths) (other : q ∈ report.paths) (same : p.components = q.components) : p = q := by
  have perm := ended_paths ended
  exact eq_of_ascending (leading_ascending ..) (perm.mem_iff.mp one) (perm.mem_iff.mp other)
    (Path.compare_eq_iff.mpr same)

theorem visited_of_paths (ended : Ends fs root o caller (.ok report))
    (member : p ∈ report.paths) : p ∈ files ((TreeWalk.ofOptions root o).visits fs) :=
  (leading_sublist.trans items_sublist).subset ((ended_paths ended).mem_iff.mp member)

-- Files that are shown alike have the same components below the root, unless what is written of one of
-- them is not its own text.
theorem legible_apart (ended : Ends fs root o caller (.ok report))
    (one : p ∈ report.paths) (other : q ∈ report.paths) (legible : (p.shownUnder root).Legible)
    (also : (q.shownUnder root).Legible) (same : p.displayUnder root = q.displayUnder root) : p = q := by
  have here := visited_of_paths ended one
  have there := visited_of_paths ended other
  rcases visits_placed fs (TreeWalk.ofOptions root o) with inside | single
  · have rooted := Path.components_ne_nil (rooted_of_visited here)
    obtain ⟨rest, more, components⟩ := inside p here
    obtain ⟨rest', more', components'⟩ := inside q there
    have shown : p.shownUnder root = q.shownUnder root := by
      rw [Path.displayUnder_eq, Path.displayUnder_eq] at same
      exact Path.slashText_injective legible also same
    apply paths_apart ended one other
    have left := Path.components_shownUnder rooted more components
    have right := Path.components_shownUnder rooted more' components'
    change (p.shownUnder root).components = rest at left
    change (q.shownUnder root).components = rest' at right
    rw [components, components', ← left, ← right, shown]
  · match files ((TreeWalk.ofOptions root o).visits fs), here, there, single with
    | [only], here, there, _ => rw [List.mem_singleton.mp here, List.mem_singleton.mp there]

-- The files of a report whose text is shown as it is are never shown alike, so that a report whose files
-- are all shown so says in JSON what it holds: one digest or one message for each.
theorem json_lossless (ended : Ends fs root o caller (.ok report)) :
    (∀ p ∈ report.paths, ∀ q ∈ report.paths, p ≠ q → (p.shownUnder root).Legible →
      (q.shownUnder root).Legible → p.displayUnder root ≠ q.displayUnder root) ∧
    ∃ files failures skipped, report.Reads root files failures skipped ∧
      Report.Keeps root (report.digests.map fun e => (e.1, e.2.hex)) files ∧
      Report.Keeps root report.failures failures := by
  have single : report.paths.Nodup := by
    refine (ended_paths ended).nodup_iff.mpr ((leading_ascending ..).imp ?_)
    rintro p q before rfl
    cases (ReflCmp.compare_self : p.compare p = .eq).symm.trans before
  obtain ⟨digests, failures, -⟩ := List.nodup_append.mp single
  refine ⟨fun p one q other differ legible also same => ?_, _, _, _, report.reads_shown root, ?_, ?_⟩
  · exact differ (legible_apart ended one other legible also same)
  · refine Report.shown_keeps (by rwa [List.map_map]) ?_
    intro e here f there
    have member {e : Path × String} (present : e ∈ report.digests.map fun e => (e.1, e.2.hex)) :
        e.1 ∈ report.paths := by
      obtain ⟨d, own, rfl⟩ := List.mem_map.mp present
      exact List.mem_append_left _ (List.mem_map_of_mem own)
    exact legible_apart ended (member here) (member there)
  · refine Report.shown_keeps failures ?_
    intro e here f there
    exact legible_apart ended (List.mem_append_right _ (List.mem_map_of_mem here))
      (List.mem_append_right _ (List.mem_map_of_mem there))

theorem Sample.report_hex (s : Sample) : s.report.digests.map (fun e => (e.1, e.2.hex)) =
    (s.located fileWalk.root).map fun e => (e.1, (hashContent e.2).hex) := List.map_map ..

theorem Sample.report_paths (s : Sample) : s.report.paths = (s.located fileWalk.root).map (·.1) := by
  rw [Report.paths, report, List.map_map]
  exact List.append_nil _

theorem Sample.displayed (s : Sample) (text : Bytes → String) :
    Report.displayed fileWalk.root ((s.located fileWalk.root).map fun e => (e.1, text e.2)) =
      s.relative.map fun e => (e.1.slashText, text e.2) := by
  rw [← shownUnder_located]
  simp only [Report.displayed, List.map_map, Function.comp_def, Path.displayUnder_eq]

theorem mixed_legible : ∀ e ∈ Sample.mixed.relative, e.1.Legible :=
  List.forall_mem_cons.mpr ⟨⟨congrArg Option.isSome (Utf8.text?_ascii rfl), by decide⟩,
    List.forall_mem_cons.mpr ⟨⟨congrArg Option.isSome (Utf8.text?_ascii rfl), by decide⟩,
      List.forall_mem_singleton.mpr ⟨congrArg Option.isSome (Utf8.text?_ascii rfl), by decide⟩⟩⟩

theorem mixed_displayed (text : Bytes → String) :
    Report.displayed fileWalk.root ((Sample.mixed.located fileWalk.root).map fun e => (e.1, text e.2)) =
      [("a/ab", text [120]), ("a-b", text [121]), ("ab", text [122])] := by
  have inner : Path.slashText ⟨[97, 47, 97, 98]⟩ = "a/ab" := Path.slashText_ascii rfl
  have dashed : Path.slashText ⟨[97, 45, 98]⟩ = "a-b" := Path.slashText_ascii rfl
  have plain : Path.slashText ⟨[97, 98]⟩ = "ab" := Path.slashText_ascii rfl
  rw [Sample.displayed]
  change [(Path.slashText ⟨[97, 47, 97, 98]⟩, text [120]), (Path.slashText ⟨[97, 45, 98]⟩, text [121]),
    (Path.slashText ⟨[97, 98]⟩, text [122])] = _
  rw [inner, dashed, plain]

theorem json_lossless_mixed : ∃ report files failures skipped,
    Ends Sample.mixed.tree fileWalk.root (lenient {}) none (.ok report) ∧
    report.Reads fileWalk.root files failures skipped ∧
    files.Perm [("a/ab", (hashContent [120]).hex), ("a-b", (hashContent [121]).hex),
      ("ab", (hashContent [122]).hex)] ∧ failures = [] := by
  obtain ⟨-, files, failures, skipped, reads, kept, failed⟩ := json_lossless Sample.mixed.ends
  refine ⟨_, files, failures, skipped, Sample.mixed.ends, reads, ?_, ?_⟩
  · rw [← mixed_displayed fun content => (hashContent content).hex, ← Sample.report_hex]
    apply kept.legible
    rw [Sample.report_hex, List.forall_mem_map]
    have legible := mixed_legible
    rw [← Sample.shownUnder_located, List.forall_mem_map] at legible
    exact legible
  · exact List.perm_nil.mp (failed.legible (List.forall_mem_nil _))

-- Backslashes are shown as separators, and what is no text as one and the same sign.
def alike : Sample where
  inner := [(ab, [120])]
  outer := [(lettered [92, 97, 98] (by decide), [121]), (lettered [128] (by decide), [122]),
    (lettered [129] (by decide), [123])]
  inside := Sample.mixed.inside
  beside := by decide
  beyond := by decide

theorem slashText_stray {b : UInt8} (stray : Utf8.width? b = none) :
    Path.slashText ⟨[97, b]⟩ = "a\uFFFD" := by
  have shown : Utf8.lossyChars [b] = ['\uFFFD'] := by
    have first : Utf8.next b [] = (.invalid [b], []) := by simp [Utf8.next, stray]
    rw [Utf8.lossyChars, Utf8.chunks, first]
    dsimp only
    rw [Utf8.chunks]
    rfl
  rw [Path.slashText, Utf8.lossyChars_letter, shown]
  rfl

theorem alike_displayed (text : Bytes → String) :
    Report.displayed fileWalk.root ((alike.located fileWalk.root).map fun e => (e.1, text e.2)) =
      [("a/ab", text [120]), ("a/ab", text [121]), ("a\uFFFD", text [122]), ("a\uFFFD", text [123])] := by
  have inner : Path.slashText ⟨[97, 47, 97, 98]⟩ = "a/ab" := Path.slashText_ascii rfl
  have outer : Path.slashText ⟨[97, 92, 97, 98]⟩ = "a/ab" := Path.slashText_ascii rfl
  rw [Sample.displayed]
  change [(Path.slashText ⟨[97, 47, 97, 98]⟩, text [120]), (Path.slashText ⟨[97, 92, 97, 98]⟩, text [121]),
    (Path.slashText ⟨[97, 128]⟩, text [122]), (Path.slashText ⟨[97, 129]⟩, text [123])] = _
  rw [inner, outer, slashText_stray rfl, slashText_stray rfl]

theorem alike_shown (text : Bytes → String) :
    Report.shown fileWalk.root ((alike.located fileWalk.root).map fun e => (e.1, text e.2)) =
      [("a/ab", text [121]), ("a\uFFFD", text [123])] := by
  have after : compare "a\uFFFD" "a/ab" = .gt := by decide
  have same {s : String} : compare s s = .eq := ReflCmp.compare_self
  change OrderedMap.ofList compare (Report.displayed _ _) = _
  rw [alike_displayed]
  simp only [OrderedMap.ofList, OrderedMap.insert, List.foldl_cons, List.foldl_nil, after, same]

theorem json_loses : ∃ report files failures skipped,
    Ends alike.tree fileWalk.root (lenient {}) none (.ok report) ∧
    report.Reads fileWalk.root files failures skipped ∧ report.paths.Nodup ∧
    report.paths.map (·.displayUnder fileWalk.root) = ["a/ab", "a/ab", "a\uFFFD", "a\uFFFD"] ∧
    files = [("a/ab", (hashContent [121]).hex), ("a\uFFFD", (hashContent [123]).hex)] := by
  have names : (alike.located fileWalk.root).map (fun e => e.1.displayUnder fileWalk.root) =
      ["a/ab", "a/ab", "a\uFFFD", "a\uFFFD"] := by
    have displayed := congrArg (List.map Prod.fst) (alike_displayed fun _ => "")
    rwa [Report.displayed, List.map_map, List.map_map] at displayed
  refine ⟨_, _, _, _, alike.ends, Report.reads_shown _ _, ?_⟩
  rw [Sample.report_paths, List.map_map, Sample.report_hex]
  exact ⟨by decide, names, alike_shown fun content => (hashContent content).hex⟩

end Digesting
end TreeDigest
