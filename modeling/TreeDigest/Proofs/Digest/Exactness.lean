import TreeDigest.Proofs.Digest.Agreement
import TreeDigest.Proofs.Digest.Reading
import TreeDigest.Proofs.Walk.Reach
namespace TreeDigest

namespace Digesting
open TreeWalk
variable {fs : FileSystem} {root path : Path} {o : DigestOptions} {caller : Option Signal}
  {report : Report} {d : Digest}

theorem serial_ok (strict : o.keepGoing = false)
    (done : serial fs root o caller = .ok report) :
    firstError? ((TreeWalk.ofOptions root o).items fs) = none ∧
      (∀ path ∈ leading ((TreeWalk.ofOptions root o).items fs), ∃ d, hashFile fs path = .ok d) ∧
      report.digests = (leading ((TreeWalk.ofOptions root o).items fs)).filterMap (digested? fs) := by
  obtain ⟨stops, fine, rfl⟩ := serial_gathered done
  exact ⟨stops, fine.resolve_left (by simp [strict]), rfl⟩

-- A hash is that of a file's content, or stands for a special file.
theorem hashFile_ok (hashed : hashFile fs path = .ok d) : ∃ r, fs.find true path = .ok r ∧
    ∀ content, r.node = .file content → d = Blake3.hash content := by
  unfold hashFile at hashed
  split at hashed
  · cases hashed
  · rename_i r found
    refine ⟨r, found, fun content own => ?_⟩
    rw [own] at hashed
    cases hashed
    exact hashContent_eq content

theorem kind_file {node : Node} (file : node.kind = .file) : ∃ content, node = .file content := by
  cases node with
  | file content => exact ⟨content, rfl⟩
  | directory entries | symlink target | special => cases file

theorem digested_leads (isDirectory : fs.isDirectory root = true)
    (inTurn : o.parallelWalk = false) (handed : .ok path ∈ (TreeWalk.ofOptions root o).items fs)
    (hashed : hashFile fs path = .ok d) :
    ∃ names content, names ≠ [] ∧ path = root.below names ∧
      Leads fs root names (.file content) o.followLinks ∧
      (TreeWalk.ofOptions root o).Passes root names ∧ d = Blake3.hash content := by
  have visited := (ok_mem_items.mp handed).1
  have visits : (TreeWalk.ofOptions root o).visits fs = TreeWalk.serial fs (TreeWalk.ofOptions root o) :=
    if_neg (by simp [TreeWalk.ofOptions, inTurn])
  rw [visits] at visited
  obtain ⟨r, reached, same⟩ := hashFile_ok hashed
  obtain ⟨names, proper, own, passes, leads, file⟩ :=
    serial_leads isDirectory visited reached
  obtain ⟨content, node⟩ := kind_file file
  exact ⟨names, content, proper, own, node ▸ leads, passes, same content node⟩

-- A digest in turn that ends well holds the files that are found below the root under names all of
-- which pass, each with the hash of its content, and nothing else.
theorem serial_exact (isDirectory : fs.isDirectory root = true)
    (inTurn : o.parallelWalk = false) (strict : o.keepGoing = false)
    (unskipped : o.skipUnreadable = false) (done : serial fs root o caller = .ok report) :
    OrderedMap.Ascending Path.compare report.digests ∧
      ∀ path d, (path, d) ∈ report.digests ↔
        ∃ names content, names ≠ [] ∧ path = root.below names ∧
          Leads fs root names (.file content) o.followLinks ∧
          (TreeWalk.ofOptions root o).Passes root names ∧ d = Blake3.hash content := by
  obtain ⟨whole, readable, digests⟩ := serial_ok strict done
  have handed {path : Path} : path ∈ leading ((TreeWalk.ofOptions root o).items fs) ↔
      .ok path ∈ (TreeWalk.ofOptions root o).items fs := by
    conv => rhs; rw [leading_eq whole]
    simp
  have present {path : Path} {d : Digest} : (path, d) ∈ report.digests ↔
      .ok path ∈ (TreeWalk.ofOptions root o).items fs ∧ hashFile fs path = .ok d := by
    rw [digests, List.mem_filterMap, ← handed]
    constructor
    · rintro ⟨own, member, hashed⟩
      obtain ⟨d', ok⟩ := readable own member
      simp only [digested?, ok, Except.toOption, Option.map_some, Option.some.injEq] at hashed
      cases hashed
      exact ⟨member, ok⟩
    · rintro ⟨member, ok⟩
      exact ⟨path, member, by simp [digested?, ok, Except.toOption]⟩
  refine ⟨?_, fun path d => ?_⟩
  · rw [digests]
    exact ascending_read (leading_ascending ..) fun path => (hashFile fs path).toOption
  rw [present]
  constructor
  · rintro ⟨member, hashed⟩
    exact digested_leads isDirectory inTurn member hashed
  · rintro ⟨names, content, proper, rfl, leads, passes, rfl⟩
    have visits : (TreeWalk.ofOptions root o).visits fs =
        TreeWalk.serial fs (TreeWalk.ofOptions root o) :=
      if_neg (by simp [TreeWalk.ofOptions, inTurn])
    have visited := serial_visits isDirectory
      (fun e visited => clean_of_items unskipped whole (visits ▸ visited)) proper passes leads rfl
    have member : .ok (root.below names) ∈ (TreeWalk.ofOptions root o).items fs :=
      ok_mem_items.mpr ⟨visits ▸ visited, passes names proper (List.prefix_refl names)⟩
    refine ⟨member, ?_⟩
    obtain ⟨d, hashed⟩ := readable _ (handed.mpr member)
    obtain ⟨others, other, -, same, also, -, rfl⟩ :=
      digested_leads isDirectory inTurn member hashed
    cases Path.below_injective same
    cases leads.unique also
    exact hashed

section Mixed
open Sample

theorem Sample.walked {s : Sample} (atop : s.Atop root) :
    (TreeWalk.ofOptions root {}).items s.tree = ((s.located root).map (·.1)).map .ok :=
  s.items (w := TreeWalk.ofOptions root {}) ⟨rfl, rfl⟩ atop rfl

theorem Sample.readable {s : Sample} (atop : s.Atop root) (near : root.bytes.length ≤ 7) :
    ∀ path ∈ (s.located root).map (·.1), ∃ d, hashFile s.tree path = .ok d :=
  List.forall_mem_map.mpr fun e member => ⟨_, s.hashed atop near e member⟩

theorem Sample.done {s : Sample} (atop : s.Atop root) (near : root.bytes.length ≤ 7) :
    serial s.tree root {} none = .ok { gathered s.tree {} ((s.located root).map (·.1)) with
      skipped := (TreeWalk.ofOptions root {}).skipped s.tree } := by
  have whole : firstError? ((TreeWalk.ofOptions root {}).items s.tree) = none := by
    rw [Sample.walked atop, firstError?_ok]
  have fine : ∀ path ∈ leading ((TreeWalk.ofOptions root {}).items s.tree),
      ∃ d, hashFile s.tree path = .ok d := by
    rw [Sample.walked atop, leading_ok]
    exact Sample.readable atop near
  rw [serial_done rfl whole (.inr fine), Sample.walked atop, leading_ok]

theorem serial_exact_mixed : ∃ report, serial mixed.tree fileWalk.root {} none = .ok report ∧
    (fileWalk.root.below [folder, ab], Blake3.hash [120]) ∈ report.digests ∧
    (fileWalk.root.below [ab], Blake3.hash [122]) ∈ report.digests ∧
    ∀ d, (fileWalk.root.below [junk], d) ∉ report.digests := by
  have atop : mixed.Atop fileWalk.root := mixed.slash_atop
  have done := Sample.done atop (by decide)
  obtain ⟨-, told⟩ := serial_exact atop.isDirectory rfl rfl rfl done
  have passes {names : List Name} (lettered : ∀ n ∈ names, n.bytes.head? = some 97) :
      fileWalk.Passes fileWalk.root names := fun front nonempty begins =>
    fileWalk_plain.included nonempty fun n member => lettered n (begins.subset member)
  refine ⟨_, done, (told _ _).mpr ?_, (told _ _).mpr ?_, fun d member => ?_⟩
  · exact ⟨[folder, ab], [120], by simp, rfl, .plain (atop.found true) rfl rfl, passes (by decide), rfl⟩
  · exact ⟨[ab], [122], by simp, rfl, .plain (atop.found true) rfl rfl, passes (by decide), rfl⟩
  · obtain ⟨names, content, -, same, -, passes, -⟩ := (told _ _).mp member
    cases Path.below_injective same
    have included := (passes_cons.mp passes).1
    rw [show TreeWalk.ofOptions fileWalk.root {} = fileWalk from rfl, junk_excluded] at included
    cases included

end Mixed

end Digesting
end TreeDigest
