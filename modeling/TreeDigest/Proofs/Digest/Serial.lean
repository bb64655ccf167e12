import TreeDigest.Digest.Tree
import TreeDigest.Proofs.Run.Collected
import TreeDigest.Proofs.Walk.Items
namespace TreeDigest
open Std

namespace Digesting
open TreeWalk

def digested? (fs : FileSystem) (path : Path) : Option (Path × Digest) :=
  (hashFile fs path).toOption.map (path, ·)

def unreadable? (fs : FileSystem) (path : Path) : Option (Path × String) :=
  (failureOf (hashFile fs path)).map (path, ·)

variable {fs : FileSystem} {o : DigestOptions} {items : List (Except String Path)} {report : Report}

def gathered (fs : FileSystem) (report : Report) (paths : List Path) : Report :=
  { report with
    digests := report.digests ++ paths.filterMap (digested? fs)
    failures := report.failures ++ paths.filterMap (unreadable? fs) }

theorem gathered_ok {path : Path} {d : Digest} (hashed : hashFile fs path = .ok d) (paths : List Path) :
    gathered fs report (path :: paths) =
      gathered fs { report with digests := report.digests ++ [(path, d)] } paths := by
  simp [gathered, digested?, unreadable?, hashed, Except.toOption, failureOf]

theorem gathered_error {path : Path} {m : String} (fails : hashFile fs path = .error m)
    (paths : List Path) : gathered fs report (path :: paths) =
      gathered fs { report with failures := report.failures ++ [(path, m)] } paths := by
  simp [gathered, digested?, unreadable?, fails, Except.toOption, failureOf]

-- Files that come in path order are entered one behind the other. Only an error of the walk can end it,
-- or a file that cannot be hashed where that counts.
theorem serialFrom_gathered
    (ascending : (report.digests.map (·.1) ++ leading items).Pairwise fun p q => p.compare q = .lt)
    (fine : o.keepGoing = true ∨ ∀ path ∈ leading items, ∃ d, hashFile fs path = .ok d) :
    serialFrom fs o false report items =
      match firstError? items with
      | some m => .error (.enumeration m)
      | none => .ok (gathered fs report (leading items)) := by
  -- The report so far stays below everything that is still to come.
  induction items generalizing report with
  | nil => simp [serialFrom, firstError?, gathered, leading]
  | cons next rest ih =>
    cases next with
    | error m => rfl
    | ok path =>
      rw [leading] at ascending
      have order := List.pairwise_append.mp ascending
      have later : o.keepGoing = true ∨ ∀ path ∈ leading rest, ∃ d, hashFile fs path = .ok d :=
        fine.imp_right fun all path member => all path (List.mem_cons_of_mem _ member)
      simp only [serialFrom, Bool.false_eq_true, if_false, firstError?]
      cases hashed : hashFile fs path with
      | ok d =>
        have behind : ∀ e ∈ report.digests, Path.compare path e.1 = .gt := fun e member =>
          OrientedCmp.gt_of_lt (order.2.2 e.1 (List.mem_map_of_mem member) path (List.mem_cons_self ..))
        have entered : Digests.insert path d report.digests = report.digests ++ [(path, d)] :=
          OrderedMap.insert_last behind
        simp only [entered]
        rw [ih (by simpa using ascending) later]
        cases firstError? rest with
        | some m => rfl
        | none => rw [leading, gathered_ok hashed]
      | error m =>
        have going : o.keepGoing = true := by
          apply fine.resolve_right
          intro all
          obtain ⟨d, ok⟩ := all path (List.mem_cons_self ..)
          cases hashed.symm.trans ok
        simp only [going, if_true]
        rw [ih ?_ later]
        · cases firstError? rest with
          | some m => rfl
          | none => rw [leading, gathered_error hashed]
        · exact ascending.sublist (List.Sublist.append (.refl _) (List.sublist_cons_self ..))

theorem serialFrom_rejected (report : Report) (strict : o.keepGoing = false)
    (bad : ∃ path ∈ leading items, ∃ m, hashFile fs path = .error m) :
    ∃ path m, path ∈ leading items ∧ hashFile fs path = .error m ∧
      serialFrom fs o false report items = .error (.transform (shown path) m) := by
  induction items generalizing report with
  | nil =>
    obtain ⟨path, member, -⟩ := bad
    cases member
  | cons next rest ih =>
    obtain ⟨worst, member, m, fails⟩ := bad
    cases next with
    | error m => cases member
    | ok path =>
      cases hashed : hashFile fs path with
      | error m =>
        exact ⟨path, m, List.mem_cons_self .., hashed, by simp [serialFrom, hashed, strict]⟩
      | ok d =>
        have later : worst ∈ leading rest := by
          rcases List.mem_cons.mp member with rfl | later
          · cases hashed.symm.trans fails
          · exact later
        obtain ⟨found, m', here, error, ends⟩ :=
          ih { report with digests := Digests.insert path d report.digests } ⟨worst, later, m, fails⟩
        exact ⟨found, m', List.mem_cons_of_mem _ here, error, by simpa [serialFrom, hashed] using ends⟩

end Digesting
end TreeDigest
