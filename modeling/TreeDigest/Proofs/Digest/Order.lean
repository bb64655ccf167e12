import TreeDigest.Proofs.Digest.Lenient
namespace TreeDigest.Digesting
open Std TreeWalk

variable {fs : FileSystem} {root path : Path} {o : DigestOptions} {caller : Option Signal} {report : Report}
  {paths : List Path}

def InPathOrder (paths : List Path) : Prop := paths.Pairwise fun p q => p.compare q = .lt

theorem InPathOrder.single (order : InPathOrder paths) : (paths.map (·.components)).Nodup := by
  refine List.pairwise_map.mpr (order.imp fun before same => ?_)
  rw [Path.compare_eq_iff.mpr same] at before
  cases before

-- A walk hands on its files in path order, whatever it leaves out, follows or cannot read in between. A
-- digest in turn therefore has its failures in the order in which sorting would put them, and never sorts.
theorem in_path_order (fs : FileSystem) :
    (∀ w : TreeWalk, InPathOrder ((w.items fs).filterMap (·.toOption)) ∧
      (((w.items fs).filterMap (·.toOption)).map (·.components)).Nodup) ∧
    ∀ (root : Path) (o : DigestOptions) (caller : Option Signal) (report : Report),
      serial fs root o caller = .ok report →
        report.failures = ((TreeWalk.ofOptions root o).yielded fs).filterMap (unreadable? fs) ∧
        InPathOrder (report.failures.map (·.1)) ∧ Complaints.sort report.failures = report.failures := by
  have order (w : TreeWalk) : InPathOrder ((w.items fs).filterMap (·.toOption)) :=
    (visits_ascending fs w).sublist items_sublist
  refine ⟨fun w => ⟨order w, (order w).single⟩, fun root o caller report done => ?_⟩
  obtain ⟨whole, -, rfl⟩ := serial_gathered done
  rw [leading_items whole]
  have ascending : OrderedMap.Ascending Path.compare
      (((TreeWalk.ofOptions root o).yielded fs).filterMap (unreadable? fs)) :=
    ascending_read (yielded_ascending ..) fun path => failureOf (hashFile fs path)
  exact ⟨List.nil_append _, List.pairwise_map.mpr ascending, sort_eq ascending (.refl _)⟩

section Mixed
open Sample

theorem in_path_order_mixed : Path.compareBytes inFolder.bytes dashedAtTop.bytes = .gt ∧
    ∃ report, serial mixed.tree longTop going none = .ok report ∧
      report.failures.map (·.1) = [inFolder, dashedAtTop] ∧
      Complaints.sort report.failures = report.failures := by
  obtain ⟨-, sorted⟩ := in_path_order mixed.tree
  have told := (sorted _ _ _ _ going_serial).2.2
  refine ⟨?_, _, going_serial, by simp only [List.map_cons, List.map_nil], told⟩
  rw [inFolder, dashedAtTop, longTop, padded_join_folder, padded_join, List.append_assoc, Path.compareBytes,
    Path.compareLists_append]
  decide

end Mixed
end TreeDigest.Digesting
