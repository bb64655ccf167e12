import Mathlib.Data.List.Basic
import TreeDigest.Proofs.Walk.Items
namespace TreeDigest

namespace WalkOutcome

def file? : WalkOutcome → Option Path
  | .file path => some path
  | _ => none

def complaint? : WalkOutcome → Option (Path × String)
  | .error e => some (e.place, e.message)
  | _ => none

end WalkOutcome

namespace TreeWalk
variable {fs : FileSystem} {w : TreeWalk}

def yielded (fs : FileSystem) (w : TreeWalk) : List Path := (w.outcomes fs).filterMap WalkOutcome.file?

def complaints (fs : FileSystem) (w : TreeWalk) : Complaints :=
  (w.outcomes fs).filterMap WalkOutcome.complaint?

def skipping (w : TreeWalk) (skip : Bool) : TreeWalk := { w with skipUnreadable := skip }

theorem below_skipping (fs : FileSystem) (w : TreeWalk) (skip : Bool) (trail : List Path)
    (path : Path) : below fs (w.skipping skip) trail path = below fs w trail path := by
  cases listed : fs.list path with
  | error e => rw [below_failed listed, below_failed listed]
  | ok entries =>
    rw [below_listed listed, below_listed listed]
    refine List.flatMap_congr fun e member => ?_
    have shorter := FileSystem.list_length listed
    have longer := path.join_name_length e.1
    unfold entryVisits
    rw [below_skipping fs w skip]
    rfl
termination_by FileSystem.longestPath + 1 - path.bytes.length

theorem belowParallel_skipping (fs : FileSystem) (w : TreeWalk) (skip : Bool) (ancestors : List Path)
    (path : Path) :
    belowParallel fs (w.skipping skip) ancestors path = belowParallel fs w ancestors path := by
  cases listed : fs.list path with
  | error e => rw [belowParallel_failed listed, belowParallel_failed listed]
  | ok entries =>
    rw [belowParallel_listed listed, belowParallel_listed listed]
    refine List.flatMap_congr fun b member => ?_
    obtain ⟨e, -, rfl⟩ := List.mem_map.mp (mem_arrange member)
    have shorter := FileSystem.list_length listed
    have longer := path.join_name_length e.1
    have same : branch fs (w.skipping skip) (path :: ancestors) (path.join e.1.path) e.2 =
        branch fs w (path :: ancestors) (path.join e.1.path) e.2 := rfl
    rw [same]
    cases made : branch fs w (path :: ancestors) (path.join e.1.path) e.2 with
    | error _ => rfl
    | ok b =>
      simp only [branchVisits]
      cases read : b.readAt with
      | none => rfl
      | some q =>
        rw [branch_readAt made read]
        exact congrArg (_ :: ·) (belowParallel_skipping fs w skip _ _)
termination_by FileSystem.longestPath + 1 - path.bytes.length

theorem outcomes_skipping (fs : FileSystem) (w : TreeWalk) (skip : Bool) :
    (w.skipping skip).outcomes fs = w.outcomes fs := by
  have inTurn : serial fs (w.skipping skip) = serial fs w := by
    unfold serial serialRoot
    rw [below_skipping]
    rfl
  have inParallel : parallelVisits fs (w.skipping skip) = parallelVisits fs w := by
    unfold parallelVisits
    simp only [belowParallel_skipping]
    rfl
  have visits : (w.skipping skip).visits fs = w.visits fs := by
    unfold TreeWalk.visits
    rw [inTurn, inParallel]
    rfl
  unfold outcomes
  rw [visits]
  rfl

theorem yielded_skipping (fs : FileSystem) (w : TreeWalk) (skip : Bool) :
    (w.skipping skip).yielded fs = w.yielded fs := by
  unfold yielded
  rw [outcomes_skipping]

theorem complaints_skipping (fs : FileSystem) (w : TreeWalk) (skip : Bool) :
    (w.skipping skip).complaints fs = w.complaints fs := by
  unfold complaints
  rw [outcomes_skipping]

theorem items_yielded (fs : FileSystem) (w : TreeWalk) :
    (w.items fs).filterMap (·.toOption) = w.yielded fs := by
  unfold items yielded
  rw [List.filterMap_filterMap]
  congr 1
  funext outcome
  cases outcome with
  | file path | ignored => rfl
  | error e => cases skip : w.skipUnreadable <;> simp [item?, skip, WalkOutcome.file?, Except.toOption]

theorem firstError?_items (unskipped : w.skipUnreadable = false) :
    firstError? (w.items fs) = (w.complaints fs).head?.map (·.2) := by
  unfold items complaints
  induction w.outcomes fs with
  | nil => rfl
  | cons outcome rest ih =>
    cases outcome with
    | file path | ignored => exact ih
    | error e => simp [item?, unskipped, firstError?, WalkOutcome.complaint?]

theorem firstError?_skipped (skipped : w.skipUnreadable = true) : firstError? (w.items fs) = none := by
  unfold items
  induction w.outcomes fs with
  | nil => rfl
  | cons outcome rest ih =>
    cases outcome with
    | file path | ignored => exact ih
    | error e => simpa [item?, skipped] using ih

theorem skipped_complaints (skipped : w.skipUnreadable = true) : w.skipped fs = w.complaints fs := by
  unfold TreeWalk.skipped complaints
  congr 1
  funext outcome
  cases outcome <;> simp [skip?, skipped, WalkOutcome.complaint?]

theorem skipped_nothing (unskipped : w.skipUnreadable = false) : w.skipped fs = [] := by
  unfold TreeWalk.skipped
  rw [List.filterMap_eq_nil_iff]
  intro outcome _
  cases outcome <;> simp [skip?, unskipped]

theorem leading_items (whole : firstError? (w.items fs) = none) :
    leading (w.items fs) = w.yielded fs := by
  rw [← items_yielded]
  conv_rhs => rw [leading_eq whole]
  simp [Except.toOption]

theorem leading_yielded : leading (w.items fs) ⊆ w.yielded fs := by
  rw [← items_yielded]
  exact leading_sublist.subset

theorem yielded_ascending (fs : FileSystem) (w : TreeWalk) :
    (w.yielded fs).Pairwise fun p q => p.compare q = .lt := by
  rw [← items_yielded]
  exact (visits_ascending fs w).sublist items_sublist

end TreeWalk
end TreeDigest
