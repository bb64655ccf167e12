import TreeDigest.Proofs.Digest.Exactness
namespace TreeDigest

namespace TreeWalk
variable {fs : FileSystem} {w : TreeWalk}

-- A walk that hands nothing on. All that it comes by, if anything, is ignored or skipped.
def Silent (fs : FileSystem) (w : TreeWalk) : Prop :=
  ∀ outcome ∈ w.outcomes fs, outcome = .ignored ∨ w.skipUnreadable = true ∧ ∃ e, outcome = .error e

theorem item?_eq_none {outcome : WalkOutcome} : w.item? outcome = none ↔
    outcome = .ignored ∨ w.skipUnreadable = true ∧ ∃ e, outcome = .error e := by
  cases outcome <;> simp [item?]

theorem items_eq_nil : w.items fs = [] ↔ w.Silent fs := by
  unfold items Silent
  rw [List.filterMap_eq_nil_iff]
  exact forall₂_congr fun outcome _ => item?_eq_none

end TreeWalk

namespace Pipeline
variable {options : RunOptions} {c : Signal}

theorem start?_tripped (workers : 0 < options.workers) (tripped : c.isTripped = true) :
    (start? options (some c) : Except _ (Tuning × Pipeline α β)) = .error .cancelled := by
  obtain ⟨tuning, resolved⟩ : ∃ tuning, Tuning.ofOptions options = .ok tuning :=
    ⟨_, if_neg (Nat.ne_of_gt workers)⟩
  have seen : (some c).any (·.isTripped) = true := tripped
  unfold start?
  rw [resolved, seen]
  rfl

end Pipeline

namespace Digesting
open TreeWalk
variable {fs : FileSystem} {root : Path} {o : DigestOptions} {c : Signal}
  {result : Except PipelineError Report}

theorem Ends.tripped (ends : Ends fs root o (some c) result) (workers : 0 < o.run.workers)
    (tripped : c.isTripped = true) : result = .error .cancelled := by
  cases ends with
  | refused refused =>
    cases refused.symm.trans (Pipeline.start?_tripped workers tripped)
    rfl
  | returned started => cases (Pipeline.start?_tripped workers tripped).symm.trans started

theorem serialFrom_tripped (report : Report) (items : List (Except String Path)) :
    serialFrom fs o true report items = if items = [] then .ok report else .error .cancelled := by
  cases items <;> rfl

theorem serial_tripped (fs : FileSystem) (root : Path) (o : DigestOptions) (tripped : c.isTripped = true) :
    serial fs root o (some c) =
      if (TreeWalk.ofOptions root o).items fs = [] then
        .ok { skipped := (TreeWalk.ofOptions root o).skipped fs }
      else .error .cancelled := by
  have seen : (some c).any (·.isTripped) = true := tripped
  unfold serial
  dsimp only
  rw [seen, serialFrom_tripped]
  split <;> rfl

-- A signal that is tripped before the call keeps a digest from starting, so that it comes to one end
-- only. A walk in turn looks at the signal when it is handed an item, and so never if it is handed none.
theorem tripped_beforehand (fs : FileSystem) (root : Path) (workers : 0 < o.run.workers)
    (tripped : c.isTripped = true) :
    (∀ result, Ends fs root o (some c) result ↔ result = .error .cancelled) ∧
      (¬ (TreeWalk.ofOptions root o).Silent fs → serial fs root o (some c) = .error .cancelled) ∧
      ((TreeWalk.ofOptions root o).Silent fs → serial fs root o (some c) =
        .ok { skipped := (TreeWalk.ofOptions root o).skipped fs }) := by
  refine ⟨fun result => ⟨fun ends => ends.tripped workers tripped, ?_⟩, fun loud => ?_, fun silent => ?_⟩
  · rintro rfl
    exact .refused (Pipeline.start?_tripped workers tripped)
  · rw [serial_tripped fs root o tripped, if_neg (mt items_eq_nil.mp loud)]
  · rw [serial_tripped fs root o tripped, if_pos (items_eq_nil.mpr silent)]

def cancelled : Signal where
  reason := some .requested
  woken := true
  reasoned _ := rfl

theorem tripped_beforehand_mixed :
    0 < going.run.workers ∧ cancelled.isTripped = true ∧
      (∀ result, Ends Sample.mixed.tree Sample.longTop going (some cancelled) result ↔
        result = .error .cancelled) ∧
      serial Sample.mixed.tree Sample.longTop going (some cancelled) = .error .cancelled := by
  have workers : 0 < going.run.workers := by decide
  obtain ⟨ends, loud, -⟩ := tripped_beforehand Sample.mixed.tree Sample.longTop workers
    (show cancelled.isTripped = true from rfl)
  refine ⟨workers, rfl, ends, loud fun silent => ?_⟩
  have plain : Plain (TreeWalk.ofOptions Sample.longTop going) := ⟨rfl, rfl⟩
  have items := items_eq_nil.mpr silent
  rw [Sample.mixed_items plain rfl rfl] at items
  cases items

def bareTop : FileSystem := FileSystem.write {} [⟨[101], by decide⟩] .empty .empty

def bareWalk : TreeWalk := TreeWalk.ofOptions ⟨[101]⟩ {}

theorem bareTop_visits : bareWalk.visits bareTop = [.ok (⟨[101]⟩, .directory)] := by
  have segments : Path.segments [101] = [[101]] := by decide
  have enters : FileSystem.enter (.root bareTop.root) [101] =
      .ok (.place (.child (.root bareTop.root) ⟨[101], by decide⟩ .empty)) := rfl
  have found (follow : Bool) : bareTop.find follow bareWalk.root =
      .ok (.child (.root bareTop.root) ⟨[101], by decide⟩ .empty) := by
    rw [FileSystem.find_eq (show bareWalk.root.bytes ≠ [] by decide) (by decide) (by decide) rfl]
    simp only [bareWalk, TreeWalk.ofOptions, segments, FileSystem.resolve, enters]
  have first : bareTop.kind false bareWalk.root = .ok .directory := FileSystem.kind_ok (found false)
  have listed : bareTop.list bareWalk.root = .ok [] := FileSystem.list_eq (found true) rfl .nil
  have inTurn : bareWalk.visits bareTop = TreeWalk.serial bareTop bareWalk := if_neg (by decide)
  rw [inTurn, serial_plain first (by decide), if_pos rfl, below_listed listed]
  rfl

theorem emptiness_unheeded :
    Ends bareTop ⟨[101]⟩ {} (some cancelled) (.error .cancelled) ∧
      serial bareTop ⟨[101]⟩ {} (some cancelled) = .ok {} := by
  have outcomes : bareWalk.outcomes bareTop = [.ignored] := by
    rw [TreeWalk.outcomes, bareTop_visits]
    rfl
  have items : bareWalk.items bareTop = [] := by rw [TreeWalk.items, outcomes]; rfl
  have skipped : bareWalk.skipped bareTop = [] := by rw [TreeWalk.skipped, outcomes]; rfl
  refine ⟨.refused (Pipeline.start?_tripped (by decide) rfl), ?_⟩
  rw [serial_tripped bareTop ⟨[101]⟩ {} rfl]
  change (if bareWalk.items bareTop = [] then (.ok { skipped := bareWalk.skipped bareTop } :
    Except PipelineError Report) else _) = _
  rw [items, skipped, if_pos rfl]

end Digesting
end TreeDigest
