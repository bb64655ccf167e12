import TreeDigest.Proofs.Feed.Reports
namespace TreeDigest

-- How far the source is from its end, beside the requests it has still to make. A request is paid for
-- by what it may lead to: an item that is offered, queued and worked on.
def FeedPhase.effort : FeedPhase α → Nat
  | .starting => 7
  | .asking => 6
  | .asked _ => 17
  | .offering _ => 16
  | .reporting _ => 3
  | .recording => 2
  | .waking => 1
  | .closing | .exited => 0

namespace Feed

def effort (limit : Nat) (f : Feed α) : Nat :=
  12 * (limit + 1 - f.asked) + f.phase.effort + f.itemsOpen.toNat + f.statusOpen.toNat +
    9 * f.queue.toList.length

variable {source : Enumerator α} {capacity : Option Nat} {f g : Feed α} {s t : Signal} {limit : Nat}

theorem report_effort {ended : SourceEnd} (phase : f.phase = .reporting ended) :
    (f.report ended).effort limit < f.effort limit := by
  cases ended <;> simp only [effort, report, phase, FeedPhase.effort] <;> omega

theorem Step.effort_lt (step : Step source capacity f s g t) (honest : f.Honest source)
    (stops : ∀ x, source.pull limit ≠ .item x) : g.effort limit < f.effort limit := by
  cases step with
  | ask phase =>
    have standing := honest.standing
    simp only [Standing, phase] at standing
    have short := honest.yields.length_le stops
    have asked : f.asked = f.emitted.length := standing.2.1
    rw [List.length_reverse] at short
    simp only [effort, phase, FeedPhase.effort]
    omega
  | place phase room =>
    simp only [effort, Feed.place, phase, FeedPhase.effort, Queue.toList_push, List.length_append,
      List.length_singleton]
    omega
  | report phase => exact report_effort phase
  | closeItems phase isOpen =>
    cases status : f.statusOpen <;>
      simp [effort, Feed.closeItems, FeedPhase.effort, phase, isOpen, status]
  | closeStatus phase isOpen =>
    cases items : f.itemsOpen <;>
      simp [effort, Feed.closeStatus, FeedPhase.effort, phase, isOpen, items]
  | start phase | breakDown phase | panic phase | finish phase | accept phase | fail phase
  | cutOff phase | abandon phase | interrupt phase | record phase | wake phase =>
    simp only [effort, phase, FeedPhase.effort]
    omega

theorem Takes.effort_le {x : α} (taken : Takes capacity f x g) (limit : Nat) :
    g.effort limit + 9 ≤ f.effort limit := by
  cases taken with
  | queued popped =>
    simp only [effort, Queue.pop?_eq_some popped, List.length_cons]
    omega
  | offered empty rendezvous phase =>
    simp only [effort, Feed.place, phase, FeedPhase.effort]
    omega

theorem hangUp_effort (f : Feed α) (limit : Nat) : f.hangUp.effort limit ≤ f.effort limit := by
  unfold hangUp
  split
  · simp only [effort, Queue.toList_empty, List.length_nil]
    omega
  · exact Nat.le_refl _

end Feed
end TreeDigest
