import TreeDigest.Proofs.Pipeline.Exactness
import TreeDigest.Proofs.Run.Attuned
namespace TreeDigest

namespace Pipeline
variable {job : Job α β} {s t : Pipeline α β} {e : Event} {r : CancelReason}

def Caused (s : Pipeline α β) : CancelReason → Prop
  | .failed => ∃ m, .failed m ∈ s.feed.reports
  | .workerPanicked => s.Panicked
  | .requested => ∃ c, s.caller = some c ∧ c.woken = true
  | .timedOut => s.expired = true
  | .released => False

theorem Step.reports_stay (step : Step job s e t) : s.feed.reports ⊆ t.feed.reports := by
  cases step with
  | source moved =>
    obtain ⟨-, ⟨same, -⟩ | ⟨ended, -, reports, -⟩⟩ := moved.posts
    · simp [same]
    · simp [reports]
  | take worker taken => simp [setWorker, taken.posts.2.1]
  | letGo worker => simp [Pipeline.letGo, setWorker, s.feed.hangUp_posts.2.1]
  | @streamWakes first q waking => cases q <;> exact List.Subset.refl _
  | _ => exact List.Subset.refl _

theorem Step.caller_stays (step : Step job s e t)
    (woken : ∃ c, s.caller = some c ∧ c.woken = true) : ∃ c, t.caller = some c ∧ c.woken = true := by
  cases step with
  | callerRecords caller kept quiet =>
    obtain ⟨c, own, awake⟩ := woken
    cases caller.symm.trans own
    exact ⟨_, rfl, awake⟩
  | callerWakes caller tripped asleep => exact ⟨_, rfl, tripped⟩
  | @streamWakes first q waking => cases q <;> exact woken
  | _ => exact woken

theorem Step.expired_stays (step : Step job s e t) (expired : s.expired = true) :
    t.expired = true := by
  cases step with
  | deadline => rfl
  | @streamWakes first q waking => cases q <;> exact expired
  | _ => exact expired

theorem Step.verdicts_stay (step : Step job s e t) : s.stream.verdicts ⊆ t.stream.verdicts := by
  cases step with
  | resolve resolving => exact List.subset_cons_self _ _
  | @streamWakes first q waking => cases q <;> exact List.Subset.refl _
  | _ => exact List.Subset.refl _

theorem Step.drained_stays (step : Step job s e t) (drained : s.stream.drained = true) :
    t.stream.drained = true := by
  cases step with
  | drain => rfl
  | @streamWakes first q waking => cases q <;> exact drained
  | _ => exact drained

theorem Caused.step (caused : s.Caused r) (step : Step job s e t) : t.Caused r := by
  cases r with
  | requested => exact step.caller_stays caused
  | timedOut => exact step.expired_stays caused
  | failed => exact caused.imp fun m reported => step.reports_stay reported
  | workerPanicked => exact step.panicked_stays caused
  | released => exact caused

-- A verdict with what it rests on. The last case is a source that broke down before it could say
-- anything.
def Verdict (job : Job α β) (s : Pipeline α β) : Except PipelineError Nat → Prop
  | .ok n => .ok n ∈ s.stream.verdicts
  | .error e =>
    (∃ m, .failed m ∈ s.feed.reports ∧ e = .enumeration m) ∨
      (∃ r, s.signal.reason = some r ∧ r ≠ .failed ∧ s.Caused r ∧ e = .ofReason r job.timeout) ∨
      (job.source.starts = false ∧ e = .cancelled)

theorem Verdict.step {v : Except PipelineError Nat} (verdict : s.Verdict job v)
    (step : Step job s e t) : t.Verdict job v := by
  cases v with
  | ok n => exact step.verdicts_stay verdict
  | error e =>
    rcases verdict with ⟨m, reported, rfl⟩ | ⟨r, reason, other, caused, rfl⟩ | broken
    · exact .inl ⟨m, step.reports_stay reported, rfl⟩
    · exact .inr (.inl ⟨r, step.reason_stays reason, other, caused.step step, rfl⟩)
    · exact .inr (.inr broken)

-- Where the call's own trips have not played a part yet, a run that is stopped is stopped for a cause.
structure Blamed (s : Pipeline α β) : Prop where
  reason : ∀ r, s.signal.reason = some r → s.Caused r
  watchdog : ∀ r, s.watchdog = some (.recording r) → s.Caused r
  kept : s.callerKept = true

theorem Blamed.recorded (blamed : s.Blamed) (honest : s.feed.Honest job.source)
    (step : Step job s e t) (own : ∀ r q, s.stream.phase = .recording r q → s.signal.isTripped = true)
    (r : CancelReason) (reason : t.signal.reason = some r) : t.Caused r := by
  cases tripped : s.signal.isTripped with
  | true =>
    obtain ⟨q, found⟩ := Signal.isTripped_iff.mp tripped
    have same : some q = some r := (step.reason_stays found).symm.trans reason
    cases same
    exact (blamed.reason _ found).step step
  | false =>
    have caused : s.Caused r := by
      cases step.reason_new tripped reason with
      | source phase =>
        have standing := honest.standing
        simp only [Feed.Standing, phase] at standing
        obtain ⟨-, m, reports, -⟩ := standing
        exact ⟨m, by simp [reports]⟩
      | worker member => exact ⟨_, member, rfl⟩
      | watchdog recording => exact blamed.watchdog r recording
      | stream recording => simp [own _ _ recording] at tripped
    exact caused.step step

theorem Blamed.step (blamed : s.Blamed) (honest : s.feed.Honest job.source) (step : Step job s e t)
    (own : ∀ r q, s.stream.phase = .recording r q → s.signal.isTripped = true)
    (stays : e ≠ .callerLeave) : t.Blamed := by
  refine ⟨blamed.recorded honest step own, ?_, ?_⟩
  · intro r recording
    have old : s.watchdog = some (.recording r) → t.Caused r :=
      fun before => (blamed.watchdog r before).step step
    cases step with
    | watchdogRelays watchdog ready =>
      cases recording
      unfold callerReady at ready
      split at ready
      · rename_i c caller
        exact ⟨c, caller, by simpa [blamed.kept] using ready⟩
      · cases ready
    | watchdogExpires watchdog expired => cases recording; exact expired
    | watchdogLeaves | watchdogRecords | watchdogWakes => cases recording
    | @streamWakes first q waking => cases q <;> exact old recording
    | _ => exact old recording
  · cases step with
    | callerLeaves kept => exact absurd rfl stays
    | @streamWakes first q waking => cases q <;> exact blamed.kept
    | _ => exact blamed.kept

theorem start_blamed (tuning : Tuning) (caller : Option Signal) :
    (start tuning caller : Pipeline α β).Blamed where
  reason r reason := by simp [start, pool] at reason
  watchdog r recording := by
    simp only [start] at recording
    split at recording <;> simp at recording
  kept := rfl

end Pipeline
end TreeDigest
