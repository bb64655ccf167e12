import TreeDigest.Proofs.Cancel.Steps
import TreeDigest.Proofs.Feed.Reports
import TreeDigest.Proofs.Pipeline.Pool
namespace TreeDigest

namespace WorkerPhase

def hasPanicked : WorkerPhase α β → Bool
  | .leaving panicked | .counting panicked | .exited panicked => panicked
  | .recording | .waking => true
  | _ => false

def hasRecorded : WorkerPhase α β → Bool
  | .counting panicked | .exited panicked => panicked
  | .waking => true
  | _ => false

end WorkerPhase

namespace Pipeline

inductive Records (s : Pipeline α β) : CancelReason → Prop where
  | source (phase : s.feed.phase = .recording) : Records s .failed
  | worker (member : .recording ∈ s.workers) : Records s .workerPanicked
  | watchdog {r : CancelReason} (watchdog : s.watchdog = some (.recording r)) : Records s r
  | stream {r : CancelReason} {q : Request} (phase : s.stream.phase = .recording r q) : Records s r

inductive Wakes (s : Pipeline α β) : Prop where
  | source (phase : s.feed.phase = .waking)
  | worker (member : .waking ∈ s.workers)
  | watchdog (watchdog : s.watchdog = some .waking)
  | stream {first : Bool} {q : Request} (phase : s.stream.phase = .waking first q)

variable {job : Job α β} {s t : Pipeline α β} {e : Event} {r : CancelReason}

theorem Step.signal_cases (step : Step job s e t) :
    t.signal = s.signal ∨ (∃ r, s.Records r ∧ t.signal = s.signal.record r) ∨
      (s.Wakes ∧ t.signal = s.signal.wake) := by
  cases step with
  | source moved =>
    cases moved with
    | record phase => exact .inr (.inl ⟨_, .source phase, rfl⟩)
    | wake phase => exact .inr (.inr ⟨.source phase, rfl⟩)
    | _ => exact .inl rfl
  | recordPanic worker => exact .inr (.inl ⟨_, .worker (Array.mem_of_getElem? worker), rfl⟩)
  | wakePanic worker => exact .inr (.inr ⟨.worker (Array.mem_of_getElem? worker), rfl⟩)
  | watchdogRecords watchdog => exact .inr (.inl ⟨_, .watchdog watchdog, rfl⟩)
  | watchdogWakes watchdog => exact .inr (.inr ⟨.watchdog watchdog, rfl⟩)
  | streamRecords recording => exact .inr (.inl ⟨_, .stream recording, rfl⟩)
  | @streamWakes first q waking => cases q <;> exact .inr (.inr ⟨.stream waking, rfl⟩)
  | _ => exact .inl rfl

theorem Step.reason_stays (step : Step job s e t) (first : s.signal.reason = some r) :
    t.signal.reason = some r := by
  rcases step.signal_cases with same | ⟨_, -, same⟩ | ⟨-, same⟩ <;> rw [same]
  · exact first
  · exact Signal.record_reason first
  · exact first

theorem Step.tripped_stays (step : Step job s e t) (tripped : s.signal.isTripped = true) :
    t.signal.isTripped = true := by
  obtain ⟨r, first⟩ := Signal.isTripped_iff.mp tripped
  exact Signal.isTripped_iff.mpr ⟨r, step.reason_stays first⟩

theorem Step.woken_stays (step : Step job s e t) (woken : s.signal.woken = true) :
    t.signal.woken = true := by
  rcases step.signal_cases with same | ⟨_, -, same⟩ | ⟨-, same⟩ <;> rw [same]
  · exact woken
  · exact woken
  · exact Signal.isTripped_of_woken woken

theorem Step.reason_new (step : Step job s e t) (quiet : s.signal.isTripped = false)
    (reason : t.signal.reason = some r) : s.Records r := by
  have none : s.signal.reason = none := by simpa [Signal.isTripped] using quiet
  rcases step.signal_cases with same | ⟨q, records, same⟩ | ⟨-, same⟩
  · simp [same, none] at reason
  · simp only [same, Signal.record, none, Option.none_or, Option.some.injEq] at reason
    exact reason ▸ records
  · simp [same, none] at reason

-- Wherever a party stands that has recorded a reason, or relies on one, there is one.
structure Traced (s : Pipeline α β) : Prop where
  source : ∀ m, .failed m ∈ s.feed.reports →
    s.feed.phase = .recording ∨ s.signal.isTripped = true
  workers : ∀ w ∈ s.workers, w.hasRecorded = true → s.signal.isTripped = true
  stream : (∃ first q, s.stream.phase = .waking first q) ∨ s.stream.phase = .polling →
    s.signal.isTripped = true
  closing : s.stream.phase = .closing ∨ s.stream.phase = .gone → s.signal.woken = true

theorem Traced.source_step (traced : s.Traced) (step : Step job s e t) {m : String}
    (failed : .failed m ∈ t.feed.reports) :
    t.feed.phase = .recording ∨ t.signal.isTripped = true := by
  have old : .failed m ∈ s.feed.reports →
      s.feed.phase = .recording ∨ t.signal.isTripped = true :=
    fun before => (traced.source m before).imp_right step.tripped_stays
  cases step with
  | source moved =>
    cases moved with
    | @report ended phase =>
      cases ended with
      | completed n | cancelled n =>
        simp only [Feed.report, List.mem_cons, reduceCtorEq, false_or] at failed
        have := old failed
        simp_all
      | failed m => exact .inl rfl
    | record phase => exact .inr Signal.record_isTripped
    | closeItems phase isOpen | closeStatus phase isOpen =>
      have := old failed
      simp_all
    | _ =>
      have := old failed
      simp_all
  | take worker taken =>
    cases taken with
    | queued popped => exact old failed
    | offered empty rendezvous phase =>
      have := old failed
      simp_all
  | letGo worker =>
    have same : s.feed.hangUp.reports = s.feed.reports ∧ s.feed.hangUp.phase = s.feed.phase := by
      unfold Feed.hangUp
      split <;> exact ⟨rfl, rfl⟩
    simp only [letGo, setWorker, same] at failed ⊢
    exact old failed
  | @streamWakes first q waking => cases q <;> exact old failed
  | _ => exact old failed

theorem Traced.worker_step (traced : s.Traced) (step : Step job s e t) {w : WorkerPhase α β}
    (member : w ∈ t.workers) (recorded : w.hasRecorded = true) : t.signal.isTripped = true := by
  have old : w ∈ s.workers → t.signal.isTripped = true :=
    fun before => step.tripped_stays (traced.workers w before recorded)
  have fresh {i : Nat} {v : WorkerPhase α β} {u : Pipeline α β} (same : u.workers = s.workers)
      (new : v.hasRecorded = true → t.signal.isTripped = true)
      (member : w ∈ (u.setWorker i v).workers) : t.signal.isTripped = true := by
    rcases mem_setWorker member with rfl | before
    · exact new recorded
    · exact old (same ▸ before)
  cases step with
  | take | runDry | stopWaiting | putDown | begin | produce | panic | enqueue | handOver | giveUp =>
    exact fresh rfl (by simp [WorkerPhase.hasRecorded]) member
  | @letGo i panicked worker =>
    refine fresh rfl ?_ member
    cases panicked <;> simp [WorkerPhase.hasRecorded]
  | recordPanic worker => exact fresh rfl (fun _ => Signal.record_isTripped) member
  | wakePanic worker =>
    exact fresh rfl (fun _ => traced.workers _ (Array.mem_of_getElem? worker) rfl) member
  | @countOff i panicked worker =>
    exact fresh (v := .exited panicked) rfl
      (fun new => traced.workers _ (Array.mem_of_getElem? worker) new) member
  | @streamWakes first q waking => cases q <;> exact old member
  | _ => exact old member

theorem Traced.stream_step (traced : s.Traced) (step : Step job s e t)
    (relies : (∃ first q, t.stream.phase = .waking first q) ∨ t.stream.phase = .polling) :
    t.signal.isTripped = true := by
  have old : (∃ first q, s.stream.phase = .waking first q) ∨ s.stream.phase = .polling →
      t.signal.isTripped = true := fun before => step.tripped_stays (traced.stream before)
  cases step with
  | streamRecords recording => exact Signal.record_isTripped
  | look looking =>
    rcases s.lookUp_cases with ⟨next, -⟩ | ⟨-, tripped⟩ | ⟨next, -⟩
    · simp [setStream, next] at relies
    · exact tripped
    · simp [setStream, next] at relies
  | handOver | endAgain | select | finishDrained | finishEarly | trip | drop | receive | drain |
    interrupt | poll | hear | resolve | close =>
    simp [setWorker, Pipeline.receive, answered, Pipeline.begin, takeReport, Pipeline.resolve,
      dropStream] at relies
  | @streamWakes first q waking => cases q <;> simp [afterTrip, setStream, answered] at relies
  | _ => exact old relies

theorem Traced.closing_step (traced : s.Traced) (step : Step job s e t)
    (relies : t.stream.phase = .closing ∨ t.stream.phase = .gone) : t.signal.woken = true := by
  have old : s.stream.phase = .closing ∨ s.stream.phase = .gone → t.signal.woken = true :=
    fun before => step.woken_stays (traced.closing before)
  cases step with
  | handOver | endAgain | select | finishDrained | finishEarly | trip | drop | receive | drain |
    interrupt | streamRecords | poll | hear | resolve =>
    simp [setWorker, Pipeline.receive, answered, Pipeline.begin, setStream, takeReport,
      Pipeline.resolve] at relies
  | look looking =>
    rcases s.lookUp_cases with ⟨next, -⟩ | ⟨next, -⟩ | ⟨next, -⟩ <;> simp [setStream, next] at relies
  | close closing => exact old (.inl closing)
  | @streamWakes first q waking => cases q <;> exact traced.stream (.inl ⟨_, _, waking⟩)
  | _ => exact old relies

theorem Traced.step (traced : s.Traced) (step : Step job s e t) : t.Traced where
  source _ failed := traced.source_step step failed
  workers _ member recorded := traced.worker_step step member recorded
  stream relies := traced.stream_step step relies
  closing relies := traced.closing_step step relies

theorem start_traced (tuning : Tuning) (caller : Option Signal) :
    (start tuning caller : Pipeline α β).Traced where
  source _ failed := by simp [start, pool] at failed
  workers w member recorded := by
    have receiving : w = .receiving := by
      simp only [start, pool, Array.mem_replicate] at member
      exact member.2
    simp [receiving, WorkerPhase.hasRecorded] at recorded
  stream relies := by simp [start, pool] at relies
  closing relies := by simp [start, pool] at relies

end Pipeline
end TreeDigest
