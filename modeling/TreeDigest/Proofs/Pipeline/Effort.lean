import TreeDigest.Proofs.Feed.Effort
import TreeDigest.Proofs.Pipeline.Exactness
namespace TreeDigest

namespace WorkerPhase

def effort : WorkerPhase α β → Nat
  | .receiving => 5
  | .holding _ => 13
  | .transforming _ => 12
  | .delivering _ => 11
  | .leaving _ => 4
  | .recording => 3
  | .waking => 2
  | .counting _ => 1
  | .exited _ => 0

end WorkerPhase

def CloserPhase.effort : CloserPhase → Nat
  | .waiting => 2
  | .closing => 1
  | .done => 0

def WatchPhase.effort : WatchPhase → Nat
  | .watching => 3
  | .recording _ => 2
  | .waking => 1
  | .exited => 0

def Request.effort : Request → Nat
  | .finish => 5
  | .drop => 3
  | .next | .trip _ => 2

def StreamPhase.effort : StreamPhase → Nat
  | .idle | .gone => 0
  | .selecting | .resolving | .closing => 1
  | .polling | .awaiting => 2
  | .looking => 3
  | .recording _ q => q.effort
  | .waking _ q => q.effort - 1

def Signal.effort (s : Signal) : Nat := (!s.isTripped).toNat + (!s.woken).toNat

namespace Pipeline

def effort (limit : Nat) (s : Pipeline α β) : Nat :=
  s.feed.effort limit + tally WorkerPhase.effort s.workers + 5 * s.results.toList.length +
    s.closer.effort + (s.watchdog.elim 0 WatchPhase.effort) + s.stream.phase.effort +
    (s.caller.elim 0 Signal.effort) + s.callerKept.toNat + (!s.expired).toNat

variable {job : Job α β} {s t : Pipeline α β} {e : Event} (limit : Nat)

theorem effort_setWorker {i : Nat} {w : WorkerPhase α β} (worker : s.workers[i]? = some w)
    (v : WorkerPhase α β) :
    (s.setWorker i v).effort limit + w.effort = s.effort limit + v.effort := by
  have moved := tally_set WorkerPhase.effort worker v
  simp only [effort, setWorker]
  omega

theorem effort_move {i : Nat} {w v : WorkerPhase α β} {u : Pipeline α β}
    (worker : u.workers[i]? = some w) (same : u.effort limit = s.effort limit)
    (nearer : v.effort < w.effort) : (u.setWorker i v).effort limit < s.effort limit := by
  have moved := effort_setWorker limit worker v
  omega

theorem effort_feed (feed : Feed α) :
    ({ s with feed } : Pipeline α β).effort limit + s.feed.effort limit =
      s.effort limit + feed.effort limit := by
  simp only [effort]
  omega

theorem effort_results (results : Queue (Outcome α β)) :
    ({ s with results } : Pipeline α β).effort limit + 5 * s.results.toList.length =
      s.effort limit + 5 * results.toList.length := by
  simp only [effort]
  omega

theorem effort_stream (stream : Stream α β) :
    ({ s with stream } : Pipeline α β).effort limit + s.stream.phase.effort =
      s.effort limit + stream.phase.effort := by
  simp only [effort]
  omega

theorem effort_receive (o : Outcome α β) (selecting : s.stream.phase = .selecting) :
    (s.receive o).effort limit + 1 = s.effort limit := by
  have taken := effort_stream (s := s) limit (s.receive o).stream
  rw [selecting] at taken
  exact taken

theorem lookUp_effort : s.lookUp.effort ≤ 2 := by
  rcases s.lookUp_cases with ⟨next, -⟩ | ⟨next, -⟩ | ⟨next, -⟩ <;> simp [next, StreamPhase.effort]

-- What a step is worth. An outcome that reaches the consumer is paid for by the worker who made it.
def Worth (limit : Nat) (s t : Pipeline α β) : Prop :=
  t.effort limit < s.effort limit ∧
      (∀ o, t.stream.answer = some (.outcome o) → s.stream.answer = some (.outcome o)) ∨
    t.effort limit + 6 ≤ s.effort limit ∧ s.stream.phase = .selecting

theorem Worth.nearer (less : t.effort limit < s.effort limit)
    (still : t.stream.answer = s.stream.answer) : Worth limit s t :=
  .inl ⟨less, fun _ answer => still ▸ answer⟩

theorem Worth.answered {a : Answer α β} (less : t.effort limit < s.effort limit)
    (answer : t.stream.answer = some a) (other : ∀ o, a ≠ .outcome o) : Worth limit s t := by
  refine .inl ⟨less, ?_⟩
  intro o outcome
  exact absurd (Option.some.inj (answer.symm.trans outcome)) (other o)

theorem Step.worker_worth {i : Nat} {m : Move} (step : Step job s (.worker i m) t) :
    Worth limit s t := by
  have move {w v : WorkerPhase α β} {u : Pipeline α β} (worker : u.workers[i]? = some w)
      (same : u.effort limit = s.effort limit) (nearer : v.effort < w.effort)
      (stream : u.stream = s.stream) : Worth limit s (u.setWorker i v) :=
    .nearer limit (effort_move limit worker same nearer) (congrArg Stream.answer stream)
  cases step with
  | runDry worker | stopWaiting worker | putDown worker | begin worker | produce worker
  | panic worker | giveUp worker | recordPanic worker | wakePanic worker | countOff worker =>
    exact move worker rfl (by simp [WorkerPhase.effort]) rfl
  | @take i x feed worker taken =>
    have paid := taken.effort_le limit
    have lighter := effort_feed (s := s) limit feed
    have moved := effort_setWorker (s := { s with feed }) limit worker (.holding x)
    refine .nearer limit ?_ rfl
    simp only [WorkerPhase.effort] at moved
    omega
  | @enqueue i o worker heard room =>
    have longer := effort_results (s := s) limit (s.results.push o)
    have moved := effort_setWorker (s := { s with results := s.results.push o }) limit worker
      .receiving
    refine .nearer limit ?_ rfl
    simp only [Queue.toList_push, List.length_append, List.length_singleton] at longer
    simp only [WorkerPhase.effort] at moved
    omega
  | @handOver i o worker rendezvous selecting =>
    have received := effort_receive limit o selecting
    have moved := effort_setWorker (s := s.receive o) limit worker .receiving
    refine .inr ⟨?_, selecting⟩
    simp only [WorkerPhase.effort] at moved
    omega
  | @letGo i panicked worker =>
    have paid := s.feed.hangUp_effort limit
    have lighter := effort_feed (s := s) limit s.feed.hangUp
    have moved (v : WorkerPhase α β) :=
      effort_setWorker (s := { s with feed := s.feed.hangUp }) limit worker v
    refine .nearer limit ?_ rfl
    cases panicked with
    | true =>
      have moved := moved .recording
      simp only [WorkerPhase.effort] at moved
      simp only [Pipeline.letGo, if_true]
      omega
    | false =>
      have moved := moved (.counting false)
      simp only [WorkerPhase.effort] at moved
      simp only [Pipeline.letGo, Bool.false_eq_true, if_false]
      omega

theorem Step.stream_worth {m : Move} (step : Step job s (.stream m) t) : Worth limit s t := by
  cases step with
  | @receive o rest selecting popped =>
    have shorter := effort_results (s := s) limit rest
    have received := effort_receive (s := { s with results := rest }) limit o selecting
    refine .inr ⟨?_, selecting⟩
    simp only [Queue.pop?_eq_some popped, List.length_cons] at shorter
    omega
  | drain selecting | interrupt selecting =>
    refine .answered limit ?_ rfl (by simp)
    simp only [effort, answered, selecting, StreamPhase.effort]
    omega
  | @streamRecords r q recording =>
    refine .nearer limit ?_ rfl
    have positive : 0 < q.effort := by cases q <;> simp [Request.effort]
    simp only [effort, setStream, recording, StreamPhase.effort]
    omega
  | @streamWakes first q waking =>
    cases q with
    | finish | drop =>
      refine .nearer limit ?_ rfl
      simp only [effort, afterTrip, setStream, waking, StreamPhase.effort, Request.effort]
      omega
    | trip r | next =>
      refine .answered limit ?_ rfl (by simp)
      simp only [effort, afterTrip, answered, waking, StreamPhase.effort, Request.effort]
      omega
  | look looking =>
    have next := s.lookUp_effort
    have moved := effort_stream (s := s) limit { s.stream with phase := s.lookUp }
    refine .nearer limit ?_ rfl
    have here : s.stream.phase.effort = 3 := by rw [looking]; rfl
    simp only [here] at moved
    simp only [setStream]
    omega
  | poll reading | hear reading =>
    refine .nearer limit ?_ rfl
    simp only [effort, Feed.effort, takeReport, reading, StreamPhase.effort]
    omega
  | resolve resolving =>
    refine .answered limit ?_ rfl (by simp)
    simp only [effort, Pipeline.resolve, answered, resolving, StreamPhase.effort]
    omega
  | close closing =>
    refine .answered limit ?_ rfl (by simp)
    simp only [effort, Feed.effort, dropStream, Feed.stopListening, closing, StreamPhase.effort,
      Queue.toList_empty, List.length_nil]
    omega

theorem Step.worth (step : Step job s e t) (unasked : ∀ q, e ≠ .request q)
    (honest : s.feed.Honest job.source) (stops : ∀ x, job.source.pull limit ≠ .item x) :
    Worth limit s t := by
  cases e with
  | worker i m => exact step.worker_worth limit
  | stream m => exact step.stream_worth limit
  | request q => exact absurd rfl (unasked q)
  | source m =>
    cases step with
    | source moved =>
      have nearer := moved.effort_lt honest stops
      refine .nearer limit ?_ rfl
      simp only [effort]
      omega
  | closer =>
    cases step with
    | closerWaits closer | closerCloses closer =>
      refine .nearer limit ?_ rfl
      simp only [effort, closer, CloserPhase.effort]
      omega
  | watchdog m =>
    cases step with
    | watchdogLeaves watchdog | watchdogRelays watchdog | watchdogExpires watchdog
    | watchdogRecords watchdog | watchdogWakes watchdog =>
      refine .nearer limit ?_ rfl
      simp only [effort, watchdog, WatchPhase.effort, Option.elim_some]
      omega
  | deadline =>
    cases step with
    | deadline armed ahead =>
      refine .nearer limit ?_ rfl
      simp only [effort, ahead, Bool.not_false, Bool.not_true, Bool.toNat_true, Bool.toNat_false]
      omega
  | callerRecord r =>
    cases step with
    | callerRecords caller kept quiet =>
      refine .nearer limit ?_ rfl
      simp only [effort, caller, Signal.effort, quiet, Option.elim_some]
      simp
  | callerWake =>
    cases step with
    | callerWakes caller tripped asleep =>
      refine .nearer limit ?_ rfl
      simp only [effort, caller, Signal.effort, asleep, Option.elim_some]
      simp [tripped]
  | callerLeave =>
    cases step with
    | callerLeaves kept =>
      refine .nearer limit ?_ rfl
      simp only [effort, kept, Bool.toNat_true, Bool.toNat_false]
      omega

theorem Step.request_effort {q : Request} (step : Step job s (.request q) t) :
    t.effort limit ≤ s.effort limit + q.effort ∧ ∀ o, t.stream.answer ≠ some (.outcome o) := by
  cases step with
  | endAgain idle | select idle | finishDrained idle | finishEarly idle | trip idle | drop idle =>
    refine ⟨?_, fun o answer => by cases answer⟩
    simp only [effort, answered, Pipeline.begin, idle, StreamPhase.effort, Request.effort]
    omega

end Pipeline
end TreeDigest
