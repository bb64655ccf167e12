import TreeDigest.Proofs.Pipeline.Exactness
namespace TreeDigest

namespace Feed
variable {source : Enumerator α} {capacity : Option Nat} {f : Feed α} {s : Signal}

theorem stuck_source (doors : f.Doors) (stuck : ∀ m, f.advance source capacity s m = none) :
    f.phase = .exited ∨ ∃ x, f.phase = .offering x ∧ f.receivers ≠ 0 ∧
      hasRoom capacity f.queue = false ∧ s.woken = false := by
  have go := stuck .go
  have message := stuck .message
  have signal := stuck .signal
  unfold Doors at doors
  cases phase : f.phase with
  | exited => exact .inl rfl
  | offering x =>
    refine .inr ⟨x, rfl, ?_⟩
    simp only [advance, phase] at message signal
    split at message
    · cases message
    · rename_i accompanied
      split at message
      · cases message
      · rename_i full
        split at signal
        · cases signal
        · rename_i asleep
          exact ⟨accompanied, by simpa using full, by simpa using asleep⟩
  | closing =>
    simp only [phase] at doors
    rcases doors with isOpen | isOpen
    · simp [advance, phase, isOpen] at go
    · simp [advance, phase, isOpen] at message
  | starting =>
    simp only [advance, phase] at go
    split at go <;> cases go
  | asking | asked answer | reporting ended | recording | waking => simp [advance, phase] at go

end Feed

namespace Pipeline
variable {job : Job α β} {s : Pipeline α β}

structure Stuck (job : Job α β) (s : Pipeline α β) : Prop where
  source : ∀ m, advance job s (.source m) = none
  worker : ∀ i m, advance job s (.worker i m) = none
  closer : advance job s .closer = none
  watchdog : ∀ m, advance job s (.watchdog m) = none

theorem Stuck.feed (stuck : s.Stuck job) (doors : s.feed.Doors) :
    s.feed.phase = .exited ∨ ∃ x, s.feed.phase = .offering x ∧ s.feed.receivers ≠ 0 ∧
      Feed.hasRoom job.itemCapacity s.feed.queue = false ∧ s.signal.woken = false := by
  have still (m : Move) : s.feed.advance job.source job.itemCapacity s.signal m = none := by
    simpa [advance, sourceStep] using stuck.source m
  exact Feed.stuck_source doors still

def Waits (job : Job α β) (s : Pipeline α β) : WorkerPhase α β → Prop
  | .receiving => s.feed.take? job.itemCapacity = none ∧ s.feed.isClosed = false
  | .delivering _ =>
    s.stream.phase ≠ .gone ∧ Feed.hasRoom job.resultCapacity s.results = false ∧
      ¬ (job.resultCapacity = some 0 ∧ s.stream.phase = .selecting)
  | _ => False

theorem Stuck.waits (stuck : s.Stuck job) (ends : ∀ x, job.transform x ≠ .never)
    {w : WorkerPhase α β} (member : w ∈ s.workers) (here : w.hasExited = false) :
    s.signal.woken = false ∧ Waits job s w := by
  obtain ⟨i, inside, rfl⟩ := Array.mem_iff_getElem.mp member
  have found : s.workers[i]? = some s.workers[i] := Array.getElem?_eq_getElem inside
  have go := stuck.worker i .go
  have message := stuck.worker i .message
  have signal := stuck.worker i .signal
  simp only [advance, workerStep, found, Option.bind_some] at go message signal
  cases phase : s.workers[i] with
  | receiving =>
    rw [phase] at message signal
    simp only [workerMessage] at message
    simp only [workerSignal] at signal
    split at message
    · cases message
    · rename_i nothing
      split at message
      · cases message
      · rename_i closed
        split at signal
        · cases signal
        · rename_i asleep
          exact ⟨by simpa using asleep, nothing, by simpa using closed⟩
  | delivering o =>
    rw [phase] at message signal
    simp only [workerMessage, deliver, isGone, isSelecting, beq_iff_eq] at message
    by_cases asleep : s.signal.woken = true
    · simp [workerSignal, asleep] at signal
    · by_cases gone : s.stream.phase = .gone
      · simp [gone] at message
      · by_cases room : Feed.hasRoom job.resultCapacity s.results = true
        · simp [gone, room] at message
        · by_cases hand : job.resultCapacity = some 0 ∧ s.stream.phase = .selecting
          · rw [hand.1] at room message
            simp [room, hand.2] at message
          · exact ⟨by simpa using asleep, gone, by simpa using room, hand⟩
  | transforming x =>
    rw [phase] at go
    simp only [workerGo, complete] at go
    split at go
    · cases go
    · cases go
    · cases go
    · rename_i never
      exact absurd never (ends x)
  | holding x =>
    rw [phase] at go
    simp only [workerGo] at go
    cases go
  | leaving p | recording | waking | counting p => rw [phase] at go; cases go
  | exited p => rw [phase] at here; cases here

theorem Stuck.closes (stuck : s.Stuck job) (none : s.outstanding = 0) : s.closer = .done := by
  have still := stuck.closer
  simp only [advance, closerStep] at still
  cases closer : s.closer <;> simp_all

theorem Stuck.leaves (stuck : s.Stuck job) (woken : s.signal.woken = true) {w : WatchPhase}
    (watchdog : s.watchdog = some w) : w = .exited := by
  have leave := stuck.watchdog .leave
  have go := stuck.watchdog .go
  simp only [advance, watchdogStep, watchdog] at leave go
  cases w <;> simp_all

theorem Pool.deserted (pool : s.Pool) (gone : ∀ w ∈ s.workers, w.hasExited = true) :
    s.outstanding = 0 ∧ s.feed.receivers = 0 := by
  rw [pool.outstanding, pool.receivers]
  constructor
  · apply tally_eq_zero
    intro w member
    simp [WorkerPhase.guards, gone w member]
  · apply tally_eq_zero
    intro w member
    have exited := gone w member
    cases w <;> simp_all [WorkerPhase.ends, WorkerPhase.hasLetGo, WorkerPhase.hasExited]

theorem Stuck.woken (stuck : s.Stuck job) (sound : s.Sound job)
    (ends : ∀ x, job.transform x ≠ .never) (woken : s.signal.woken = true) :
    s.feed.phase = .exited ∧ (∀ w ∈ s.workers, w.hasExited = true) ∧ s.closer = .done ∧
      ∀ w, s.watchdog = some w → w = .exited := by
  have gone : ∀ w ∈ s.workers, w.hasExited = true := by
    intro w member
    cases here : w.hasExited with
    | true => rfl
    | false => simp [(stuck.waits ends member here).1] at woken
  have none := (sound.pool.deserted gone).1
  refine ⟨?_, gone, stuck.closes none, fun w => stuck.leaves woken⟩
  rcases stuck.feed sound.honest.doors with exited | ⟨x, -, -, -, asleep⟩
  · exact exited
  · simp [asleep] at woken

end Pipeline
end TreeDigest
