import TreeDigest.Proofs.Pipeline.Conservation
import TreeDigest.Proofs.Pipeline.Signals
namespace TreeDigest

def WorkerPhase.hasLeft : WorkerPhase α β → Bool
  | .leaving _ | .recording | .waking | .counting _ | .exited _ => true
  | _ => false

namespace Feed
variable {source : Enumerator α} {capacity : Option Nat} {f g : Feed α} {s t : Signal}

theorem isClosed_iff : f.isClosed = true ↔ f.queue.toList = [] ∧ f.itemsOpen = false := by
  simp [isClosed, Queue.isEmpty_iff]

theorem Step.closed_stays (step : Step source capacity f s g t) (honest : f.Honest source)
    (closed : f.isClosed = true) : g.isClosed = true := by
  have past := honest.closed (isClosed_iff.mp closed).2
  cases step with
  | place phase room => simp [phase] at past
  | closeItems phase isOpen => exact isClosed_iff.mpr ⟨(isClosed_iff.mp closed).1, rfl⟩
  | _ => exact closed

theorem Takes.not_closed {x : α} (taken : Takes capacity f x g) (honest : f.Honest source) :
    f.isClosed = false := by
  cases closed : f.isClosed with
  | false => rfl
  | true =>
    obtain ⟨empty, shut⟩ := isClosed_iff.mp closed
    cases taken with
    | queued popped => simp [Queue.pop?_eq_some popped] at empty
    | offered _ _ phase => have past := honest.closed shut; simp [phase] at past

end Feed

namespace Pipeline
variable {job : Job α β} {s t : Pipeline α β} {e : Event}

def Panicked (s : Pipeline α β) : Prop := ∃ w ∈ s.workers, w.hasPanicked = true

theorem panicked_setWorker {i : Nat} {w v : WorkerPhase α β} (worker : s.workers[i]? = some w)
    (stays : w.hasPanicked = true → v.hasPanicked = true) (panicked : s.Panicked) :
    (s.setWorker i v).Panicked := by
  obtain ⟨u, member, yes⟩ := panicked
  obtain ⟨j, inside, rfl⟩ := Array.mem_iff_getElem.mp member
  by_cases same : i = j
  · subst same
    have own : s.workers[i] = w := (Array.getElem?_eq_some_iff.mp worker).2
    exact ⟨v, mem_setWorker_self worker, stays (own ▸ yes)⟩
  · have stays : (s.setWorker i v).workers[j]? = some s.workers[j] := by
      simp only [setWorker]
      rw [Array.getElem?_setIfInBounds_ne same, Array.getElem?_eq_getElem inside]
    exact ⟨_, Array.mem_of_getElem? stays, yes⟩

theorem Step.panicked_stays (step : Step job s e t) (panicked : s.Panicked) : t.Panicked := by
  have moved {i : Nat} {w v : WorkerPhase α β} {u : Pipeline α β} (same : u.workers = s.workers)
      (worker : s.workers[i]? = some w) (stays : w.hasPanicked = true → v.hasPanicked = true) :
      (u.setWorker i v).Panicked :=
    panicked_setWorker (same ▸ worker) stays (by simpa only [Panicked, same] using panicked)
  cases step with
  | take worker | runDry worker | stopWaiting worker | putDown worker | begin worker
  | produce worker | enqueue worker | handOver worker | giveUp worker =>
    exact moved rfl worker (by simp [WorkerPhase.hasPanicked])
  | panic worker => exact moved rfl worker (fun _ => rfl)
  | @letGo i b worker =>
    apply moved rfl worker
    cases b <;> simp [WorkerPhase.hasPanicked]
  | recordPanic worker | wakePanic worker => exact moved rfl worker (fun _ => rfl)
  | @countOff i b worker => exact moved (v := .exited b) rfl worker id
  | @streamWakes first q waking => cases q <;> exact panicked
  | _ => exact panicked

structure Calm (s : Pipeline α β) : Prop where
  quiet : s.signal.isTripped = false
  whole : ¬ s.Panicked

theorem Calm.before (calm : t.Calm) (step : Step job s e t) : s.Calm := by
  refine ⟨?_, fun panicked => calm.whole (step.panicked_stays panicked)⟩
  cases tripped : s.signal.isTripped with
  | false => rfl
  | true => exact absurd calm.quiet (by simp [step.tripped_stays tripped])

-- As long as nothing has gone wrong, nothing is thrown away, workers leave only when there is nothing
-- left to take, and the source does not give up.
structure Orderly (s : Pipeline α β) : Prop where
  discarded : s.discarded = []
  lost : s.feed.lost = []
  left : ∀ w ∈ s.workers, w.hasLeft = true → s.feed.isClosed = true
  reported : ∀ n, .cancelled n ∉ s.feed.reports
  reporting : ∀ n, s.feed.phase ≠ .reporting (.cancelled n)

theorem Orderly.accompanied {x : α} (orderly : s.Orderly) (pool : s.Pool)
    (honest : s.feed.Honest job.source) (phase : s.feed.phase = .offering x) :
    s.feed.receivers ≠ 0 := by
  intro alone
  have size := pool.size
  obtain ⟨w, member⟩ : ∃ w, w ∈ s.workers := ⟨s.workers[0], Array.getElem_mem size⟩
  have ends := le_tally WorkerPhase.ends member
  have count := pool.receivers
  have left : w.hasLeft = true := by
    have : w.ends = 0 := by omega
    cases w <;> simp_all [WorkerPhase.ends, WorkerPhase.hasLetGo, WorkerPhase.hasLeft]
  have shut := (Feed.isClosed_iff.mp (orderly.left w member left)).2
  have past := honest.closed shut
  simp [phase] at past

theorem Orderly.source {feed : Feed α} {signal : Signal} (orderly : s.Orderly) (pool : s.Pool)
    (honest : s.feed.Honest job.source) (quiet : s.signal.isTripped = false)
    (moved : Feed.Step job.source job.itemCapacity s.feed s.signal feed signal) :
    ({ s with feed, signal } : Pipeline α β).Orderly := by
  have left : ∀ w ∈ s.workers, w.hasLeft = true → feed.isClosed = true :=
    fun w member gone => moved.closed_stays honest (orderly.left w member gone)
  have accompanied {x : α} := orderly.accompanied (x := x) pool honest
  obtain ⟨discarded, lost, -, reported, reporting⟩ := orderly
  cases moved with
  | cutOff phase tripped => simp [quiet] at tripped
  | interrupt phase woken => simp [Signal.isTripped_of_woken woken] at quiet
  | abandon phase alone => exact absurd alone (accompanied phase)
  | @report ended phase =>
    refine ⟨discarded, lost, left, ?_, ?_⟩
    · intro n member
      rcases List.mem_cons.mp member with now | before
      · exact reporting n (now ▸ phase)
      · exact reported n before
    · intro n
      cases ended <;> simp [Feed.report]
  | closeItems | closeStatus =>
    refine ⟨discarded, lost, left, reported, ?_⟩
    intro n
    simp only [Feed.closeItems, Feed.closeStatus]
    split <;> simp
  | _ => exact ⟨discarded, lost, left, reported, by simp [Feed.place]⟩

theorem Orderly.move {i : Nat} {v : WorkerPhase α β} (orderly : s.Orderly)
    (leaves : v.hasLeft = true → s.feed.isClosed = true) : (s.setWorker i v).Orderly := by
  refine ⟨orderly.discarded, orderly.lost, ?_, orderly.reported, orderly.reporting⟩
  intro w member left
  rcases mem_setWorker member with rfl | before
  · exact leaves left
  · exact orderly.left w before left

theorem Orderly.take {x : α} {feed : Feed α} (orderly : s.Orderly)
    (honest : s.feed.Honest job.source) (taken : Feed.Takes job.itemCapacity s.feed x feed) :
    ({ s with feed } : Pipeline α β).Orderly := by
  have stay : ∀ w ∈ s.workers, w.hasLeft = true → feed.isClosed = true := by
    intro w member left
    have := taken.not_closed honest
    simp [orderly.left w member left] at this
  cases taken with
  | queued popped =>
    exact ⟨orderly.discarded, orderly.lost, stay, orderly.reported, orderly.reporting⟩
  | offered empty rendezvous phase =>
    exact ⟨orderly.discarded, orderly.lost, stay, orderly.reported, by simp [Feed.place]⟩

theorem Orderly.letGo {i : Nat} {panicked : Bool} (orderly : s.Orderly)
    (worker : s.workers[i]? = some (.leaving panicked)) : (s.letGo i panicked).Orderly := by
  have closed := orderly.left _ (Array.mem_of_getElem? worker) rfl
  obtain ⟨empty, shut⟩ := Feed.isClosed_iff.mp closed
  have hung : s.feed.hangUp.lost = [] ∧ s.feed.hangUp.isClosed = true ∧
      s.feed.hangUp.reports = s.feed.reports ∧ s.feed.hangUp.phase = s.feed.phase := by
    rw [Feed.isClosed_iff]
    unfold Feed.hangUp
    split
    · exact ⟨by simp [empty, orderly.lost], ⟨rfl, shut⟩, rfl, rfl⟩
    · exact ⟨orderly.lost, ⟨empty, shut⟩, rfl, rfl⟩
  have fed : ({ s with feed := s.feed.hangUp } : Pipeline α β).Orderly :=
    ⟨orderly.discarded, hung.1, fun _ _ _ => hung.2.1, by simpa [hung.2.2.1] using orderly.reported,
      by simpa [hung.2.2.2] using orderly.reporting⟩
  exact fed.move fun _ => hung.2.1

theorem Orderly.step (orderly : s.Orderly) (pool : s.Pool) (traced : s.Traced)
    (honest : s.feed.Honest job.source) (step : Step job s e t) (calm : t.Calm) : t.Orderly := by
  have before := calm.before step
  have untripped : ¬ s.signal.isTripped = true := by simp [before.quiet]
  have unwoken : ¬ s.signal.woken = true := untripped ∘ Signal.isTripped_of_woken
  have broken {w : WorkerPhase α β} {i : Nat} (worker : s.workers[i]? = some w) :
      w.hasPanicked = false := by
    cases yes : w.hasPanicked with
    | false => rfl
    | true => exact absurd ⟨w, Array.mem_of_getElem? worker, yes⟩ before.whole
  have same : (s : Pipeline α β).Orderly := orderly
  cases step with
  | source moved => exact orderly.source pool honest before.quiet moved
  | take worker taken => exact (orderly.take honest taken).move (by simp [WorkerPhase.hasLeft])
  | runDry worker closed => exact orderly.move fun _ => closed
  | stopWaiting worker woken => exact absurd woken unwoken
  | putDown worker tripped => exact absurd tripped untripped
  | begin worker quiet =>
    exact Orderly.move ⟨same.1, same.2, same.3, same.4, same.5⟩ (by simp [WorkerPhase.hasLeft])
  | produce worker result => exact orderly.move (by simp [WorkerPhase.hasLeft])
  | panic worker panics =>
    refine absurd ?_ calm.whole
    exact ⟨.leaving true, mem_setWorker_self (by simpa [discard] using worker), rfl⟩
  | enqueue worker heard room =>
    exact Orderly.move ⟨same.1, same.2, same.3, same.4, same.5⟩ (by simp [WorkerPhase.hasLeft])
  | handOver worker rendezvous selecting =>
    exact Orderly.move ⟨same.1, same.2, same.3, same.4, same.5⟩ (by simp [WorkerPhase.hasLeft])
  | giveUp worker stopped =>
    rcases stopped with gone | woken
    · exact absurd (traced.closing (.inr gone)) unwoken
    · exact absurd woken unwoken
  | letGo worker => exact orderly.letGo worker
  | recordPanic worker | wakePanic worker => exact absurd (broken worker) (by simp [WorkerPhase.hasPanicked])
  | countOff worker =>
    have closed := orderly.left _ (Array.mem_of_getElem? worker) rfl
    exact Orderly.move ⟨same.1, same.2, same.3, same.4, same.5⟩ fun _ => closed
  | watchdogRecords | streamRecords => exact absurd calm.quiet (by simp [setStream])
  | close closing => exact absurd (traced.closing (.inl closing)) unwoken
  | @streamWakes first q waking =>
    cases q <;> exact ⟨same.1, same.2, same.3, same.4, same.5⟩
  | _ => exact ⟨same.1, same.2, same.3, same.4, same.5⟩

theorem start_orderly (tuning : Tuning) (caller : Option Signal) :
    (start tuning caller : Pipeline α β).Orderly where
  discarded := rfl
  lost := rfl
  left w member left := by
    simp only [start, pool, Array.mem_replicate] at member
    simp [member.2, WorkerPhase.hasLeft] at left
  reported n member := by simp [start, pool] at member
  reporting n := by simp [start, pool]

end Pipeline
end TreeDigest
