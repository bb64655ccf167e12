import TreeDigest.Proofs.Pipeline.Steps
import TreeDigest.Proofs.Sums
namespace TreeDigest

namespace WorkerPhase

def ends (w : WorkerPhase α β) : Nat := if w.hasLetGo then 0 else 1

def guards (w : WorkerPhase α β) : Nat := if w.hasExited then 0 else 1

theorem hasLetGo_of_guards {w : WorkerPhase α β} (gone : w.guards = 0) : w.hasExited = true := by
  cases w <;> simp_all [guards, hasExited]

end WorkerPhase

namespace Feed
variable {source : Enumerator α} {capacity : Option Nat} {f g : Feed α} {s t : Signal}

theorem Step.receivers_eq (step : Step source capacity f s g t) : g.receivers = f.receivers := by
  cases step <;> rfl

theorem Takes.receivers_eq {x : α} (taken : Takes capacity f x g) : g.receivers = f.receivers := by
  cases taken <;> rfl

theorem hangUp_receivers : f.hangUp.receivers = f.receivers - 1 := by
  unfold hangUp
  split
  · dsimp only; omega
  · rfl

end Feed

namespace Pipeline

def tally (weight : WorkerPhase α β → Nat) (workers : Array (WorkerPhase α β)) : Nat :=
  (workers.toList.map weight).sum

section Tally
variable {weight : WorkerPhase α β → Nat} {workers : Array (WorkerPhase α β)} {w v : WorkerPhase α β}
  {i : Nat}

theorem tally_set (weight : WorkerPhase α β → Nat) (worker : workers[i]? = some w)
    (v : WorkerPhase α β) :
    tally weight (workers.setIfInBounds i v) + weight w = tally weight workers + weight v := by
  unfold tally
  rw [Array.toList_setIfInBounds]
  exact sum_map_set (by simpa using worker)

theorem le_tally (weight : WorkerPhase α β → Nat) (member : w ∈ workers) :
    weight w ≤ tally weight workers :=
  List.le_sum_of_mem (List.mem_map_of_mem (Array.mem_toList_iff.mpr member))

theorem tally_eq_zero (free : ∀ w ∈ workers, weight w = 0) : tally weight workers = 0 :=
  List.sum_eq_zero_iff_forall_eq_nat.mpr
    (List.forall_mem_map.mpr fun w member => free w (Array.mem_toList_iff.mp member))

theorem tally_replicate (n : Nat) : tally weight (Array.replicate n w) = n * weight w := by
  rw [tally, Array.toList_replicate, List.map_replicate, List.sum_replicate_nat]

theorem mem_setWorker {s : Pipeline α β} (member : w ∈ (s.setWorker i v).workers) :
    w = v ∨ w ∈ s.workers := by
  simp only [setWorker] at member
  have := Array.mem_or_eq_of_mem_setIfInBounds member
  grind

theorem mem_setWorker_self {s : Pipeline α β} (worker : s.workers[i]? = some w) :
    v ∈ (s.setWorker i v).workers := by
  have bound : i < s.workers.size := (Array.getElem?_eq_some_iff.mp worker).1
  simpa [setWorker, Array.setIfInBounds, bound] using Array.mem_set bound

end Tally

-- The counts agree with where the workers stand, and the channel of outcomes closes behind the last
-- of them.
structure Pool (s : Pipeline α β) : Prop where
  receivers : s.feed.receivers = tally WorkerPhase.ends s.workers
  outstanding : s.outstanding = tally WorkerPhase.guards s.workers
  closer : s.closer ≠ .waiting → s.outstanding = 0
  size : 0 < s.workers.size
  drained : s.stream.drained = true → s.closer = .done ∧ s.results.toList = []

variable {job : Job α β} {s t : Pipeline α β} {e : Event}

theorem Pool.move {i : Nat} {w v : WorkerPhase α β} (pool : s.Pool) (worker : s.workers[i]? = some w)
    (ends : v.ends = w.ends) (guards : v.guards = w.guards) : (s.setWorker i v).Pool := by
  have receivers := tally_set WorkerPhase.ends worker v
  have outstanding := tally_set WorkerPhase.guards worker v
  refine ⟨?_, ?_, pool.closer, by simpa [setWorker] using pool.size, pool.drained⟩
  · have := pool.receivers
    simp only [setWorker]
    omega
  · have := pool.outstanding
    simp only [setWorker]
    omega

theorem Pool.working {i : Nat} {w : WorkerPhase α β} (pool : s.Pool)
    (worker : s.workers[i]? = some w) (here : w.guards = 1) :
    s.closer = .waiting ∧ s.stream.drained = false ∧ 0 < s.outstanding := by
  have bound := le_tally WorkerPhase.guards (Array.mem_of_getElem? worker)
  have count := pool.outstanding
  have waiting : s.closer = .waiting := by
    apply Classical.byContradiction
    intro other
    have := pool.closer other
    omega
  refine ⟨waiting, ?_, by omega⟩
  cases drained : s.stream.drained with
  | false => rfl
  | true => exact absurd (pool.drained drained).1 (by simp [waiting])

theorem Pool.step (pool : s.Pool) (step : Step job s e t) : t.Pool := by
  cases step with
  | source moved =>
    exact ⟨moved.receivers_eq.trans pool.receivers, pool.outstanding, pool.closer, pool.size,
      pool.drained⟩
  | @take i x feed worker taken =>
    have fed : ({ s with feed } : Pipeline α β).Pool :=
      ⟨taken.receivers_eq.trans pool.receivers, pool.outstanding, pool.closer, pool.size,
        pool.drained⟩
    exact fed.move worker rfl rfl
  | runDry worker | stopWaiting worker | putDown worker | begin worker | produce worker | panic worker
  | handOver worker | giveUp worker | recordPanic worker | wakePanic worker =>
    exact Pool.move ⟨pool.1, pool.2, pool.3, pool.4, pool.5⟩ worker rfl rfl
  | @enqueue i o worker heard room =>
    have undrained := (pool.working worker rfl).2.1
    have queued : ({ s with results := s.results.push o } : Pipeline α β).Pool :=
      ⟨pool.1, pool.2, pool.3, pool.4, fun drained => by simp [undrained] at drained⟩
    exact queued.move worker rfl rfl
  | @letGo i panicked worker =>
    have receivers := pool.receivers
    have left := tally_set WorkerPhase.ends worker (if panicked then .recording else .counting false)
    have kept := tally_set WorkerPhase.guards worker (if panicked then .recording else .counting false)
    have bound := le_tally WorkerPhase.ends (Array.mem_of_getElem? worker)
    refine ⟨?_, ?_, pool.closer, by simpa [Pipeline.letGo, setWorker] using pool.size, pool.drained⟩
    · simp only [Pipeline.letGo, setWorker, Feed.hangUp_receivers]
      cases panicked <;> simp_all [WorkerPhase.ends, WorkerPhase.hasLetGo] <;> omega
    · have := pool.outstanding
      simp only [Pipeline.letGo, setWorker]
      cases panicked <;> simp_all [WorkerPhase.guards, WorkerPhase.hasExited]
  | @countOff i panicked worker =>
    obtain ⟨waiting, undrained, counted⟩ := pool.working worker rfl
    have ends := tally_set WorkerPhase.ends worker (.exited panicked)
    have guards := tally_set WorkerPhase.guards worker (.exited panicked)
    have receivers := pool.receivers
    have outstanding := pool.outstanding
    simp only [WorkerPhase.ends, WorkerPhase.guards, WorkerPhase.hasLetGo, WorkerPhase.hasExited,
      if_true, Bool.false_eq_true, if_false] at ends guards
    refine ⟨?_, ?_, ?_, by simpa [setWorker] using pool.size, ?_⟩
    · simp only [setWorker]; omega
    · simp only [setWorker]; omega
    · intro other; exact absurd waiting other
    · intro drained; simp only [setWorker, undrained] at drained; cases drained
  | closerWaits closer none =>
    refine ⟨pool.receivers, pool.outstanding, fun _ => none, pool.size, ?_⟩
    intro drained
    exact absurd (pool.drained drained).1 (by simp [closer])
  | closerCloses closer =>
    refine ⟨pool.receivers, pool.outstanding, fun _ => pool.closer (by simp [closer]), pool.size, ?_⟩
    exact fun drained => ⟨rfl, (pool.drained drained).2⟩
  | receive selecting popped =>
    refine ⟨pool.1, pool.2, pool.3, pool.4, ?_⟩
    intro drained
    obtain ⟨done, empty⟩ := pool.drained drained
    have popped := Queue.pop?_eq_some popped
    simp [empty] at popped
  | drain selecting empty closed =>
    refine ⟨pool.1, pool.2, pool.3, pool.4, fun _ => ⟨?_, empty⟩⟩
    simp only [resultsClosed, Bool.and_eq_true, beq_iff_eq] at closed
    exact closed.1
  | close closing => exact ⟨pool.1, pool.2, pool.3, pool.4, fun drained => ⟨(pool.drained drained).1, rfl⟩⟩
  | @streamWakes first q waking =>
    cases q <;> exact ⟨pool.1, pool.2, pool.3, pool.4, pool.5⟩
  | _ => exact ⟨pool.1, pool.2, pool.3, pool.4, pool.5⟩

theorem start_pool (tuning : Tuning) (caller : Option Signal) (workers : 0 < tuning.workers) :
    (start tuning caller : Pipeline α β).Pool where
  receivers := by simp [start, pool, tally_replicate, WorkerPhase.ends, WorkerPhase.hasLetGo]
  outstanding := by simp [start, pool, tally_replicate, WorkerPhase.guards, WorkerPhase.hasExited]
  closer other := absurd rfl other
  size := by simpa [start, pool] using workers
  drained drained := by simp [start, pool] at drained

theorem Pool.exited {w : WorkerPhase α β} (pool : s.Pool) (none : s.outstanding = 0)
    (member : w ∈ s.workers) : w.hasExited = true := by
  have bound := le_tally WorkerPhase.guards member
  have count := pool.outstanding
  exact WorkerPhase.hasLetGo_of_guards (by omega)

end Pipeline
end TreeDigest
