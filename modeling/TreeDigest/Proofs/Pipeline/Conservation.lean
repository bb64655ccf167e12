import TreeDigest.Proofs.Pipeline.Pool
namespace TreeDigest

namespace Feed
variable {source : Enumerator α} {capacity : Option Nat} {f g : Feed α} {s t : Signal}

theorem Step.balance (step : Step source capacity f s g t) (weight : α → Nat) :
    (g.emitted.map weight).sum + (f.queue.toList.map weight).sum =
      (f.emitted.map weight).sum + (g.queue.toList.map weight).sum ∧ g.lost = f.lost := by
  cases step with
  | place phase room =>
    refine ⟨?_, rfl⟩
    simp only [Feed.place, List.map_cons, List.sum_cons, Queue.toList_push, List.map_append,
      List.sum_append_nat, List.map_nil, List.sum_nil]
    omega
  | _ => exact ⟨rfl, rfl⟩

theorem Takes.balance {x : α} (taken : Takes capacity f x g) (weight : α → Nat) :
    (g.emitted.map weight).sum + (f.queue.toList.map weight).sum =
      (f.emitted.map weight).sum + (g.queue.toList.map weight).sum + weight x ∧ g.lost = f.lost := by
  cases taken with
  | queued popped =>
    refine ⟨?_, rfl⟩
    rw [Queue.pop?_eq_some popped, List.map_cons, List.sum_cons]
    dsimp only
    omega
  | offered empty rendezvous phase =>
    refine ⟨?_, rfl⟩
    simp only [Feed.place, List.map_cons, List.sum_cons]
    omega

theorem hangUp_balance (weight : α → Nat) :
    (f.hangUp.queue.toList.map weight).sum + (f.hangUp.lost.map weight).sum =
      (f.queue.toList.map weight).sum + (f.lost.map weight).sum ∧ f.hangUp.emitted = f.emitted := by
  unfold hangUp
  split
  · exact ⟨by simp, rfl⟩
  · exact ⟨rfl, rfl⟩

end Feed

def Outcome.Genuine (job : Job α β) (o : Outcome α β) : Prop :=
  (job.transform o.item).result? = some o.result

namespace Pipeline

def heldWeight (weight : α → Nat) : WorkerPhase α β → Nat
  | .holding x | .transforming x => weight x
  | .delivering o => weight o.item
  | _ => 0

-- Every item that was placed is in exactly one of the places where items can be.
def Conserved (s : Pipeline α β) : Prop :=
  ∀ weight : α → Nat, (s.feed.emitted.map weight).sum =
    (s.feed.queue.toList.map weight).sum + tally (heldWeight weight) s.workers +
      ((s.results.toList.map (·.item)).map weight).sum +
      ((s.stream.received.map (·.item)).map weight).sum +
      (s.discarded.map weight).sum + (s.feed.lost.map weight).sum

variable {job : Job α β} {s t : Pipeline α β} {e : Event}

section Move
variable {i : Nat} {w v : WorkerPhase α β} {x : α}

theorem Conserved.move (conserved : s.Conserved) (worker : s.workers[i]? = some w)
    (same : ∀ weight, heldWeight weight v = heldWeight weight w) : (s.setWorker i v).Conserved := by
  intro weight
  have old := conserved weight
  have moved := tally_set (heldWeight weight) worker v
  rw [same weight] at moved
  simp only [setWorker]
  omega

theorem Conserved.putDown (conserved : s.Conserved) (worker : s.workers[i]? = some w)
    (full : ∀ weight, heldWeight weight w = weight x) (empty : ∀ weight, heldWeight weight v = 0) :
    ((s.discard x).setWorker i v).Conserved := by
  intro weight
  have old := conserved weight
  have moved := tally_set (heldWeight weight) worker v
  rw [full weight, empty weight] at moved
  simp only [setWorker, discard, List.map_cons, List.sum_cons]
  omega

end Move

theorem Conserved.step (conserved : s.Conserved) (step : Step job s e t) : t.Conserved := by
  cases step with
  | runDry worker | stopWaiting worker | begin worker | produce worker | recordPanic worker
  | wakePanic worker | countOff worker => exact Conserved.move conserved worker fun _ => rfl
  | putDown worker | panic worker | giveUp worker =>
    exact conserved.putDown worker (fun _ => rfl) fun _ => rfl
  | source moved =>
    intro weight
    have old := conserved weight
    obtain ⟨balance, lost⟩ := moved.balance weight
    dsimp only
    rw [lost]
    omega
  | @take i x feed worker taken =>
    intro weight
    have old := conserved weight
    obtain ⟨balance, lost⟩ := taken.balance weight
    have moved := tally_set (heldWeight weight) worker (.holding x)
    simp only [heldWeight] at moved
    simp only [setWorker, lost]
    omega
  | enqueue worker heard room =>
    intro weight
    have old := conserved weight
    have moved := tally_set (heldWeight weight) worker .receiving
    simp only [heldWeight] at moved
    simp only [setWorker, Queue.toList_push, List.map_append, List.map_cons, List.map_nil,
      List.map_append, List.sum_append_nat, List.map_cons, List.sum_cons, List.map_nil, List.sum_nil]
    omega
  | handOver worker rendezvous selecting =>
    intro weight
    have old := conserved weight
    have moved := tally_set (heldWeight weight) worker .receiving
    simp only [heldWeight] at moved
    simp only [setWorker, Pipeline.receive, List.map_cons, List.sum_cons]
    omega
  | @letGo i panicked worker =>
    intro weight
    have old := conserved weight
    have moved := tally_set (heldWeight weight) worker (if panicked then .recording else .counting false)
    obtain ⟨balance, emitted⟩ := Feed.hangUp_balance (f := s.feed) weight
    simp only [Pipeline.letGo, setWorker, emitted]
    cases panicked <;> simp [heldWeight, -List.map_map] at moved ⊢ <;> omega
  | receive selecting popped =>
    intro weight
    have old := conserved weight
    simp only [Queue.pop?_eq_some popped, List.map_cons, List.sum_cons] at old
    simp only [Pipeline.receive, List.map_cons, List.sum_cons]
    omega
  | close closing =>
    intro weight
    have old := conserved weight
    simp only [dropStream, Feed.stopListening, Queue.toList_empty, List.map_nil, List.sum_nil,
      List.map_append, List.sum_append_nat, List.map_reverse, List.sum_reverse]
    omega
  | @streamWakes first q waking => cases q <;> exact conserved
  | _ => exact conserved

theorem start_conserved (tuning : Tuning) (caller : Option Signal) :
    (start tuning caller : Pipeline α β).Conserved := by
  intro weight
  simp [start, pool, tally_replicate, heldWeight]

theorem Conserved.complete (conserved : s.Conserved)
    (all : s.stream.received.length = s.feed.emitted.length) :
    (s.stream.received.map (·.item)).Perm s.feed.emitted := by
  apply perm_of_sums
  intro weight
  have counts := conserved fun _ => 1
  simp only [List.map_const', List.sum_replicate_nat, Nat.mul_one, List.length_map] at counts
  have queue : s.feed.queue.toList = [] := List.length_eq_zero_iff.mp (by omega)
  have results : s.results.toList = [] := List.length_eq_zero_iff.mp (by omega)
  have discarded : s.discarded = [] := List.length_eq_zero_iff.mp (by omega)
  have lost : s.feed.lost = [] := List.length_eq_zero_iff.mp (by omega)
  have hands : tally (heldWeight weight) s.workers = 0 := by
    apply tally_eq_zero
    intro w member
    have free := le_tally (heldWeight fun _ => 1) member
    cases w with
    | holding x | transforming x | delivering o => simp only [heldWeight] at free; omega
    | receiving | leaving p | recording | waking | counting p | exited p => rfl
  have old := conserved weight
  simp only [queue, results, discarded, lost, hands, List.map_nil, List.sum_nil] at old
  omega

theorem hands_setWorker {i : Nat} {v : WorkerPhase α β}
    (hands : ∀ o, .delivering o ∈ s.workers → o.Genuine job)
    (fresh : ∀ o, v = .delivering o → o.Genuine job) (o : Outcome α β)
    (member : .delivering o ∈ (s.setWorker i v).workers) : o.Genuine job := by
  rcases mem_setWorker member with own | other
  · exact fresh o own.symm
  · exact hands o other

structure Genuine (job : Job α β) (s : Pipeline α β) : Prop where
  hands : ∀ o, .delivering o ∈ s.workers → o.Genuine job
  queued : ∀ o ∈ s.results.toList, o.Genuine job
  received : ∀ o ∈ s.stream.received, o.Genuine job

theorem Genuine.move {i : Nat} {v : WorkerPhase α β} (genuine : s.Genuine job)
    (empty : ∀ o, v ≠ .delivering o) : (s.setWorker i v).Genuine job :=
  ⟨hands_setWorker genuine.hands fun o same => absurd same (empty o), genuine.queued, genuine.received⟩

theorem Genuine.step (genuine : s.Genuine job) (step : Step job s e t) : t.Genuine job := by
  obtain ⟨hands, queued, received⟩ := genuine
  have kept : s.Genuine job := ⟨hands, queued, received⟩
  cases step with
  | take | runDry | stopWaiting | putDown | begin | panic | giveUp | recordPanic | wakePanic |
    countOff => exact ⟨(kept.move (by simp)).hands, queued, received⟩
  | produce worker result =>
    refine ⟨hands_setWorker hands ?_, queued, received⟩
    intro o own
    cases own
    exact result
  | enqueue worker heard room =>
    refine ⟨(kept.move (by simp)).hands, ?_, received⟩
    intro o member
    simp only [setWorker, Queue.toList_push, List.mem_append, List.mem_singleton] at member
    rcases member with old | rfl
    · exact queued o old
    · exact hands _ (Array.mem_of_getElem? worker)
  | handOver worker rendezvous selecting =>
    refine ⟨(kept.move (by simp)).hands, queued, ?_⟩
    intro o member
    rcases List.mem_cons.mp member with rfl | old
    · exact hands _ (Array.mem_of_getElem? worker)
    · exact received o old
  | @letGo i panicked worker =>
    refine ⟨(kept.move ?_).hands, queued, received⟩
    cases panicked <;> simp
  | receive selecting popped =>
    have all := Queue.pop?_eq_some popped
    refine ⟨hands, fun o member => queued o (all ▸ List.mem_cons_of_mem _ member), ?_⟩
    intro o member
    rcases List.mem_cons.mp member with rfl | old
    · exact queued _ (by simp [all])
    · exact received o old
  | close closing => exact ⟨hands, by simp [dropStream], received⟩
  | @streamWakes first q waking => cases q <;> exact ⟨hands, queued, received⟩
  | _ => exact ⟨hands, queued, received⟩

theorem start_genuine (tuning : Tuning) (caller : Option Signal) :
    (start tuning caller : Pipeline α β).Genuine job where
  hands o member := by simp [start, pool] at member
  queued o member := by simp [start, pool] at member
  received o member := by simp [start, pool] at member

end Pipeline
end TreeDigest
