import TreeDigest.Proofs.Pipeline.Exactness
import TreeDigest.Proofs.Run.Schedule
namespace TreeDigest

namespace Enumerator

def Distinct (source : Enumerator α) : Prop :=
  ∀ i j x, source.pull i = .item x → source.pull j = .item x → i = j

theorem Yields.nodup {source : Enumerator α} {xs : List α} (yields : source.Yields xs)
    (distinct : source.Distinct) : xs.Nodup := by
  rw [List.Nodup, List.pairwise_iff_getElem]
  intro i j before here _ same
  have first := yields i _ (List.getElem?_eq_getElem before)
  have second := yields j _ (List.getElem?_eq_getElem here)
  have one := distinct i j _ first (same ▸ second)
  omega

end Enumerator

def WorkerPhase.unbegun : WorkerPhase α β → Option α
  | .holding x => some x
  | _ => none

namespace Feed
variable {source : Enumerator α} {capacity : Option Nat} {f g : Feed α} {s t : Signal} {n : Nat}

theorem Step.queue_le (step : Step source (some n) f s g t) (fits : f.queue.toList.length ≤ n) :
    g.queue.toList.length ≤ n := by
  cases step with
  | place phase room =>
    have below : f.queue.size < n := by simpa [hasRoom] using room
    rw [← Queue.length_toList] at below
    rw [Queue.toList_push, List.length_append]
    exact below
  | _ => exact fits

theorem Takes.queue_le {x : α} (taken : Takes capacity f x g) (fits : f.queue.toList.length ≤ n) :
    g.queue.toList.length ≤ n := by
  cases taken with
  | queued popped =>
    rw [Queue.pop?_eq_some popped, List.length_cons] at fits
    exact Nat.le_of_succ_le fits
  | offered empty rendezvous phase => exact fits

theorem hangUp_queue_le (fits : f.queue.toList.length ≤ n) : f.hangUp.queue.toList.length ≤ n := by
  unfold hangUp
  split
  · exact Nat.zero_le n
  · exact fits

end Feed

namespace Pipeline
variable {job : Job α β} {s t : Pipeline α β} {e : Event}

def unbegunWeight (weight : α → Nat) : WorkerPhase α β → Nat
  | .holding x => weight x
  | _ => 0

theorem tally_part {cost : WorkerPhase α β → Nat} {part : WorkerPhase α β → Option α}
    {weight : α → Nat} (same : ∀ w, cost w = ((part w).map weight).getD 0)
    (workers : Array (WorkerPhase α β)) :
    tally cost workers = ((workers.toList.filterMap part).map weight).sum := by
  rw [tally, funext same, sum_filterMap]

def hands (s : Pipeline α β) : List α := s.workers.toList.filterMap WorkerPhase.held

theorem tally_held (weight : α → Nat) (s : Pipeline α β) :
    tally (heldWeight weight) s.workers = (s.hands.map weight).sum :=
  tally_part (fun w => by cases w <;> rfl) s.workers

theorem tally_unbegun (weight : α → Nat) (s : Pipeline α β) :
    tally (unbegunWeight weight) s.workers =
      ((s.workers.toList.filterMap WorkerPhase.unbegun).map weight).sum :=
  tally_part (fun w => by cases w <;> rfl) s.workers

theorem hands_length_le (s : Pipeline α β) : s.hands.length ≤ s.workers.size := by
  rw [← Array.length_toList]
  exact List.length_filterMap_le _ _

-- Where an item can be once it is placed. What was queued behind the last receiver is as lost as what
-- somebody put down.
def places (s : Pipeline α β) : List α :=
  s.feed.queue.toList ++ s.hands ++ s.results.toList.map (·.item) ++
    s.stream.received.map (·.item) ++ (s.discarded ++ s.feed.lost)

theorem Conserved.places_perm (conserved : s.Conserved) : s.feed.emitted.Perm s.places := by
  apply perm_of_sums
  intro weight
  rw [conserved weight, tally_held]
  simp only [places, List.map_append, List.sum_append_nat]
  omega

structure Bounded (job : Job α β) (s : Pipeline α β) : Prop where
  items : ∀ n, job.itemCapacity = some n → s.feed.queue.toList.length ≤ n
  results : ∀ n, job.resultCapacity = some n → s.results.toList.length ≤ n

theorem Bounded.step (bounded : s.Bounded job) (step : Step job s e t) : t.Bounded job := by
  obtain ⟨items, results⟩ := bounded
  cases step with
  | source moved =>
    refine ⟨fun n capacity => ?_, results⟩
    rw [capacity] at moved
    exact moved.queue_le (items n capacity)
  | take worker taken => exact ⟨fun n capacity => taken.queue_le (items n capacity), results⟩
  | letGo worker => exact ⟨fun n capacity => Feed.hangUp_queue_le (items n capacity), results⟩
  | enqueue worker heard room =>
    refine ⟨items, fun n capacity => ?_⟩
    have below : s.results.size < n := by simpa [Feed.hasRoom, capacity] using room
    rw [← Queue.length_toList] at below
    rw [setWorker, Queue.toList_push, List.length_append]
    exact below
  | receive selecting popped =>
    refine ⟨items, fun n capacity => ?_⟩
    have fits := results n capacity
    rw [Queue.pop?_eq_some popped, List.length_cons] at fits
    exact Nat.le_of_succ_le fits
  | close closing => exact ⟨items, fun n _ => Nat.zero_le n⟩
  | @streamWakes first q waking => cases q <;> exact ⟨items, results⟩
  | _ => exact ⟨items, results⟩

theorem start_bounded (tuning : Tuning) (caller : Option Signal) :
    (start tuning caller : Pipeline α β).Bounded job :=
  ⟨fun n _ => Nat.zero_le n, fun n _ => Nat.zero_le n⟩

theorem Step.workers_size (step : Step job s e t) : t.workers.size = s.workers.size := by
  have moved (i : Nat) (w : WorkerPhase α β) {u : Pipeline α β} (same : u.workers = s.workers) :
      (u.setWorker i w).workers.size = s.workers.size := by
    rw [setWorker, Array.size_setIfInBounds, same]
  cases step with
  | take | runDry | stopWaiting | putDown | begin | produce | panic | enqueue | handOver | giveUp
  | letGo | recordPanic | wakePanic | countOff => exact moved _ _ rfl
  | @streamWakes first q waking => cases q <;> rfl
  | _ => rfl

def Begun (s : Pipeline α β) : Prop :=
  ∃ spared : List α, ∀ weight : α → Nat, (s.feed.emitted.map weight).sum =
    (s.started.map weight).sum + (s.feed.queue.toList.map weight).sum +
      tally (unbegunWeight weight) s.workers +
      (s.feed.lost.map weight).sum + (spared.map weight).sum

theorem Begun.move {i : Nat} {w v : WorkerPhase α β} (begun : s.Begun)
    (worker : s.workers[i]? = some w)
    (same : ∀ weight, unbegunWeight weight v = unbegunWeight weight w) : (s.setWorker i v).Begun := by
  obtain ⟨spared, balance⟩ := begun
  refine ⟨spared, fun weight => ?_⟩
  have old := balance weight
  have moved := tally_set (unbegunWeight weight) worker v
  rw [same weight] at moved
  simp only [setWorker]
  omega

theorem Begun.step (begun : s.Begun) (step : Step job s e t) : t.Begun := by
  have ⟨spared, balance⟩ := begun
  cases step with
  | runDry worker | stopWaiting worker | produce worker | panic worker | enqueue worker
  | handOver worker | giveUp worker | recordPanic worker | wakePanic worker | countOff worker =>
    exact begun.move worker fun _ => rfl
  | source moved =>
    refine ⟨spared, fun weight => ?_⟩
    have old := balance weight
    obtain ⟨placed, lost⟩ := moved.balance weight
    dsimp only
    rw [lost]
    omega
  | @take i x feed worker taken =>
    refine ⟨spared, fun weight => ?_⟩
    have old := balance weight
    obtain ⟨placed, lost⟩ := taken.balance weight
    have moved := tally_set (unbegunWeight weight) worker (.holding x)
    simp only [unbegunWeight] at moved
    simp only [setWorker, lost]
    omega
  | @begin i x worker quiet =>
    refine ⟨spared, fun weight => ?_⟩
    have old := balance weight
    have moved := tally_set (unbegunWeight weight) worker (.transforming x)
    simp only [unbegunWeight] at moved
    simp only [setWorker, List.map_cons, List.sum_cons]
    omega
  | @putDown i x worker tripped =>
    refine ⟨x :: spared, fun weight => ?_⟩
    have old := balance weight
    have moved := tally_set (unbegunWeight weight) worker (.leaving false)
    simp only [unbegunWeight] at moved
    simp only [setWorker, discard, List.map_cons, List.sum_cons]
    omega
  | @letGo i panicked worker =>
    have hung : ({ s with feed := s.feed.hangUp } : Pipeline α β).Begun := by
      refine ⟨spared, fun weight => ?_⟩
      have old := balance weight
      obtain ⟨kept, emitted⟩ := Feed.hangUp_balance (f := s.feed) weight
      dsimp only
      rw [emitted]
      omega
    exact hung.move worker fun _ => by cases panicked <;> rfl
  | @streamWakes first q waking => cases q <;> exact begun
  | _ => exact begun

theorem start_begun (tuning : Tuning) (caller : Option Signal) :
    (start tuning caller : Pipeline α β).Begun := by
  refine ⟨[], fun weight => ?_⟩
  simp [start, pool, tally_replicate, unbegunWeight]

def unbegun (s : Pipeline α β) : List α :=
  s.feed.queue.toList ++ s.workers.toList.filterMap WorkerPhase.unbegun

theorem Begun.once (begun : s.Begun) :
    ∃ rest, s.feed.emitted.Perm (s.started ++ (s.unbegun ++ rest)) := by
  obtain ⟨spared, balance⟩ := begun
  refine ⟨s.feed.lost ++ spared, perm_of_sums fun weight => ?_⟩
  rw [balance weight, tally_unbegun]
  simp only [unbegun, List.map_append, List.sum_append_nat]
  omega

theorem Begun.placed {x : α} (begun : s.Begun) (started : x ∈ s.started) : x ∈ s.feed.emitted := by
  obtain ⟨rest, once⟩ := begun.once
  exact once.mem_iff.mpr (List.mem_append_left _ started)

theorem Reaches.bounded {tuning : Tuning} {caller : Option Signal}
    (path : Reaches job (start tuning caller) s) : s.Bounded job :=
  path.keeps (start_bounded tuning caller) fun _ bounded step => bounded.step step

theorem Reaches.begun {tuning : Tuning} {caller : Option Signal}
    (path : Reaches job (start tuning caller) s) : s.Begun :=
  path.keeps (start_begun tuning caller) fun _ begun step => begun.step step

theorem Reaches.workers_size {tuning : Tuning} {caller : Option Signal}
    (path : Reaches job (start tuning caller) s) : s.workers.size = tuning.workers :=
  path.keeps (P := fun s => s.workers.size = tuning.workers) (by simp [start, pool])
    fun _ same step => step.workers_size.trans same

theorem Sound.in_flight (sound : s.Sound job) (calm : s.Calm) :
    s.feed.emitted.length = s.stream.received.length + s.feed.queue.toList.length +
      s.results.toList.length + s.hands.length := by
  have orderly := sound.orderly calm
  have all := sound.conserved.places_perm.length_eq
  simp only [places, orderly.discarded, orderly.lost, List.length_append, List.length_map,
    List.length_nil] at all
  omega

variable {options : RunOptions} {caller : Option Signal} {tuning : Tuning} {p : Pipeline α β}
  {source : Enumerator α} {transform : α → Attempt β}

-- Wherever a run can get, whoever moves and whatever the consumer asks for: every item that was placed is
-- in one place, and no transform is begun for it twice. As long as nobody has tripped the signal and no
-- worker has panicked nothing is thrown away, so a source is never far ahead of its consumer. Items that
-- are alike are told apart only by how many of them there are.
theorem items_conserved (started : start? options caller = .ok (tuning, p))
    (path : Reaches (Pipeline.job tuning source transform) p t) :
    t.feed.emitted.Perm t.places ∧
      (∃ rest, t.feed.emitted.Perm (t.started ++ (t.unbegun ++ rest))) ∧
      (source.Distinct → t.places.Nodup ∧ t.started.Nodup) ∧
      (t.signal.isTripped = false → ¬ t.Panicked →
        t.discarded ++ t.feed.lost = [] ∧
        t.feed.emitted.length ≤
          t.stream.received.length + 2 * tuning.capacity + tuning.workers) := by
  have sound := path.sound started
  obtain ⟨-, rfl, -, -⟩ := start?_ok started
  have everywhere := sound.conserved.places_perm
  obtain ⟨rest, once⟩ := path.begun.once
  refine ⟨everywhere, ⟨rest, once⟩, ?_, ?_⟩
  · intro distinct
    have emitted : t.feed.emitted.Nodup :=
      (List.reverse_perm _).nodup_iff.mp (sound.honest.yields.nodup distinct)
    have begun : (t.started ++ (t.unbegun ++ rest)).Nodup := once.nodup_iff.mp emitted
    exact ⟨everywhere.nodup_iff.mp emitted, (List.nodup_append.mp begun).1⟩
  · intro quiet whole
    have orderly := sound.orderly ⟨quiet, whole⟩
    refine ⟨by rw [orderly.discarded, orderly.lost]; rfl, ?_⟩
    have flight := sound.in_flight ⟨quiet, whole⟩
    have items := path.bounded.items _ rfl
    have results := path.bounded.results _ rfl
    have hands := t.hands_length_le
    rw [path.workers_size] at hands
    omega

def endlessNumbers : Job Nat Nat := Pipeline.job ⟨2, 1, none⟩ ⟨true, .item⟩ .value

theorem items_conserved_full :
    ∃ t, Reaches endlessNumbers (start ⟨2, 1, none⟩ none) t ∧ t.feed.emitted = [3, 2, 1, 0] ∧
      t.stream.received.length = 0 ∧ t.feed.emitted.Perm t.places ∧ t.started.Nodup ∧
      t.discarded ++ t.feed.lost = [] ∧
      t.feed.emitted.length ≤ t.stream.received.length + 2 * 1 + 2 := by
  have waited : (Schedule.await endlessNumbers (fun _ => false) (fun s => s.feed.count == 4) 0
      (start ⟨2, 1, none⟩ none)).map (fun r => (r.1.feed.emitted, r.1.stream.received.length,
        r.1.signal.isTripped, r.1.workers.any WorkerPhase.hasPanicked)) =
      some ([3, 2, 1, 0], 0, false, false) := by with_unfolding_all rfl
  obtain ⟨⟨t, left⟩, waited, equal⟩ := Option.map_eq_some_iff.mp waited
  simp only [Prod.mk.injEq] at equal
  obtain ⟨emitted, received, quiet, whole⟩ := equal
  have path := (Schedule.await_reaches waited).1
  have unbroken : ¬ t.Panicked := by
    rintro ⟨w, member, panicked⟩
    exact Array.any_eq_false'.mp whole w member panicked
  obtain ⟨everywhere, -, apart, calm⟩ := items_conserved
    (show start? ⟨2, none, some 1⟩ none = .ok (⟨2, 1, none⟩, _) from rfl) path
  have distinct : (⟨true, .item⟩ : Enumerator Nat).Distinct := by
    rintro i j x ⟨⟩ ⟨⟩
    rfl
  obtain ⟨kept, bound⟩ := calm quiet unbroken
  exact ⟨t, path, emitted, received, everywhere, (apart distinct).2, kept, bound⟩

end Pipeline
end TreeDigest
