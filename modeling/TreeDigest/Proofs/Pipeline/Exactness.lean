import TreeDigest.Proofs.Pipeline.Calm
import TreeDigest.Proofs.Pipeline.Verdict
namespace TreeDigest.Pipeline

structure Sound (job : Job α β) (s : Pipeline α β) : Prop where
  honest : s.feed.Honest job.source
  pool : s.Pool
  conserved : s.Conserved
  genuine : s.Genuine job
  posted : s.Posted
  counted : s.Counted
  traced : s.Traced
  orderly : s.Calm → s.Orderly

variable {job : Job α β} {s t : Pipeline α β} {e : Event}

theorem Sound.step (sound : s.Sound job) (step : Step job s e t) : t.Sound job where
  honest := honest_step sound.honest step
  pool := sound.pool.step step
  conserved := sound.conserved.step step
  genuine := sound.genuine.step step
  posted := sound.posted.step sound.honest step
  counted := sound.counted.step sound.posted step
  traced := sound.traced.step step
  orderly calm :=
    (sound.orderly (calm.before step)).step sound.pool sound.traced sound.honest step calm

theorem start_sound (tuning : Tuning) (caller : Option Signal) (workers : 0 < tuning.workers) :
    (start tuning caller : Pipeline α β).Sound job where
  honest := start_honest tuning caller job.source
  pool := start_pool tuning caller workers
  conserved := start_conserved tuning caller
  genuine := start_genuine tuning caller
  posted := start_posted tuning caller
  counted := start_counted tuning caller
  traced := start_traced tuning caller
  orderly _ := start_orderly tuning caller

theorem start?_ok {options : RunOptions} {caller : Option Signal} {tuning : Tuning}
    {p : Pipeline α β} (started : start? options caller = .ok (tuning, p)) :
    0 < tuning.workers ∧ p = start tuning caller ∧ tuning.timeout = options.timeout ∧
      caller.any (·.isTripped) = false := by
  unfold start? at started
  cases resolved : Tuning.ofOptions options with
  | error e => rw [resolved] at started; cases started
  | ok own =>
    rw [resolved] at started
    change (if caller.any (·.isTripped) = true then _ else _) = _ at started
    split at started
    · cases started
    · rename_i quiet
      cases started
      unfold Tuning.ofOptions at resolved
      split at resolved
      · cases resolved
      · rename_i several
        cases resolved
        exact ⟨Nat.pos_of_ne_zero several, rfl, rfl, by simpa using quiet⟩

theorem start?_eq {options : RunOptions} {caller : Option Signal} (workers : 0 < options.workers)
    (quiet : caller.any (·.isTripped) = false) :
    ∃ tuning, (start? options caller : Except _ (Tuning × Pipeline α β)) =
      .ok (tuning, start tuning caller) := by
  obtain ⟨tuning, resolved⟩ : ∃ tuning, Tuning.ofOptions options = .ok tuning :=
    ⟨_, if_neg (Nat.ne_of_gt workers)⟩
  refine ⟨tuning, ?_⟩
  unfold start?
  rw [resolved, quiet]
  rfl

theorem start?_quiet {options : RunOptions} {caller : Option Signal} (workers : 0 < options.workers)
    (quiet : caller = none ∨ caller = some {}) :
    ∃ tuning, (start? options caller : Except _ (Tuning × Pipeline α β)) =
      .ok (tuning, start tuning caller) := by
  apply start?_eq workers
  rcases quiet with rfl | rfl <;> rfl

theorem Reaches.sound {options : RunOptions} {caller : Option Signal} {tuning : Tuning}
    {p : Pipeline α β} (started : start? options caller = .ok (tuning, p))
    (path : Reaches job p s) : s.Sound job := by
  obtain ⟨workers, rfl, -, -⟩ := start?_ok started
  exact path.keeps (start_sound tuning caller workers) fun _ sound step => sound.step step

theorem Sound.exact {n : Nat} (sound : s.Sound job) (returned : .ok n ∈ s.stream.verdicts) :
    ∃ xs, job.source.Gives xs .finished ∧ xs.length = n ∧
      (s.stream.received.map fun o => (o.item, some o.result)).Perm
        (xs.map fun x => (x, (job.transform x).result?)) := by
  obtain ⟨completed, enough⟩ := sound.counted n returned
  obtain ⟨-, ⟨rfl, finished⟩, starts⟩ := sound.honest.truthful completed
  have counts := sound.conserved fun _ => 1
  simp only [List.map_const', List.sum_replicate_nat, Nat.mul_one, List.length_map] at counts
  have all : s.stream.received.length = s.feed.emitted.length := by
    simp only [Feed.count] at enough
    omega
  have same := sound.conserved.complete all
  refine ⟨s.feed.emitted.reverse, ⟨starts, sound.honest.yields, ?_⟩, by simp [Feed.count], ?_⟩
  · simpa [Feed.count] using finished
  · have results : s.stream.received.map (fun o => (o.item, some o.result)) =
        (s.stream.received.map (·.item)).map fun x => (x, (job.transform x).result?) := by
      rw [List.map_map]
      apply List.map_congr_left
      intro o member
      have own : (job.transform o.item).result? = some o.result := sound.genuine.received o member
      simp [own]
    rw [results]
    exact (same.trans (List.reverse_perm _).symm).map _

theorem Sound.calm (sound : s.Sound job) (drained : s.stream.drained = true)
    (quiet : s.signal.isTripped = false) : s.Calm := by
  refine ⟨quiet, ?_⟩
  rintro ⟨w, member, panicked⟩
  have none := sound.pool.closer (by simp [(sound.pool.drained drained).1])
  have gone := sound.pool.exited none member
  cases w <;> simp [WorkerPhase.hasExited] at gone
  have tripped := sound.traced.workers _ member panicked
  simp [quiet] at tripped

-- If the signal is untouched when the stream is drained, then every item has come back.
theorem Sound.drained (sound : s.Sound job) (drained : s.stream.drained = true)
    (quiet : s.signal.isTripped = false) :
    s.feed.itemsOpen = false ∧ s.stream.received.length = s.feed.count := by
  have orderly := sound.orderly (sound.calm drained quiet)
  obtain ⟨done, empty⟩ := sound.pool.drained drained
  have none := sound.pool.closer (by simp [done])
  have exited {w : WorkerPhase α β} (member : w ∈ s.workers) := sound.pool.exited none member
  have closed : s.feed.isClosed = true := by
    have size := sound.pool.size
    apply orderly.left _ (Array.getElem_mem size)
    have gone := exited (Array.getElem_mem size)
    cases w : s.workers[0] <;> simp_all [WorkerPhase.hasExited, WorkerPhase.hasLeft]
  obtain ⟨queue, shut⟩ := Feed.isClosed_iff.mp closed
  have hands : tally (heldWeight fun _ => 1) s.workers = 0 := by
    apply tally_eq_zero
    intro w member
    have gone := exited member
    cases w <;> simp_all [WorkerPhase.hasExited, heldWeight]
  have counts := sound.conserved fun _ => 1
  simp only [List.map_const', List.sum_replicate_nat, Nat.mul_one, List.length_map, hands, queue, empty,
    orderly.discarded, orderly.lost, List.length_nil] at counts
  exact ⟨shut, by simp only [Feed.count]; omega⟩

theorem Sound.stopped {ended : SourceEnd} (sound : s.Sound job)
    (atEnd : s.stream.drained = true ∨ s.signal.isTripped = true) (reported : ended ∈ s.feed.reports)
    (unfailed : ∀ m, ended ≠ .failed m)
    (short : ∀ n, ended = .completed n → s.stream.drained = true → s.stream.received.length ≠ n) :
    s.signal.isTripped = true := by
  cases tripped : s.signal.isTripped with
  | true => rfl
  | false =>
    have drained := atEnd.resolve_right (by simp [tripped])
    cases ended with
    | failed m => exact absurd rfl (unfailed m)
    | completed n =>
      obtain ⟨-, ⟨rfl, -⟩, -⟩ := sound.honest.truthful reported
      exact absurd (sound.drained drained tripped).2 (short _ rfl drained)
    | cancelled n =>
      have orderly := sound.orderly (sound.calm drained tripped)
      exact absurd reported (orderly.reported n)

theorem Sound.unreported (sound : s.Sound job)
    (asking : s.stream.phase = .polling ∨ s.stream.phase = .awaiting)
    (missing : s.feed.mailbox = none) (ended : SourceEnd) : ended ∉ s.feed.reports := by
  intro reported
  have listening : s.feed.heard = true := by
    cases heard : s.feed.heard with
    | true => rfl
    | false =>
      have gone := sound.posted.listening heard
      rcases asking with asking | asking <;> simp [asking] at gone
  rcases sound.posted.found listening ended reported with found | found
  · simp [missing] at found
  · simp [sound.posted.asking asking] at found

end TreeDigest.Pipeline
