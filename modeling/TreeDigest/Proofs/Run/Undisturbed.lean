import TreeDigest.Proofs.Run.Exactness
namespace TreeDigest

namespace Enumerator
variable {source : Enumerator α} {xs ys : List α} {one two : Pull α}

theorem Gives.yields_le (gives : source.Gives xs one) (stops : ∀ x, one ≠ .item x)
    (yields : source.Yields ys) : ys.length ≤ xs.length :=
  yields.length_le fun x item => stops x (gives.last.symm.trans item)

theorem Gives.agree (gives : source.Gives xs one) (stops : ∀ x, one ≠ .item x)
    (yields : source.Yields ys) (also : ∀ x, source.pull ys.length ≠ .item x) :
    ys = xs :=
  yields.agree gives.yields
    (Nat.le_antisymm (gives.yields_le stops yields) (gives.yields.length_le also))

theorem Gives.unique (gives : source.Gives xs one) (stops : ∀ x, one ≠ .item x)
    (also : source.Gives ys two) (too : ∀ x, two ≠ .item x) : ys = xs ∧ two = one := by
  have same : ys = xs := gives.agree stops also.yields (by simpa [also.last] using too)
  subst same
  exact ⟨rfl, also.last.symm.trans gives.last⟩

theorem Gives.member (gives : source.Gives xs one) (stops : ∀ x, one ≠ .item x)
    (yields : source.Yields ys) {x : α} (member : x ∈ ys) : x ∈ xs := by
  obtain ⟨i, inside, rfl⟩ := List.mem_iff_getElem.mp member
  have short := gives.yields_le stops yields
  have left := yields i _ (List.getElem?_eq_getElem inside)
  have right := gives.yields i _ (List.getElem?_eq_getElem (by omega))
  rw [Pull.item.inj (left.symm.trans right)]
  exact List.getElem_mem _

end Enumerator

theorem Outcome.Genuine.failed {job : Job α β} {o : Outcome α β} {m : String} (genuine : o.Genuine job)
    (failed : o.result = .error m) : job.transform o.item = .error m := by
  rw [Outcome.Genuine, failed] at genuine
  cases attempt : job.transform o.item <;> simp_all [Attempt.result?]

namespace Pipeline
variable {job : Job α β} {s t : Pipeline α β} {e : Event}

theorem Conserved.placed (conserved : s.Conserved) {o : Outcome α β}
    (received : o ∈ s.stream.received) : o.item ∈ s.feed.emitted := by
  classical
  have counts := conserved fun y => if y = o.item then 1 else 0
  simp only [sum_indicator] at counts
  have there : 0 < (s.stream.received.map (·.item)).count o.item :=
    List.count_pos_iff.mpr (List.mem_map_of_mem received)
  exact List.count_pos_iff.mp (by omega)

-- What no run does of itself: it takes a transform of an item that was begun to panic, and a timeout to
-- expire.
structure Provoked (job : Job α β) (s : Pipeline α β) : Prop where
  working : ∀ x, .transforming x ∈ s.workers → x ∈ s.started
  panic : s.Panicked → ∃ x ∈ s.started, job.transform x = .panic
  deadline : s.expired = true → job.timeout.isSome = true

theorem Provoked.move {i : Nat} {w v : WorkerPhase α β} (provoked : s.Provoked job)
    (worker : s.workers[i]? = some w) (same : v.hasPanicked = true → w.hasPanicked = true)
    {u : Pipeline α β} (begun : ∀ x, v = .transforming x → x ∈ u.started)
    (workers : u.workers = s.workers) (started : s.started ⊆ u.started)
    (expired : u.expired = s.expired) : (u.setWorker i v).Provoked job := by
  refine ⟨?_, ?_, fun late => provoked.deadline (expired ▸ late)⟩
  · intro x member
    rcases mem_setWorker member with own | other
    · exact begun x own.symm
    · exact started (provoked.working x (workers ▸ other))
  · rintro ⟨x, member, yes⟩
    have before : ∃ y ∈ s.started, job.transform y = .panic := by
      rcases mem_setWorker member with rfl | other
      · exact provoked.panic ⟨w, Array.mem_of_getElem? worker, same yes⟩
      · exact provoked.panic ⟨x, workers ▸ other, yes⟩
    obtain ⟨y, begun, panics⟩ := before
    exact ⟨y, started begun, panics⟩

theorem Provoked.step (provoked : s.Provoked job) (step : Step job s e t) : t.Provoked job := by
  have kept := List.Subset.refl s.started
  cases step with
  | take worker | runDry worker | stopWaiting worker | putDown worker | produce worker
  | enqueue worker | handOver worker | giveUp worker | recordPanic worker | wakePanic worker
  | countOff worker =>
    exact provoked.move worker (by simp [WorkerPhase.hasPanicked]) (by simp) rfl kept rfl
  | @begin i x worker =>
    refine provoked.move worker (by simp [WorkerPhase.hasPanicked]) ?_ rfl
      (List.subset_cons_self x _) rfl
    intro y own
    cases own
    exact List.mem_cons_self ..
  | @letGo i panicked worker =>
    exact provoked.move worker (by cases panicked <;> simp [WorkerPhase.hasPanicked])
      (by cases panicked <;> simp) rfl kept rfl
  | @panic i x worker panics =>
    have own := provoked.working x (Array.mem_of_getElem? worker)
    refine ⟨?_, fun _ => ⟨x, own, panics⟩, provoked.deadline⟩
    intro y member
    rcases mem_setWorker member with gone | other
    · cases gone
    · exact provoked.working y other
  | deadline armed => exact ⟨provoked.working, provoked.panic, fun _ => armed⟩
  | @streamWakes first q waking =>
    cases q <;> exact ⟨provoked.working, provoked.panic, provoked.deadline⟩
  | _ => exact ⟨provoked.working, provoked.panic, provoked.deadline⟩

theorem start_provoked (tuning : Tuning) (caller : Option Signal) :
    (start tuning caller : Pipeline α β).Provoked job where
  working x member := by
    obtain ⟨-, receiving⟩ := Array.mem_replicate.mp member
    cases receiving
  panic := by
    rintro ⟨w, member, yes⟩
    obtain ⟨-, rfl⟩ := Array.mem_replicate.mp member
    cases yes
  deadline late := by cases late

theorem Step.unsigned (step : Step job s e t) (alone : s.caller = none) : t.caller = none := by
  cases step with
  | callerRecords caller | callerWakes caller => cases alone.symm.trans caller
  | @streamWakes first q waking => cases q <;> exact alone
  | _ => exact alone

end Pipeline

namespace Run
variable {job : Job α β} {client : Client α β} {s t : Run α β}

theorem Reaches.unsigned (path : Reaches job client s t) (alone : s.pipeline.caller = none) :
    t.pipeline.caller = none :=
  path.threads.keeps (P := fun p => p.caller = none) alone fun _ still step => step.unsigned still

theorem Reaches.provoked {options : RunOptions} {caller : Option Signal} {tuning : Tuning}
    {p : Pipeline α β} (started : Pipeline.start? options caller = .ok (tuning, p))
    (path : Reaches job client (start p) s) : s.pipeline.Provoked job := by
  obtain ⟨-, rfl, -, -⟩ := Pipeline.start?_ok started
  exact path.threads.keeps (Pipeline.start_provoked tuning caller) fun _ provoked step =>
    provoked.step step

-- Nobody outside the run has interfered with it, and nothing in it panics.
structure Undisturbed (job : Job α β) (client : Client α β) (s : Run α β) : Prop where
  timeless : job.timeout = none
  untouched : s.pipeline.caller = none ∨ s.pipeline.caller = some {}
  calm : ∀ x, job.transform x ≠ .panic
  silent : ∀ o, client.callbackPanics o = false

inductive Settled (job : Job α β) (client : Client α β) (xs : List α) (last : Pull α) :
    RunResult α β → Prop where
  | ok {c : Collected α β} (finished : last = .finished) (holds : c.Holds job.transform xs)
      (fine : client.policy = .failFast → ∀ x ∈ xs, ∃ v, job.transform x = .value v) :
      Settled job client xs last (.ok c)
  | rejected {x : α} {m : String} (policy : client.policy = .failFast) (member : x ∈ xs)
      (fails : job.transform x = .error m) :
      Settled job client xs last (.error (.transform (client.shown x) m))
  | broken {m : String} (ended : last = .error m ∨ last = .panic ∧ m = Feed.panicMessage) :
      Settled job client xs last (.error (.enumeration m))

theorem uncaused (provoked : s.pipeline.Provoked job) (timeless : job.timeout = none)
    (untouched : s.pipeline.caller = none ∨ s.pipeline.caller = some {})
    (unharmed : ¬ s.pipeline.Panicked) {r : CancelReason} (other : r ≠ .failed) :
    ¬ s.pipeline.Caused r := by
  intro caused
  cases r with
  | failed => exact other rfl
  | requested =>
    obtain ⟨c, caller, woken⟩ := caused
    rcases untouched with none | fresh
    · simp [none] at caller
    · rw [fresh] at caller
      cases caller
      cases woken
  | timedOut =>
    have armed := provoked.deadline caused
    simp [timeless] at armed
  | workerPanicked => exact unharmed caused
  | released => exact caused

theorem failed_gives {f : Feed α} {m : String} (honest : f.Honest job.source)
    (reported : .failed m ∈ f.reports) :
    job.source.Gives f.emitted.reverse (.error m) ∨
      job.source.Gives f.emitted.reverse .panic ∧ m = Feed.panicMessage := by
  obtain ⟨-, truth, starts⟩ := honest.truthful reported
  have there : f.emitted.reverse.length = f.count := List.length_reverse
  rcases truth with failed | ⟨panicked, message⟩
  · exact .inl ⟨starts, honest.yields, there ▸ failed⟩
  · exact .inr ⟨⟨starts, honest.yields, there ▸ panicked⟩, message⟩

theorem Sound.settles (sound : Sound job client s) (provoked : s.pipeline.Provoked job)
    (timeless : job.timeout = none)
    (untouched : s.pipeline.caller = none ∨ s.pipeline.caller = some {})
    (unharmed : ¬ s.pipeline.Panicked) {xs : List α} {last : Pull α}
    (gives : job.source.Gives xs last) (stops : ∀ x, last ≠ .item x) {r : RunResult α β}
    (returned : s.result? = some r) (whole : r ≠ .panicked) : Settled job client xs last r := by
  have honest := sound.pipeline.honest
  have justified := sound.justified returned
  cases r with
  | ok c =>
    obtain ⟨ys, also, holds, strict⟩ := sound.ok returned
    obtain ⟨rfl, finished⟩ := gives.unique stops also nofun
    exact .ok finished.symm holds fun policy => holds.fine (strict policy)
  | error e =>
    rcases justified with ⟨policy, o, received, m, result, rfl⟩ | ⟨m, reported, rfl⟩ |
      ⟨reason, -, other, caused, rfl⟩ | ⟨broken, -⟩
    · have genuine : o.Genuine job := sound.pipeline.genuine.received o received
      refine .rejected policy (gives.member stops honest.yields ?_) (genuine.failed result)
      exact List.mem_reverse.mpr (sound.pipeline.conserved.placed received)
    · rcases failed_gives honest reported with error | ⟨panic, message⟩
      · exact .broken (.inl (gives.unique stops error nofun).2.symm)
      · exact .broken (.inr ⟨(gives.unique stops panic nofun).2.symm, message⟩)
    · exact absurd caused (uncaused provoked timeless untouched unharmed other)
    · cases gives.starts.symm.trans broken
  | panicked => exact absurd rfl whole

theorem Sound.settled (sound : Sound job client s) (provoked : s.pipeline.Provoked job)
    (undisturbed : Undisturbed job client s) {xs : List α} {last : Pull α}
    (gives : job.source.Gives xs last) (stops : ∀ x, last ≠ .item x) {r : RunResult α β}
    (returned : s.result? = some r) : Settled job client xs last r := by
  have unharmed : ¬ s.pipeline.Panicked := by
    intro panicked
    obtain ⟨x, -, panics⟩ := provoked.panic panicked
    exact undisturbed.calm x panics
  apply sound.settles provoked undisturbed.timeless undisturbed.untouched unharmed gives stops returned
  rintro rfl
  obtain ⟨o, -, panics⟩ := sound.justified returned
  simp [undisturbed.silent o] at panics

end Run
end TreeDigest
