import TreeDigest.Proofs.Run.Undisturbed
namespace TreeDigest

namespace Run
variable {job : Job α β} {client : Client α β} {s : Run α β}

-- What has happened by the time a call reports an error. Neither the trip of a failed source nor the
-- call's own trips are among the reasons that it can be told.
def Truthful (options : RunOptions) (job : Job α β) (client : Client α β) (s : Run α β) :
    PipelineError → Prop
  | .transform item m =>
    client.policy = .failFast ∧
      ∃ x ∈ s.pipeline.feed.emitted, client.shown x = item ∧ job.transform x = .error m
  | .enumeration m =>
    job.source.Gives s.pipeline.feed.emitted.reverse (.error m) ∨
      job.source.Gives s.pipeline.feed.emitted.reverse .panic ∧ m = Feed.panicMessage
  | .workerPanicked =>
    s.pipeline.signal.reason = some .workerPanicked ∧
      ∃ x ∈ s.pipeline.started, job.transform x = .panic
  | .timeout d =>
    s.pipeline.signal.reason = some .timedOut ∧ options.timeout = some d ∧
      s.pipeline.expired = true
  | .cancelled =>
    s.pipeline.signal.reason = some .requested ∧
      ∃ c, s.pipeline.caller = some c ∧ c.isTripped = true
  | .invalidWorkerCount | .spawn _ _ => False

variable {options : RunOptions}

theorem caused_truthful (provoked : s.pipeline.Provoked job)
    (configured : job.timeout = options.timeout) {r : CancelReason}
    (reason : s.pipeline.signal.reason = some r) (other : r ≠ .failed)
    (caused : s.pipeline.Caused r) :
    Truthful options job client s (.ofReason r job.timeout) := by
  cases r with
  | failed => exact absurd rfl other
  | released => exact caused.elim
  | requested =>
    obtain ⟨c, caller, woken⟩ := caused
    exact ⟨reason, c, caller, Signal.isTripped_of_woken woken⟩
  | timedOut =>
    obtain ⟨d, armed⟩ := Option.isSome_iff_exists.mp (provoked.deadline caused)
    refine ⟨reason, ?_, caused⟩
    rw [← configured, armed]
    rfl
  | workerPanicked => exact ⟨reason, provoked.panic caused⟩

theorem Sound.truthful (sound : Sound job client s) (provoked : s.pipeline.Provoked job)
    (configured : job.timeout = options.timeout) (starts : job.source.starts = true)
    {e : PipelineError} (returned : s.result? = some (.error e)) : Truthful options job client s e := by
  have pipeline := sound.pipeline
  rcases sound.justified returned with ⟨policy, o, received, m, failed, rfl⟩ | ⟨m, reported, rfl⟩ |
    ⟨r, reason, other, caused, rfl⟩ | ⟨broken, -⟩
  · have genuine : o.Genuine job := pipeline.genuine.received o received
    exact ⟨policy, o.item, pipeline.conserved.placed received, rfl, genuine.failed failed⟩
  · exact failed_gives pipeline.honest reported
  · exact caused_truthful provoked configured reason other caused
  · cases starts.symm.trans broken

theorem start?_error {caller : Option Signal} {e : PipelineError} (workers : 0 < options.workers)
    (refused : (Pipeline.start? options caller : Except _ (Tuning × Pipeline α β)) = .error e) :
    e = .cancelled ∧ ∃ c, caller = some c ∧ c.isTripped = true := by
  cases quiet : caller.any (·.isTripped) with
  | false =>
    obtain ⟨tuning, started⟩ := Pipeline.start?_eq (α := α) (β := β) workers quiet
    cases started.symm.trans refused
  | true =>
    obtain ⟨tuning, resolved⟩ : ∃ tuning, Tuning.ofOptions options = .ok tuning :=
      ⟨_, if_neg (Nat.ne_of_gt workers)⟩
    unfold Pipeline.start? at refused
    rw [resolved, quiet] at refused
    cases refused
    cases caller with
    | none => cases quiet
    | some c => exact ⟨rfl, c, rfl, quiet⟩

variable {source : Enumerator α} {transform : α → Attempt β} {caller : Option Signal}

-- Whatever the threads do and in whatever order, an error that a call reports is true. Only a source
-- that breaks down before its first request could leave a run without any reason.
theorem error_truthful (workers : 0 < options.workers) (starts : source.starts = true) :
    (∀ e, (Pipeline.start? options caller : Except _ (Tuning × Pipeline α β)) = .error e →
      e = .cancelled ∧ ∃ c, caller = some c ∧ c.isTripped = true) ∧
    ∀ (tuning : Tuning) (p : Pipeline α β) (t : Run α β) (e : PipelineError),
      Pipeline.start? options caller = .ok (tuning, p) →
      Reaches (Pipeline.job tuning source transform) client (start p) t →
      t.result? = some (.error e) →
      Truthful options (Pipeline.job tuning source transform) client t e := by
  refine ⟨fun e refused => start?_error workers refused, ?_⟩
  intro tuning p t e started path returned
  obtain ⟨-, rfl, configured, -⟩ := Pipeline.start?_ok started
  exact (path.sound started).truthful (path.provoked started) configured starts
    returned

theorem error_truthful_three :
    ∃ t, Reaches threeNumbers { policy := .failFast, shown := toString }
        (start (Pipeline.start ⟨2, 0, none⟩ (some {}))) t ∧
      t.result? = some (.error (.transform "4" "four")) ∧
      ∃ x ∈ t.pipeline.feed.emitted, toString x = "4" ∧ threeNumbers.transform x = .error "four" := by
  have carried : (Schedule.complete threeNumbers { policy := .failFast, shown := toString }
      (fun _ => false) (start (Pipeline.start ⟨2, 0, none⟩ (some {})))).bind result? =
        some (.error (.transform "4" "four")) := by with_unfolding_all rfl
  obtain ⟨t, carried, returned⟩ := Option.bind_eq_some_iff.mp carried
  have path := (Schedule.complete_reaches carried).1
  have truthful := (error_truthful (by decide) (by rfl)).2 _ _ t _
    (show Pipeline.start? ⟨2, none, some 0⟩ (some {}) = .ok (⟨2, 0, none⟩, _) from rfl) path returned
  exact ⟨t, path, returned, truthful.2⟩

-- The last worker to leave has said that it panicked, and by then it has tripped the signal. So the
-- stream of a run that lost an item to a panic is never taken for one that was drained.
theorem panic_reported {xs : List α} {tuning : Tuning} {p : Pipeline α β} {t : Run α β}
    {r : RunResult α β} (started : Pipeline.start? options caller = .ok (tuning, p))
    (timeless : options.timeout = none) (gives : source.Gives xs .finished)
    (crash : ∃ x ∈ xs, transform x = .panic) (fine : ∀ x ∈ xs, ∀ m, transform x ≠ .error m)
    (path : Reaches (Pipeline.job tuning source transform) client (start p) t)
    (untouched : t.pipeline.caller = none ∨ t.pipeline.caller = some {})
    (returned : t.result? = some r) (whole : r ≠ .panicked) : r = .error .workerPanicked := by
  have sound := path.sound started
  have quiet : ∀ c, t.pipeline.caller = some c → c = {} := by
    intro c own
    rcases untouched with none | fresh
    · cases none.symm.trans own
    · exact (Option.some.inj (fresh.symm.trans own)).symm
  cases r with
  | ok c =>
    obtain ⟨ys, also, holds, -⟩ := sound.ok returned
    obtain ⟨rfl, -⟩ := gives.unique nofun also nofun
    obtain ⟨x, member, panics⟩ := crash
    rcases holds.settled x member with ⟨v, value⟩ | ⟨m, error⟩
    · cases panics.symm.trans value
    · cases panics.symm.trans error
  | error e =>
    have truthful := sound.truthful (path.provoked started) (Pipeline.start?_ok started).2.2.1
      gives.starts returned
    cases e with
    | workerPanicked => rfl
    | transform item m =>
      obtain ⟨-, x, emitted, -, failed⟩ := truthful
      have yields := sound.pipeline.honest.yields
      exact absurd failed (fine x (gives.member nofun yields (List.mem_reverse.mpr emitted)) m)
    | enumeration m =>
      rcases truthful with broken | ⟨broken, -⟩
      · cases (gives.unique nofun broken nofun).2
      · cases (gives.unique nofun broken nofun).2
    | timeout d => cases timeless.symm.trans truthful.2.1
    | cancelled =>
      obtain ⟨-, c, own, tripped⟩ := truthful
      rw [quiet c own] at tripped
      cases tripped
    | invalidWorkerCount | spawn stage cause => exact truthful.elim
  | panicked => exact absurd rfl whole

def crashingNumbers : Job Nat Nat :=
  Pipeline.job ⟨3, 0, none⟩ (.ofList [.item 3, .item 4, .item 5]) fun x =>
    if x = 4 then .panic else .value x

theorem panic_reported_three :
    ∃ t r, Reaches crashingNumbers { policy := .keepGoing, shown := toString }
        (start (Pipeline.start ⟨3, 0, none⟩ (some {}))) t ∧
      t.result? = some r ∧ r = .error .workerPanicked := by
  have carried : (Schedule.complete crashingNumbers { policy := .keepGoing, shown := toString }
      (fun _ => false) (start (Pipeline.start ⟨3, 0, none⟩ (some {})))).map
        (fun t => (t.result?, t.pipeline.caller)) =
      some (some (.error .workerPanicked), some {}) := by with_unfolding_all rfl
  obtain ⟨t, path, returned, untouched⟩ := Schedule.complete_returns carried
  refine ⟨t, _, path, returned, panic_reported
    (show Pipeline.start? ⟨3, none, some 0⟩ (some {}) = .ok (⟨3, 0, none⟩, _) from rfl) rfl
    (Enumerator.ofList_gives [3, 4, 5]) ⟨4, by decide, rfl⟩ ?_ path (.inr untouched) returned nofun⟩
  intro x _ m
  split <;> nofun

end Run
end TreeDigest
