import TreeDigest.Proofs.Run.Blame
namespace TreeDigest.Run

-- What is settled while the call waits for its verdict. It asked for one because there was nothing more
-- to come, or because the run was stopped.
structure Finishing (job : Job α β) (p : Pipeline α β) : Prop where
  atEnd : p.stream.drained = true ∨ p.signal.isTripped = true
  early : ∀ r q, p.stream.phase = .recording r q → p.signal.isTripped = true
  awaiting : p.stream.phase = .awaiting → p.stream.drained = true
  resolving : p.stream.phase = .resolving → p.stream.ended = none → job.source.starts = true →
    ∃ r, p.signal.reason = some r ∧ r ≠ .failed
  verdict : ∀ v, p.stream.answer = some (.verdict v) → p.Verdict job v

variable {job : Job α β} {p q : Pipeline α β} {e : Pipeline.Event}

theorem Finishing.frame (finishing : Finishing job p) (step : Pipeline.Step job p e q)
    (same : q.stream = p.stream) : Finishing job q where
  atEnd := finishing.atEnd.imp step.drained_stays step.tripped_stays
  early r request recording := step.tripped_stays (finishing.early r request (same ▸ recording))
  awaiting waits := step.drained_stays (finishing.awaiting (same ▸ waits))
  resolving resolves none starts := by
    rw [same] at resolves none
    obtain ⟨r, reason, other⟩ := finishing.resolving resolves none starts
    exact ⟨r, step.reason_stays reason, other⟩
  verdict v answer := (finishing.verdict v (same ▸ answer)).step step

-- A failed source has reported before it trips the signal, so whoever finds no report was stopped for
-- another reason.
theorem unreported_reason (sound : p.Sound job) (blamed : p.Blamed)
    (asking : p.stream.phase = .polling ∨ p.stream.phase = .awaiting)
    (atEnd : p.stream.phase = .awaiting → p.feed.mailbox.isSome = true ∨ p.feed.statusOpen = false)
    (none : p.feed.mailbox = none) (starts : job.source.starts = true) :
    ∃ r, p.signal.reason = some r ∧ r ≠ .failed := by
  have unheard := sound.unreported asking none
  rcases asking with polling | awaiting
  · obtain ⟨r, reason⟩ := Signal.isTripped_iff.mp (sound.traced.stream (.inr polling))
    refine ⟨r, reason, ?_⟩
    rintro rfl
    obtain ⟨m, reported⟩ := blamed.reason _ reason
    exact unheard _ reported
  · have shut : p.feed.statusOpen = false := by simpa [none] using atEnd awaiting
    obtain ⟨ended, reports⟩ := sound.honest.reported starts (.inr shut)
    exact absurd (by simp [reports]) (unheard ended)

theorem Finishing.takeReport (finishing : Finishing job p) (sound : p.Sound job)
    (blamed : p.Blamed) (asking : p.stream.phase = .polling ∨ p.stream.phase = .awaiting)
    (atEnd : p.stream.phase = .awaiting → p.feed.mailbox.isSome = true ∨ p.feed.statusOpen = false)
    (unanswered : p.stream.answer = none) : Finishing job p.takeReport where
  atEnd := finishing.atEnd
  early r request recording := by cases recording
  awaiting waits := by cases waits
  resolving _ none starts := unreported_reason (p := p) sound blamed asking atEnd none starts
  verdict v answer := by simp [Pipeline.takeReport, unanswered] at answer

theorem Finishing.look (finishing : Finishing job p) (unanswered : p.stream.answer = none) :
    Finishing job (p.setStream p.lookUp) where
  atEnd := finishing.atEnd
  early r request recording := by
    rcases p.lookUp_cases with ⟨next, -⟩ | ⟨next, -⟩ | ⟨next, -⟩ <;>
      simp [Pipeline.setStream, next] at recording
  awaiting waits := by
    rcases p.lookUp_cases with ⟨next, -⟩ | ⟨next, -⟩ | ⟨-, quiet⟩
    · simp [Pipeline.setStream, next] at waits
    · simp [Pipeline.setStream, next] at waits
    · exact finishing.atEnd.resolve_right (by simp [quiet])
  resolving resolves missing _ := by
    rcases p.lookUp_cases with ⟨-, found⟩ | ⟨next, -⟩ | ⟨next, -⟩
    · have none : p.stream.ended = none := missing
      simp [none] at found
    · simp [Pipeline.setStream, next] at resolves
    · simp [Pipeline.setStream, next] at resolves
  verdict v answer := by simp [Pipeline.setStream, unanswered] at answer

theorem stopped_verdict (blamed : p.Blamed) {r : CancelReason}
    (reason : p.signal.reason = some r) (unfailed : ∀ m, .failed m ∉ p.feed.reports) :
    p.Verdict job (.error (((some r).map (PipelineError.ofReason · job.timeout)).getD .cancelled)) := by
  have caused := blamed.reason r reason
  refine .inr (.inl ⟨r, reason, ?_, caused, rfl⟩)
  rintro rfl
  obtain ⟨m, reported⟩ := caused
  exact unfailed m reported

theorem only_report {source : Enumerator α} {f : Feed α} {ended other : SourceEnd}
    (honest : f.Honest source) (reported : ended ∈ f.reports) (also : other ∈ f.reports) :
    other = ended := by
  have only := (honest.truthful reported).1
  rw [only, List.mem_singleton] at also
  exact also

theorem Finishing.resolve (finishing : Finishing job p) (sound : p.Sound job) (blamed : p.Blamed)
    (resolving : p.stream.phase = .resolving) :
    (Pipeline.resolve job p).Verdict job (finalStatus p.stream.ended p.stream.drained
      p.stream.received.length p.signal.reason job.timeout) := by
  have stopped {ended : SourceEnd} (reported : ended ∈ p.feed.reports)
      (unfailed : ∀ m, ended ≠ .failed m)
      (short : ∀ n, ended = .completed n → p.stream.drained = true → p.stream.received.length ≠ n) :
      p.Verdict job (.error ((p.signal.reason.map (PipelineError.ofReason · job.timeout)).getD
        .cancelled)) := by
    obtain ⟨r, reason⟩ :=
      Signal.isTripped_iff.mp (sound.stopped finishing.atEnd reported unfailed short)
    rw [reason]
    exact stopped_verdict blamed reason fun m failed =>
      unfailed m (only_report sound.honest failed reported)
  cases found : p.stream.ended with
  | some ended =>
    have reported := sound.posted.taken _ found
    cases ended with
    | failed m => exact .inl ⟨m, reported, rfl⟩
    | completed n =>
      by_cases all : (p.stream.drained && p.stream.received.length == n) = true
      · simp only [finalStatus, all, if_true]
        exact List.mem_cons.mpr (.inl (by simp [finalStatus, found, all]))
      · simp only [finalStatus, all]
        apply stopped reported (by simp)
        rintro _ ⟨⟩ drained count
        simp [drained, count] at all
    | cancelled n => exact stopped reported (by simp) (by simp)
  | none =>
    cases starts : job.source.starts with
    | true =>
      obtain ⟨r, reason, other⟩ := finishing.resolving resolving found starts
      exact .inr (.inl ⟨r, reason, other, blamed.reason r reason, by simp [reason]⟩)
    | false =>
      cases reason : p.signal.reason with
      | none => exact .inr (.inr ⟨starts, rfl⟩)
      | some r =>
        apply stopped_verdict blamed reason
        intro m failed
        have := (sound.honest.truthful failed).2.2
        simp [starts] at this

theorem Finishing.stream_step {m : Move} (finishing : Finishing job p) (sound : p.Sound job)
    (blamed : p.Blamed) (attuned : Attuned p.stream .finishing)
    (moved : Pipeline.Step job p (.stream m) q) : Finishing job q := by
  have waits (phase : p.stream.phase ≠ .idle) : p.stream.answer = none := by
    rcases attuned with ⟨-, none⟩ | ⟨idle, -⟩
    · exact none
    · exact absurd idle phase
  cases moved with
  | receive selecting | drain selecting | interrupt selecting =>
    have := attuned.selecting selecting
    simp at this
  | streamRecords recording =>
    have none := waits (by simp [recording])
    refine ⟨.inr Signal.record_isTripped, ?_, ?_, ?_, ?_⟩ <;> simp [Pipeline.setStream, none]
  | @streamWakes first request waking =>
    have none := waits (by simp [waking])
    rcases attuned with ⟨phase, -⟩ | ⟨idle, -⟩
    · have own : request = .finish := by simpa [StreamPhase.isFinishing, waking] using phase
      subst own
      have tripped := sound.traced.stream (.inl ⟨_, _, waking⟩)
      refine ⟨.inr tripped, ?_, ?_, ?_, ?_⟩ <;>
        simp [Pipeline.afterTrip, Pipeline.setStream, none]
    · simp [waking] at idle
  | look looking => exact finishing.look (waits (by simp [looking]))
  | poll polling =>
    exact finishing.takeReport sound blamed (.inl polling) (by simp [polling])
      (waits (by simp [polling]))
  | hear awaiting atEnd =>
    exact finishing.takeReport sound blamed (.inr awaiting) (fun _ => atEnd)
      (waits (by simp [awaiting]))
  | resolve resolving =>
    refine ⟨finishing.atEnd, ?_, ?_, ?_, ?_⟩
    · intro r request recording; cases recording
    · intro waiting; cases waiting
    · intro resolves; cases resolves
    · intro v answer
      cases answer
      exact finishing.resolve sound blamed resolving
  | close closing =>
    rcases attuned with ⟨phase, -⟩ | ⟨idle, -⟩
    · simp [StreamPhase.isFinishing, closing] at phase
    · simp [closing] at idle

end TreeDigest.Run
