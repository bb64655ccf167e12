import TreeDigest.Proofs.Pipeline.Aftermath
import TreeDigest.Proofs.Run.Results
namespace TreeDigest

namespace StreamPhase

def isJudging : StreamPhase → Bool
  | .looking | .polling | .awaiting | .resolving => true
  | _ => false

def turns : StreamPhase → Nat
  | .recording _ _ => 5
  | .waking _ _ => 4
  | .looking => 3
  | .polling | .awaiting => 2
  | .resolving => 1
  | _ => 0

theorem turns_le (phase : StreamPhase) : phase.turns ≤ 5 := by
  cases phase <;> simp [turns]

end StreamPhase

namespace Feed
variable {source : Enumerator α} {capacity : Option Nat} {f g : Feed α} {s t : Signal}

theorem Step.shut_stays (step : Step source capacity f s g t) (shut : f.statusOpen = false) :
    g.statusOpen = false := by
  cases step with
  | closeStatus => rfl
  | _ => exact shut

theorem Takes.shut_stays {x : α} (taken : Takes capacity f x g) (shut : f.statusOpen = false) :
    g.statusOpen = false := by
  cases taken <;> exact shut

theorem hangUp_statusOpen (f : Feed α) : f.hangUp.statusOpen = f.statusOpen := by
  unfold hangUp
  split <;> rfl

end Feed

namespace Pipeline
variable {job : Job α β} {s t u : Pipeline α β} {e : Event} {v w : Except PipelineError Nat}

theorem Step.shut_stays (step : Step job s e t) (shut : s.feed.statusOpen = false) :
    t.feed.statusOpen = false := by
  cases step with
  | source moved => exact moved.shut_stays shut
  | take worker taken => exact taken.shut_stays shut
  | letGo worker => exact s.feed.hangUp_statusOpen.trans shut
  | @streamWakes first q waking => cases q <;> exact shut
  | _ => exact shut

-- What a verdict rests on, with the reason that was known when it was given. The last case is a source
-- that broke down before it could say anything.
inductive Basis (job : Job α β) (s : Pipeline α β) (reason : Option CancelReason) :
    Except PipelineError Nat → Prop where
  | failed {m : String} (ended : s.stream.ended = some (.failed m)) :
      Basis job s reason (.error (.enumeration m))
  | completed {n : Nat} (ended : s.stream.ended = some (.completed n))
      (drained : s.stream.drained = true) (all : s.stream.received.length = n) :
      Basis job s reason (.ok n)
  | stopped {r : CancelReason} (given : reason = some r)
      (unfailed : ∀ m, s.stream.ended ≠ some (.failed m))
      (short : ∀ n, s.stream.ended = some (.completed n) → s.stream.drained = true →
        s.stream.received.length ≠ n) :
      Basis job s reason (.error (.ofReason r job.timeout))
  | broken (unknown : reason = none) (missing : s.stream.ended = none)
      (broken : job.source.starts = false) (shut : s.feed.statusOpen = false) :
      Basis job s reason (.error .cancelled)

theorem Basis.keep {reason : Option CancelReason} (basis : Basis job s reason v)
    (ended : t.stream.ended = s.stream.ended) (drained : t.stream.drained = s.stream.drained)
    (received : t.stream.received = s.stream.received)
    (shut : s.feed.statusOpen = false → t.feed.statusOpen = false) : Basis job t reason v := by
  cases basis with
  | failed known => exact .failed (ended.trans known)
  | completed known atEnd all =>
    exact .completed (ended.trans known) (drained.trans atEnd) (by rwa [received])
  | stopped given unfailed short =>
    refine .stopped given ?_ ?_
    · rwa [ended]
    · rwa [ended, drained, received]
  | broken unknown missing broken closed =>
    exact .broken unknown (ended.trans missing) broken (shut closed)

structure Rests (job : Job α β) (s : Pipeline α β) (v : Except PipelineError Nat) : Prop where
  atEnd : s.stream.drained = true ∨ s.signal.isTripped = true
  basis : ∃ reason, (∀ r, reason = some r → s.signal.reason = some r) ∧ Basis job s reason v

structure Judging (job : Job α β) (s : Pipeline α β) : Prop where
  atEnd : s.stream.phase.isJudging = true → s.stream.drained = true ∨ s.signal.isTripped = true
  missing : s.stream.phase = .resolving → s.stream.ended = none →
    s.signal.isTripped = true ∨ job.source.starts = false ∧ s.feed.statusOpen = false
  given : ∀ v, s.stream.answer = some (.verdict v) → s.stream.phase = .idle ∧ s.Rests job v

theorem Judging.basis (judging : s.Judging job) (sound : s.Sound job)
    (resolving : s.stream.phase = .resolving) :
    Basis job s s.signal.reason (finalStatus s.stream.ended s.stream.drained s.stream.received.length
      s.signal.reason job.timeout) := by
  have atEnd := judging.atEnd (by simp [resolving, StreamPhase.isJudging])
  have stopped {ended : SourceEnd} (found : s.stream.ended = some ended)
      (unfailed : ∀ m, ended ≠ .failed m)
      (short : ∀ n, ended = .completed n → s.stream.drained = true → s.stream.received.length ≠ n) :
      Basis job s s.signal.reason
        (.error ((s.signal.reason.map (PipelineError.ofReason · job.timeout)).getD .cancelled)) := by
    obtain ⟨r, reason⟩ := Signal.isTripped_iff.mp
      (sound.stopped atEnd (sound.posted.taken _ found) unfailed short)
    have basis : Basis job s s.signal.reason (.error (.ofReason r job.timeout)) :=
      .stopped reason (by simpa [found] using unfailed) (by simpa [found] using short)
    simpa [reason] using basis
  cases found : s.stream.ended with
  | some ended =>
    cases ended with
    | failed m => exact .failed found
    | completed n =>
      by_cases all : s.stream.drained = true ∧ s.stream.received.length = n
      · simp only [finalStatus, all, beq_self_eq_true, Bool.and_self, if_true]
        exact .completed found all.1 all.2
      · have short : (s.stream.drained && s.stream.received.length == n) = false := by simpa using all
        simp only [finalStatus, short]
        apply stopped found (by simp)
        rintro _ ⟨⟩ drained count
        exact all ⟨drained, count⟩
    | cancelled n => exact stopped found (by simp) (by simp)
  | none =>
    cases reason : s.signal.reason with
    | some r => exact .stopped rfl (by simp [found]) (by simp [found])
    | none =>
      have quiet : s.signal.isTripped = false := by simp [Signal.isTripped, reason]
      obtain ⟨broken, shut⟩ := (judging.missing resolving found).resolve_left (by simp [quiet])
      exact .broken rfl found broken shut

theorem Judging.frame (judging : s.Judging job) (step : Step job s e t) (same : t.stream = s.stream) :
    t.Judging job where
  atEnd judges := (judging.atEnd (same ▸ judges)).imp step.drained_stays step.tripped_stays
  missing resolving none := by
    rw [same] at resolving none
    exact (judging.missing resolving none).imp step.tripped_stays
      fun broken => ⟨broken.1, step.shut_stays broken.2⟩
  given v answer := by
    rw [same] at answer ⊢
    obtain ⟨idle, atEnd, reason, known, basis⟩ := judging.given v answer
    refine ⟨idle, ?_, reason, fun r own => step.reason_stays (known r own), ?_⟩
    · exact (same ▸ atEnd).imp_right step.tripped_stays
    · exact basis.keep (by rw [same]) (by rw [same]) (by rw [same]) step.shut_stays

theorem Judging.elsewhere (judges : t.stream.phase.isJudging = false)
    (answer : ∀ v, t.stream.answer ≠ some (.verdict v)) : t.Judging job where
  atEnd busy := by simp [judges] at busy
  missing resolving := by simp [resolving, StreamPhase.isJudging] at judges
  given v shown := absurd shown (answer v)

theorem Judging.takeReport (judging : s.Judging job) (sound : s.Sound job)
    (asking : s.stream.phase = .polling ∨ s.stream.phase = .awaiting)
    (shut : s.stream.phase = .awaiting → s.feed.mailbox.isSome = true ∨ s.feed.statusOpen = false)
    (unanswered : ∀ v, s.stream.answer ≠ some (.verdict v)) : s.takeReport.Judging job where
  atEnd _ := judging.atEnd (by rcases asking with phase | phase <;> simp [phase, StreamPhase.isJudging])
  missing _ found := by
    have empty : s.feed.mailbox = none := found
    rcases asking with polling | awaiting
    · exact .inl (sound.traced.stream (.inr polling))
    · have closed : s.feed.statusOpen = false := by simpa [empty] using shut awaiting
      cases starts : job.source.starts with
      | true =>
        obtain ⟨ended, reports⟩ := sound.honest.reported starts (.inr closed)
        exact absurd (by simp [reports]) (sound.unreported (.inr awaiting) empty ended)
      | false => exact .inr ⟨rfl, closed⟩
  given v answer := absurd answer (unanswered v)

theorem Judging.look (judging : s.Judging job) (looking : s.stream.phase = .looking)
    (unanswered : ∀ v, s.stream.answer ≠ some (.verdict v)) : (s.setStream s.lookUp).Judging job where
  atEnd _ := judging.atEnd (by simp [looking, StreamPhase.isJudging])
  missing resolving found := by
    have missing : s.stream.ended = none := found
    rcases s.lookUp_cases with ⟨-, known⟩ | ⟨next, -⟩ | ⟨next, -⟩
    · simp [missing] at known
    · simp [setStream, next] at resolving
    · simp [setStream, next] at resolving
  given v answer := absurd answer (unanswered v)

theorem Judging.stream_step {m : Move} (judging : s.Judging job) (sound : s.Sound job)
    (step : Step job s (.stream m) t) : t.Judging job := by
  have unanswered (busy : s.stream.phase ≠ .idle) (v : Except PipelineError Nat) :
      s.stream.answer ≠ some (.verdict v) := fun answer => busy (judging.given v answer).1
  cases step with
  | receive | drain | interrupt => exact .elsewhere rfl (by simp [Pipeline.receive, answered])
  | streamRecords recording => exact .elsewhere rfl (unanswered (by simp [recording]))
  | @streamWakes first q waking =>
    have unanswered := unanswered (by simp [waking])
    have tripped := sound.traced.stream (.inl ⟨_, _, waking⟩)
    cases q with
    | finish =>
      refine ⟨fun _ => .inr tripped, by simp [afterTrip, setStream], ?_⟩
      exact fun v answer => absurd answer (unanswered v)
    | drop => exact .elsewhere rfl unanswered
    | trip | next => exact .elsewhere rfl (by simp [afterTrip, answered])
  | look looking => exact judging.look looking (unanswered (by simp [looking]))
  | poll polling =>
    exact judging.takeReport sound (.inl polling) (by simp [polling]) (unanswered (by simp [polling]))
  | hear awaiting atEnd =>
    exact judging.takeReport sound (.inr awaiting) (fun _ => atEnd) (unanswered (by simp [awaiting]))
  | resolve resolving =>
    have atEnd := judging.atEnd (by simp [resolving, StreamPhase.isJudging])
    refine ⟨fun _ => atEnd, by simp [Pipeline.resolve, answered], ?_⟩
    intro v answer
    cases answer
    exact ⟨rfl, atEnd, _, fun r reason => reason, (judging.basis sound resolving).keep rfl rfl rfl id⟩
  | close => exact .elsewhere rfl (by simp [dropStream])

theorem Judging.step (judging : s.Judging job) (sound : s.Sound job) (step : Step job s e t) :
    t.Judging job := by
  cases e with
  | stream m => exact judging.stream_step sound step
  | request q =>
    cases step with
    | endAgain => exact .elsewhere rfl (by simp [answered])
    | select | finishEarly | trip | drop => exact .elsewhere rfl (by simp [Pipeline.begin])
    | finishDrained idle drained =>
      exact ⟨fun _ => .inl drained, by simp [Pipeline.begin], by simp [Pipeline.begin]⟩
  | source | worker | closer | watchdog | deadline | callerRecord | callerWake | callerLeave =>
    rcases step.stream_cases (by simp) (by simp) with same | ⟨-, o, same⟩
    · exact judging.frame step same
    · exact .elsewhere (by rw [same]; rfl) (by simp [same, Pipeline.receive])

theorem start_judging (tuning : Tuning) (caller : Option Signal) :
    (start tuning caller : Pipeline α β).Judging job :=
  .elsewhere rfl (by simp [start, pool])

-- How the verdict given in one state can give way to another one later: it was given before the source
-- had reported, and then the report came. A source that broke down before it could report anything
-- leaves a run without any reason, until somebody stops it.
inductive Amends (job : Job α β) (s t : Pipeline α β) :
    Except PipelineError Nat → Except PipelineError Nat → Prop where
  | failed {r : CancelReason} {m : String} (reason : s.signal.reason = some r)
      (early : s.stream.ended = none) (reported : .failed m ∈ t.feed.reports) :
      Amends job s t (.error (.ofReason r job.timeout)) (.error (.enumeration m))
  | completed {r : CancelReason} {n : Nat} (reason : s.signal.reason = some r)
      (early : s.stream.ended = none) (drained : s.stream.drained = true)
      (all : s.stream.received.length = n) (reported : .completed n ∈ t.feed.reports) :
      Amends job s t (.error (.ofReason r job.timeout)) (.ok n)
  | stopped {r : CancelReason} (broken : job.source.starts = false) (early : s.stream.ended = none)
      (reason : t.signal.reason = some r) :
      Amends job s t (.error .cancelled) (.error (.ofReason r job.timeout))

theorem Amends.step (amends : Amends job s t v w) (step : Step job t e u) : Amends job s u v w := by
  cases amends with
  | failed reason early reported => exact .failed reason early (step.reports_stay reported)
  | completed reason early drained all reported =>
    exact .completed reason early drained all (step.reports_stay reported)
  | stopped broken early reason => exact .stopped broken early (step.reason_stays reason)

-- What is known of every state after the one in which a verdict was given. Nothing more is received, and
-- what was known at the time stays known.
structure Since (job : Job α β) (s : Pipeline α β) (v : Except PipelineError Nat) (t : Pipeline α β) :
    Prop where
  rests : s.Rests job v
  sound : t.Sound job
  judging : t.Judging job
  received : t.stream.received = s.stream.received
  drained : t.stream.drained = s.stream.drained
  ended : ∀ ended, s.stream.ended = some ended → t.stream.ended = some ended
  reason : ∀ r, s.signal.reason = some r → t.signal.reason = some r
  shut : s.feed.statusOpen = false → t.feed.statusOpen = false
  resting : t.stream.phase ≠ .selecting
  awaiting : t.stream.phase = .awaiting → s.signal.isTripped = false
  verdict : ∀ w, t.stream.answer = some (.verdict w) → w = v ∨ Amends job s t v w

theorem Since.here (sound : s.Sound job) (judging : s.Judging job)
    (given : s.stream.answer = some (.verdict v)) : Since job s v s where
  rests := (judging.given v given).2
  sound := sound
  judging := judging
  received := rfl
  drained := rfl
  ended _ known := known
  reason _ known := known
  shut closed := closed
  resting := by simp [(judging.given v given).1]
  awaiting waits := by simp [(judging.given v given).1] at waits
  verdict w answer := by
    rw [given] at answer
    cases answer
    exact .inl rfl

theorem Since.tripped (since : Since job s v t) (tripped : s.signal.isTripped = true) :
    t.signal.isTripped = true := by
  obtain ⟨r, reason⟩ := Signal.isTripped_iff.mp tripped
  exact Signal.isTripped_iff.mpr ⟨r, since.reason r reason⟩

theorem Since.compare (since : Since job s v t) (new : Basis job t t.signal.reason w) :
    w = v ∨ Amends job s t v w := by
  obtain ⟨-, known, before, old⟩ := since.rests
  have early {ended : SourceEnd} (found : t.stream.ended = some ended)
      (other : s.stream.ended ≠ some ended) : s.stream.ended = none := by
    cases had : s.stream.ended with
    | none => rfl
    | some first =>
      have same := since.ended first had
      rw [found] at same
      exact absurd (had.trans same.symm) other
  have starts {ended : SourceEnd} (found : t.stream.ended = some ended) : job.source.starts = true :=
    (since.sound.honest.truthful (since.sound.posted.taken _ found)).2.2
  cases old with
  | failed ended =>
    have still := since.ended _ ended
    cases new with
    | failed found => rw [still] at found; cases found; exact .inl rfl
    | completed found => simp [still] at found
    | stopped _ unfailed => exact absurd still (unfailed _)
    | broken _ missing => simp [still] at missing
  | completed ended drained all =>
    have still := since.ended _ ended
    cases new with
    | failed found => simp [still] at found
    | completed found => rw [still] at found; cases found; exact .inl rfl
    | stopped _ _ short =>
      exact absurd (by rw [since.received, all]) (short _ still (since.drained.trans drained))
    | broken _ missing => simp [still] at missing
  | @stopped r given unfailed short =>
    have reason := before r given
    cases new with
    | failed found =>
      exact .inr (.failed reason (early found (unfailed _)) (since.sound.posted.taken _ found))
    | completed found drained all =>
      have drained := since.drained.symm.trans drained
      have all := since.received ▸ all
      exact .inr (.completed reason (early found fun same => short _ same drained all) drained all
        (since.sound.posted.taken _ found))
    | stopped now =>
      rw [since.reason r reason] at now
      cases now
      exact .inl rfl
    | broken unknown => simp [since.reason r reason] at unknown
  | broken unknown missing broken shut =>
    cases new with
    | failed found => cases (starts found).symm.trans broken
    | completed found => cases (starts found).symm.trans broken
    | stopped now => exact .inr (.stopped broken missing now)
    | broken => exact .inl rfl

theorem Since.frame (since : Since job s v t) (step : Step job t e u) (same : u.stream = t.stream) :
    Since job s v u where
  rests := since.rests
  sound := since.sound.step step
  judging := since.judging.frame step same
  received := by rw [same]; exact since.received
  drained := by rw [same]; exact since.drained
  ended := by rw [same]; exact since.ended
  reason r known := step.reason_stays (since.reason r known)
  shut closed := step.shut_stays (since.shut closed)
  resting := by rw [same]; exact since.resting
  awaiting := by rw [same]; exact since.awaiting
  verdict w answer := (since.verdict w (same ▸ answer)).imp_right fun amends => amends.step step

theorem Since.elsewhere (since : Since job s v t) (step : Step job t e u)
    (received : u.stream.received = t.stream.received) (drained : u.stream.drained = t.stream.drained)
    (ended : ∀ ended, t.stream.ended = some ended → u.stream.ended = some ended)
    (phase : u.stream.phase ≠ .selecting ∧ u.stream.phase ≠ .awaiting)
    (answer : ∀ w, u.stream.answer ≠ some (.verdict w)) : Since job s v u where
  rests := since.rests
  sound := since.sound.step step
  judging := since.judging.step since.sound step
  received := received.trans since.received
  drained := drained.trans since.drained
  ended first had := ended first (since.ended first had)
  reason r known := step.reason_stays (since.reason r known)
  shut closed := step.shut_stays (since.shut closed)
  resting := phase.1
  awaiting waits := absurd waits phase.2
  verdict w shown := absurd shown (answer w)

theorem Since.look (since : Since job s v t) (looking : t.stream.phase = .looking)
    (unanswered : ∀ w, t.stream.answer ≠ some (.verdict w)) :
    Since job s v (t.setStream t.lookUp) := by
  have step : Step job t _ _ := .look looking
  refine ⟨since.rests, since.sound.step step, since.judging.step since.sound step, since.received,
    since.drained, since.ended, since.reason, since.shut, ?_, ?_, fun w shown => absurd shown (unanswered w)⟩
  · rcases t.lookUp_cases with ⟨next, -⟩ | ⟨next, -⟩ | ⟨next, -⟩ <;> simp [setStream, next]
  · intro waits
    rcases t.lookUp_cases with ⟨next, -⟩ | ⟨next, -⟩ | ⟨-, quiet⟩
    · simp [setStream, next] at waits
    · simp [setStream, next] at waits
    · exact Bool.eq_false_iff.mpr fun tripped => by simp [since.tripped tripped] at quiet

theorem Since.takeReport (since : Since job s v t) {m : Move} (step : Step job t (.stream m) t.takeReport)
    (asking : t.stream.phase = .polling ∨ t.stream.phase = .awaiting)
    (unanswered : ∀ w, t.stream.answer ≠ some (.verdict w)) : Since job s v t.takeReport :=
  since.elsewhere step rfl rfl (fun _ had => by simp [since.sound.posted.asking asking] at had)
    (by simp [Pipeline.takeReport]) unanswered

theorem Since.stream_step {m : Move} (since : Since job s v t) (step : Step job t (.stream m) u) :
    Since job s v u := by
  have unanswered (busy : t.stream.phase ≠ .idle) (w : Except PipelineError Nat) :
      t.stream.answer ≠ some (.verdict w) := fun answer => busy (since.judging.given w answer).1
  cases step with
  | receive selecting | drain selecting | interrupt selecting => exact absurd selecting since.resting
  | streamRecords recording =>
    exact since.elsewhere (.streamRecords recording) rfl rfl (fun _ => id) (by simp [setStream])
      (unanswered (by simp [recording]))
  | @streamWakes first q waking =>
    have unanswered := unanswered (by simp [waking])
    refine since.elsewhere (.streamWakes waking) ?_ ?_ ?_ ?_ ?_ <;> cases q <;>
      simp [afterTrip, setStream, answered, unanswered]
  | look looking => exact since.look looking (unanswered (by simp [looking]))
  | poll polling =>
    exact since.takeReport (.poll polling) (.inl polling) (unanswered (by simp [polling]))
  | hear awaiting atEnd =>
    exact since.takeReport (.hear awaiting atEnd) (.inr awaiting) (unanswered (by simp [awaiting]))
  | resolve resolving =>
    have step : Step job t _ _ := .resolve resolving
    refine ⟨since.rests, since.sound.step step, since.judging.step since.sound step, since.received,
      since.drained, since.ended, since.reason, since.shut, by simp [Pipeline.resolve, answered],
      by simp [Pipeline.resolve, answered], ?_⟩
    intro w answer
    cases answer
    exact (since.compare (since.judging.basis since.sound resolving)).imp_right
      fun amends => amends.step step
  | close closing =>
    exact since.elsewhere (.close closing) rfl rfl (fun _ => id) (by simp [dropStream])
      (by simp [dropStream])

theorem Since.step (since : Since job s v t) (step : Step job t e u) : Since job s v u := by
  cases e with
  | stream m => exact since.stream_step step
  | request q =>
    have moved := step
    cases step with
    | select idle more quiet =>
      rcases since.rests.atEnd with drained | tripped
      · simp [since.drained, drained] at more
      · simp [since.tripped tripped] at quiet
    | endAgain =>
      exact since.elsewhere moved rfl rfl (fun _ => id) (by simp [answered]) (by simp [answered])
    | finishDrained | finishEarly | trip | drop =>
      exact since.elsewhere moved rfl rfl (fun _ => id) (by simp [Pipeline.begin])
        (by simp [Pipeline.begin])
  | source | worker | closer | watchdog | deadline | callerRecord | callerWake | callerLeave =>
    rcases step.stream_cases (by simp) (by simp) with same | ⟨selecting, -⟩
    · exact since.frame step same
    · exact absurd selecting since.resting

theorem Reaches.since (path : Reaches job s t) (since : Since job s v s) : Since job s v t :=
  path.keeps since fun _ before step => before.step step

theorem Since.goes_on (since : Since job s v t) (finishing : t.stream.phase.isFinishing = true) :
    ∃ u, advance job t (.stream .go) = some u ∧ ((∃ w, u.stream.answer = some (.verdict w)) ∨
      u.stream.phase.isFinishing = true ∧ u.stream.phase.turns < t.stream.phase.turns) := by
  cases phase : t.stream.phase with
  | recording r q =>
    obtain ⟨rfl, rfl⟩ : r = .released ∧ q = .finish := by
      simpa [StreamPhase.isFinishing, phase] using finishing
    exact ⟨_, by simp only [advance, streamStep, phase]; rfl, .inr ⟨rfl, Nat.lt_succ_self _⟩⟩
  | waking first q =>
    obtain rfl : q = .finish := by simpa [StreamPhase.isFinishing, phase] using finishing
    exact ⟨_, by simp only [advance, streamStep, phase]; rfl, .inr ⟨rfl, Nat.lt_succ_self _⟩⟩
  | looking =>
    refine ⟨_, by simp only [advance, streamStep, phase]; rfl, .inr ?_⟩
    rcases t.lookUp_cases with ⟨next, -⟩ | ⟨next, -⟩ | ⟨next, -⟩ <;>
      simp [setStream, next, StreamPhase.isFinishing, StreamPhase.turns]
  | polling => exact ⟨_, by simp only [advance, streamStep, phase]; rfl, .inr ⟨rfl, Nat.lt_succ_self _⟩⟩
  | awaiting =>
    -- Nobody had stopped the run when the verdict was given, so it was the source that said nothing.
    have quiet := since.awaiting phase
    have missing := since.sound.posted.asking (.inr phase)
    have shut : t.feed.statusOpen = false := by
      obtain ⟨-, known, before, old⟩ := since.rests
      cases old with
      | failed ended | completed ended => simp [since.ended _ ended] at missing
      | stopped given => simp [Signal.isTripped, before _ given] at quiet
      | broken _ _ _ shut => exact since.shut shut
    exact ⟨t.takeReport, by simp [advance, streamStep, phase, shut], .inr ⟨rfl, Nat.lt_succ_self _⟩⟩
  | resolving => exact ⟨_, by simp only [advance, streamStep, phase]; rfl, .inl ⟨_, rfl⟩⟩
  | idle | selecting | closing | gone => simp [phase, StreamPhase.isFinishing] at finishing

theorem Since.returns (since : Since job s v t) (finishing : t.stream.phase.isFinishing = true) :
    ∃ k ≤ t.stream.phase.turns, ∃ u w,
      (List.replicate k (Event.stream .go)).foldlM (advance job) t = some u ∧
        u.stream.answer = some (.verdict w) := by
  induction left : t.stream.phase.turns using Nat.strongRecOn generalizing t with
  | ind n ih =>
    obtain ⟨u, moved, ⟨w, answer⟩ | ⟨still, less⟩⟩ := since.goes_on finishing
    · refine ⟨1, ?_, u, w, by simp [moved], answer⟩
      cases phase : t.stream.phase <;>
        simp [phase, StreamPhase.isFinishing, StreamPhase.turns] at finishing left ⊢ <;> omega
    · obtain ⟨k, bound, final, w, ran, answer⟩ :=
        ih _ (left ▸ less) (since.step (advance_sound moved)) still rfl
      refine ⟨k + 1, by omega, final, w, ?_, answer⟩
      rw [List.replicate_succ, List.foldlM_cons, moved]
      exact ran

theorem Reaches.judging {options : RunOptions} {caller : Option Signal} {tuning : Tuning}
    {p : Pipeline α β} (started : start? options caller = .ok (tuning, p)) (path : Reaches job p s) :
    s.Judging job := by
  obtain ⟨-, rfl, -, -⟩ := start?_ok started
  exact path.keeps (start_judging tuning caller) fun prior judging step =>
    judging.step (prior.sound started) step

-- A verdict stands, whatever is done with the stream and however the other parties go on, unless it was
-- given before the source had reported. A request for it that is repeated waits for nobody: at most five
-- turns of the consumer alone lead to the verdict.
theorem verdict_stands {options : RunOptions} {caller : Option Signal} {tuning : Tuning}
    {p : Pipeline α β} (started : start? options caller = .ok (tuning, p)) (path : Reaches job p s)
    (given : s.stream.answer = some (.verdict v)) (onward : Reaches job s t) :
    (∀ w, t.stream.answer = some (.verdict w) → w = v ∨ Amends job s t v w) ∧
      (t.stream.phase.isFinishing = true → ∃ k ≤ 5, ∃ u w,
        (List.replicate k (Event.stream .go)).foldlM (advance job) t = some u ∧
          u.stream.answer = some (.verdict w)) := by
  have since := onward.since (.here (path.sound started) (path.judging started) given)
  refine ⟨since.verdict, fun finishing => ?_⟩
  obtain ⟨k, bound, returned⟩ := since.returns finishing
  exact ⟨k, Nat.le_trans bound (StreamPhase.turns_le _), returned⟩

def Overturns (job : Job α β) (p : Pipeline α β) (v w : Except PipelineError Nat) : Prop :=
  ∃ s t, Reaches job p s ∧ s.stream.answer = some (.verdict v) ∧ Reaches job s t ∧
    t.stream.answer = some (.verdict w)

theorem overturns_follow {p : Pipeline α β} (first later : List Event)
    (early : (first.foldlM (advance job) p).bind (·.stream.answer) = some (.verdict v))
    (late : ((first ++ later).foldlM (advance job) p).bind (·.stream.answer) = some (.verdict w)) :
    Overturns job p v w := by
  obtain ⟨s, came, given⟩ := Option.bind_eq_some_iff.mp early
  obtain ⟨t, ran, answer⟩ := Option.bind_eq_some_iff.mp late
  rw [List.foldlM_append, came] at ran
  exact ⟨s, t, Reaches.here.follows came, given, Reaches.here.follows ran, answer⟩

def judge : List Event := .request .finish :: List.replicate 3 (.stream .go)

def judgeEarly : List Event := .request .finish :: List.replicate 5 (.stream .go)

def sourceReports : List Event := List.replicate 4 (.source .go)

def draining : List Event := [.worker 0 .go, .worker 0 .go, .closer, .closer, .stream .message]

def bringing : Job Nat Nat := Pipeline.job ⟨1, 0, none⟩ (.ofList []) .value

def callerStops : List Event :=
  [.request .next, .callerRecord .requested, .callerWake, .watchdog .relay, .watchdog .go, .watchdog .go,
    .worker 0 .signal]

theorem bringing_overturns :
    Overturns bringing (start ⟨1, 0, none⟩ (some {})) (.error .cancelled) (.ok 0) :=
  overturns_follow (callerStops ++ draining ++ judge) (sourceReports ++ judge)
    (by with_unfolding_all rfl) (by with_unfolding_all rfl)

theorem verdict_stands_late :
    ∃ s, Reaches bringing (start ⟨1, 0, none⟩ (some {})) s ∧
      s.stream.answer = some (.verdict (.error .cancelled)) ∧
      (∃ t, Reaches bringing s t ∧ Amends bringing s t (.error .cancelled) (.ok 0)) ∧
      ∀ t, Reaches bringing s t → t.stream.phase.isFinishing = true → ∃ k ≤ 5, ∃ u w,
        (List.replicate k (Event.stream .go)).foldlM (advance bringing) t = some u ∧
          u.stream.answer = some (.verdict w) := by
  obtain ⟨s, t, path, given, onward, answer⟩ := bringing_overturns
  have started : start? ⟨1, none, some 0⟩ (some {}) =
    .ok (⟨1, 0, none⟩, (start ⟨1, 0, none⟩ (some {}) : Pipeline Nat Nat)) := rfl
  refine ⟨s, path, given, ⟨t, onward, ?_⟩, fun u later => (verdict_stands started path given later).2⟩
  exact ((verdict_stands started path given onward).1 _ answer).resolve_left nofun

def panicking : Job Nat Nat := Pipeline.job ⟨1, 0, none⟩ ⟨true, fun _ => .panic⟩ .value

theorem panicking_overturns :
    Overturns panicking (start ⟨1, 0, none⟩ none) (.error .cancelled)
      (.error (.enumeration Feed.panicMessage)) :=
  overturns_follow judgeEarly (sourceReports ++ judgeEarly) rfl rfl

def unprepared : Job Nat Nat := Pipeline.job ⟨1, 0, some ⟨5⟩⟩ ⟨false, fun _ => .panic⟩ .value

def sourceBreaks : List Event :=
  [.request .next, .source .go, .source .go, .source .message, .worker 0 .message]

def timeEnds : List Event := [.deadline, .watchdog .expire, .watchdog .go, .watchdog .go]

theorem unprepared_overturns :
    Overturns unprepared (start ⟨1, 0, some ⟨5⟩⟩ none) (.error .cancelled) (.error (.timeout ⟨5⟩)) :=
  overturns_follow (sourceBreaks ++ draining ++ judge) (timeEnds ++ judge)
    (by with_unfolding_all rfl) (by with_unfolding_all rfl)

-- No verdict is safe that was given too early: neither what the error is, nor that it is one.
theorem verdict_overturned :
    Overturns panicking (start ⟨1, 0, none⟩ none) (.error .cancelled)
        (.error (.enumeration Feed.panicMessage)) ∧
      Overturns bringing (start ⟨1, 0, none⟩ (some {})) (.error .cancelled) (.ok 0) ∧
      Overturns unprepared (start ⟨1, 0, some ⟨5⟩⟩ none) (.error .cancelled) (.error (.timeout ⟨5⟩)) :=
  ⟨panicking_overturns, bringing_overturns, unprepared_overturns⟩

end Pipeline
end TreeDigest
