import TreeDigest.Proofs.Run.Collected
import TreeDigest.Proofs.Run.Finishing
namespace TreeDigest

def ClientPhase.isOpen : ClientPhase α β → Bool
  | .pulling | .waiting | .seeing _ | .finishing => true
  | _ => false

theorem Pipeline.Step.received_cases {job : Job α β} {s t : Pipeline α β} {e : Pipeline.Event}
    (step : Pipeline.Step job s e t) :
    t.stream.received = s.stream.received ∨ s.stream.phase = .selecting := by
  cases step with
  | handOver worker rendezvous selecting => exact .inr selecting
  | receive selecting popped => exact .inr selecting
  | @streamWakes first q waking => cases q <;> exact .inl rfl
  | _ => exact .inl rfl

theorem Pipeline.Step.received_stay {job : Job α β} {s t : Pipeline α β} {e : Pipeline.Event}
    (step : Pipeline.Step job s e t) : s.stream.received ⊆ t.stream.received := by
  cases step with
  | handOver => exact List.subset_cons_self _ _
  | receive => exact List.subset_cons_self _ _
  | @streamWakes first q waking => cases q <;> exact List.Subset.refl _
  | _ => exact List.Subset.refl _

namespace Run
variable {job : Job α β} {client : Client α β} {s t : Run α β} {e : Event}

def unseen (stream : Stream α β) : ClientPhase α β → List (Outcome α β)
  | .seeing o => [o]
  | .waiting =>
    match stream.answer with
    | some (.outcome o) => [o]
    | _ => []
  | _ => []

structure Gathered (client : Client α β) (s : Run α β) : Prop where
  received : s.pipeline.stream.received = unseen s.pipeline.stream s.phase ++ s.seen
  collected : s.phase.isOpen = true → s.collected = Collected.of s.seen
  fine : s.phase.isOpen = true → client.policy = .failFast → ∀ o ∈ s.seen, ∃ v, o.result = .ok v

def Deciding (job : Job α β) (p : Pipeline α β) : ClientPhase α β → Prop
  | .waiting =>
    p.stream.answer = some .ended → p.stream.drained = true ∨ p.signal.isTripped = true
  | .finishing => Finishing job p
  | _ => True

def Justified (job : Job α β) (client : Client α β) (p : Pipeline α β) : RunResult α β → Prop
  | .ok c =>
    (∃ n, .ok n ∈ p.stream.verdicts) ∧ c = Collected.of p.stream.received ∧
      (client.policy = .failFast → ∀ o ∈ p.stream.received, ∃ v, o.result = .ok v)
  | .error e =>
    (client.policy = .failFast ∧ ∃ o ∈ p.stream.received, ∃ m, o.result = .error m ∧
      e = .transform (client.shown o.item) m) ∨ p.Verdict job (.error e)
  | .panicked => ∃ o ∈ p.stream.received, client.callbackPanics o = true

def Ending (job : Job α β) (client : Client α β) (p : Pipeline α β) : ClientPhase α β → Prop
  | .failing x m =>
    client.policy = .failFast ∧ ∃ o ∈ p.stream.received, o.item = x ∧ o.result = .error m
  | .dropping r | .returned r => Justified job client p r
  | _ => True

structure Sound (job : Job α β) (client : Client α β) (s : Run α β) : Prop where
  pipeline : s.pipeline.Sound job
  attuned : Attuned s.pipeline.stream s.phase
  gathered : Gathered client s
  blamed : s.phase.isOpen = true → s.pipeline.Blamed
  deciding : Deciding job s.pipeline s.phase
  ending : Ending job client s.pipeline s.phase

theorem Justified.step {p q : Pipeline α β} {e : Pipeline.Event} {r : RunResult α β}
    (justified : Justified job client p r) (step : Pipeline.Step job p e q)
    (resting : p.stream.phase ≠ .selecting) : Justified job client q r := by
  have same := step.received_cases.resolve_right resting
  cases r with
  | ok c =>
    obtain ⟨⟨n, returned⟩, collected, fine⟩ := justified
    exact ⟨⟨n, step.verdicts_stay returned⟩, by rw [same]; exact collected, by rw [same]; exact fine⟩
  | error e =>
    rcases justified with failing | verdict
    · exact .inl (by rw [same]; exact failing)
    · exact .inr (verdict.step step)
  | panicked => rw [Justified, same]; exact justified

theorem Ending.step {p q : Pipeline α β} {e : Pipeline.Event} {phase : ClientPhase α β}
    (ending : Ending job client p phase) (attuned : Attuned p.stream phase)
    (step : Pipeline.Step job p e q) : Ending job client q phase := by
  have resting (other : phase ≠ .waiting) : p.stream.phase ≠ .selecting :=
    fun selecting => other (attuned.selecting selecting).1
  cases phase with
  | failing x m =>
    obtain ⟨policy, o, member, item, result⟩ := ending
    exact ⟨policy, o, step.received_stay member, item, result⟩
  | dropping r => exact Justified.step ending step (resting (by simp))
  | returned r => exact Justified.step ending step (resting (by simp))
  | pulling | waiting | seeing o | finishing => trivial

theorem Gathered.receive {p : Pipeline α β} (gathered : Gathered client s)
    (attuned : Attuned s.pipeline.stream s.phase) (selecting : s.pipeline.stream.phase = .selecting)
    (o : Outcome α β) (same : p.stream = (s.pipeline.receive o).stream) :
    Gathered client { s with pipeline := p } := by
  obtain ⟨phase, none⟩ := attuned.selecting selecting
  refine ⟨?_, gathered.collected, gathered.fine⟩
  have old := gathered.received
  simp only [unseen, phase, none] at old
  simp [unseen, phase, same, Pipeline.receive, old]

theorem Gathered.frame {p : Pipeline α β} (gathered : Gathered client s)
    (received : p.stream.received = s.pipeline.stream.received)
    (sameUnseen : unseen p.stream s.phase = unseen s.pipeline.stream s.phase) :
    Gathered client { s with pipeline := p } :=
  ⟨by rw [received, gathered.received, sameUnseen], gathered.collected, gathered.fine⟩

theorem Gathered.stream_step {m : Move} {p : Pipeline α β} (gathered : Gathered client s)
    (attuned : Attuned s.pipeline.stream s.phase)
    (moved : Pipeline.Step job s.pipeline (.stream m) p) :
    Gathered client { s with pipeline := p } := by
  have elsewhere (other : s.pipeline.stream.phase ≠ .selecting)
      (received : p.stream.received = s.pipeline.stream.received)
      (busy : s.pipeline.stream.phase ≠ .idle) : Gathered client { s with pipeline := p } := by
    apply gathered.frame received
    cases phase : s.phase with
    | waiting => simp_all [Attuned]
    | pulling | seeing o | failing x m | finishing | dropping r | returned r => rfl
  cases moved with
  | receive selecting popped => exact gathered.receive attuned selecting _ rfl
  | drain selecting | interrupt selecting =>
    obtain ⟨phase, none⟩ := attuned.selecting selecting
    exact gathered.frame rfl (by simp [unseen, phase, none, Pipeline.answered])
  | streamRecords recording => exact elsewhere (by simp [recording]) rfl (by simp [recording])
  | @streamWakes first q waking =>
    cases q <;> exact elsewhere (by simp [waking]) rfl (by simp [waking])
  | look looking => exact elsewhere (by simp [looking]) rfl (by simp [looking])
  | poll polling => exact elsewhere (by simp [polling]) rfl (by simp [polling])
  | hear awaiting => exact elsewhere (by simp [awaiting]) rfl (by simp [awaiting])
  | resolve resolving => exact elsewhere (by simp [resolving]) rfl (by simp [resolving])
  | close closing => exact elsewhere (by simp [closing]) rfl (by simp [closing])

theorem Deciding.ended {p q : Pipeline α β} {m : Move} (attuned : Attuned p.stream .waiting)
    (moved : Pipeline.Step job p (.stream m) q) (ended : q.stream.answer = some .ended) :
    q.stream.drained = true ∨ q.signal.isTripped = true := by
  cases moved with
  | receive => cases ended
  | drain => exact .inl rfl
  | interrupt selecting woken => exact .inr (Signal.isTripped_of_woken woken)
  | streamRecords recording | streamWakes recording | look recording | poll recording
  | hear recording | resolve recording | close recording => simp [Attuned, recording] at attuned

-- As long as the result is open, the call has tripped the signal only after somebody else had.
theorem Sound.tripped_before (sound : Sound job client s) (isOpen : s.phase.isOpen = true)
    (r : CancelReason) (q : Request) (recording : s.pipeline.stream.phase = .recording r q) :
    s.pipeline.signal.isTripped = true := by
  have attuned := sound.attuned
  have deciding := sound.deciding
  cases phase : s.phase with
  | finishing => rw [phase] at deciding; exact Finishing.early deciding r q recording
  | pulling | waiting | seeing o => simp [Attuned, phase, recording] at attuned
  | failing x m | dropping x | returned x => simp [phase, ClientPhase.isOpen] at isOpen

theorem Sound.blamed_step {p : Pipeline α β} {e : Pipeline.Event} (sound : Sound job client s)
    (step : Pipeline.Step job s.pipeline e p) (stays : s.phase.isOpen = true → e ≠ .callerLeave)
    (isOpen : s.phase.isOpen = true) : p.Blamed :=
  (sound.blamed isOpen).step sound.pipeline.honest step (sound.tripped_before isOpen) (stays isOpen)

theorem Sound.thread {p : Pipeline α β} {e : Pipeline.Event} (sound : Sound job client s)
    (free : s.isFree e = true) (moved : Pipeline.Step job s.pipeline e p) :
    Sound job client { s with pipeline := p } := by
  obtain ⟨other, unasked⟩ := free_cases free
  have streamed := moved.stream_cases other unasked
  have stays : s.phase.isOpen = true → e ≠ .callerLeave := by
    rintro isOpen rfl
    cases phase : s.phase <;> simp_all [isFree, ClientPhase.isOpen]
  have step : Step job client s _ _ := .thread free moved
  refine ⟨sound.pipeline.step moved, attuned_step sound.attuned step, ?_, sound.blamed_step moved stays, ?_,
    sound.ending.step sound.attuned moved⟩
  · rcases streamed with same | ⟨selecting, o, same⟩
    · exact sound.gathered.frame (by rw [same]) (by rw [same])
    · exact sound.gathered.receive sound.attuned selecting o same
  · have deciding := sound.deciding
    cases phase : s.phase with
    | waiting =>
      rw [phase] at deciding
      intro ended
      rcases streamed with same | ⟨selecting, o, same⟩
      · exact (deciding (same ▸ ended)).imp moved.drained_stays moved.tripped_stays
      · simp [same, Pipeline.receive] at ended
    | finishing =>
      rw [phase] at deciding
      rcases streamed with same | ⟨selecting, o, same⟩
      · exact Finishing.frame deciding moved same
      · have waiting := (sound.attuned.selecting selecting).1
        simp [phase] at waiting
    | pulling | seeing o | failing x m | dropping r | returned r => trivial

theorem Sound.stream {p : Pipeline α β} {m : Move} (sound : Sound job client s)
    (moved : Pipeline.Step job s.pipeline (.stream m) p) :
    Sound job client { s with pipeline := p } := by
  refine ⟨sound.pipeline.step moved, sound.attuned.stream_step moved,
    sound.gathered.stream_step sound.attuned moved, sound.blamed_step moved (by simp), ?_,
    sound.ending.step sound.attuned moved⟩
  have deciding := sound.deciding
  have attuned := sound.attuned
  cases phase : s.phase with
  | waiting =>
    rw [phase] at attuned
    exact Deciding.ended attuned moved
  | finishing =>
    rw [phase] at attuned deciding
    exact Finishing.stream_step deciding sound.pipeline (sound.blamed (by simp [phase, ClientPhase.isOpen]))
      attuned moved
  | pulling | seeing o | failing x m | dropping r | returned r => trivial

theorem Sound.pull {p : Pipeline α β} (sound : Sound job client s) (phase : s.phase = .pulling)
    (asked : Pipeline.Step job s.pipeline (.request .next) p) :
    Sound job client { s with pipeline := p, phase := .waiting } := by
  have isOpen : s.phase.isOpen = true := by simp [phase, ClientPhase.isOpen]
  have gathered := sound.gathered
  have received : s.pipeline.stream.received = s.seen := by
    simpa [unseen, phase] using gathered.received
  have step : Step job client s _ _ := .pull phase asked
  refine ⟨sound.pipeline.step asked, attuned_step sound.attuned step,
    ⟨?_, fun _ => gathered.collected isOpen, fun _ => gathered.fine isOpen⟩,
    fun _ => sound.blamed_step asked (by simp) isOpen, ?_, trivial⟩
  · cases asked <;> exact received
  · intro ended
    cases asked with
    | endAgain idle atEnd => exact atEnd
    | select idle more quiet => cases ended

theorem Sound.finish {a : Answer α β} {p : Pipeline α β} (sound : Sound job client s)
    (phase : s.phase = .waiting) (answer : s.pipeline.stream.answer = some a)
    (atEnd : ∀ o, a ≠ .outcome o) (asked : Pipeline.Step job s.pipeline (.request .finish) p) :
    Sound job client { s with pipeline := p, phase := .finishing } := by
  have isOpen : s.phase.isOpen = true := by simp [phase, ClientPhase.isOpen]
  have gathered := sound.gathered
  have attuned := sound.attuned
  have deciding := sound.deciding
  have ended : a = .ended := by
    simp only [Attuned, phase, answer] at attuned
    rcases attuned with ⟨-, none⟩ | ⟨-, ⟨o, outcome⟩ | ended⟩
    · cases none
    · exact absurd (Option.some.inj outcome) (atEnd o)
    · exact Option.some.inj ended
  subst ended
  have stopped : s.pipeline.stream.drained = true ∨ s.pipeline.signal.isTripped = true := by
    rw [phase] at deciding
    exact deciding answer
  have received : s.pipeline.stream.received = s.seen := by
    simpa [unseen, phase, answer] using gathered.received
  have step : Step job client s _ _ := .finish phase answer atEnd asked
  refine ⟨sound.pipeline.step asked, attuned_step sound.attuned step,
    ⟨?_, fun _ => gathered.collected isOpen, fun _ => gathered.fine isOpen⟩,
    fun _ => sound.blamed_step asked (by simp) isOpen, ?_, trivial⟩
  · cases asked <;> exact received
  · cases asked with
    | finishDrained idle drained =>
      refine ⟨stopped, ?_, ?_, ?_, ?_⟩ <;> simp [Pipeline.begin]
    | finishEarly idle more =>
      have tripped := stopped.resolve_left (by simp [more])
      exact ⟨.inr tripped, fun _ _ _ => tripped, by simp [Pipeline.begin], by simp [Pipeline.begin],
        by simp [Pipeline.begin]⟩

theorem Sound.see {o : Outcome α β} (sound : Sound job client s) (phase : s.phase = .seeing o) :
    s.pipeline.stream.received = o :: s.seen := by
  simpa [unseen, phase] using sound.gathered.received

theorem Sound.unwind {o : Outcome α β} {p : Pipeline α β} (sound : Sound job client s)
    (phase : s.phase = .seeing o) (panics : client.callbackPanics o = true)
    (asked : Pipeline.Step job s.pipeline (.request .drop) p) :
    Sound job client
      { s with pipeline := p, seen := o :: s.seen, phase := .dropping .panicked } := by
  have received := sound.see phase
  have step : Step job client s _ _ := .unwind phase panics asked
  refine ⟨sound.pipeline.step asked, attuned_step sound.attuned step,
    ⟨?_, nofun, nofun⟩,
    nofun, trivial, ?_⟩
  · cases asked; exact received
  · have still : s.pipeline.stream.received ⊆ p.stream.received := asked.received_stay
    exact ⟨o, still (by simp [received]), panics⟩

theorem Sound.fail {o : Outcome α β} {m : String} {p : Pipeline α β} (sound : Sound job client s)
    (phase : s.phase = .seeing o) (policy : client.policy = .failFast) (result : o.result = .error m)
    (asked : Pipeline.Step job s.pipeline (.request (.trip .failed)) p) :
    Sound job client
      { s with pipeline := p, seen := o :: s.seen, phase := .failing o.item m } := by
  have received := sound.see phase
  have step : Step job client s _ _ := .fail phase policy result asked
  refine ⟨sound.pipeline.step asked, attuned_step sound.attuned step,
    ⟨?_, nofun, nofun⟩,
    nofun, trivial, ?_⟩
  · cases asked; exact received
  · have still : s.pipeline.stream.received ⊆ p.stream.received := asked.received_stay
    exact ⟨policy, o, still (by simp [received]), rfl, result⟩

theorem Sound.keep {o : Outcome α β} (sound : Sound job client s) (phase : s.phase = .seeing o)
    (fine : client.policy = .failFast → ∃ v, o.result = .ok v) :
    Sound job client
      { s with seen := o :: s.seen, collected := s.collected.add o, phase := .pulling } := by
  have isOpen : s.phase.isOpen = true := by simp [phase, ClientPhase.isOpen]
  have gathered := sound.gathered
  have step : Step job client s _ _ := .keep phase fine
  refine ⟨sound.pipeline, attuned_step sound.attuned step,
    ⟨sound.see phase, ?_, ?_⟩, fun _ => sound.blamed isOpen, trivial, trivial⟩
  · intro _
    rw [Collected.of_cons, ← gathered.collected isOpen]
  · intro _ policy other member
    rcases List.mem_cons.mp member with rfl | old
    · exact fine policy
    · exact gathered.fine isOpen policy other old

theorem Sound.reject {x : α} {m : String} {a : Answer α β} {p : Pipeline α β}
    (sound : Sound job client s) (phase : s.phase = .failing x m)
    (answer : s.pipeline.stream.answer = some a)
    (asked : Pipeline.Step job s.pipeline (.request .drop) p) :
    Sound job client
      { s with pipeline := p, phase := .dropping (.error (.transform (client.shown x) m)) } := by
  have ending := sound.ending
  rw [phase] at ending
  obtain ⟨policy, o, member, rfl, result⟩ := ending
  have received : s.pipeline.stream.received = s.seen := by
    simpa [unseen, phase] using sound.gathered.received
  have step : Step job client s _ _ := .reject phase answer asked
  refine ⟨sound.pipeline.step asked, attuned_step sound.attuned step,
    ⟨?_, nofun, nofun⟩,
    nofun, trivial, ?_⟩
  · cases asked; exact received
  · exact .inl ⟨policy, o, asked.received_stay member, m, result, rfl⟩

theorem Sound.conclude {v : Except PipelineError Nat} {p : Pipeline α β}
    (sound : Sound job client s) (phase : s.phase = .finishing)
    (answer : s.pipeline.stream.answer = some (.verdict v))
    (asked : Pipeline.Step job s.pipeline (.request .drop) p) :
    Sound job client { s with pipeline := p, phase := .dropping (s.conclude v) } := by
  have isOpen : s.phase.isOpen = true := by simp [phase, ClientPhase.isOpen]
  have gathered := sound.gathered
  have deciding := sound.deciding
  rw [phase] at deciding
  have received : s.pipeline.stream.received = s.seen := by
    simpa [unseen, phase] using gathered.received
  have verdict := (Finishing.verdict deciding v answer).step asked
  have same : p.stream.received = s.seen := by cases asked; exact received
  have step : Step job client s _ _ := .conclude phase answer asked
  refine ⟨sound.pipeline.step asked, attuned_step sound.attuned step,
    ⟨same, nofun, nofun⟩,
    nofun, trivial, ?_⟩
  cases v with
  | ok n =>
    refine ⟨⟨n, verdict⟩, ?_, ?_⟩
    · rw [same]; exact gathered.collected isOpen
    · rw [same]; exact gathered.fine isOpen
  | error e => exact .inr verdict

theorem Sound.step (sound : Sound job client s) (step : Step job client s e t) :
    Sound job client t := by
  have attuned := attuned_step sound.attuned step
  cases step with
  | thread free moved => exact sound.thread free moved
  | stream moved => exact sound.stream moved
  | pull phase asked => exact sound.pull phase asked
  | take phase answer =>
    obtain ⟨pipeline, -, ⟨received, collected, fine⟩, blamed, -, -⟩ := sound
    simp only [phase, unseen, answer] at received collected fine blamed
    exact ⟨pipeline, attuned, ⟨received, collected, fine⟩, blamed, trivial, trivial⟩
  | finish phase answer atEnd asked => exact sound.finish phase answer atEnd asked
  | unwind phase panics asked => exact sound.unwind phase panics asked
  | fail phase policy result asked => exact sound.fail phase policy result asked
  | keep phase fine => exact sound.keep phase fine
  | reject phase answer asked => exact sound.reject phase answer asked
  | conclude phase answer asked => exact sound.conclude phase answer asked
  | leave phase answer =>
    obtain ⟨pipeline, -, ⟨received, -, -⟩, -, -, ending⟩ := sound
    simp only [phase, unseen] at received ending
    exact ⟨pipeline, attuned, ⟨received, nofun, nofun⟩,
      nofun, trivial, ending⟩

theorem start_sound (tuning : Tuning) (caller : Option Signal) (workers : 0 < tuning.workers) :
    Sound job client (start (Pipeline.start tuning caller)) where
  pipeline := Pipeline.start_sound tuning caller workers
  attuned := rfl
  gathered := ⟨rfl, fun _ => rfl, fun _ _ o member => by cases member⟩
  blamed _ := Pipeline.start_blamed tuning caller
  deciding := trivial
  ending := trivial

variable {options : RunOptions} {caller : Option Signal} {tuning : Tuning} {p : Pipeline α β}

theorem Reaches.sound (started : Pipeline.start? options caller = .ok (tuning, p))
    (path : Reaches job client (start p) s) : Sound job client s := by
  obtain ⟨workers, rfl, -, -⟩ := Pipeline.start?_ok started
  exact path.keeps (start_sound tuning caller workers) fun _ sound step => sound.step step

theorem Sound.justified {r : RunResult α β} (sound : Sound job client s)
    (returned : s.result? = some r) : Justified job client s.pipeline r := by
  have ending := sound.ending
  unfold result? at returned
  cases phase : s.phase <;> simp only [phase] at returned ending <;> cases returned
  exact ending

end Run
end TreeDigest
