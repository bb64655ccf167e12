import TreeDigest.Proofs.Run.Steps
namespace TreeDigest

namespace StreamPhase

def isFinishing : StreamPhase → Bool
  | .recording r q => r = .released ∧ q = .finish
  | .waking _ q => q = .finish
  | .looking | .polling | .awaiting | .resolving => true
  | _ => false

def isDropping : StreamPhase → Bool
  | .recording r q => r = .released ∧ q = .drop
  | .waking _ q => q = .drop
  | .closing => true
  | _ => false

def isFailing : StreamPhase → Bool
  | .recording r q => r = .failed ∧ q = .trip .failed
  | .waking _ q => q = .trip .failed
  | _ => false

end StreamPhase

namespace Pipeline
variable {job : Job α β} {s t : Pipeline α β} {e : Event}

theorem Step.stream_cases (step : Step job s e t) (other : ∀ m, e ≠ .stream m)
    (unasked : ∀ q, e ≠ .request q) :
    t.stream = s.stream ∨ s.stream.phase = .selecting ∧ ∃ o, t.stream = (s.receive o).stream := by
  cases step with
  | @handOver i o worker rendezvous selecting => exact .inr ⟨selecting, o, rfl⟩
  | endAgain | select | finishDrained | finishEarly | trip | drop => exact absurd rfl (unasked _)
  | receive | drain | interrupt | streamRecords | streamWakes | look | poll | hear | resolve |
    close => exact absurd rfl (other _)
  | _ => exact .inl rfl

end Pipeline

namespace Run

def Attuned (stream : Stream α β) : ClientPhase α β → Prop
  | .pulling | .seeing _ => stream.phase = .idle
  | .waiting =>
    stream.phase = .selecting ∧ stream.answer = none ∨
      stream.phase = .idle ∧
        ((∃ o, stream.answer = some (.outcome o)) ∨ stream.answer = some .ended)
  | .failing _ _ =>
    stream.phase.isFailing = true ∧ stream.answer = none ∨
      stream.phase = .idle ∧ ∃ first, stream.answer = some (.tripped first)
  | .finishing =>
    stream.phase.isFinishing = true ∧ stream.answer = none ∨
      stream.phase = .idle ∧ ∃ v, stream.answer = some (.verdict v)
  | .dropping _ =>
    stream.phase.isDropping = true ∧ stream.answer = none ∨
      stream.phase = .gone ∧ stream.answer = some .dropped
  | .returned _ => stream.phase = .gone

variable {job : Job α β} {client : Client α β} {s t : Run α β} {e : Event}

theorem Attuned.selecting {stream : Stream α β} {phase : ClientPhase α β}
    (attuned : Attuned stream phase) (selecting : stream.phase = .selecting) :
    phase = .waiting ∧ stream.answer = none := by
  cases phase <;>
    simp_all [Attuned, StreamPhase.isFinishing, StreamPhase.isDropping, StreamPhase.isFailing]

theorem Attuned.receive {p : Pipeline α β} {phase : ClientPhase α β} (attuned : Attuned p.stream phase)
    (selecting : p.stream.phase = .selecting) (o : Outcome α β) :
    Attuned (p.receive o).stream phase := by
  obtain ⟨rfl, -⟩ := attuned.selecting selecting
  exact .inr ⟨rfl, .inl ⟨o, rfl⟩⟩

theorem Attuned.over {p : Pipeline α β} {phase : ClientPhase α β} (attuned : Attuned p.stream phase)
    (selecting : p.stream.phase = .selecting) : Attuned (p.answered .ended).stream phase := by
  obtain ⟨rfl, -⟩ := attuned.selecting selecting
  exact .inr ⟨rfl, .inr rfl⟩

theorem Attuned.records {stream : Stream α β} {phase : ClientPhase α β} {r : CancelReason}
    {q : Request} (attuned : Attuned stream phase) (recording : stream.phase = .recording r q)
    (first : Bool) : Attuned { stream with phase := .waking first q } phase := by
  cases phase <;>
    simp_all [Attuned, StreamPhase.isFinishing, StreamPhase.isDropping, StreamPhase.isFailing]

theorem Attuned.wakes {p : Pipeline α β} {phase : ClientPhase α β} {first : Bool} {q : Request}
    (attuned : Attuned p.stream phase) (waking : p.stream.phase = .waking first q) :
    Attuned (p.afterTrip first q).stream phase := by
  cases q <;> cases phase <;>
    simp_all [Attuned, StreamPhase.isFinishing, StreamPhase.isDropping, StreamPhase.isFailing,
      Pipeline.afterTrip, Pipeline.setStream, Pipeline.answered]

theorem Attuned.finishing {stream : Stream α β} {phase : ClientPhase α β}
    (attuned : Attuned stream phase)
    (reading : stream.phase = .looking ∨ stream.phase = .polling ∨ stream.phase = .awaiting ∨
      stream.phase = .resolving) : phase = .finishing ∧ stream.answer = none := by
  rcases reading with reading | reading | reading | reading <;> cases phase <;>
    simp_all [Attuned, StreamPhase.isDropping, StreamPhase.isFailing]

theorem Attuned.stream_step {p q : Pipeline α β} {phase : ClientPhase α β} {m : Move}
    (attuned : Attuned p.stream phase) (moved : Pipeline.Step job p (.stream m) q) :
    Attuned q.stream phase := by
  cases moved with
  | receive selecting popped => exact attuned.receive selecting _
  | drain selecting empty closed =>
    obtain ⟨rfl, -⟩ := attuned.selecting selecting
    exact .inr ⟨rfl, .inr rfl⟩
  | interrupt selecting woken => exact attuned.over selecting
  | streamRecords recording => exact attuned.records recording _
  | streamWakes waking => exact Attuned.wakes (p := { p with signal := p.signal.wake }) attuned waking
  | look looking =>
    obtain ⟨rfl, none⟩ := attuned.finishing (.inl looking)
    refine .inl ⟨?_, none⟩
    rcases p.lookUp_cases with ⟨next, -⟩ | ⟨next, -⟩ | ⟨next, -⟩ <;>
      simp [Pipeline.setStream, StreamPhase.isFinishing, next]
  | poll polling =>
    obtain ⟨rfl, none⟩ := attuned.finishing (.inr (.inl polling))
    exact .inl ⟨rfl, none⟩
  | hear awaiting atEnd =>
    obtain ⟨rfl, none⟩ := attuned.finishing (.inr (.inr (.inl awaiting)))
    exact .inl ⟨rfl, none⟩
  | resolve resolving =>
    obtain ⟨rfl, none⟩ := attuned.finishing (.inr (.inr (.inr resolving)))
    exact .inr ⟨rfl, _, rfl⟩
  | close closing =>
    cases phase <;>
      simp_all [Attuned, StreamPhase.isFinishing, StreamPhase.isDropping, StreamPhase.isFailing,
        Pipeline.dropStream]

theorem free_cases {e : Pipeline.Event} (free : s.isFree e = true) :
    (∀ m, e ≠ .stream m) ∧ ∀ q, e ≠ .request q := by
  refine ⟨?_, ?_⟩ <;> rintro _ rfl <;> simp [isFree] at free

theorem attuned_step (attuned : Attuned s.pipeline.stream s.phase) (step : Step job client s e t) :
    Attuned t.pipeline.stream t.phase := by
  cases step with
  | thread free moved =>
    obtain ⟨other, unasked⟩ := free_cases free
    rcases moved.stream_cases other unasked with same | ⟨selecting, o, same⟩
    · rw [same]; exact attuned
    · rw [same]; exact attuned.receive selecting o
  | stream moved => exact attuned.stream_step moved
  | pull phase asked =>
    cases asked with
    | endAgain idle atEnd => exact .inr ⟨rfl, .inr rfl⟩
    | select idle more quiet => exact .inl ⟨rfl, rfl⟩
  | take phase answer =>
    simp only [Attuned, phase, answer] at attuned ⊢
    simpa using attuned
  | finish phase answer atEnd asked => cases asked <;> exact .inl ⟨rfl, rfl⟩
  | unwind phase panics asked => cases asked; exact .inl ⟨rfl, rfl⟩
  | fail phase policy result asked => cases asked; exact .inl ⟨rfl, rfl⟩
  | keep phase fine =>
    simp only [Attuned, phase] at attuned ⊢
    exact attuned
  | reject phase answer asked => cases asked; exact .inl ⟨rfl, rfl⟩
  | conclude phase answer asked => cases asked; exact .inl ⟨rfl, rfl⟩
  | leave phase answer =>
    simp only [Attuned, phase, answer] at attuned
    rcases attuned with ⟨-, none⟩ | ⟨gone, -⟩
    · cases none
    · exact gone

end Run
end TreeDigest
