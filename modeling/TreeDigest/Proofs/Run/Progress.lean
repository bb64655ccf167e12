import TreeDigest.Proofs.Pipeline.Stuck
import TreeDigest.Proofs.Run.Results
namespace TreeDigest.Run

-- What the run does of itself. Time may pass, and the caller may trip its signal, but nobody counts on
-- it.
def Event.isOwn : Event → Bool
  | .thread .deadline | .thread (.callerRecord _) | .thread .callerWake | .thread .callerLeave => false
  | _ => true

structure Over (s : Run α β) : Prop where
  returned : s.result?.isSome = true
  source : s.pipeline.feed.phase = .exited
  workers : ∀ w ∈ s.pipeline.workers, w.hasExited = true
  closer : s.pipeline.closer = .done
  watchdog : ∀ w, s.pipeline.watchdog = some w → w = .exited

def Stuck (job : Job α β) (client : Client α β) (s : Run α β) : Prop :=
  ∀ e : Event, e.isOwn = true → advance job client s e = none

variable {job : Job α β} {client : Client α β} {s : Run α β}

theorem Stuck.threads (stuck : Stuck job client s) : s.pipeline.Stuck job := by
  have still (e : Pipeline.Event) (free : s.isFree e = true) (own : (Event.thread e).isOwn = true) :
      Pipeline.advance job s.pipeline e = none := by
    have none := stuck (.thread e) own
    simpa [advance, free] using none
  exact ⟨fun m => still _ rfl rfl, fun i m => still _ rfl rfl, still _ rfl rfl, fun m => still _ rfl rfl⟩

theorem Stuck.call (stuck : Stuck job client s) (m : Move) : clientStep job client s m = none :=
  stuck (.client m) rfl

theorem ask_ne_none (idle : s.pipeline.stream.phase = .idle) (q : Request) (phase : ClientPhase α β) :
    s.ask q phase ≠ none := by
  unfold ask Pipeline.requestStep
  rw [idle]
  cases q with
  | next => dsimp only; split <;> simp
  | finish | trip r | drop => simp

theorem see_ne_none (idle : s.pipeline.stream.phase = .idle) (o : Outcome α β) :
    see client s o ≠ none := by
  unfold see
  dsimp only
  split
  · exact ask_ne_none (s := { s with seen := o :: s.seen }) idle _ _
  · split
    · exact ask_ne_none (s := { s with seen := o :: s.seen }) idle _ _
    · simp

theorem stream_stuck (still : s.stream job .go = none) :
    s.pipeline.stream.phase = .idle ∨ s.pipeline.stream.phase = .selecting ∨
      s.pipeline.stream.phase = .gone ∨
      (s.pipeline.stream.phase = .awaiting ∧ s.pipeline.feed.mailbox = none ∧
        s.pipeline.feed.statusOpen = true) := by
  simp only [stream, Pipeline.streamStep, Option.map_eq_none_iff] at still
  cases phase : s.pipeline.stream.phase with
  | idle => exact .inl rfl
  | selecting => exact .inr (.inl rfl)
  | gone => exact .inr (.inr (.inl rfl))
  | awaiting =>
    simp only [phase] at still
    split at still
    · cases still
    · rename_i waits
      refine .inr (.inr (.inr ⟨rfl, ?_⟩))
      simpa using waits
  | recording r q | waking first q | looking | polling | resolving | closing =>
    simp [phase] at still

theorem full_empty {capacity : Option Nat} {queue : Queue γ} (empty : queue.toList = [])
    (full : Feed.hasRoom capacity queue = false) : capacity = some 0 := by
  have size : queue.size = 0 := by simp [← Queue.length_toList, empty]
  cases capacity with
  | none => cases full
  | some n =>
    simp only [Feed.hasRoom, size, decide_eq_false_iff_not] at full
    exact congrArg some (by omega)

theorem waiting_source {capacity : Option Nat} {f : Feed α} (doors : f.Doors)
    (nothing : f.take? capacity = none) (more : f.isClosed = false) :
    f.phase ≠ .exited ∧ ∀ x, f.phase = .offering x → Feed.hasRoom capacity f.queue = true := by
  have empty : f.queue.toList = [] := by
    unfold Feed.take? at nothing
    split at nothing
    · cases nothing
    · rename_i none
      exact (Queue.pop?_eq_none_iff _).mp none
  constructor
  · intro exited
    simp only [Feed.Doors, exited] at doors
    have closed := Feed.isClosed_iff.mpr ⟨empty, doors.1⟩
    simp [more] at closed
  · intro x phase
    cases full : Feed.hasRoom capacity f.queue with
    | true => rfl
    | false =>
      have zero := full_empty empty full
      simp [Feed.take?, (Queue.pop?_eq_none_iff _).mpr empty, zero, phase] at nothing

theorem Stuck.selecting (stuck : Stuck job client s) (sound : Sound job client s)
    (ends : ∀ x, job.transform x ≠ .never) : s.pipeline.stream.phase ≠ .selecting := by
  intro selecting
  have threads := stuck.threads
  have pool := sound.pipeline.pool
  have doors := sound.pipeline.honest.doors
  obtain ⟨phase, unanswered⟩ := sound.attuned.selecting selecting
  have message := stuck.call .message
  simp only [clientStep, phase, unanswered, stream, Pipeline.streamStep, selecting,
    Option.map_eq_none_iff] at message
  unfold Pipeline.selectMessage at message
  split at message
  · cases message
  rename_i nothing
  have empty := (Queue.pop?_eq_none_iff _).mp nothing
  have gone : ∀ w ∈ s.pipeline.workers, w.hasExited = true := by
    intro w member
    cases here : w.hasExited with
    | true => rfl
    | false =>
      have waits := (threads.waits ends member here).2
      cases w with
      | receiving =>
        obtain ⟨there, room⟩ := waiting_source doors waits.1 waits.2
        rcases threads.feed doors with exited | ⟨x, offering, -, full, -⟩
        · exact absurd exited there
        · simp [room x offering] at full
      | delivering o => exact absurd ⟨full_empty empty waits.2.1, selecting⟩ waits.2.2
      | holding x | transforming x | leaving p | recording | waking | counting p | exited p =>
        exact waits.elim
  have done := threads.closes (pool.deserted gone).1
  have closed : s.pipeline.resultsClosed = true := by
    simp only [Pipeline.resultsClosed, done, Array.all_eq_true, Bool.and_eq_true]
    refine ⟨rfl, ?_⟩
    intro i inside
    have exited := gone _ (Array.getElem_mem inside)
    cases w : s.pipeline.workers[i] <;> simp_all [WorkerPhase.hasLetGo, WorkerPhase.hasExited]
  simp [closed] at message

theorem Stuck.awaiting (stuck : Stuck job client s) (sound : Sound job client s)
    (awaiting : s.pipeline.stream.phase = .awaiting) : s.pipeline.feed.statusOpen = false := by
  have threads := stuck.threads
  have pool := sound.pipeline.pool
  have doors := sound.pipeline.honest.doors
  have finishing := sound.deciding
  rw [(sound.attuned.finishing (.inr (.inr (.inl awaiting)))).1] at finishing
  have drained := finishing.awaiting awaiting
  have none := pool.closer (by simp [(pool.drained drained).1])
  have alone := (pool.deserted fun w => pool.exited none).2
  rcases threads.feed doors with exited | ⟨x, -, accompanied, -⟩
  · simp only [Feed.Doors, exited] at doors
    exact doors.2
  · exact absurd alone accompanied

theorem Stuck.over (stuck : Stuck job client s) (sound : Sound job client s)
    (ends : ∀ x, job.transform x ≠ .never) : Over s := by
  have attuned := sound.attuned
  have go := stuck.call .go
  have waits (streaming : s.stream job .go = none) (unanswered : s.pipeline.stream.answer = none) :
      s.pipeline.stream.phase = .idle ∨ s.pipeline.stream.phase = .gone := by
    rcases stream_stuck streaming with idle | selecting | gone | ⟨awaiting, -, isOpen⟩
    · exact .inl idle
    · exact absurd selecting (stuck.selecting sound ends)
    · exact .inr gone
    · simp [stuck.awaiting sound awaiting] at isOpen
  cases phase : s.phase with
  | returned r =>
    simp only [Attuned, phase] at attuned
    have woken := sound.pipeline.traced.closing (.inr attuned)
    obtain ⟨source, workers, closer, watchdog⟩ := stuck.threads.woken sound.pipeline ends woken
    exact ⟨by simp [result?, phase], source, workers, closer, watchdog⟩
  | pulling =>
    simp only [Attuned, phase] at attuned
    simp only [clientStep, phase] at go
    exact absurd go (ask_ne_none attuned _ _)
  | seeing o =>
    simp only [Attuned, phase] at attuned
    simp only [clientStep, phase] at go
    exact absurd go (see_ne_none attuned o)
  | waiting =>
    simp only [Attuned, phase] at attuned
    rcases attuned with ⟨selecting, -⟩ | ⟨idle, ⟨o, answer⟩ | answer⟩
    · exact absurd selecting (stuck.selecting sound ends)
    · simp [clientStep, phase, answer] at go
    · simp only [clientStep, phase, answer] at go
      exact absurd go (ask_ne_none idle _ _)
  | failing x m =>
    simp only [Attuned, phase] at attuned
    rcases attuned with ⟨busy, unanswered⟩ | ⟨idle, first, answer⟩
    · simp only [clientStep, phase, unanswered] at go
      rcases waits go unanswered with rest | rest <;> simp [rest, StreamPhase.isFailing] at busy
    · simp only [clientStep, phase, answer] at go
      exact absurd go (ask_ne_none idle _ _)
  | finishing =>
    simp only [Attuned, phase] at attuned
    rcases attuned with ⟨busy, unanswered⟩ | ⟨idle, v, answer⟩
    · simp only [clientStep, phase, unanswered] at go
      rcases waits go unanswered with rest | rest <;> simp [rest, StreamPhase.isFinishing] at busy
    · simp only [clientStep, phase, answer] at go
      exact absurd go (ask_ne_none idle _ _)
  | dropping r =>
    simp only [Attuned, phase] at attuned
    rcases attuned with ⟨busy, unanswered⟩ | ⟨gone, answer⟩
    · simp only [clientStep, phase, unanswered] at go
      rcases waits go unanswered with rest | rest <;> simp [rest, StreamPhase.isDropping] at busy
    · simp [clientStep, phase, answer] at go

end TreeDigest.Run
