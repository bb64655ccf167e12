import TreeDigest.Pipeline.Run
import TreeDigest.Proofs.Pipeline.Steps
namespace TreeDigest.Run

-- The steps of a call, each with what allows it. The threads move on their own, and the stream moves
-- within the request that the call is waiting for.
inductive Step (job : Job α β) (client : Client α β) (s : Run α β) : Event → Run α β → Prop where
  | thread {e : Pipeline.Event} {p : Pipeline α β} (free : s.isFree e = true)
      (moved : Pipeline.Step job s.pipeline e p) :
      Step job client s (.thread e) { s with pipeline := p }
  | stream {m : Move} {p : Pipeline α β} (moved : Pipeline.Step job s.pipeline (.stream m) p) :
      Step job client s (.client m) { s with pipeline := p }
  | pull {p : Pipeline α β} (phase : s.phase = .pulling)
      (asked : Pipeline.Step job s.pipeline (.request .next) p) :
      Step job client s (.client .go) { s with pipeline := p, phase := .waiting }
  | take {o : Outcome α β} (phase : s.phase = .waiting)
      (answer : s.pipeline.stream.answer = some (.outcome o)) :
      Step job client s (.client .go) { s with phase := .seeing o }
  | finish {a : Answer α β} {p : Pipeline α β} (phase : s.phase = .waiting)
      (answer : s.pipeline.stream.answer = some a) (atEnd : ∀ o, a ≠ .outcome o)
      (asked : Pipeline.Step job s.pipeline (.request .finish) p) :
      Step job client s (.client .go) { s with pipeline := p, phase := .finishing }
  | unwind {o : Outcome α β} {p : Pipeline α β} (phase : s.phase = .seeing o)
      (panics : client.callbackPanics o = true)
      (asked : Pipeline.Step job s.pipeline (.request .drop) p) :
      Step job client s (.client .go)
        { s with pipeline := p, seen := o :: s.seen, phase := .dropping .panicked }
  | fail {o : Outcome α β} {m : String} {p : Pipeline α β} (phase : s.phase = .seeing o)
      (policy : client.policy = .failFast) (result : o.result = .error m)
      (asked : Pipeline.Step job s.pipeline (.request (.trip .failed)) p) :
      Step job client s (.client .go)
        { s with pipeline := p, seen := o :: s.seen, phase := .failing o.item m }
  | keep {o : Outcome α β} (phase : s.phase = .seeing o)
      (fine : client.policy = .failFast → ∃ v, o.result = .ok v) :
      Step job client s (.client .go)
        { s with seen := o :: s.seen, collected := s.collected.add o, phase := .pulling }
  | reject {x : α} {m : String} {a : Answer α β} {p : Pipeline α β} (phase : s.phase = .failing x m)
      (answer : s.pipeline.stream.answer = some a)
      (asked : Pipeline.Step job s.pipeline (.request .drop) p) :
      Step job client s (.client .go)
        { s with pipeline := p, phase := .dropping (.error (.transform (client.shown x) m)) }
  | conclude {v : Except PipelineError Nat} {p : Pipeline α β} (phase : s.phase = .finishing)
      (answer : s.pipeline.stream.answer = some (.verdict v))
      (asked : Pipeline.Step job s.pipeline (.request .drop) p) :
      Step job client s (.client .go) { s with pipeline := p, phase := .dropping (s.conclude v) }
  | leave {r : RunResult α β} {a : Answer α β} (phase : s.phase = .dropping r)
      (answer : s.pipeline.stream.answer = some a) :
      Step job client s (.client .go) { s with phase := .returned r }

variable {job : Job α β} {client : Client α β} {s t : Run α β}

theorem ask_sound (job : Job α β) {q : Request} {phase : ClientPhase α β}
    (asked : s.ask q phase = some t) :
    ∃ p, Pipeline.Step job s.pipeline (.request q) p ∧ t = { s with pipeline := p, phase } := by
  unfold ask at asked
  obtain ⟨p, requested, rfl⟩ := Option.map_eq_some_iff.mp asked
  exact ⟨p, Pipeline.request_sound requested, rfl⟩

theorem stream_sound {m : Move} (moved : s.stream job m = some t) :
    Step job client s (.client m) t := by
  unfold stream at moved
  obtain ⟨p, streamed, rfl⟩ := Option.map_eq_some_iff.mp moved
  exact .stream (Pipeline.stream_sound streamed)

theorem see_sound {o : Outcome α β} (phase : s.phase = .seeing o)
    (moved : see client s o = some t) : Step job client s (.client .go) t := by
  unfold see at moved
  dsimp only at moved
  split at moved
  · rename_i panics
    obtain ⟨p, asked, rfl⟩ := ask_sound job moved
    exact .unwind phase panics asked
  · split at moved
    · rename_i m policy result
      obtain ⟨p, asked, rfl⟩ := ask_sound job moved
      exact .fail phase policy result asked
    · rename_i other
      cases moved
      refine .keep phase ?_
      intro policy
      cases result : o.result with
      | ok v => exact ⟨v, rfl⟩
      | error m => exact absurd result (other m policy)

theorem client_sound {m : Move} (moved : clientStep job client s m = some t) :
    Step job client s (.client m) t := by
  unfold clientStep at moved
  split at moved
  · rename_i phase
    split at moved
    · rename_i go; subst go
      obtain ⟨p, asked, rfl⟩ := ask_sound job moved
      exact .pull phase asked
    · cases moved
  · rename_i o phase answer
    split at moved
    · rename_i go; subst go; cases moved; exact .take phase answer
    · cases moved
  · rename_i a atEnd phase answer
    split at moved
    · rename_i go; subst go
      obtain ⟨p, asked, rfl⟩ := ask_sound job moved
      exact .finish phase answer atEnd asked
    · cases moved
  · exact stream_sound moved
  · rename_i o phase
    split at moved
    · rename_i go; subst go; exact see_sound phase moved
    · cases moved
  · rename_i x m phase answer
    split at moved
    · rename_i go; subst go
      obtain ⟨p, asked, rfl⟩ := ask_sound job moved
      exact .reject phase answer asked
    · cases moved
  · exact stream_sound moved
  · rename_i v phase answer
    split at moved
    · rename_i go; subst go
      obtain ⟨p, asked, rfl⟩ := ask_sound job moved
      exact .conclude phase answer asked
    · cases moved
  · exact stream_sound moved
  · rename_i r a phase answer
    split at moved
    · rename_i go; subst go; cases moved; exact .leave phase answer
    · cases moved
  · exact stream_sound moved
  · cases moved

theorem advance_sound {e : Event} (moved : advance job client s e = some t) :
    Step job client s e t := by
  cases e with
  | thread e =>
    simp only [advance] at moved
    split at moved
    · rename_i free
      obtain ⟨p, threaded, rfl⟩ := Option.map_eq_some_iff.mp moved
      exact .thread free (Pipeline.advance_sound threaded)
    · cases moved
  | client m => exact client_sound moved

theorem Reaches.keeps {P : Run α β → Prop} (initial : P s)
    (step : ∀ {u v : Run α β} {e : Event}, Reaches job client s u → P u → Step job client u e v → P v)
    (path : Reaches job client s t) : P t := by
  induction path with
  | here => exact initial
  | step e prior moved ih => exact step prior ih (advance_sound moved)

theorem ask_threads {q : Request} {phase : ClientPhase α β} (asked : s.ask q phase = some t) :
    Pipeline.advance job s.pipeline (.request q) = some t.pipeline := by
  obtain ⟨p, requested, rfl⟩ := Option.map_eq_some_iff.mp asked
  exact requested

theorem stream_threads {m : Move} (moved : s.stream job m = some t) :
    Pipeline.advance job s.pipeline (.stream m) = some t.pipeline := by
  obtain ⟨p, streamed, rfl⟩ := Option.map_eq_some_iff.mp moved
  exact streamed

theorem see_threads {o : Outcome α β} (moved : see client s o = some t) :
    t.pipeline = s.pipeline ∨ ∃ e, Pipeline.advance job s.pipeline e = some t.pipeline := by
  have asks {u : Run α β} {q : Request} {phase : ClientPhase α β}
      (asked : u.ask q phase = some t) (same : u.pipeline = s.pipeline) :
      ∃ e, Pipeline.advance job s.pipeline e = some t.pipeline :=
    ⟨_, same ▸ ask_threads asked⟩
  unfold see at moved
  dsimp only at moved
  split at moved
  · exact .inr (asks moved rfl)
  · split at moved
    · exact .inr (asks moved rfl)
    · cases moved
      exact .inl rfl

theorem client_threads {m : Move} (moved : clientStep job client s m = some t) :
    t.pipeline = s.pipeline ∨ ∃ e, Pipeline.advance job s.pipeline e = some t.pipeline := by
  have asks {q : Request} {phase : ClientPhase α β}
      (asked : (if m = .go then s.ask q phase else none) = some t) :
      ∃ e, Pipeline.advance job s.pipeline e = some t.pipeline :=
    ⟨_, ask_threads (Option.ite_none_right_eq_some.mp asked).2⟩
  have rests {phase : ClientPhase α β}
      (moved : (if m = .go then some { s with phase } else none) = some t) :
      t.pipeline = s.pipeline := by
    obtain ⟨-, moved⟩ := Option.ite_none_right_eq_some.mp moved
    cases moved
    rfl
  unfold clientStep at moved
  split at moved
  · exact .inr (asks moved)
  · exact .inl (rests moved)
  · exact .inr (asks moved)
  · exact .inr ⟨_, stream_threads moved⟩
  · exact see_threads (Option.ite_none_right_eq_some.mp moved).2
  · exact .inr (asks moved)
  · exact .inr ⟨_, stream_threads moved⟩
  · exact .inr (asks moved)
  · exact .inr ⟨_, stream_threads moved⟩
  · exact .inl (rests moved)
  · exact .inr ⟨_, stream_threads moved⟩
  · cases moved

theorem advance_threads {e : Event} (moved : advance job client s e = some t) :
    t.pipeline = s.pipeline ∨ ∃ e, Pipeline.advance job s.pipeline e = some t.pipeline := by
  cases e with
  | thread e =>
    obtain ⟨-, moved⟩ := Option.ite_none_right_eq_some.mp moved
    obtain ⟨p, threaded, rfl⟩ := Option.map_eq_some_iff.mp moved
    exact .inr ⟨e, threaded⟩
  | client m => exact client_threads moved

theorem Reaches.threads (path : Reaches job client s t) :
    Pipeline.Reaches job s.pipeline t.pipeline := by
  induction path with
  | here => exact .here
  | step e prior moved ih =>
    rcases advance_threads moved with same | ⟨own, threaded⟩
    · rw [same]; exact ih
    · exact ih.step own threaded

end TreeDigest.Run
