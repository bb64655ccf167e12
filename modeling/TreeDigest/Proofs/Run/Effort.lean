import TreeDigest.Proofs.Pipeline.Effort
import TreeDigest.Proofs.Run.Results
namespace TreeDigest.Run

def answerEffort : Option (Answer α β) → Nat
  | some (.outcome _) => 16
  | _ => 11

-- How far the call is from its return, beside the requests it makes.
def clientEffort (stream : Stream α β) : ClientPhase α β → Nat
  | .pulling => 14
  | .waiting => answerEffort stream.answer
  | .seeing _ => 15
  | .failing _ _ | .finishing => 5
  | .dropping _ => 1
  | .returned _ => 0

def effort (limit : Nat) (s : Run α β) : Nat :=
  s.pipeline.effort limit + clientEffort s.pipeline.stream s.phase

variable {job : Job α β} {client : Client α β} {s t : Run α β} {e : Event} {limit : Nat}

theorem answerEffort_eq {answer : Option (Answer α β)} (none : ∀ o, answer ≠ some (.outcome o)) :
    answerEffort answer = 11 := by
  unfold answerEffort
  split
  · rename_i o
    exact absurd rfl (none o)
  · rfl

theorem answerEffort_bounds (answer : Option (Answer α β)) :
    11 ≤ answerEffort answer ∧ answerEffort answer ≤ 16 := by
  unfold answerEffort
  split <;> decide

theorem clientEffort_le {stream other : Stream α β} (phase : ClientPhase α β)
    (same : ∀ o, other.answer = some (.outcome o) → stream.answer = some (.outcome o)) :
    clientEffort other phase ≤ clientEffort stream phase := by
  cases phase with
  | waiting =>
    by_cases outcome : ∃ o, other.answer = some (.outcome o)
    · obtain ⟨o, answer⟩ := outcome
      simp [clientEffort, answer, same o answer]
    · rw [clientEffort, answerEffort_eq fun o answer => outcome ⟨o, answer⟩]
      exact (answerEffort_bounds _).1
  | pulling | seeing o | failing x m | finishing | dropping r | returned r => exact Nat.le_refl _

theorem worth_lt {p : Pipeline α β} (worth : Pipeline.Worth limit s.pipeline p)
    (attuned : Attuned s.pipeline.stream s.phase) :
    effort limit { s with pipeline := p } < effort limit s := by
  rcases worth with ⟨nearer, same⟩ | ⟨nearer, selecting⟩
  · have client := clientEffort_le s.phase same
    simp only [effort]
    omega
  · obtain ⟨phase, none⟩ := attuned.selecting selecting
    have after := (answerEffort_bounds p.stream.answer).2
    have before : answerEffort s.pipeline.stream.answer = 11 := answerEffort_eq (by simp [none])
    simp only [effort, phase, clientEffort, before]
    omega

theorem Step.effort_lt (step : Step job client s e t) (sound : Sound job client s)
    (stops : ∀ x, job.source.pull limit ≠ .item x) : t.effort limit < s.effort limit := by
  have honest := sound.pipeline.honest
  cases step with
  | thread free moved =>
    exact worth_lt (moved.worth limit (free_cases free).2 honest stops) sound.attuned
  | stream moved => exact worth_lt (moved.worth limit nofun honest stops) sound.attuned
  | pull phase asked =>
    obtain ⟨paid, none⟩ := asked.request_effort limit
    simp only [Request.effort] at paid
    simp only [effort, phase, clientEffort, answerEffort_eq none]
    omega
  | take phase answer =>
    simp [effort, phase, clientEffort, answer, answerEffort]
  | finish phase answer atEnd asked =>
    have paid := (asked.request_effort limit).1
    have before : answerEffort s.pipeline.stream.answer = 11 :=
      answerEffort_eq (by simpa [answer] using atEnd)
    simp only [Request.effort] at paid
    simp only [effort, phase, clientEffort, before]
    omega
  | unwind phase panics asked =>
    have paid := (asked.request_effort limit).1
    simp only [effort, phase, clientEffort, Request.effort] at paid ⊢
    omega
  | fail phase policy result asked =>
    have paid := (asked.request_effort limit).1
    simp only [effort, phase, clientEffort, Request.effort] at paid ⊢
    omega
  | keep phase fine =>
    simp [effort, phase, clientEffort]
  | reject phase answer asked =>
    have paid := (asked.request_effort limit).1
    simp only [effort, phase, clientEffort, Request.effort] at paid ⊢
    omega
  | conclude phase answer asked =>
    have paid := (asked.request_effort limit).1
    simp only [effort, phase, clientEffort, Request.effort] at paid ⊢
    omega
  | leave phase answer =>
    simp [effort, phase, clientEffort]

end TreeDigest.Run
