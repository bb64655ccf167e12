import TreeDigest.Proofs.Run.Effort
import TreeDigest.Proofs.Run.Exactness
import TreeDigest.Proofs.Run.Progress
namespace TreeDigest.Run
variable {job : Job α β} {client : Client α β} {s t u : Run α β} {e : Event} {es : List Event}
  {limit : Nat}

def follow (job : Job α β) (client : Client α β) (s : Run α β) : List Event → Option (Run α β)
  | [] => some s
  | e :: rest => (advance job client s e).bind fun t => follow job client t rest

theorem Reaches.trans (path : Reaches job client s t) (onward : Reaches job client t u) :
    Reaches job client s u := by
  induction onward with
  | here => exact path
  | step e prior moved ih => exact .step e ih moved

theorem follow_snoc (followed : follow job client s es = some t)
    (moved : advance job client t e = some u) : follow job client s (es ++ [e]) = some u := by
  induction es generalizing s with
  | nil =>
    cases followed
    simp [follow, moved]
  | cons first rest ih =>
    obtain ⟨v, stepped, onward⟩ := Option.bind_eq_some_iff.mp followed
    exact Option.bind_eq_some_iff.mpr ⟨v, stepped, ih onward⟩

theorem follow_exact : Reaches job client s t ↔ ∃ es, follow job client s es = some t := by
  constructor
  · intro path
    induction path with
    | here => exact ⟨[], rfl⟩
    | step e prior moved ih =>
      obtain ⟨es, followed⟩ := ih
      exact ⟨es ++ [e], follow_snoc followed moved⟩
  · rintro ⟨es, followed⟩
    induction es generalizing s with
    | nil =>
      cases followed
      exact .here
    | cons first rest ih =>
      obtain ⟨v, stepped, onward⟩ := Option.bind_eq_some_iff.mp followed
      exact (Reaches.here.step first stepped).trans (ih onward)

theorem follow_length (sound : Sound job client s) (stops : ∀ x, job.source.pull limit ≠ .item x)
    (followed : follow job client s es = some t) : es.length + t.effort limit ≤ s.effort limit := by
  induction es generalizing s with
  | nil =>
    cases followed
    simp
  | cons first rest ih =>
    obtain ⟨v, moved, onward⟩ := Option.bind_eq_some_iff.mp followed
    have step := advance_sound moved
    have nearer := step.effort_lt sound stops
    have later := ih (sound.step step) onward
    simp only [List.length_cons]
    omega

theorem Sound.bounded (sound : Sound job client s) (stops : ∀ x, job.source.pull limit ≠ .item x) :
    ∃ bound, ∀ es t, follow job client s es = some t → es.length ≤ bound :=
  ⟨s.effort limit, fun _ _ followed => Nat.le_of_add_right_le (follow_length sound stops followed)⟩

theorem Sound.moves (sound : Sound job client s) (ends : ∀ x, job.transform x ≠ .never)
    (more : ¬ Over s) : ∃ e : Event, e.isOwn = true ∧ (advance job client s e).isSome = true := by
  apply Classical.byContradiction
  intro none
  apply more
  refine Stuck.over ?_ sound ends
  intro e own
  cases moved : advance job client s e with
  | none => rfl
  | some t => exact absurd ⟨e, own, by simp [moved]⟩ none

theorem Sound.completes {s : Run α β} (sound : Sound job client s)
    (ends : ∀ x, job.transform x ≠ .never) (stops : ∀ x, job.source.pull limit ≠ .item x) :
    ∃ es t, (∀ e ∈ es, e.isOwn = true) ∧ follow job client s es = some t ∧ Over t := by
  by_cases atEnd : Over s
  · exact ⟨[], s, nofun, rfl, atEnd⟩
  · obtain ⟨e, own, moved⟩ := sound.moves ends atEnd
    obtain ⟨t, moved⟩ := Option.isSome_iff_exists.mp moved
    have step := advance_sound moved
    have nearer := step.effort_lt sound stops
    obtain ⟨es, u, all, followed, atEnd⟩ := (sound.step step).completes ends stops
    refine ⟨e :: es, u, ?_, Option.bind_eq_some_iff.mpr ⟨t, moved, followed⟩, atEnd⟩
    intro other member
    rcases List.mem_cons.mp member with rfl | later
    · exact own
    · exact all other later
termination_by s.effort limit

variable {options : RunOptions} {caller : Option Signal} {tuning : Tuning} {p : Pipeline α β}

-- With a source that stops somewhere and transforms that end, a call takes only so many steps in
-- whatever order they come. Until it has returned and every thread is gone there is always a next one,
-- and one that needs neither the caller nor the clock.
theorem run_ends (job : Job α β) (client : Client α β)
    (started : Pipeline.start? options caller = .ok (tuning, p))
    (finite : ∃ n, ∀ x, job.source.pull n ≠ .item x) (ends : ∀ x, job.transform x ≠ .never) :
    (∃ bound, ∀ es t, follow job client (start p) es = some t → es.length ≤ bound) ∧
    (∀ t, Reaches job client (start p) t → ¬ Over t →
      ∃ e : Event, e.isOwn = true ∧ (advance job client t e).isSome = true) ∧
    (∀ es t, follow job client (start p) es = some t → Stuck job client t → Over t) ∧
    ∀ t, Reaches job client (start p) t →
      ∃ es u, (∀ e ∈ es, e.isOwn = true) ∧ follow job client t es = some u ∧ Over u := by
  obtain ⟨limit, stops⟩ := finite
  have sound {t : Run α β} (path : Reaches job client (start p) t) : Sound job client t :=
    path.sound started
  refine ⟨(sound .here).bounded stops, ?_, ?_, ?_⟩
  · exact fun t path more => (sound path).moves ends more
  · exact fun es t followed stuck => stuck.over (sound (follow_exact.mpr ⟨es, followed⟩)) ends
  · exact fun t path => (sound path).completes ends stops

theorem run_ends_three :
    (∃ bound, ∀ es t, follow threeNumbers { policy := .failFast, shown := toString }
      (start (Pipeline.start ⟨2, 0, none⟩ (some {}))) es = some t → es.length ≤ bound) ∧
    ∃ es t, follow threeNumbers { policy := .failFast, shown := toString }
      (start (Pipeline.start ⟨2, 0, none⟩ (some {}))) es = some t ∧ Over t := by
  have all := run_ends threeNumbers { policy := .failFast, shown := toString }
    (show Pipeline.start? ⟨2, none, some 0⟩ (some {}) = .ok (⟨2, 0, none⟩, _) from rfl)
    ⟨3, nofun⟩ (fun x => by
      change Attempt.of (plusOne x) ≠ .never
      cases plusOne x <;> nofun)
  obtain ⟨bounded, -, -, complete⟩ := all
  obtain ⟨es, u, -, followed, atEnd⟩ := complete _ .here
  exact ⟨bounded, es, u, followed, atEnd⟩

end TreeDigest.Run
