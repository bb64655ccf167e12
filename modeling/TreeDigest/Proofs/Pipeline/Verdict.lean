import TreeDigest.Proofs.Feed.Reports
import TreeDigest.Proofs.Pipeline.Conservation
namespace TreeDigest

theorem finalStatus_ok {ended : Option SourceEnd} {drained : Bool} {received n : Nat}
    {reason : Option CancelReason} {timeout : Option Duration}
    (status : finalStatus ended drained received reason timeout = .ok n) :
    ended = some (.completed n) ∧ drained = true ∧ received = n := by
  unfold finalStatus at status
  dsimp only at status
  split at status
  · cases status
  · split at status
    · rename_i all
      cases status
      simp only [Bool.and_eq_true, beq_iff_eq] at all
      exact ⟨rfl, all.1, all.2⟩
    · cases status
  · cases status
  · cases status

namespace Feed

theorem Step.posts {source : Enumerator α} {capacity : Option Nat} {f g : Feed α} {s t : Signal}
    (step : Step source capacity f s g t) :
    g.heard = f.heard ∧
      ((g.reports = f.reports ∧ g.mailbox = f.mailbox) ∨
        ∃ ended, f.phase = .reporting ended ∧ g.reports = ended :: f.reports ∧
          g.mailbox = if f.heard then some ended else none) := by
  cases step with
  | report phase => exact ⟨rfl, .inr ⟨_, phase, rfl, rfl⟩⟩
  | _ => exact ⟨rfl, .inl ⟨rfl, rfl⟩⟩

theorem Takes.posts {capacity : Option Nat} {f g : Feed α} {x : α} (taken : Takes capacity f x g) :
    g.heard = f.heard ∧ g.reports = f.reports ∧ g.mailbox = f.mailbox := by
  cases taken <;> exact ⟨rfl, rfl, rfl⟩

theorem hangUp_posts (f : Feed α) :
    f.hangUp.heard = f.heard ∧ f.hangUp.reports = f.reports ∧ f.hangUp.mailbox = f.mailbox := by
  unfold hangUp
  split <;> exact ⟨rfl, rfl, rfl⟩

end Feed

namespace Pipeline
variable {job : Job α β} {s t : Pipeline α β} {e : Event}

theorem honest_step (honest : s.feed.Honest job.source) (step : Step job s e t) :
    t.feed.Honest job.source := by
  cases step with
  | source moved => exact honest.step moved
  | take worker taken => exact honest.take taken
  | letGo worker => exact honest.hangUp
  | poll | hear | close => exact ⟨honest.yields, honest.standing, honest.doors⟩
  | @streamWakes first q waking => cases q <;> exact honest
  | _ => exact honest

theorem start_honest (tuning : Tuning) (caller : Option Signal) (source : Enumerator α) :
    (start tuning caller : Pipeline α β).feed.Honest source := Feed.honest_fresh tuning.workers

-- What was reported is in the mailbox until the consumer takes it out, and then with the consumer. Only
-- a consumer that is gone does not hear of it.
structure Posted (s : Pipeline α β) : Prop where
  mailbox : ∀ ended, s.feed.mailbox = some ended → ended ∈ s.feed.reports
  taken : ∀ ended, s.stream.ended = some ended → ended ∈ s.feed.reports
  found : s.feed.heard = true → ∀ ended ∈ s.feed.reports,
    s.feed.mailbox = some ended ∨ s.stream.ended = some ended
  asking : s.stream.phase = .polling ∨ s.stream.phase = .awaiting → s.stream.ended = none
  listening : s.feed.heard = false → s.stream.phase = .gone

theorem Posted.frame (posted : s.Posted)
    (feed : t.feed.heard = s.feed.heard ∧ t.feed.reports = s.feed.reports ∧
      t.feed.mailbox = s.feed.mailbox)
    (ended : t.stream.ended = s.stream.ended)
    (phase : s.stream.phase = .gone → t.stream.phase = .gone)
    (asking : t.stream.phase = .polling ∨ t.stream.phase = .awaiting → t.stream.ended = none) :
    t.Posted := by
  obtain ⟨heard, reports, mailbox⟩ := feed
  refine ⟨?_, ?_, ?_, asking, ?_⟩
  · rw [mailbox, reports]; exact posted.mailbox
  · rw [ended, reports]; exact posted.taken
  · rw [heard, mailbox, ended, reports]; exact posted.found
  · rw [heard]; exact fun deaf => phase (posted.listening deaf)

theorem Posted.source {feed : Feed α} {signal : Signal} (posted : s.Posted)
    (honest : s.feed.Honest job.source)
    (moved : Feed.Step job.source job.itemCapacity s.feed s.signal feed signal) :
    ({ s with feed, signal } : Pipeline α β).Posted := by
  obtain ⟨heard, same | ⟨ended, phase, reports, mailbox⟩⟩ := moved.posts
  · exact posted.frame ⟨heard, same⟩ rfl id posted.asking
  · have fresh : s.feed.reports = [] := by
      have standing := honest.standing
      simp only [Feed.Standing, phase] at standing
      exact standing.2.1
    refine ⟨?_, ?_, ?_, posted.asking, by rw [heard]; exact posted.listening⟩
    · intro other found
      rw [mailbox] at found
      split at found
      · cases found; simp [reports]
      · cases found
    · intro other found
      have := posted.taken other found
      simp [fresh] at this
    · intro listening other reported
      rw [heard] at listening
      rw [reports, fresh, List.mem_singleton] at reported
      left
      rw [mailbox, if_pos listening, reported]

theorem Posted.takeReport (posted : s.Posted)
    (asking : s.stream.phase = .polling ∨ s.stream.phase = .awaiting) : s.takeReport.Posted := by
  have none := posted.asking asking
  refine ⟨?_, posted.mailbox, ?_, by simp [Pipeline.takeReport], ?_⟩
  · intro ended found; cases found
  · intro listening ended reported
    have := posted.found listening ended reported
    simpa [Pipeline.takeReport, none] using this
  · intro deaf
    have := posted.listening deaf
    rcases asking with asking | asking <;> simp [asking] at this

theorem Posted.step (posted : s.Posted) (honest : s.feed.Honest job.source)
    (step : Step job s e t) : t.Posted := by
  cases step with
  | source moved => exact posted.source honest moved
  | take worker taken => exact posted.frame taken.posts rfl id posted.asking
  | letGo worker => exact posted.frame s.feed.hangUp_posts rfl id posted.asking
  | handOver worker rendezvous selecting =>
    exact posted.frame ⟨rfl, rfl, rfl⟩ rfl (by simp [selecting]) (by simp [setWorker, receive])
  | endAgain idle atEnd => exact posted.frame ⟨rfl, rfl, rfl⟩ rfl (by simp [idle]) (by simp [answered])
  | select idle | finishDrained idle | finishEarly idle | trip idle | drop idle =>
    exact posted.frame ⟨rfl, rfl, rfl⟩ rfl (by simp [idle]) (by simp [Pipeline.begin])
  | receive selecting popped =>
    exact posted.frame ⟨rfl, rfl, rfl⟩ rfl (by simp [selecting]) (by simp [Pipeline.receive])
  | drain selecting | interrupt selecting =>
    exact posted.frame ⟨rfl, rfl, rfl⟩ rfl (by simp [selecting]) (by simp [answered])
  | streamRecords recording =>
    exact posted.frame ⟨rfl, rfl, rfl⟩ rfl (by simp [recording]) (by simp [setStream])
  | @streamWakes first q waking =>
    cases q <;>
      exact posted.frame ⟨rfl, rfl, rfl⟩ rfl (by simp [waking])
        (by simp [afterTrip, setStream, answered])
  | look looking =>
    refine posted.frame ⟨rfl, rfl, rfl⟩ rfl (by simp [looking]) ?_
    cases ended : s.stream.ended <;> simp [setStream, lookUp, ended]
  | poll polling => exact posted.takeReport (.inl polling)
  | hear awaiting atEnd => exact posted.takeReport (.inr awaiting)
  | resolve resolving =>
    exact posted.frame ⟨rfl, rfl, rfl⟩ rfl (by simp [resolving])
      (by simp [Pipeline.resolve, answered])
  | close closing =>
    refine ⟨?_, posted.taken, ?_, by simp [dropStream], fun _ => rfl⟩
    · intro ended found; cases found
    · intro listening; cases listening
  | _ => exact ⟨posted.mailbox, posted.taken, posted.found, posted.asking, posted.listening⟩

theorem start_posted (tuning : Tuning) (caller : Option Signal) :
    (start tuning caller : Pipeline α β).Posted where
  mailbox _ found := by simp [start, pool] at found
  taken _ found := by simp [start, pool] at found
  found _ _ reported := by simp [start, pool] at reported
  asking _ := rfl
  listening deaf := by simp [start, pool] at deaf

def Counted (s : Pipeline α β) : Prop :=
  ∀ n, .ok n ∈ s.stream.verdicts → .completed n ∈ s.feed.reports ∧ n ≤ s.stream.received.length

theorem Counted.grow (counted : s.Counted) (verdicts : t.stream.verdicts = s.stream.verdicts)
    (reports : s.feed.reports ⊆ t.feed.reports)
    (received : s.stream.received.length ≤ t.stream.received.length) : t.Counted := by
  intro n returned
  rw [verdicts] at returned
  obtain ⟨completed, bound⟩ := counted n returned
  exact ⟨reports completed, Nat.le_trans bound received⟩

theorem Counted.step (counted : s.Counted) (posted : s.Posted) (step : Step job s e t) :
    t.Counted := by
  cases step with
  | source moved =>
    refine counted.grow rfl ?_ (Nat.le_refl _)
    obtain ⟨-, ⟨same, -⟩ | ⟨ended, -, reports, -⟩⟩ := moved.posts
    · simp [same]
    · simp [reports]
  | take worker taken => exact counted.grow rfl (by simp [setWorker, taken.posts.2.1]) (Nat.le_refl _)
  | letGo worker =>
    exact counted.grow rfl (by simp [Pipeline.letGo, setWorker, s.feed.hangUp_posts.2.1])
      (Nat.le_refl _)
  | handOver worker rendezvous selecting =>
    exact counted.grow rfl (List.Subset.refl _) (by simp [setWorker, Pipeline.receive])
  | receive selecting popped =>
    exact counted.grow rfl (List.Subset.refl _) (by simp [Pipeline.receive])
  | resolve resolving =>
    intro n returned
    rcases List.mem_cons.mp returned with now | before
    · obtain ⟨ended, -, all⟩ := finalStatus_ok now.symm
      exact ⟨posted.taken _ ended, Nat.le_of_eq all.symm⟩
    · exact counted n before
  | @streamWakes first q waking => cases q <;> exact counted
  | _ => exact counted

theorem start_counted (tuning : Tuning) (caller : Option Signal) :
    (start tuning caller : Pipeline α β).Counted := by
  intro n returned
  simp [start, pool] at returned

end Pipeline
end TreeDigest
