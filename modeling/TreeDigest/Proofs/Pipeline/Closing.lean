import TreeDigest.Proofs.Pipeline.Aftermath
import TreeDigest.Proofs.Pipeline.Effort
namespace TreeDigest

namespace Feed
variable {source : Enumerator α} {capacity : Option Nat} {f g : Feed α} {s t : Signal}

theorem Step.mailbox_stays (step : Step source capacity f s g t) (heard : f.heard = true)
    (found : f.mailbox.isSome = true) : g.mailbox.isSome = true := by
  obtain ⟨-, ⟨-, same⟩ | ⟨ended, -, -, now⟩⟩ := step.posts
  · rwa [same]
  · rw [now, if_pos heard]
    rfl

end Feed

namespace Pipeline
variable {job : Job α β} {s t : Pipeline α β} {e : Event}

def Reported (s : Pipeline α β) : Prop := s.feed.mailbox.isSome = true ∨ s.stream.ended.isSome = true

theorem Posted.hears (posted : s.Posted) (present : s.stream.phase ≠ .gone) : s.feed.heard = true := by
  cases heard : s.feed.heard with
  | true => rfl
  | false => exact absurd (posted.listening heard) present

theorem Sound.reported (sound : s.Sound job) (starts : job.source.starts = true)
    (drained : s.stream.drained = true) (quiet : s.signal.isTripped = false) : s.Reported := by
  have shut := (sound.drained drained quiet).1
  obtain ⟨ended, reports⟩ := sound.honest.reported starts (.inl shut)
  have present : s.stream.phase ≠ .gone := by
    intro gone
    have tripped := Signal.isTripped_of_woken (sound.traced.closing (.inr gone))
    simp [quiet] at tripped
  have found := sound.posted.found (sound.posted.hears present) ended (by simp [reports])
  exact found.imp (by simp +contextual) (by simp +contextual)

structure Prompt (s : Pipeline α β) : Prop where
  selecting : s.stream.phase = .selecting → s.stream.drained = false
  looking : s.stream.phase = .looking → s.stream.drained = true ∨ s.signal.isTripped = true
  awaiting : s.stream.phase = .awaiting → s.feed.mailbox.isSome = true

theorem Prompt.frame (prompt : s.Prompt)
    (stays : s.signal.isTripped = true → t.signal.isTripped = true)
    (stream : t.stream.phase = s.stream.phase ∧ t.stream.drained = s.stream.drained)
    (mailbox : s.stream.phase = .awaiting → s.feed.mailbox.isSome = true →
      t.feed.mailbox.isSome = true) : t.Prompt := by
  obtain ⟨phase, drained⟩ := stream
  refine ⟨?_, ?_, ?_⟩
  · rw [phase, drained]
    exact prompt.selecting
  · rw [phase, drained]
    exact fun looking => (prompt.looking looking).imp_right stays
  · rw [phase]
    exact fun awaiting => mailbox awaiting (prompt.awaiting awaiting)

theorem Prompt.busy (phase : t.stream.phase ≠ .selecting ∧ t.stream.phase ≠ .looking ∧
    t.stream.phase ≠ .awaiting) : t.Prompt :=
  ⟨fun here => absurd here phase.1, fun here => absurd here phase.2.1,
    fun here => absurd here phase.2.2⟩

theorem Prompt.look (prompt : s.Prompt) (sound : s.Sound job) (starts : job.source.starts = true)
    (looking : s.stream.phase = .looking) : (s.setStream s.lookUp).Prompt := by
  unfold lookUp
  split
  · exact .busy (by simp [setStream])
  · rename_i missing
    split
    · exact .busy (by simp [setStream])
    · rename_i quiet
      have quiet : s.signal.isTripped = false := Bool.eq_false_iff.mpr quiet
      have drained := (prompt.looking looking).resolve_right (by simp [quiet])
      have found := (sound.reported starts drained quiet).resolve_right missing
      exact ⟨by simp [setStream], by simp [setStream], fun _ => found⟩

theorem Prompt.step (prompt : s.Prompt) (sound : s.Sound job) (starts : job.source.starts = true)
    (step : Step job s e t) : t.Prompt := by
  have stays := step.tripped_stays
  cases step with
  | source moved =>
    refine prompt.frame stays ⟨rfl, rfl⟩ fun awaiting found => ?_
    exact moved.mailbox_stays (sound.posted.hears (by simp [awaiting])) found
  | take worker taken =>
    refine prompt.frame stays ⟨rfl, rfl⟩ fun _ found => ?_
    simpa only [setWorker, taken.posts.2.2] using found
  | letGo worker =>
    refine prompt.frame stays ⟨rfl, rfl⟩ fun _ found => ?_
    simpa only [Pipeline.letGo, setWorker, s.feed.hangUp_posts.2.2] using found
  | select idle more quiet => exact ⟨fun _ => more, by simp [Pipeline.begin], by simp [Pipeline.begin]⟩
  | finishDrained idle drained =>
    exact ⟨by simp [Pipeline.begin], fun _ => .inl drained, by simp [Pipeline.begin]⟩
  | look looking => exact prompt.look sound starts looking
  | @streamWakes first q waking =>
    have tripped := sound.traced.stream (.inl ⟨first, q, waking⟩)
    cases q with
    | finish => exact ⟨by simp [afterTrip, setStream], fun _ => .inr (stays tripped),
        by simp [afterTrip, setStream]⟩
    | next | trip r | drop => exact .busy (by simp [afterTrip, setStream, answered])
  | handOver | endAgain | finishEarly | trip | drop | receive | drain | interrupt | streamRecords | poll
  | hear | resolve | close =>
    exact .busy (by simp [setWorker, Pipeline.receive, answered, Pipeline.begin, setStream, takeReport,
      Pipeline.resolve, dropStream])
  | _ => exact prompt.frame stays ⟨rfl, rfl⟩ fun _ found => found

theorem start_prompt (tuning : Tuning) (caller : Option Signal) :
    (start tuning caller : Pipeline α β).Prompt := .busy (by simp [start, pool])

theorem tally_guards (s : Pipeline α β) :
    tally WorkerPhase.guards s.workers = s.workers.countP (!·.hasExited) := by
  rw [← Array.countP_toList]
  unfold tally WorkerPhase.guards
  rw [List.sum_map_ite, List.countP_eq_length_filter]
  simp

theorem exited_rests {i : Nat} (exited : ∀ w ∈ s.workers, w.hasExited = true)
    (m : Move) : advance job s (.worker i m) = none := by
  simp only [advance, workerStep]
  cases worker : s.workers[i]? with
  | none => rfl
  | some w =>
    have gone := exited w (Array.mem_of_getElem? worker)
    cases w <;> simp [WorkerPhase.hasExited] at gone
    cases m <;> simp [workerGo, workerMessage, workerSignal]

theorem Sound.exited {w : WorkerPhase α β} (sound : s.Sound job) (done : s.closer = .done)
    (member : w ∈ s.workers) : w.hasExited = true :=
  sound.pool.exited (sound.pool.closer (by simp [done])) member

theorem Step.results_suffix (step : Step job s e t) (sound : s.Sound job) (done : s.closer = .done) :
    t.closer = .done ∧ t.results.toList <:+ s.results.toList := by
  have working {i : Nat} {w : WorkerPhase α β} {P : Prop} (worker : s.workers[i]? = some w)
      (here : w.hasExited = false) : P := by
    have gone := sound.exited done (Array.mem_of_getElem? worker)
    simp [here] at gone
  cases step with
  | take worker | runDry worker | stopWaiting worker | putDown worker | begin worker | produce worker
  | panic worker | enqueue worker | handOver worker | giveUp worker | letGo worker | recordPanic worker
  | wakePanic worker | countOff worker => exact working worker rfl
  | closerWaits closer | closerCloses closer => simp [done] at closer
  | receive selecting popped => exact ⟨done, [_], (Queue.pop?_eq_some popped).symm⟩
  | close closing => exact ⟨done, List.nil_suffix⟩
  | @streamWakes first q waking => cases q <;> exact ⟨done, List.suffix_rfl⟩
  | _ => exact ⟨done, List.suffix_rfl⟩

theorem Reaches.results_suffix (path : Reaches job s t) (sound : s.Sound job) (done : s.closer = .done) :
    t.Sound job ∧ t.closer = .done ∧ t.results.toList <:+ s.results.toList := by
  refine path.keeps (P := fun t => t.Sound job ∧ t.closer = .done ∧
    t.results.toList <:+ s.results.toList) ⟨sound, done, List.suffix_rfl⟩ ?_
  rintro u v e - ⟨sound, done, shorter⟩ step
  obtain ⟨done, fewer⟩ := step.results_suffix sound done
  exact ⟨sound.step step, done, fewer.trans shorter⟩

theorem Prompt.goes_on (prompt : s.Prompt) (drained : s.stream.drained = true)
    (busy : s.stream.phase ≠ .idle ∧ s.stream.phase ≠ .gone) :
    ∃ t, advance job s (.stream .go) = some t ∧ t.stream.phase.effort < s.stream.phase.effort := by
  simp only [advance, streamStep]
  cases phase : s.stream.phase with
  | idle => exact absurd phase busy.1
  | gone => exact absurd phase busy.2
  | selecting => simp [prompt.selecting phase] at drained
  | recording r q => exact ⟨_, rfl, by cases q <;> simp [setStream, StreamPhase.effort, Request.effort]⟩
  | waking first q =>
    refine ⟨_, rfl, ?_⟩
    cases q <;> simp [afterTrip, setStream, answered, StreamPhase.effort, Request.effort]
  | looking => exact ⟨_, rfl, Nat.lt_succ_of_le lookUp_effort⟩
  | polling => exact ⟨_, rfl, by simp [takeReport, StreamPhase.effort]⟩
  | awaiting =>
    refine ⟨_, if_pos (by simp [prompt.awaiting phase]), by simp [takeReport, StreamPhase.effort]⟩
  | resolving => exact ⟨_, rfl, by simp [Pipeline.resolve, answered, StreamPhase.effort]⟩
  | closing => exact ⟨_, rfl, by simp [dropStream, StreamPhase.effort]⟩

-- In what order the ends of the channels are given up, and what whoever finds one closed may rely on.
structure Closing (job : Job α β) (s : Pipeline α β) : Prop where
  -- The items end behind one report, which the consumer has or will find, and a failure is on record.
  items : s.feed.itemsOpen = false → ∃ ended, s.feed.reports = [ended] ∧
    (s.stream.phase ≠ .gone → s.feed.mailbox = some ended ∨ s.stream.ended = some ended) ∧
    ∀ m, ended = .failed m → s.signal.isTripped = true
  guards : s.outstanding = s.workers.countP (!·.hasExited)
  counting : ∀ w ∈ s.workers, w.hasExited = false → 0 < s.outstanding
  -- The outcomes end behind the last worker, however the run goes on.
  outcomes : s.closer = .done → (∀ w ∈ s.workers, w.hasExited = true) ∧
    (s.Panicked → s.signal.isTripped = true) ∧
    ∀ t, Reaches job s t → (∀ i m, advance job t (.worker i m) = none) ∧
      t.results.toList <:+ s.results.toList
  woken : s.signal.woken = true → s.signal.isTripped = true
  -- The end of the stream says that the report is there, so that whoever asks for it need not wait.
  status : s.stream.drained = true → s.signal.isTripped = false → s.Reported
  answers : s.stream.drained = true → s.stream.phase ≠ .idle ∧ s.stream.phase ≠ .gone →
    ∃ t, advance job s (.stream .go) = some t ∧ t.stream.phase.effort < s.stream.phase.effort

theorem Sound.items_closed (sound : s.Sound job) (starts : job.source.starts = true)
    (closed : s.feed.itemsOpen = false) : ∃ ended, s.feed.reports = [ended] ∧
      (s.stream.phase ≠ .gone → s.feed.mailbox = some ended ∨ s.stream.ended = some ended) ∧
      ∀ m, ended = .failed m → s.signal.isTripped = true := by
  obtain ⟨ended, reports⟩ := sound.honest.reported starts (.inl closed)
  refine ⟨ended, reports, fun present => ?_, ?_⟩
  · exact sound.posted.found (sound.posted.hears present) ended (by simp [reports])
  · rintro m rfl
    have past := sound.honest.closed closed
    refine (sound.traced.source m (by simp [reports])).resolve_left fun recording => ?_
    simp [recording] at past

theorem Sound.outcomes_closed (sound : s.Sound job) (done : s.closer = .done) :
    (∀ w ∈ s.workers, w.hasExited = true) ∧ (s.Panicked → s.signal.isTripped = true) ∧
      ∀ t, Reaches job s t → (∀ i m, advance job t (.worker i m) = none) ∧
        t.results.toList <:+ s.results.toList := by
  have exited {w : WorkerPhase α β} (member : w ∈ s.workers) := sound.exited done member
  refine ⟨fun _ => exited, ?_, fun t path => ?_⟩
  · rintro ⟨w, member, panicked⟩
    have gone := exited member
    refine sound.traced.workers w member ?_
    cases w <;> simp [WorkerPhase.hasExited] at gone
    exact panicked
  · obtain ⟨later, still, fewer⟩ := path.results_suffix sound done
    exact ⟨fun i m => exited_rests (fun _ => later.exited still) m, fewer⟩

variable {options : RunOptions} {caller : Option Signal} {tuning : Tuning} {p : Pipeline α β}
  {source : Enumerator α} {transform : α → Attempt β}

theorem Reaches.prompt (started : start? options caller = .ok (tuning, p))
    (starts : job.source.starts = true) (path : Reaches job p s) : s.Prompt := by
  obtain ⟨-, rfl, -, -⟩ := start?_ok started
  exact path.keeps (start_prompt tuning caller) fun prior prompt step =>
    prompt.step (prior.sound started) starts step

theorem closes_in_order (started : start? options caller = .ok (tuning, p))
    (starts : source.starts = true) (path : Reaches (Pipeline.job tuning source transform) p t) :
    t.Closing (Pipeline.job tuning source transform) := by
  have sound := path.sound started
  have prompt := path.prompt started starts
  exact {
    items := sound.items_closed starts
    guards := sound.pool.outstanding.trans t.tally_guards
    counting := by
      intro w member here
      rw [sound.pool.outstanding, t.tally_guards]
      exact Array.countP_pos_iff.mpr ⟨w, member, by simp [here]⟩
    outcomes := sound.outcomes_closed
    woken := Signal.isTripped_of_woken
    status := sound.reported starts
    answers := prompt.goes_on }

def oneNumber : Job Nat Nat := Pipeline.job ⟨1, 1, none⟩ (.ofList [.item 7]) .value

-- Everybody has come to an end but the source, which still has to give up the channel of reports, and the
-- consumer waits for its report.
def untilAwaited : List Event :=
  [.source .go, .source .go, .source .go, .source .message, .source .go, .source .go, .source .go,
    .source .go, .worker 0 .message, .worker 0 .go, .worker 0 .go, .worker 0 .message,
    .worker 0 .message, .worker 0 .go, .worker 0 .go, .closer, .closer, .request .next,
    .stream .message, .request .next, .stream .message, .request .finish, .stream .go]

theorem closes_in_order_awaited :
    ∃ s, Reaches oneNumber (start ⟨1, 1, none⟩ none) s ∧ s.feed.itemsOpen = false ∧
      s.feed.statusOpen = true ∧ s.closer = .done ∧ s.signal.isTripped = false ∧
      s.stream.phase = .awaiting ∧ s.Closing oneNumber ∧
      ∃ t, advance oneNumber s (.stream .go) = some t := by
  have came : (untilAwaited.foldlM (advance oneNumber) (start ⟨1, 1, none⟩ none)).map
      (fun s => (s.feed.itemsOpen, s.feed.statusOpen, s.closer, s.signal.isTripped, s.stream.phase,
        s.stream.drained)) =
      some (false, true, .done, false, .awaiting, true) := by with_unfolding_all rfl
  obtain ⟨s, followed, equal⟩ := Option.map_eq_some_iff.mp came
  simp only [Prod.mk.injEq] at equal
  obtain ⟨items, status, done, quiet, awaiting, drained⟩ := equal
  have path := Reaches.here.follows followed
  have closing : s.Closing oneNumber := closes_in_order
    (show start? ⟨1, none, some 1⟩ none = .ok (⟨1, 1, none⟩, _) from rfl) rfl path
  obtain ⟨t, moved, -⟩ := closing.answers drained (by simp [awaiting])
  exact ⟨s, path, items, status, done, quiet, awaiting, closing, t, moved⟩

end Pipeline
end TreeDigest
