import TreeDigest.Proofs.Pipeline.Backpressure
namespace TreeDigest

-- A count stays as it is and nothing more falls due, or it goes up by one of what was due.
def Paid (before after due rest : Nat) : Prop :=
  after = before ∧ rest ≤ due ∨ after = before + 1 ∧ rest < due

def FeedPhase.asksDue : FeedPhase α → Nat
  | .starting | .asking | .offering _ => 1
  | _ => 0

def FeedPhase.placesDue : FeedPhase α → Nat
  | .offering _ => 1
  | _ => 0

def StreamPhase.yieldsDue : StreamPhase → Nat
  | .selecting => 1
  | _ => 0

namespace WorkerPhase

def isWorking : WorkerPhase α β → Bool
  | .transforming _ => true
  | _ => false

def begins : WorkerPhase α β → WorkerPhase α β → Bool
  | .holding _, .transforming _ => true
  | _, _ => false

def delivers : WorkerPhase α β → WorkerPhase α β → Bool
  | .delivering _, .receiving => true
  | _, _ => false

def deliveriesDue : WorkerPhase α β → Nat
  | .transforming _ | .delivering _ => 1
  | _ => 0

end WorkerPhase

namespace Feed
variable {source : Enumerator α} {capacity : Option Nat} {f g : Feed α} {s t : Signal}

theorem Step.paid (step : Step source capacity f s g t) (tripped : s.isTripped = true) :
    Paid f.asked g.asked f.phase.asksDue g.phase.asksDue ∧
      Paid f.emitted.length g.emitted.length f.phase.placesDue g.phase.placesDue := by
  cases step with
  | accept phase quiet => simp [tripped] at quiet
  | start phase | breakDown phase | ask phase | panic phase | finish phase | fail phase | cutOff phase
  | abandon phase | interrupt phase | place phase | record phase | wake phase =>
    simp [Paid, phase, FeedPhase.asksDue, FeedPhase.placesDue, Feed.place]
  | @report ended phase =>
    cases ended <;> simp [Paid, phase, FeedPhase.asksDue, FeedPhase.placesDue, Feed.report]
  | closeItems phase =>
    cases shut : f.statusOpen <;>
      simp [Paid, phase, FeedPhase.asksDue, FeedPhase.placesDue, Feed.closeItems, shut]
  | closeStatus phase =>
    cases shut : f.itemsOpen <;>
      simp [Paid, phase, FeedPhase.asksDue, FeedPhase.placesDue, Feed.closeStatus, shut]

theorem Takes.paid {x : α} (taken : Takes capacity f x g) :
    Paid f.asked g.asked f.phase.asksDue g.phase.asksDue ∧
      Paid f.emitted.length g.emitted.length f.phase.placesDue g.phase.placesDue := by
  cases taken with
  | queued popped => simp [Paid]
  | offered empty rendezvous phase =>
    simp [Paid, phase, FeedPhase.asksDue, FeedPhase.placesDue, Feed.place]

end Feed

namespace Pipeline

inductive Deed where
  | ask
  | place
  | begin (worker : Nat)
  | deliver (worker : Nat)
  | yield
  deriving DecidableEq, Repr

def workerDoes (does : WorkerPhase α β → WorkerPhase α β → Bool) (i : Nat) (s t : Pipeline α β) :
    Bool :=
  match s.workers[i]?, t.workers[i]? with
  | some w, some v => does w v
  | _, _ => false

def workerDue (due : WorkerPhase α β → Nat) (i : Nat) (s : Pipeline α β) : Nat :=
  (s.workers[i]?.map due).getD 0

def happens : Deed → Pipeline α β → Pipeline α β → Bool
  | .ask, s, t => t.feed.asked == s.feed.asked + 1
  | .place, s, t => t.feed.emitted.length == s.feed.emitted.length + 1
  | .begin i, s, t => workerDoes WorkerPhase.begins i s t
  | .deliver i, s, t => workerDoes WorkerPhase.delivers i s t
  | .yield, s, t => t.stream.received.length == s.stream.received.length + 1

def due : Deed → Pipeline α β → Nat
  | .ask, s => s.feed.phase.asksDue
  | .place, s => s.feed.phase.placesDue
  | .begin i, s => workerDue (fun _ => 0) i s
  | .deliver i, s => workerDue WorkerPhase.deliveriesDue i s
  | .yield, s => s.stream.phase.yieldsDue

def times (job : Job α β) (deed : Deed) (s : Pipeline α β) : List Event → Nat
  | [] => 0
  | e :: rest =>
    match advance job s e with
    | some t => (happens deed s t).toNat + times job deed t rest
    | none => 0

variable {job : Job α β} {s t u : Pipeline α β} {e : Event} {deed : Deed}

theorem due_le_one (deed : Deed) (s : Pipeline α β) : due deed s ≤ 1 := by
  cases deed with
  | ask => cases phase : s.feed.phase <;> simp [due, phase, FeedPhase.asksDue]
  | place => cases phase : s.feed.phase <;> simp [due, phase, FeedPhase.placesDue]
  | begin i => cases worker : s.workers[i]? <;> simp [due, workerDue, worker]
  | deliver i =>
    cases worker : s.workers[i]? with
    | none => simp [due, workerDue, worker]
    | some w => cases w <;> simp [due, workerDue, worker, WorkerPhase.deliveriesDue]
  | yield => cases phase : s.stream.phase <;> simp [due, phase, StreamPhase.yieldsDue]

theorem happens_of_paid {before after due rest : Nat} (paid : Paid before after due rest) :
    (after == before + 1).toNat + rest ≤ due := by
  rcases paid with ⟨rfl, kept⟩ | ⟨rfl, less⟩
  · rw [beq_eq_false_iff_ne.mpr (Nat.ne_of_lt (Nat.lt_succ_self after))]
    exact (Nat.zero_add rest).symm ▸ kept
  · rw [beq_self_eq_true]
    exact Nat.add_comm rest 1 ▸ less

theorem Step.feed_paid (step : Step job s e t) (tripped : s.signal.isTripped = true) :
    Paid s.feed.asked t.feed.asked s.feed.phase.asksDue t.feed.phase.asksDue ∧
      Paid s.feed.emitted.length t.feed.emitted.length s.feed.phase.placesDue
        t.feed.phase.placesDue := by
  have rests {f : Feed α} (asked : f.asked = s.feed.asked) (emitted : f.emitted = s.feed.emitted)
      (phase : f.phase = s.feed.phase) :
      Paid s.feed.asked f.asked s.feed.phase.asksDue f.phase.asksDue ∧
        Paid s.feed.emitted.length f.emitted.length s.feed.phase.placesDue f.phase.placesDue := by
    simp [Paid, asked, emitted, phase]
  cases step with
  | source moved => exact moved.paid tripped
  | take worker taken => exact taken.paid
  | letGo worker =>
    apply rests <;>
    · simp only [Pipeline.letGo, setWorker, Feed.hangUp]
      split <;> rfl
  | @streamWakes first q waking => cases q <;> exact rests rfl rfl rfl
  | _ => exact rests rfl rfl rfl

theorem Step.stream_paid (step : Step job s e t) (tripped : s.signal.isTripped = true) :
    Paid s.stream.received.length t.stream.received.length s.stream.phase.yieldsDue
      t.stream.phase.yieldsDue := by
  cases step with
  | select idle more quiet => simp [tripped] at quiet
  | handOver worker rendezvous selecting =>
    simp [Paid, selecting, setWorker, Pipeline.receive, StreamPhase.yieldsDue]
  | receive selecting => simp [Paid, selecting, Pipeline.receive, StreamPhase.yieldsDue]
  | look looking =>
    rcases s.lookUp_cases with ⟨next, -⟩ | ⟨next, -⟩ | ⟨next, -⟩ <;>
      simp [Paid, setStream, next, StreamPhase.yieldsDue]
  | @streamWakes first q waking =>
    cases q <;> simp [Paid, afterTrip, setStream, answered, StreamPhase.yieldsDue]
  | endAgain | finishDrained | finishEarly | trip | drop | drain | interrupt | streamRecords | poll |
    hear | resolve | close =>
    simp [Paid, answered, Pipeline.begin, setStream, takeReport, Pipeline.resolve, dropStream,
      StreamPhase.yieldsDue]
  | _ => exact .inl ⟨rfl, Nat.le_refl _⟩

-- A step moves one worker or none. Past the trip none begins a transform, and only what was begun before
-- is delivered.
theorem Step.worker_paid (step : Step job s e t) (tripped : s.signal.isTripped = true) :
    t.workers = s.workers ∨ ∃ i w v, s.workers[i]? = some w ∧
      t.workers = s.workers.setIfInBounds i v ∧ w.begins v = false ∧
      (w.delivers v).toNat + v.deliveriesDue ≤ w.deliveriesDue := by
  cases step with
  | begin worker quiet => simp [tripped] at quiet
  | take worker | runDry worker | stopWaiting worker | putDown worker | produce worker | panic worker
  | enqueue worker | handOver worker | giveUp worker | recordPanic worker | wakePanic worker
  | countOff worker =>
    refine .inr ⟨_, _, _, worker, rfl, rfl, ?_⟩
    simp [WorkerPhase.delivers, WorkerPhase.deliveriesDue]
  | @letGo i panicked worker =>
    refine .inr ⟨i, _, _, worker, rfl, ?_⟩
    cases panicked <;>
      simp [WorkerPhase.begins, WorkerPhase.delivers, WorkerPhase.deliveriesDue]
  | @streamWakes first q waking => cases q <;> exact .inl rfl
  | _ => exact .inl rfl

theorem worker_pays {does : WorkerPhase α β → WorkerPhase α β → Bool} {due : WorkerPhase α β → Nat}
    {i : Nat} {w v : WorkerPhase α β} (still : ∀ w, does w w = false)
    (worker : s.workers[i]? = some w) (moved : t.workers = s.workers.setIfInBounds i v)
    (own : (does w v).toNat + due v ≤ due w) (j : Nat) :
    (workerDoes does j s t).toNat + workerDue due j t ≤ workerDue due j s := by
  unfold workerDoes workerDue
  rw [moved]
  by_cases same : i = j
  · subst same
    have inside : i < s.workers.size := (Array.getElem?_eq_some_iff.mp worker).1
    rw [Array.getElem?_setIfInBounds_self_of_lt inside, worker]
    exact own
  · rw [Array.getElem?_setIfInBounds_ne same]
    cases s.workers[j]? <;> simp [still]

theorem worker_rests {does : WorkerPhase α β → WorkerPhase α β → Bool} {due : WorkerPhase α β → Nat}
    (still : ∀ w, does w w = false) (same : t.workers = s.workers) (j : Nat) :
    (workerDoes does j s t).toNat + workerDue due j t ≤ workerDue due j s := by
  unfold workerDoes workerDue
  rw [same]
  cases s.workers[j]? <;> simp [still]

theorem Step.pays (step : Step job s e t) (tripped : s.signal.isTripped = true) (deed : Deed) :
    (happens deed s t).toNat + due deed t ≤ due deed s := by
  have begins (w : WorkerPhase α β) : w.begins w = false := by cases w <;> rfl
  have delivers (w : WorkerPhase α β) : w.delivers w = false := by cases w <;> rfl
  cases deed with
  | ask => exact happens_of_paid (step.feed_paid tripped).1
  | place => exact happens_of_paid (step.feed_paid tripped).2
  | begin i =>
    rcases step.worker_paid tripped with same | ⟨j, w, v, worker, moved, none, -⟩
    · exact worker_rests begins same i
    · exact worker_pays begins worker moved (by simp [none]) i
  | deliver i =>
    rcases step.worker_paid tripped with same | ⟨j, w, v, worker, moved, -, own⟩
    · exact worker_rests delivers same i
    · exact worker_pays delivers worker moved own i
  | yield => exact happens_of_paid (step.stream_paid tripped)

theorem times_le_due (job : Job α β) (deed : Deed) (tripped : s.signal.isTripped = true)
    (steps : List Event) : times job deed s steps ≤ due deed s := by
  induction steps generalizing s with
  | nil => exact Nat.zero_le _
  | cons e rest ih =>
    unfold times
    split
    · rename_i t moved
      have step := advance_sound moved
      have later := ih (step.tripped_stays tripped)
      have paid := step.pays tripped deed
      omega
    · exact Nat.zero_le _

-- However the run goes on once a reason is recorded, whether or not anybody has been woken yet: the source
-- is asked at most once more and places at most one item, the consumer is handed at most one outcome, and
-- each worker delivers at most one. A worker begins nothing any more that it had not looked at the signal
-- for, so at most one transform is under way from then on.
theorem winds_down (job : Job α β) (tripped : s.signal.isTripped = true) (steps : List Event) :
    times job .ask s steps ≤ 1 ∧ times job .place s steps ≤ 1 ∧ times job .yield s steps ≤ 1 ∧
      ∀ i, times job (.deliver i) s steps ≤ 1 ∧
        times job (.begin i) s steps + (s.workers[i]?.any WorkerPhase.isWorking).toNat ≤ 1 := by
  have once (deed : Deed) : times job deed s steps ≤ 1 :=
    Nat.le_trans (times_le_due job deed tripped steps) (due_le_one deed s)
  refine ⟨once .ask, once .place, once .yield, fun i => ⟨once (.deliver i), ?_⟩⟩
  have none : due (.begin i) s = 0 := by
    cases worker : s.workers[i]? <;> simp [due, workerDue, worker]
  have never := times_le_due job (.begin i) tripped steps
  have atMost := Bool.toNat_le (s.workers[i]?.any WorkerPhase.isWorking)
  omega

theorem Reaches.follows {p : Pipeline α β} {steps : List Event} (path : Reaches job p s)
    (moved : steps.foldlM (advance job) s = some t) : Reaches job p t :=
  foldlM_keeps (fun before moved => before.step _ moved) path moved

def handToHand : Job Nat Nat := Pipeline.job ⟨1, 0, none⟩ ⟨true, .item⟩ .value

-- The caller trips its signal while the source offers the second number, the worker works on the first one
-- and the consumer waits for it. Nobody is woken before all of them have done what they were about to do.
def untilTripped : List Event :=
  [.source .go, .source .go, .source .go, .worker 0 .message, .source .go, .source .go, .worker 0 .go,
    .request .next, .callerRecord .requested, .callerWake, .watchdog .relay, .watchdog .go]

def onceTripped : List Event :=
  [.worker 0 .go, .worker 0 .message, .worker 0 .message, .source .go, .source .go, .worker 0 .go,
    .request .next]

theorem winds_down_once :
    ∃ s, Reaches handToHand (start ⟨1, 0, none⟩ (some {})) s ∧ s.signal.isTripped = true ∧
      s.signal.woken = false ∧ times handToHand .ask s onceTripped = 1 ∧
      times handToHand .place s onceTripped = 1 ∧ times handToHand .yield s onceTripped = 1 ∧
      times handToHand (.deliver 0) s onceTripped = 1 ∧
      ∀ steps, times handToHand .ask s steps ≤ 1 ∧ times handToHand .place s steps ≤ 1 ∧
        times handToHand .yield s steps ≤ 1 ∧ times handToHand (.deliver 0) s steps ≤ 1 ∧
        times handToHand (.begin 0) s steps = 0 := by
  have came : (untilTripped.foldlM (advance handToHand) (start ⟨1, 0, none⟩ (some {}))).map
      (fun s => (s.signal.isTripped, s.signal.woken, times handToHand .ask s onceTripped,
        times handToHand .place s onceTripped, times handToHand .yield s onceTripped,
        times handToHand (.deliver 0) s onceTripped, s.workers[0]?.any WorkerPhase.isWorking)) =
      some (true, false, 1, 1, 1, 1, true) := by with_unfolding_all rfl
  obtain ⟨s, followed, equal⟩ := Option.map_eq_some_iff.mp came
  simp only [Prod.mk.injEq] at equal
  obtain ⟨tripped, unwoken, asked, placed, yielded, delivered, working⟩ := equal
  refine ⟨s, Reaches.here.follows followed, tripped, unwoken, asked, placed, yielded, delivered,
    fun steps => ?_⟩
  obtain ⟨ask, place, yield, workers⟩ := winds_down handToHand tripped steps
  obtain ⟨deliver, begins⟩ := workers 0
  rw [working] at begins
  exact ⟨ask, place, yield, deliver, Nat.le_zero.mp (Nat.le_of_succ_le_succ begins)⟩

end Pipeline
end TreeDigest
