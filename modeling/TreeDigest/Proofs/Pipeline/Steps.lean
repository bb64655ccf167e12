import TreeDigest.Pipeline.Steps
import TreeDigest.Proofs.Feed.Steps
namespace TreeDigest

def Attempt.result? : Attempt β → Option (Except String β)
  | .value v => some (.ok v)
  | .error m => some (.error m)
  | .panic | .never => none

namespace Pipeline

def begin (s : Pipeline α β) (phase : StreamPhase) : Pipeline α β :=
  { s with stream := { s.stream with phase, answer := none } }

-- The steps of all parties one by one, each with what allows it.
inductive Step (job : Job α β) (s : Pipeline α β) : Event → Pipeline α β → Prop where
  | source {m : Move} {feed : Feed α} {signal : Signal}
      (moved : Feed.Step job.source job.itemCapacity s.feed s.signal feed signal) :
      Step job s (.source m) { s with feed, signal }
  | take {i : Nat} {x : α} {feed : Feed α} (worker : s.workers[i]? = some .receiving)
      (taken : Feed.Takes job.itemCapacity s.feed x feed) :
      Step job s (.worker i .message) ({ s with feed }.setWorker i (.holding x))
  | runDry {i : Nat} (worker : s.workers[i]? = some .receiving) (closed : s.feed.isClosed = true) :
      Step job s (.worker i .message) (s.setWorker i (.leaving false))
  | stopWaiting {i : Nat} (worker : s.workers[i]? = some .receiving)
      (woken : s.signal.woken = true) :
      Step job s (.worker i .signal) (s.setWorker i (.leaving false))
  | putDown {i : Nat} {x : α} (worker : s.workers[i]? = some (.holding x))
      (tripped : s.signal.isTripped = true) :
      Step job s (.worker i .go) ((s.discard x).setWorker i (.leaving false))
  | begin {i : Nat} {x : α} (worker : s.workers[i]? = some (.holding x))
      (quiet : s.signal.isTripped = false) :
      Step job s (.worker i .go)
        ({ s with started := x :: s.started }.setWorker i (.transforming x))
  | produce {i : Nat} {x : α} {r : Except String β}
      (worker : s.workers[i]? = some (.transforming x))
      (result : (job.transform x).result? = some r) :
      Step job s (.worker i .go) (s.setWorker i (.delivering ⟨x, r⟩))
  | panic {i : Nat} {x : α} (worker : s.workers[i]? = some (.transforming x))
      (panics : job.transform x = .panic) :
      Step job s (.worker i .go) ((s.discard x).setWorker i (.leaving true))
  | enqueue {i : Nat} {o : Outcome α β} (worker : s.workers[i]? = some (.delivering o))
      (heard : s.stream.phase ≠ .gone) (room : Feed.hasRoom job.resultCapacity s.results = true) :
      Step job s (.worker i .message)
        ({ s with results := s.results.push o }.setWorker i .receiving)
  | handOver {i : Nat} {o : Outcome α β} (worker : s.workers[i]? = some (.delivering o))
      (rendezvous : job.resultCapacity = some 0) (selecting : s.stream.phase = .selecting) :
      Step job s (.worker i .message) ((s.receive o).setWorker i .receiving)
  | giveUp {i : Nat} {m : Move} {o : Outcome α β} (worker : s.workers[i]? = some (.delivering o))
      (stopped : s.stream.phase = .gone ∨ s.signal.woken = true) :
      Step job s (.worker i m) ((s.discard o.item).setWorker i (.leaving false))
  | letGo {i : Nat} {panicked : Bool} (worker : s.workers[i]? = some (.leaving panicked)) :
      Step job s (.worker i .go) (s.letGo i panicked)
  | recordPanic {i : Nat} (worker : s.workers[i]? = some .recording) :
      Step job s (.worker i .go)
        ({ s with signal := s.signal.record .workerPanicked }.setWorker i .waking)
  | wakePanic {i : Nat} (worker : s.workers[i]? = some .waking) :
      Step job s (.worker i .go) ({ s with signal := s.signal.wake }.setWorker i (.counting true))
  | countOff {i : Nat} {panicked : Bool} (worker : s.workers[i]? = some (.counting panicked)) :
      Step job s (.worker i .go)
        ({ s with outstanding := s.outstanding - 1 }.setWorker i (.exited panicked))
  | closerWaits (closer : s.closer = .waiting) (none : s.outstanding = 0) :
      Step job s .closer { s with closer := .closing }
  | closerCloses (closer : s.closer = .closing) : Step job s .closer { s with closer := .done }
  | watchdogLeaves (watchdog : s.watchdog = some .watching) (woken : s.signal.woken = true) :
      Step job s (.watchdog .leave) { s with watchdog := some .exited }
  | watchdogRelays (watchdog : s.watchdog = some .watching) (ready : s.callerReady = true) :
      Step job s (.watchdog .relay) { s with watchdog := some (.recording .requested) }
  | watchdogExpires (watchdog : s.watchdog = some .watching) (expired : s.expired = true) :
      Step job s (.watchdog .expire) { s with watchdog := some (.recording .timedOut) }
  | watchdogRecords {r : CancelReason} (watchdog : s.watchdog = some (.recording r)) :
      Step job s (.watchdog .go)
        { s with signal := s.signal.record r, watchdog := some .waking }
  | watchdogWakes (watchdog : s.watchdog = some .waking) :
      Step job s (.watchdog .go) { s with signal := s.signal.wake, watchdog := some .exited }
  | deadline (armed : job.timeout.isSome = true) (ahead : s.expired = false) :
      Step job s .deadline { s with expired := true }
  | callerRecords {c : Signal} {r : CancelReason} (caller : s.caller = some c)
      (kept : s.callerKept = true) (quiet : c.isTripped = false) :
      Step job s (.callerRecord r) { s with caller := some (c.record r) }
  | callerWakes {c : Signal} (caller : s.caller = some c) (tripped : c.isTripped = true)
      (asleep : c.woken = false) : Step job s .callerWake { s with caller := some c.wake }
  | callerLeaves (kept : s.callerKept = true) : Step job s .callerLeave { s with callerKept := false }
  | endAgain (idle : s.stream.phase = .idle)
      (atEnd : s.stream.drained = true ∨ s.signal.isTripped = true) :
      Step job s (.request .next) (s.answered .ended)
  | select (idle : s.stream.phase = .idle) (more : s.stream.drained = false)
      (quiet : s.signal.isTripped = false) : Step job s (.request .next) (s.begin .selecting)
  | finishDrained (idle : s.stream.phase = .idle) (drained : s.stream.drained = true) :
      Step job s (.request .finish) (s.begin .looking)
  | finishEarly (idle : s.stream.phase = .idle) (more : s.stream.drained = false) :
      Step job s (.request .finish) (s.begin (.recording .released .finish))
  | trip {r : CancelReason} (idle : s.stream.phase = .idle) :
      Step job s (.request (.trip r)) (s.begin (.recording r (.trip r)))
  | drop (idle : s.stream.phase = .idle) :
      Step job s (.request .drop) (s.begin (.recording .released .drop))
  | receive {o : Outcome α β} {rest : Queue (Outcome α β)} (selecting : s.stream.phase = .selecting)
      (popped : s.results.pop? = some (o, rest)) :
      Step job s (.stream .message) ({ s with results := rest }.receive o)
  | drain (selecting : s.stream.phase = .selecting) (empty : s.results.toList = [])
      (closed : s.resultsClosed = true) :
      Step job s (.stream .message)
        ({ s with stream := { s.stream with drained := true } }.answered .ended)
  | interrupt (selecting : s.stream.phase = .selecting) (woken : s.signal.woken = true) :
      Step job s (.stream .signal) (s.answered .ended)
  | streamRecords {r : CancelReason} {q : Request} (recording : s.stream.phase = .recording r q) :
      Step job s (.stream .go)
        ({ s with signal := s.signal.record r }.setStream (.waking (!s.signal.isTripped) q))
  | streamWakes {first : Bool} {q : Request} (waking : s.stream.phase = .waking first q) :
      Step job s (.stream .go) ({ s with signal := s.signal.wake }.afterTrip first q)
  | look (looking : s.stream.phase = .looking) : Step job s (.stream .go) (s.setStream s.lookUp)
  | poll (polling : s.stream.phase = .polling) : Step job s (.stream .go) s.takeReport
  | hear (awaiting : s.stream.phase = .awaiting)
      (atEnd : s.feed.mailbox.isSome = true ∨ s.feed.statusOpen = false) :
      Step job s (.stream .go) s.takeReport
  | resolve (resolving : s.stream.phase = .resolving) :
      Step job s (.stream .go) (Pipeline.resolve job s)
  | close (closing : s.stream.phase = .closing) : Step job s (.stream .go) s.dropStream

variable {job : Job α β} {s t : Pipeline α β}

theorem source_sound {m : Move} (moved : sourceStep job s m = some t) : Step job s (.source m) t := by
  unfold sourceStep at moved
  obtain ⟨⟨feed, signal⟩, fed, rfl⟩ := Option.map_eq_some_iff.mp moved
  exact .source (Feed.advance_sound fed)

theorem complete_sound {i : Nat} {x : α} (worker : s.workers[i]? = some (.transforming x))
    (moved : s.complete i x (job.transform x) = some t) : Step job s (.worker i .go) t := by
  cases attempt : job.transform x with
  | value v =>
    simp only [attempt, complete] at moved
    cases moved
    exact .produce worker (by simp [attempt, Attempt.result?])
  | error m =>
    simp only [attempt, complete] at moved
    cases moved
    exact .produce worker (by simp [attempt, Attempt.result?])
  | panic => simp only [attempt, complete] at moved; cases moved; exact .panic worker attempt
  | never => simp [attempt, complete] at moved

theorem workerGo_sound {i : Nat} {w : WorkerPhase α β} (worker : s.workers[i]? = some w)
    (moved : workerGo job s i w = some t) : Step job s (.worker i .go) t := by
  cases w with
  | holding x =>
    simp only [workerGo, look] at moved
    split at moved
    · rename_i tripped; cases moved; exact .putDown worker tripped
    · rename_i quiet; cases moved; exact .begin worker (by simpa using quiet)
  | transforming x => exact complete_sound worker moved
  | leaving panicked => cases moved; exact .letGo worker
  | recording => cases moved; exact .recordPanic worker
  | waking => cases moved; exact .wakePanic worker
  | counting panicked => cases moved; exact .countOff worker
  | receiving | delivering o | exited panicked => simp [workerGo] at moved

theorem deliver_sound {i : Nat} {o : Outcome α β} (worker : s.workers[i]? = some (.delivering o))
    (heard : s.stream.phase ≠ .gone) {u : Pipeline α β} (delivered : deliver job s o = some u) :
    Step job s (.worker i .message) (u.setWorker i .receiving) := by
  unfold deliver at delivered
  split at delivered
  · rename_i room; cases delivered; exact .enqueue worker heard room
  · split at delivered
    · rename_i hand
      cases delivered
      exact .handOver worker hand.1 (by simpa [isSelecting] using hand.2)
    · cases delivered

theorem workerMessage_sound {i : Nat} {w : WorkerPhase α β} (worker : s.workers[i]? = some w)
    (moved : workerMessage job s i w = some t) : Step job s (.worker i .message) t := by
  cases w with
  | receiving =>
    simp only [workerMessage] at moved
    split at moved
    · rename_i taken; cases moved; exact .take worker (Feed.take_sound taken)
    · split at moved
      · rename_i closed; cases moved; exact .runDry worker closed
      · cases moved
  | delivering o =>
    simp only [workerMessage] at moved
    split at moved
    · rename_i gone; cases moved; exact .giveUp worker (.inl (by simpa [isGone] using gone))
    · rename_i heard
      obtain ⟨u, delivered, rfl⟩ := Option.map_eq_some_iff.mp moved
      exact deliver_sound worker (by simpa [isGone] using heard) delivered
  | holding x | transforming x | leaving p | recording | waking | counting p | exited p =>
    simp [workerMessage] at moved

theorem workerSignal_sound {i : Nat} {w : WorkerPhase α β} (worker : s.workers[i]? = some w)
    (moved : workerSignal s i w = some t) : Step job s (.worker i .signal) t := by
  unfold workerSignal at moved
  split at moved
  · rename_i woken
    cases w with
    | receiving => cases moved; exact .stopWaiting worker woken
    | delivering o => cases moved; exact .giveUp worker (.inr woken)
    | holding x | transforming x | leaving p | recording | waking | counting p | exited p =>
      simp at moved
  · cases moved

theorem worker_sound {i : Nat} {m : Move} (moved : workerStep job s i m = some t) :
    Step job s (.worker i m) t := by
  unfold workerStep at moved
  obtain ⟨w, worker, moved⟩ := Option.bind_eq_some_iff.mp moved
  cases m with
  | go => exact workerGo_sound worker moved
  | message => exact workerMessage_sound worker moved
  | signal => exact workerSignal_sound worker moved

theorem closer_sound (moved : s.closerStep = some t) : Step job s .closer t := by
  unfold closerStep at moved
  split at moved
  · rename_i closer
    split at moved
    · rename_i none; cases moved; exact .closerWaits closer none
    · cases moved
  · rename_i closer; cases moved; exact .closerCloses closer
  · cases moved

theorem watchdog_sound {m : WatchMove} (moved : s.watchdogStep m = some t) :
    Step job s (.watchdog m) t := by
  unfold watchdogStep at moved
  split at moved
  · rename_i watchdog
    split at moved
    · rename_i woken; cases moved; exact .watchdogLeaves watchdog woken
    · cases moved
  · rename_i watchdog
    split at moved
    · rename_i ready; cases moved; exact .watchdogRelays watchdog ready
    · cases moved
  · rename_i watchdog
    split at moved
    · rename_i expired; cases moved; exact .watchdogExpires watchdog expired
    · cases moved
  · rename_i watchdog; cases moved; exact .watchdogRecords watchdog
  · rename_i watchdog; cases moved; exact .watchdogWakes watchdog
  · cases moved

theorem callerRecord_sound {r : CancelReason} (moved : s.callerRecord r = some t) :
    Step job s (.callerRecord r) t := by
  unfold callerRecord at moved
  split at moved
  · rename_i c caller
    split at moved
    · rename_i free
      cases moved
      simp only [Bool.and_eq_true, Bool.not_eq_true'] at free
      exact .callerRecords caller free.1 free.2
    · cases moved
  · cases moved

theorem callerWake_sound (moved : s.callerWake = some t) : Step job s .callerWake t := by
  unfold callerWake at moved
  split at moved
  · rename_i c caller
    split at moved
    · rename_i due
      cases moved
      simp only [Bool.and_eq_true, Bool.not_eq_true'] at due
      exact .callerWakes caller due.1 due.2
    · cases moved
  · cases moved

theorem request_sound {q : Request} (moved : s.requestStep q = some t) :
    Step job s (.request q) t := by
  unfold requestStep at moved
  split at moved
  · rename_i idle
    cases q with
    | next =>
      simp only at moved
      split at moved
      · rename_i atEnd; cases moved; exact .endAgain idle (by simpa using atEnd)
      · rename_i more
        cases moved
        simp only [Bool.or_eq_true, not_or, Bool.not_eq_true] at more
        exact .select idle more.1 more.2
    | finish =>
      cases moved
      change Step job s _ (s.begin (if s.stream.drained then .looking else .recording .released .finish))
      split
      · rename_i drained; exact .finishDrained idle drained
      · rename_i more; exact .finishEarly idle (by simpa using more)
    | trip r => cases moved; exact .trip idle
    | drop => cases moved; exact .drop idle
  · cases moved

theorem selectMessage_sound (selecting : s.stream.phase = .selecting)
    (moved : s.selectMessage = some t) : Step job s (.stream .message) t := by
  unfold selectMessage at moved
  split at moved
  · rename_i popped; cases moved; exact .receive selecting popped
  · rename_i empty
    split at moved
    · rename_i closed
      cases moved
      exact .drain selecting ((Queue.pop?_eq_none_iff _).mp empty) closed
    · cases moved

theorem stream_sound {m : Move} (moved : streamStep job s m = some t) :
    Step job s (.stream m) t := by
  unfold streamStep at moved
  split at moved
  · rename_i selecting; exact selectMessage_sound selecting moved
  · rename_i selecting
    split at moved
    · rename_i woken; cases moved; exact .interrupt selecting woken
    · cases moved
  · rename_i recording; cases moved; exact .streamRecords recording
  · rename_i waking; cases moved; exact .streamWakes waking
  · rename_i looking; cases moved; exact .look looking
  · rename_i polling; cases moved; exact .poll polling
  · rename_i awaiting
    split at moved
    · rename_i atEnd; cases moved; exact .hear awaiting (by simpa using atEnd)
    · cases moved
  · rename_i resolving; cases moved; exact .resolve resolving
  · rename_i closing; cases moved; exact .close closing
  · cases moved

theorem advance_sound {e : Event} (moved : advance job s e = some t) : Step job s e t := by
  cases e with
  | source m => exact source_sound moved
  | worker i m => exact worker_sound moved
  | closer => exact closer_sound moved
  | watchdog m => exact watchdog_sound moved
  | deadline =>
    simp only [advance, deadlineStep] at moved
    split at moved
    · rename_i due
      cases moved
      simp only [Bool.and_eq_true, Bool.not_eq_true'] at due
      exact .deadline due.1 due.2
    · cases moved
  | callerRecord r => exact callerRecord_sound moved
  | callerWake => exact callerWake_sound moved
  | callerLeave =>
    simp only [advance, callerLeave] at moved
    split at moved
    · rename_i kept; cases moved; exact .callerLeaves kept
    · cases moved
  | request q => exact request_sound moved
  | stream m => exact stream_sound moved

theorem lookUp_cases (s : Pipeline α β) :
    s.lookUp = .resolving ∧ s.stream.ended.isSome = true ∨
      s.lookUp = .polling ∧ s.signal.isTripped = true ∨
      s.lookUp = .awaiting ∧ s.signal.isTripped = false := by
  unfold lookUp
  split
  · rename_i found; exact .inl ⟨rfl, found⟩
  · split
    · rename_i tripped; exact .inr (.inl ⟨rfl, tripped⟩)
    · rename_i quiet; exact .inr (.inr ⟨rfl, Bool.eq_false_iff.mpr quiet⟩)

theorem Reaches.keeps {P : Pipeline α β → Prop} (initial : P s)
    (step : ∀ {u v : Pipeline α β} {e : Event}, Reaches job s u → P u → Step job u e v → P v)
    (path : Reaches job s t) : P t := by
  induction path with
  | here => exact initial
  | step e prior moved ih => exact step prior ih (advance_sound moved)

end Pipeline
end TreeDigest
