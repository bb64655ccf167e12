import TreeDigest.Pipeline.State
namespace TreeDigest.Pipeline

inductive WatchMove where
  | leave
  | relay
  | expire
  | go
  deriving DecidableEq, Repr

inductive Event where
  | source (m : Move)
  | worker (i : Nat) (m : Move)
  | closer
  | watchdog (m : WatchMove)
  | deadline
  | callerRecord (reason : CancelReason)
  | callerWake
  | callerLeave
  | request (q : Request)
  | stream (m : Move)
  deriving DecidableEq, Repr

def setWorker (s : Pipeline α β) (i : Nat) (w : WorkerPhase α β) : Pipeline α β :=
  { s with workers := s.workers.setIfInBounds i w }

def discard (s : Pipeline α β) (x : α) : Pipeline α β := { s with discarded := x :: s.discarded }

def sourceStep (job : Job α β) (s : Pipeline α β) (m : Move) : Option (Pipeline α β) :=
  (s.feed.advance job.source job.itemCapacity s.signal m).map fun r =>
    { s with feed := r.1, signal := r.2 }

def isGone (s : Pipeline α β) : Bool := s.stream.phase == .gone

def isSelecting (s : Pipeline α β) : Bool := s.stream.phase == .selecting

def receive (s : Pipeline α β) (o : Outcome α β) : Pipeline α β :=
  { s with stream := { s.stream with
      phase := .idle
      answer := some (.outcome o)
      received := o :: s.stream.received } }

-- Without any capacity an outcome goes from hand to hand, while the consumer waits for it.
def deliver (job : Job α β) (s : Pipeline α β) (o : Outcome α β) : Option (Pipeline α β) :=
  if Feed.hasRoom job.resultCapacity s.results then some { s with results := s.results.push o }
  else if job.resultCapacity = some 0 ∧ s.isSelecting then some (s.receive o)
  else none

-- The signal is looked at between taking an item and working on it.
def look (s : Pipeline α β) (i : Nat) (x : α) : Pipeline α β :=
  if s.signal.isTripped then (s.discard x).setWorker i (.leaving false)
  else { s with started := x :: s.started }.setWorker i (.transforming x)

def complete (s : Pipeline α β) (i : Nat) (x : α) : Attempt β → Option (Pipeline α β)
  | .value v => some (s.setWorker i (.delivering ⟨x, .ok v⟩))
  | .error m => some (s.setWorker i (.delivering ⟨x, .error m⟩))
  | .panic => some ((s.discard x).setWorker i (.leaving true))
  | .never => none

def letGo (s : Pipeline α β) (i : Nat) (panicked : Bool) : Pipeline α β :=
  { s with feed := s.feed.hangUp }.setWorker i (if panicked then .recording else .counting false)

def workerGo (job : Job α β) (s : Pipeline α β) (i : Nat) :
    WorkerPhase α β → Option (Pipeline α β)
  | .holding x => some (s.look i x)
  | .transforming x => s.complete i x (job.transform x)
  | .leaving panicked => some (s.letGo i panicked)
  | .recording => some ({ s with signal := s.signal.record .workerPanicked }.setWorker i .waking)
  | .waking => some ({ s with signal := s.signal.wake }.setWorker i (.counting true))
  | .counting panicked =>
    some ({ s with outstanding := s.outstanding - 1 }.setWorker i (.exited panicked))
  | .receiving | .delivering _ | .exited _ => none

def workerMessage (job : Job α β) (s : Pipeline α β) (i : Nat) :
    WorkerPhase α β → Option (Pipeline α β)
  | .receiving =>
    match s.feed.take? job.itemCapacity with
    | some (x, feed) => some ({ s with feed }.setWorker i (.holding x))
    | none => if s.feed.isClosed then some (s.setWorker i (.leaving false)) else none
  | .delivering o =>
    if s.isGone then some ((s.discard o.item).setWorker i (.leaving false))
    else (deliver job s o).map (·.setWorker i .receiving)
  | _ => none

def workerSignal (s : Pipeline α β) (i : Nat) (w : WorkerPhase α β) : Option (Pipeline α β) :=
  if s.signal.woken then
    match w with
    | .receiving => some (s.setWorker i (.leaving false))
    | .delivering o => some ((s.discard o.item).setWorker i (.leaving false))
    | _ => none
  else none

def workerStep (job : Job α β) (s : Pipeline α β) (i : Nat) (m : Move) : Option (Pipeline α β) :=
  s.workers[i]?.bind fun w =>
    match m with
    | .go => workerGo job s i w
    | .message => workerMessage job s i w
    | .signal => workerSignal s i w

def closerStep (s : Pipeline α β) : Option (Pipeline α β) :=
  match s.closer with
  | .waiting => if s.outstanding = 0 then some { s with closer := .closing } else none
  | .closing => some { s with closer := .done }
  | .done => none

-- The caller's signal also counts once nobody is left who could trip it.
def callerReady (s : Pipeline α β) : Bool :=
  match s.caller with
  | some c => c.woken || !s.callerKept
  | none => false

def watchdogStep (s : Pipeline α β) (m : WatchMove) : Option (Pipeline α β) :=
  match s.watchdog, m with
  | some .watching, .leave =>
    if s.signal.woken then some { s with watchdog := some .exited } else none
  | some .watching, .relay =>
    if s.callerReady then some { s with watchdog := some (.recording .requested) } else none
  | some .watching, .expire =>
    if s.expired then some { s with watchdog := some (.recording .timedOut) } else none
  | some (.recording r), .go =>
    some { s with signal := s.signal.record r, watchdog := some .waking }
  | some .waking, .go => some { s with signal := s.signal.wake, watchdog := some .exited }
  | _, _ => none

def deadlineStep (job : Job α β) (s : Pipeline α β) : Option (Pipeline α β) :=
  if job.timeout.isSome && !s.expired then some { s with expired := true } else none

def callerRecord (s : Pipeline α β) (r : CancelReason) : Option (Pipeline α β) :=
  match s.caller with
  | some c => if s.callerKept && !c.isTripped then some { s with caller := some (c.record r) } else none
  | none => none

def callerWake (s : Pipeline α β) : Option (Pipeline α β) :=
  match s.caller with
  | some c => if c.isTripped && !c.woken then some { s with caller := some c.wake } else none
  | none => none

def callerLeave (s : Pipeline α β) : Option (Pipeline α β) :=
  if s.callerKept then some { s with callerKept := false } else none

def answered (s : Pipeline α β) (a : Answer α β) : Pipeline α β :=
  { s with stream := { s.stream with phase := .idle, answer := some a } }

def setStream (s : Pipeline α β) (phase : StreamPhase) : Pipeline α β :=
  { s with stream := { s.stream with phase } }

def requestStep (s : Pipeline α β) (q : Request) : Option (Pipeline α β) :=
  match s.stream.phase with
  | .idle =>
    let s := { s with stream := { s.stream with answer := none } }
    match q with
    | .next =>
      if s.stream.drained || s.signal.isTripped then some (s.answered .ended)
      else some (s.setStream .selecting)
    | .finish => some (s.setStream (if s.stream.drained then .looking else .recording .released .finish))
    | .trip r => some (s.setStream (.recording r (.trip r)))
    | .drop => some (s.setStream (.recording .released .drop))
  | _ => none

def resultsClosed (s : Pipeline α β) : Bool :=
  s.closer == .done && s.workers.all WorkerPhase.hasLetGo

def selectMessage (s : Pipeline α β) : Option (Pipeline α β) :=
  match s.results.pop? with
  | some (o, rest) => some ({ s with results := rest }.receive o)
  | none =>
    if s.resultsClosed then
      some ({ s with stream := { s.stream with drained := true } }.answered .ended)
    else none

def afterTrip (s : Pipeline α β) (first : Bool) : Request → Pipeline α β
  | .finish => s.setStream .looking
  | .drop => s.setStream .closing
  | .trip _ | .next => s.answered (.tripped first)

-- The report is looked up only until there is one. If the signal is tripped it is not waited for.
def lookUp (s : Pipeline α β) : StreamPhase :=
  if s.stream.ended.isSome then .resolving
  else if s.signal.isTripped then .polling
  else .awaiting

def takeReport (s : Pipeline α β) : Pipeline α β :=
  { s with
    feed := { s.feed with mailbox := none }
    stream := { s.stream with phase := .resolving, ended := s.feed.mailbox } }

def resolve (job : Job α β) (s : Pipeline α β) : Pipeline α β :=
  let v := finalStatus s.stream.ended s.stream.drained s.stream.received.length s.signal.reason
    job.timeout
  { s with stream := { s.stream with verdicts := v :: s.stream.verdicts } }.answered (.verdict v)

def dropStream (s : Pipeline α β) : Pipeline α β :=
  { s with
    results := .empty
    discarded := (s.results.toList.map (·.item)).reverse ++ s.discarded
    feed := s.feed.stopListening
    stream := { s.stream with phase := .gone, answer := some .dropped } }

def streamStep (job : Job α β) (s : Pipeline α β) (m : Move) : Option (Pipeline α β) :=
  match s.stream.phase, m with
  | .selecting, .message => s.selectMessage
  | .selecting, .signal => if s.signal.woken then some (s.answered .ended) else none
  | .recording r q, .go =>
    some ({ s with signal := s.signal.record r }.setStream (.waking (!s.signal.isTripped) q))
  | .waking first q, .go => some ({ s with signal := s.signal.wake }.afterTrip first q)
  | .looking, .go => some (s.setStream s.lookUp)
  | .polling, .go => some s.takeReport
  | .awaiting, .go =>
    if s.feed.mailbox.isSome || !s.feed.statusOpen then some s.takeReport else none
  | .resolving, .go => some (resolve job s)
  | .closing, .go => some s.dropStream
  | _, _ => none

def advance (job : Job α β) (s : Pipeline α β) : Event → Option (Pipeline α β)
  | .source m => sourceStep job s m
  | .worker i m => workerStep job s i m
  | .closer => s.closerStep
  | .watchdog m => s.watchdogStep m
  | .deadline => deadlineStep job s
  | .callerRecord r => s.callerRecord r
  | .callerWake => s.callerWake
  | .callerLeave => s.callerLeave
  | .request q => s.requestStep q
  | .stream m => streamStep job s m

inductive Reaches (job : Job α β) (s : Pipeline α β) : Pipeline α β → Prop where
  | here : Reaches job s s
  | step {t u : Pipeline α β} (e : Event) :
      Reaches job s t → advance job t e = some u → Reaches job s u

def pool (workers : Nat) (feed : Feed α) : Pipeline α β :=
  { feed := { feed with receivers := workers }
    workers := Array.replicate workers .receiving
    outstanding := workers }

def start (tuning : Tuning) (caller : Option Signal) : Pipeline α β :=
  { pool tuning.workers { receivers := tuning.workers } with
    watchdog := if caller.isSome || tuning.timeout.isSome then some .watching else none
    caller }

def job (tuning : Tuning) (source : Enumerator α) (transform : α → Attempt β) : Job α β :=
  ⟨source, transform, some tuning.capacity, some tuning.capacity, tuning.timeout⟩

-- A caller's signal that is tripped already keeps the run from starting.
def start? (options : RunOptions) (caller : Option Signal) :
    Except PipelineError (Tuning × Pipeline α β) := do
  let tuning ← Tuning.ofOptions options
  if caller.any (·.isTripped) then .error .cancelled else .ok (tuning, start tuning caller)

end TreeDigest.Pipeline
