import TreeDigest.Pipeline.Run
namespace TreeDigest.Schedule

-- One fixed order of steps out of the many that are possible. In every round each party gets one
-- turn, and takes the first of its steps that can be taken.
def turn (step : σ → ε → Option σ) (moved : Bool × σ) (choices : List ε) : Bool × σ :=
  match choices.findSome? (step moved.2) with
  | some t => (true, t)
  | none => moved

def round (step : σ → ε → Option σ) (turns : List (List ε)) (s : σ) : Bool × σ :=
  turns.foldl (turn step) (false, s)

-- Time passes when nothing else can happen, or when patience is at its end. What is left of it is
-- returned. Some turns come up only in certain states, and come first. None if the state never comes to
-- a stop, or if the rounds do not suffice.
def drive (step : σ → ε → Option σ) (sudden : σ → List (List ε)) (turns : List (List ε))
    (time : List ε) (stop : σ → Bool) : Nat → Nat → σ → Option (σ × Nat)
  | 0, _, _ => none
  | rounds + 1, patience, s =>
    if stop s then some (s, patience)
    else
      let (moved, t) := round step (sudden s ++ turns) s
      if moved && patience ≠ 0 then drive step sudden turns time stop rounds (patience - 1) t
      else
        match time.findSome? (step t) with
        | some u => drive step sudden turns time stop rounds 0 u
        | none => if moved then drive step sudden turns time stop rounds 0 t else none

def rounds : Nat := 100000000

def roundsPerMillisecond : Nat := 3000

def greatestPatience (workers : Nat) : Nat := 20000000 / (workers + 32)

def farAway : Duration := .ofSeconds 10

def patience (workers : Nat) (timeout : Option Duration) : Nat :=
  match timeout with
  | some t =>
    if farAway.nanoseconds ≤ t.nanoseconds then rounds
    else min (t.nanoseconds * roundsPerMillisecond / 1000000) (greatestPatience workers)
  | none => 0

def sourceTurn : List Pipeline.Event := [.source .go, .source .message, .source .signal]

def workerTurn (i : Nat) : List Pipeline.Event :=
  [.worker i .message, .worker i .signal, .worker i .go]

def watchdogTurn : List Pipeline.Event := [.leave, .relay, .expire, .go].map .watchdog

def callerTurns (trips : α → Bool) (s : Pipeline α β) : List (List Pipeline.Event) :=
  let tripping := s.workers.any fun
    | .transforming x => trips x
    | _ => false
  if tripping then [[.callerRecord .requested], [.callerWake]] else []

def threadTurns (workers : Nat) : List (List Pipeline.Event) :=
  sourceTurn :: (List.range workers).map workerTurn ++ [[.closer], watchdogTurn]

def clientTurn : List Run.Event := [.client .go, .client .message, .client .signal]

def complete (job : Job α β) (client : Client α β) (trips : α → Bool) (s : Run α β) :
    Option (Run α β) :=
  (drive (Run.advance job client) (fun s => (callerTurns trips s.pipeline).map (·.map .thread))
    (clientTurn :: (threadTurns s.pipeline.workers.size).map (·.map .thread)) [.thread .deadline]
    (·.result?.isSome) rounds (patience s.pipeline.workers.size job.timeout) s).map (·.1)

def streamTurn : List Pipeline.Event := [.stream .go, .stream .message, .stream .signal]

def await (job : Job α β) (trips : α → Bool) (stop : Pipeline α β → Bool) (patience : Nat)
    (s : Pipeline α β) : Option (Pipeline α β × Nat) :=
  drive (Pipeline.advance job) (callerTurns trips) (streamTurn :: threadTurns s.workers.size)
    [.deadline] stop rounds patience s

def exhaustPool (job : Job α β) (trips : α → Bool) (s : Pipeline α β) : Option (Pipeline α β) :=
  (drive (Pipeline.advance job) (callerTurns trips) (threadTurns s.workers.size) []
    (fun s => s.workers.all (·.hasExited)) rounds 0 s).map (·.1)

def feedTrips (trips : Nat → Bool) (s : Feed α × Signal) : List (List Feed.Event) :=
  match s.1.phase with
  | .asking => if trips s.1.asked then [[.record .requested], [.wake]] else []
  | _ => []

def feedTurns : List (List Feed.Event) :=
  [[.source .go, .source .message, .source .signal], [.wake]]

def hasExited (s : Feed α × Signal) : Bool :=
  match s.1.phase with
  | .exited => true
  | _ => false

def exhaustSource (source : Enumerator α) (capacity : Option Nat) (trips : Nat → Bool)
    (tripAfter : Option Duration) (s : Feed α × Signal) : Option (Feed α × Signal) :=
  (drive (fun s e => Feed.respond source capacity s.1 s.2 e) (feedTrips trips) feedTurns
    (if tripAfter.isSome then [.record .requested] else []) hasExited rounds
    (patience 0 tripAfter) s).map (·.1)

end TreeDigest.Schedule
