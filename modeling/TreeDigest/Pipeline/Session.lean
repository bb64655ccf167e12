import TreeDigest.Pipeline.Schedule
namespace TreeDigest

-- A stream in use: requests are made one after another, and the threads run while one is answered.
-- The time until the deadline is shared by all of them.
structure Session (α β : Type) where
  job : Job α β
  trips : α → Bool
  pipeline : Pipeline α β
  patience : Nat

namespace Session

def start (job : Job α β) (trips : α → Bool) (pipeline : Pipeline α β) : Session α β :=
  ⟨job, trips, pipeline, Schedule.patience pipeline.workers.size job.timeout⟩

def await (s : Session α β) (stop : Pipeline α β → Bool) : Option (Session α β) :=
  (Schedule.await s.job s.trips stop s.patience s.pipeline).map fun r =>
    { s with pipeline := r.1, patience := r.2 }

def ask (s : Session α β) (q : Request) : Option (Answer α β × Session α β) := do
  let pipeline ← s.pipeline.requestStep q
  let s ← { s with pipeline }.await (·.stream.answer.isSome)
  let a ← s.pipeline.stream.answer
  return (a, s)

def next (s : Session α β) : Option (Option (Outcome α β) × Session α β) := do
  match ← s.ask .next with
  | (.outcome o, s) => return (some o, s)
  | (_, s) => return (none, s)

def takeAfter (taken : List (Outcome α β)) :
    Nat → Session α β → Option (List (Outcome α β) × Session α β)
  | 0, s => some (taken.reverse, s)
  | n + 1, s =>
    match s.next with
    | some (some o, s) => takeAfter (o :: taken) n s
    | some (none, s) => some (taken.reverse, s)
    | none => none

def take (n : Nat) (s : Session α β) : Option (List (Outcome α β) × Session α β) := takeAfter [] n s

def finish (s : Session α β) : Option (Except PipelineError Nat × Session α β) := do
  match ← s.ask .finish with
  | (.verdict v, s) => return (v, s)
  | _ => none

def trip (s : Session α β) (r : CancelReason) : Bool × Session α β :=
  match s.ask (.trip r) with
  | some (.tripped first, s) => (first, s)
  | _ => (false, s)

def drop (s : Session α β) : Option (Session α β) := (s.ask .drop).map (·.2)

def reason? (s : Session α β) : Option CancelReason := s.pipeline.signal.reason

def awaitCancel (s : Session α β) : Option (Session α β) := s.await (·.signal.woken)

def cancelCaller (s : Session α β) : Session α β :=
  let perform (p : Pipeline α β) (e : Pipeline.Event) := (Pipeline.advance s.job p e).getD p
  { s with pipeline := perform (perform s.pipeline (.callerRecord .requested)) .callerWake }

def hasTripped (s : Session α β) : Bool := s.pipeline.started.any s.trips

end Session
end TreeDigest
