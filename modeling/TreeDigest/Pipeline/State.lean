import TreeDigest.Cancel.Tokens
import TreeDigest.Options
import TreeDigest.Pipeline.Error
import TreeDigest.Pipeline.Feed
namespace TreeDigest

-- What a run works with once its options are resolved. The capacity holds for items and for outcomes.
structure Tuning where
  workers : Nat
  capacity : Nat
  timeout : Option Duration
  deriving DecidableEq, Repr

namespace Tuning

def statusCapacity : Nat := 1

def ofOptions (o : RunOptions) : Except PipelineError Tuning :=
  if o.workers = 0 then .error .invalidWorkerCount
  else .ok ⟨o.workers, o.capacity.getD o.workers, o.timeout⟩

end Tuning
structure Job (α β : Type) where
  source : Enumerator α
  transform : α → Attempt β
  itemCapacity : Option Nat
  resultCapacity : Option Nat
  timeout : Option Duration := none

-- Where a worker stands. One that panicked trips the signal before it counts as gone.
inductive WorkerPhase (α β : Type) where
  | receiving
  | holding (x : α)
  | transforming (x : α)
  | delivering (o : Outcome α β)
  | leaving (panicked : Bool)
  | recording
  | waking
  | counting (panicked : Bool)
  | exited (panicked : Bool)

inductive CloserPhase where
  | waiting
  | closing
  | done
  deriving DecidableEq, Repr

inductive Request where
  | next
  | finish
  | trip (reason : CancelReason)
  | drop
  deriving DecidableEq, Repr

inductive StreamPhase where
  | idle
  | selecting
  | recording (reason : CancelReason) (request : Request)
  | waking (first : Bool) (request : Request)
  | looking
  | polling
  | awaiting
  | resolving
  | closing
  | gone
  deriving DecidableEq, Repr

inductive Answer (α β : Type) where
  | outcome (o : Outcome α β)
  | ended
  | tripped (first : Bool)
  | verdict (v : Except PipelineError Nat)
  | dropped

-- The receiving side. The answer to a request stays until the next request. `received` and `verdicts`
-- are history, the newest first.
structure Stream (α β : Type) where
  phase : StreamPhase := .idle
  answer : Option (Answer α β) := none
  drained : Bool := false
  ended : Option SourceEnd := none
  received : List (Outcome α β) := []
  verdicts : List (Except PipelineError Nat) := []

-- All parties of one run. The caller's signal is there only if the run was given one; `callerKept`
-- tells whether somebody can still trip it. `started` and `discarded` are history, the newest first.
structure Pipeline (α β : Type) where
  feed : Feed α
  workers : Array (WorkerPhase α β)
  results : Queue (Outcome α β) := .empty
  outstanding : Nat
  closer : CloserPhase := .waiting
  watchdog : Option WatchPhase := none
  signal : Signal := {}
  caller : Option Signal := none
  callerKept : Bool := true
  expired : Bool := false
  stream : Stream α β := {}
  started : List α := []
  discarded : List α := []

namespace WorkerPhase

def held : WorkerPhase α β → Option α
  | .holding x | .transforming x => some x
  | .delivering o => some o.item
  | _ => none

def hasLetGo : WorkerPhase α β → Bool
  | .recording | .waking | .counting _ | .exited _ => true
  | _ => false

def hasExited : WorkerPhase α β → Bool
  | .exited _ => true
  | _ => false

end WorkerPhase
end TreeDigest
