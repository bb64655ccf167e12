import TreeDigest.Cancel.Signal
import TreeDigest.Duration
namespace TreeDigest

inductive Stage where
  | worker
  | closer
  | source
  | watchdog
  deriving DecidableEq, Repr

def Stage.name : Stage → String
  | .worker => "worker"
  | .closer => "closer"
  | .source => "source"
  | .watchdog => "watchdog"

inductive PipelineError where
  | enumeration (message : String)
  | transform (item message : String)
  | cancelled
  | timeout (after : Duration)
  | workerPanicked
  | invalidWorkerCount
  | spawn (stage : Stage) (cause : String)
  deriving DecidableEq, Repr

inductive ErrorKind where
  | enumeration
  | transform
  | cancelled
  | timeout
  | workerPanicked
  | invalidConfig
  | spawn
  deriving DecidableEq, Repr

def ErrorKind.isCancellation : ErrorKind → Bool
  | .cancelled | .timeout => true
  | _ => false

namespace PipelineError

def kind : PipelineError → ErrorKind
  | .enumeration _ => .enumeration
  | .transform _ _ => .transform
  | .cancelled => .cancelled
  | .timeout _ => .timeout
  | .workerPanicked => .workerPanicked
  | .invalidWorkerCount => .invalidConfig
  | .spawn _ _ => .spawn

def message : PipelineError → String
  | .enumeration m => "enumeration failed: " ++ m
  | .transform item m => "transform failed for " ++ item ++ ": " ++ m
  | .cancelled => "pipeline cancelled"
  | .timeout d => "pipeline timed out after " ++ d.text
  | .workerPanicked => "a worker panicked while processing an item"
  | .invalidWorkerCount => "worker count must be at least 1"
  | .spawn stage _ => "failed to spawn " ++ stage.name ++ " thread"

def cause? : PipelineError → Option String
  | .spawn _ cause => some cause
  | _ => none

def fullMessage (e : PipelineError) : String :=
  match e.cause? with
  | some cause => e.message ++ ": " ++ cause
  | none => e.message

def ofReason (r : CancelReason) (timeout : Option Duration) : PipelineError :=
  match r with
  | .timedOut => .timeout (timeout.getD ⟨0⟩)
  | .workerPanicked => .workerPanicked
  | .requested | .failed | .released => .cancelled

end PipelineError

inductive SourceEnd where
  | completed (count : Nat)
  | cancelled (count : Nat)
  | failed (message : String)
  deriving DecidableEq, Repr

-- The verdict on a run whose stream has stopped. A failed source wins over everything else; a count is
-- returned only if every emitted item came back and the stream was drained.
def finalStatus (ended : Option SourceEnd) (drained : Bool) (received : Nat)
    (reason : Option CancelReason) (timeout : Option Duration) : Except PipelineError Nat :=
  let stopped : Except PipelineError Nat :=
    .error ((reason.map (PipelineError.ofReason · timeout)).getD .cancelled)
  match ended with
  | some (.failed m) => .error (.enumeration m)
  | some (.completed n) => if drained && received == n then .ok n else stopped
  | some (.cancelled _) => stopped
  | none => stopped

end TreeDigest
