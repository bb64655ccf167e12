import TreeDigest.Cancel.Signal
import TreeDigest.Duration
namespace TreeDigest

inductive TripCall where
  | called (reason : CancelReason)
  | recorded (first : Bool)
  | returned (first : Bool)
  deriving DecidableEq, Repr

inductive WatchPhase where
  | watching
  | recording (reason : CancelReason)
  | waking
  | exited
  deriving DecidableEq, Repr

structure Watchdog where
  internal : Nat
  external : Option Nat
  deadline : Option Nat
  phase : WatchPhase
  deriving DecidableEq, Repr

structure Tokens where
  signals : List Signal := []
  handles : List (Option Nat) := []
  calls : List (Nat × TripCall) := []
  watchdogs : List Watchdog := []
  clock : Nat := 0

namespace Tokens

inductive Event where
  | create
  | clone (handle : Nat)
  | drop (handle : Nat)
  | trip (handle : Nat) (reason : CancelReason)
  | proceed (call : Nat)
  | watch (internal : Nat) (external : Option Nat) (timeout : Option Duration)
  | leave (watchdog : Nat)
  | relay (watchdog : Nat)
  | expire (watchdog : Nat)
  | bark (watchdog : Nat)
  | tick
  deriving DecidableEq, Repr

def signalOf? (s : Tokens) (handle : Nat) : Option Nat := s.handles[handle]?.join

def signal (s : Tokens) (i : Nat) : Signal := s.signals.getD i {}

def modifySignal (s : Tokens) (i : Nat) (f : Signal → Signal) : Tokens :=
  { s with signals := s.signals.modify i f }

def setWatch (s : Tokens) (w : Nat) (phase : WatchPhase) : Tokens :=
  { s with watchdogs := s.watchdogs.modify w fun d => { d with phase } }

-- A signal lives as long as one handle does. A watchdog holds one on the signal it guards.
def isKept (s : Tokens) (i : Nat) : Bool :=
  s.handles.contains (some i) ||
    s.watchdogs.any fun d => d.internal == i && d.phase != .exited

-- Waiters are released by a wake-up, and also when nobody is left who could send one.
def isReady (s : Tokens) (i : Nat) : Bool := (s.signal i).woken || !s.isKept i

def isDue (s : Tokens) (deadline : Option Nat) : Bool :=
  match deadline with
  | some due => due ≤ s.clock
  | none => false

def proceedCall (s : Tokens) (c i : Nat) : TripCall → Option Tokens
  | .called r =>
    some { s.modifySignal i (·.record r) with
      calls := s.calls.set c (i, .recorded (!(s.signal i).isTripped)) }
  | .recorded first =>
    some { s.modifySignal i (·.wake) with calls := s.calls.set c (i, .returned first) }
  | .returned _ => none

def barkStep (s : Tokens) (w : Nat) (d : Watchdog) : Option Tokens :=
  match d.phase with
  | .recording r => some ((s.modifySignal d.internal (·.record r)).setWatch w .waking)
  | .waking => some ((s.modifySignal d.internal (·.wake)).setWatch w .exited)
  | _ => none

def watchStep (s : Tokens) (internal : Nat) (external : Option Nat)
    (timeout : Option Duration) : Option Tokens := do
  let i ← s.signalOf? internal
  let e ← match external with
    | some handle => (s.signalOf? handle).map some
    | none => some none
  if e.isNone && timeout.isNone then none
  else
    let deadline := timeout.map fun t => s.clock + t.nanoseconds
    some { s with watchdogs := s.watchdogs ++ [⟨i, e, deadline, .watching⟩] }

def advance (s : Tokens) : Event → Option Tokens
  | .create =>
    some { s with signals := s.signals ++ [{}], handles := s.handles ++ [some s.signals.length] }
  | .clone h => (s.signalOf? h).map fun i => { s with handles := s.handles ++ [some i] }
  | .drop h => (s.signalOf? h).map fun _ => { s with handles := s.handles.set h none }
  | .trip h r => (s.signalOf? h).map fun i => { s with calls := s.calls ++ [(i, .called r)] }
  | .proceed c => s.calls[c]?.bind fun call => s.proceedCall c call.1 call.2
  | .watch internal external timeout => s.watchStep internal external timeout
  | .leave w => do
    let d ← s.watchdogs[w]?
    if d.phase = .watching && s.isReady d.internal then some (s.setWatch w .exited) else none
  | .relay w => do
    let d ← s.watchdogs[w]?
    let e ← d.external
    if d.phase = .watching && s.isReady e then some (s.setWatch w (.recording .requested)) else none
  | .expire w => do
    let d ← s.watchdogs[w]?
    if d.phase = .watching && s.isDue d.deadline then some (s.setWatch w (.recording .timedOut))
    else none
  | .bark w => s.watchdogs[w]?.bind (s.barkStep w)
  | .tick => some { s with clock := s.clock + 1 }

inductive Reaches (s : Tokens) : Tokens → Prop where
  | here : Reaches s s
  | step {t u : Tokens} (e : Event) : Reaches s t → advance t e = some u → Reaches s u

end Tokens
end TreeDigest
