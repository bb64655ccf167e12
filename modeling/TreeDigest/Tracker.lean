import TreeDigest.Cancel.Signal
namespace TreeDigest

inductive Party where
  | completion (n : Nat)
  | reader (n : Nat)
  | waiter (n : Nat)
  deriving DecidableEq, Repr

-- How far one completion has come. A guard is held until its worker leaves; one that leaves by a
-- panic trips the signal before it counts.
inductive Completion where
  | held
  | recording
  | waking
  | arriving
  | counting
  | notifying
  | releasing
  | done
  deriving DecidableEq, Repr

namespace Completion

def begun (panicking : Bool) : Completion := if panicking then .recording else .arriving

def after (left : Nat) : Completion := if left = 0 then .notifying else .releasing

end Completion

inductive Reader where
  | arriving
  | looking
  | told (count : Nat)
  deriving DecidableEq, Repr

-- How far one waiter has come. It looks at the count under the lock, and still holds the lock when it
-- makes up its mind. It goes to sleep in the same step in which it lets go of the lock, and has to
-- take the lock again once it is awake.
inductive Waiter where
  | arriving
  | looking
  | settling
  | asleep
  | leaving
  | returned
  deriving DecidableEq, Repr

def Waiter.after (count : Nat) : Waiter := if count = 0 then .leaving else .settling

structure Tracker where
  outstanding : Nat
  signal : Signal := {}
  holder : Option Party := none
  completions : List Completion := []
  readers : List Reader := []
  waiters : List Waiter := []

namespace Tracker

def start (expected : Nat) : Tracker := { outstanding := expected }

inductive Event where
  | guard
  | leave (guard : Nat) (panicking : Bool)
  | count
  | complete (completion : Nat)
  | ask
  | read (reader : Nat)
  | wait
  | await (waiter : Nat)
  | stir (waiter : Nat)
  | record (reason : CancelReason)
  | wake
  deriving DecidableEq, Repr

def setCompletion (s : Tracker) (n : Nat) (c : Completion) : Tracker :=
  { s with completions := s.completions.set n c }

def setReader (s : Tracker) (n : Nat) (r : Reader) : Tracker :=
  { s with readers := s.readers.set n r }

def setWaiter (s : Tracker) (n : Nat) (w : Waiter) : Tracker :=
  { s with waiters := s.waiters.set n w }

def rouse : Waiter → Waiter
  | .asleep => .arriving
  | w => w

def completeStep (s : Tracker) (n : Nat) : Completion → Option Tracker
  | .held | .done => none
  | .recording => some ({ s with signal := s.signal.record .workerPanicked }.setCompletion n .waking)
  | .waking => some ({ s with signal := s.signal.wake }.setCompletion n .arriving)
  | .arriving =>
    if s.holder = none then
      some ({ s with holder := some (.completion n) }.setCompletion n .counting)
    else none
  | .counting =>
    let left := s.outstanding - 1
    some ({ s with outstanding := left }.setCompletion n (.after left))
  | .notifying => some ({ s with waiters := s.waiters.map rouse }.setCompletion n .releasing)
  | .releasing => some ({ s with holder := none }.setCompletion n .done)

def readStep (s : Tracker) (n : Nat) : Reader → Option Tracker
  | .told _ => none
  | .arriving =>
    if s.holder = none then some ({ s with holder := some (.reader n) }.setReader n .looking)
    else none
  | .looking => some ({ s with holder := none }.setReader n (.told s.outstanding))

def waitStep (s : Tracker) (n : Nat) : Waiter → Option Tracker
  | .asleep | .returned => none
  | .arriving =>
    if s.holder = none then some ({ s with holder := some (.waiter n) }.setWaiter n .looking)
    else none
  | .looking => some (s.setWaiter n (.after s.outstanding))
  | .settling => some ({ s with holder := none }.setWaiter n .asleep)
  | .leaving => some ({ s with holder := none }.setWaiter n .returned)

-- Sleepers are woken all at once; one may also wake up without having been woken.
def advance (s : Tracker) : Event → Option Tracker
  | .guard => some { s with completions := s.completions ++ [.held] }
  | .leave g panicking =>
    if s.completions[g]? = some .held then some (s.setCompletion g (.begun panicking)) else none
  | .count => some { s with completions := s.completions ++ [.arriving] }
  | .complete n => s.completions[n]?.bind (s.completeStep n)
  | .ask => some { s with readers := s.readers ++ [.arriving] }
  | .read n => s.readers[n]?.bind (s.readStep n)
  | .wait => some { s with waiters := s.waiters ++ [.arriving] }
  | .await n => s.waiters[n]?.bind (s.waitStep n)
  | .stir n => if s.waiters[n]? = some .asleep then some (s.setWaiter n .arriving) else none
  | .record r => some { s with signal := s.signal.record r }
  | .wake => if s.signal.isTripped then some { s with signal := s.signal.wake } else none

def perform (s : Tracker) (e : Event) : Tracker := (s.advance e).getD s

def completeAll (s : Tracker) (n : Nat) : Tracker :=
  (List.replicate 6 (Event.complete n)).foldl perform s

def awaitAll (s : Tracker) (n : Nat) : Tracker :=
  (List.replicate 3 (Event.await n)).foldl perform s

def doneOne (s : Tracker) : Tracker := (s.perform .count).completeAll s.completions.length

def dropGuard (s : Tracker) (g : Nat) (panicking : Bool) : Tracker :=
  (s.perform (.leave g panicking)).completeAll g

def dropGuards (s : Tracker) : Tracker :=
  (List.range s.completions.length).foldl
    (fun s g => if s.completions[g]? = some .held then s.dropGuard g false else s) s

def waitThrough (s : Tracker) : Bool × Tracker :=
  let w := s.waiters.length
  let s := ((s.perform .wait).awaitAll w).dropGuards
  let s := (List.range s.outstanding).foldl (fun s _ => s.doneOne) s
  let s := s.awaitAll w
  (s.waiters[w]? == some .returned, s)

def trip (s : Tracker) (r : CancelReason) : Bool × Tracker :=
  (!s.signal.isTripped, (s.perform (.record r)).perform .wake)

end Tracker
end TreeDigest
