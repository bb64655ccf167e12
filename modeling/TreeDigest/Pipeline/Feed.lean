import TreeDigest.Cancel.Signal
import TreeDigest.Pipeline.Error
import TreeDigest.Pipeline.Source
import TreeDigest.Queue
namespace TreeDigest

inductive Move where
  | go
  | message
  | signal
  deriving DecidableEq, Repr

inductive FeedPhase (α : Type) where
  | starting
  | asking
  | asked (answer : Pull α)
  | offering (x : α)
  | reporting (ended : SourceEnd)
  | recording
  | waking
  | closing
  | exited

-- The source, the channel it fills, and the channel on which it says how it ended. The channels close
-- when the source lets go of them. `emitted`, `lost` and `reports` are history, the newest first: what
-- was placed, what was still queued when the last receiver left, and what was reported.
structure Feed (α : Type) where
  phase : FeedPhase α := .starting
  asked : Nat := 0
  panicked : Bool := false
  itemsOpen : Bool := true
  statusOpen : Bool := true
  receivers : Nat
  queue : Queue α := .empty
  heard : Bool := true
  mailbox : Option SourceEnd := none
  emitted : List α := []
  lost : List α := []
  reports : List SourceEnd := []

namespace Feed

def panicMessage : String := "source panicked"

def count (f : Feed α) : Nat := f.emitted.length

def place (f : Feed α) (x : α) : Feed α := { f with phase := .asking, emitted := x :: f.emitted }

-- An end or a panic is taken as it comes. Items and errors count only while the signal is untouched.
def judge (f : Feed α) (s : Signal) : Pull α → Feed α
  | .panic => { f with panicked := true, phase := .reporting (.failed panicMessage) }
  | .finished => { f with phase := .reporting (.completed f.count) }
  | .item x => { f with phase := if s.isTripped then .reporting (.cancelled f.count) else .offering x }
  | .error m =>
    { f with phase := .reporting (if s.isTripped then .cancelled f.count else .failed m) }

def report (f : Feed α) (ended : SourceEnd) : Feed α :=
  { f with
    reports := ended :: f.reports
    mailbox := if f.heard then some ended else none
    phase := match ended with
      | .failed _ => .recording
      | _ => .closing }

def closeItems (f : Feed α) : Feed α :=
  { f with itemsOpen := false, phase := if f.statusOpen then .closing else .exited }

def closeStatus (f : Feed α) : Feed α :=
  { f with statusOpen := false, phase := if f.itemsOpen then .closing else .exited }

def hasRoom (capacity : Option Nat) (queue : Queue α) : Bool :=
  match capacity with
  | some n => queue.size < n
  | none => true

def advance (source : Enumerator α) (capacity : Option Nat) (f : Feed α) (s : Signal) :
    Move → Option (Feed α × Signal)
  | .go =>
    match f.phase with
    | .starting =>
      if source.starts then some ({ f with phase := .asking }, s)
      else some ({ f with panicked := true, phase := .closing }, s)
    | .asking => some ({ f with phase := .asked (source.pull f.asked), asked := f.asked + 1 }, s)
    | .asked answer => some (f.judge s answer, s)
    | .offering _ => none
    | .reporting ended => some (f.report ended, s)
    | .recording => some ({ f with phase := .waking }, s.record .failed)
    | .waking => some ({ f with phase := .closing }, s.wake)
    | .closing => if f.itemsOpen then some (f.closeItems, s) else none
    | .exited => none
  | .message =>
    match f.phase with
    | .offering x =>
      if f.receivers = 0 then some ({ f with phase := .reporting (.cancelled f.count) }, s)
      else if hasRoom capacity f.queue then some ({ f.place x with queue := f.queue.push x }, s)
      else none
    | .closing => if f.statusOpen then some (f.closeStatus, s) else none
    | _ => none
  | .signal =>
    match f.phase with
    | .offering _ =>
      if s.woken then some ({ f with phase := .reporting (.cancelled f.count) }, s) else none
    | _ => none

-- A receiver takes the oldest item. Without any capacity it takes it from the source's hand.
def take? (capacity : Option Nat) (f : Feed α) : Option (α × Feed α) :=
  match f.queue.pop? with
  | some (x, rest) => some (x, { f with queue := rest })
  | none =>
    match capacity, f.phase with
    | some 0, .offering x => some (x, f.place x)
    | _, _ => none

def isClosed (f : Feed α) : Bool := f.queue.isEmpty && !f.itemsOpen

def hangUp (f : Feed α) : Feed α :=
  if f.receivers ≤ 1 then { f with receivers := 0, queue := .empty, lost := f.queue.toList.reverse ++ f.lost }
  else { f with receivers := f.receivers - 1 }

def stopListening (f : Feed α) : Feed α := { f with heard := false, mailbox := none }

inductive Event where
  | source (m : Move)
  | take
  | hangUp
  | stopListening
  | record (reason : CancelReason)
  | wake
  deriving DecidableEq, Repr

def respond (source : Enumerator α) (capacity : Option Nat) (f : Feed α) (s : Signal) :
    Event → Option (Feed α × Signal)
  | .source m => f.advance source capacity s m
  | .take => if f.receivers = 0 then none else (f.take? capacity).map fun t => (t.2, s)
  | .hangUp => if f.receivers = 0 then none else some (f.hangUp, s)
  | .stopListening => some (f.stopListening, s)
  | .record r => if s.isTripped then none else some (f, s.record r)
  | .wake => if s.isTripped && !s.woken then some (f, s.wake) else none

inductive Reaches (source : Enumerator α) (capacity : Option Nat) (f : Feed α) (s : Signal) :
    Feed α → Signal → Prop where
  | here : Reaches source capacity f s f s
  | step {g h : Feed α} {t u : Signal} (e : Event) : Reaches source capacity f s g t →
      respond source capacity g t e = some (h, u) → Reaches source capacity f s h u

end Feed
end TreeDigest
