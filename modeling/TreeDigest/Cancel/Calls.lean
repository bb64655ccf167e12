import TreeDigest.Cancel.Tokens
namespace TreeDigest.Tokens

def perform (s : Tokens) (e : Event) : Tokens := (s.advance e).getD s

def performAll (s : Tokens) (events : List Event) : Tokens := events.foldl perform s

def watchEvents (w : Nat) : List Event := [.leave w, .relay w, .expire w, .bark w]

def stepWatchdog (s : Tokens) (w : Nat) : Tokens :=
  ((watchEvents w).findSome? s.advance).getD s

-- One round gives every watchdog one step. None takes more than three, and each of them may have to
-- wait for another one first.
def settle (s : Tokens) : Tokens :=
  (List.range (3 * s.watchdogs.length)).foldl
    (fun s _ => (List.range s.watchdogs.length).foldl stepWatchdog s) s

-- Several calls at once: each takes its first step before any of them takes its second.
def tripTogether (s : Tokens) (handle count : Nat) (r : CancelReason) : List Bool × Tokens :=
  let first := s.calls.length
  let calls := (List.range count).map (first + ·)
  let s := s.performAll (List.replicate count (.trip handle r))
  let s := (s.performAll (calls.map .proceed)).performAll (calls.map .proceed)
  let won := calls.map fun c =>
    match s.calls[c]? with
    | some (_, .returned b) => b
    | _ => false
  (won, s.settle)

def trip (s : Tokens) (handle : Nat) (r : CancelReason) : Bool × Tokens :=
  let (won, s) := s.tripTogether handle 1 r
  (won.contains true, s)

def reason? (s : Tokens) (handle : Nat) : Option CancelReason :=
  (s.signalOf? handle).bind fun i => (s.signal i).reason

def isTripped (s : Tokens) (handle : Nat) : Bool := (s.reason? handle).isSome

def isDone (s : Tokens) (handle : Nat) : Bool :=
  match s.signalOf? handle with
  | some i => s.isReady i
  | none => false

def nextDeadline? (s : Tokens) : Option Nat :=
  (s.watchdogs.filterMap fun d => if d.phase = .watching then d.deadline else none).min?

def setClock (s : Tokens) (due : Nat) : Tokens := { s with clock := max s.clock due }

def passTime (stop : Tokens → Bool) (limit : Option Nat) : Nat → Tokens → Tokens
  | 0, s => s
  | rounds + 1, s =>
    if stop s then s
    else
      match s.nextDeadline?, limit with
      | some due, some l =>
        if due ≤ l then passTime stop limit rounds (s.setClock due).settle else s.setClock l
      | some due, none => passTime stop limit rounds (s.setClock due).settle
      | none, some l => s.setClock l
      | none, none => s

def waitFor (s : Tokens) (stop : Tokens → Bool) (limit : Option Nat) : Tokens :=
  passTime stop limit (s.watchdogs.length + 1) s

def waitTimeout (s : Tokens) (handle : Nat) (timeout : Duration) : Bool × Tokens :=
  let s := s.waitFor (·.isDone handle) (some (s.clock + timeout.nanoseconds))
  (s.isDone handle, s)

def hasExited (w : Nat) (s : Tokens) : Bool :=
  match s.watchdogs[w]? with
  | some d => d.phase == .exited
  | none => true

def join? (s : Tokens) (w : Nat) : Option (Option CancelReason × Tokens) := do
  let d ← s.watchdogs[w]?
  let s := s.waitFor (hasExited w) none
  if hasExited w s then some ((s.signal d.internal).reason, s) else none

end TreeDigest.Tokens
