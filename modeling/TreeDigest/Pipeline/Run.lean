import TreeDigest.Pipeline.Steps
namespace TreeDigest

inductive Policy where
  | failFast
  | keepGoing
  deriving DecidableEq, Repr

-- The values and the failures by item, the newest first. An item that comes twice is there twice, and
-- the later value counts.
structure Collected (α β : Type) where
  values : List (α × β) := []
  failures : List (α × String) := []

namespace Collected

def add (c : Collected α β) (o : Outcome α β) : Collected α β :=
  match o.result with
  | .ok v => { c with values := (o.item, v) :: c.values }
  | .error m => { c with failures := (o.item, m) :: c.failures }

def get? [BEq α] (c : Collected α β) (x : α) : Option β := c.values.lookup x

def replaceNext (cmp : α → α → Ordering) (e : α × β) : List (α × β) → List (α × β)
  | next :: rest => if cmp e.1 next.1 = .eq then e :: rest else e :: next :: rest
  | [] => [e]

def toMap (cmp : α → α → Ordering) (c : Collected α β) : List (α × β) :=
  (c.values.mergeSort fun a b => (cmp a.1 b.1).isLE).foldr (replaceNext cmp) []

end Collected

inductive RunResult (α β : Type) where
  | ok (collected : Collected α β)
  | error (e : PipelineError)
  | panicked

-- Who called: what failures mean, how an item is shown in an error, and which outcomes the callback
-- cannot take.
structure Client (α β : Type) where
  policy : Policy
  shown : α → String
  callbackPanics : Outcome α β → Bool := fun _ => false

inductive ClientPhase (α β : Type) where
  | pulling
  | waiting
  | seeing (o : Outcome α β)
  | failing (x : α) (message : String)
  | finishing
  | dropping (r : RunResult α β)
  | returned (r : RunResult α β)

structure Run (α β : Type) where
  pipeline : Pipeline α β
  phase : ClientPhase α β := .pulling
  collected : Collected α β := {}
  seen : List (Outcome α β) := []

namespace Run

inductive Event where
  | thread (e : Pipeline.Event)
  | client (m : Move)
  deriving DecidableEq, Repr

-- The stream belongs to the call, and the call keeps its caller's signal alive.
def isFree (s : Run α β) : Pipeline.Event → Bool
  | .request _ | .stream _ => false
  | .callerLeave =>
    match s.phase with
    | .returned _ => true
    | _ => false
  | _ => true

def ask (s : Run α β) (q : Request) (phase : ClientPhase α β) : Option (Run α β) :=
  (s.pipeline.requestStep q).map fun pipeline => { s with pipeline, phase }

def stream (job : Job α β) (s : Run α β) (m : Move) : Option (Run α β) :=
  (Pipeline.streamStep job s.pipeline m).map fun pipeline => { s with pipeline }

def see (client : Client α β) (s : Run α β) (o : Outcome α β) : Option (Run α β) :=
  let s := { s with seen := o :: s.seen }
  if client.callbackPanics o then s.ask .drop (.dropping .panicked)
  else
    match client.policy, o.result with
    | .failFast, .error m => s.ask (.trip .failed) (.failing o.item m)
    | _, _ => some { s with collected := s.collected.add o, phase := .pulling }

def conclude (s : Run α β) : Except PipelineError Nat → RunResult α β
  | .ok _ => .ok s.collected
  | .error e => .error e

def clientStep (job : Job α β) (client : Client α β) (s : Run α β) (m : Move) :
    Option (Run α β) :=
  match s.phase, s.pipeline.stream.answer with
  | .pulling, _ => if m = .go then s.ask .next .waiting else none
  | .waiting, some (.outcome o) => if m = .go then some { s with phase := .seeing o } else none
  | .waiting, some _ => if m = .go then s.ask .finish .finishing else none
  | .waiting, none => stream job s m
  | .seeing o, _ => if m = .go then see client s o else none
  | .failing x message, some _ =>
    if m = .go then s.ask .drop (.dropping (.error (.transform (client.shown x) message))) else none
  | .failing _ _, none => stream job s m
  | .finishing, some (.verdict v) =>
    if m = .go then s.ask .drop (.dropping (s.conclude v)) else none
  | .finishing, _ => stream job s m
  | .dropping r, some _ => if m = .go then some { s with phase := .returned r } else none
  | .dropping _, none => stream job s m
  | .returned _, _ => none

def advance (job : Job α β) (client : Client α β) (s : Run α β) : Event → Option (Run α β)
  | .thread e =>
    if s.isFree e then
      (Pipeline.advance job s.pipeline e).map fun pipeline => { s with pipeline }
    else none
  | .client m => clientStep job client s m

inductive Reaches (job : Job α β) (client : Client α β) (s : Run α β) : Run α β → Prop where
  | here : Reaches job client s s
  | step {t u : Run α β} (e : Event) :
      Reaches job client s t → advance job client t e = some u → Reaches job client s u

def result? (s : Run α β) : Option (RunResult α β) :=
  match s.phase with
  | .returned r => some r
  | _ => none

def start (pipeline : Pipeline α β) : Run α β := { pipeline }

def sequential (policy : Policy) (shown : α → String) (c : Collected α β) :
    List (Outcome α β) → RunResult α β
  | [] => .ok c
  | o :: rest =>
    match policy, o.result with
    | .failFast, .error m => .error (.transform (shown o.item) m)
    | _, _ => sequential policy shown (c.add o) rest

end Run
end TreeDigest
